import Population.Yaml.Token.Block
import Population.Yaml.Token.Inline
import Population.Yaml.Token.Tag

/-!
A text may turn out to be a key only at the colon behind it, so tokens wait in a queue until that is settled; two more
than the next are always read ahead.
-/
namespace Population.Yaml

/-- A token that is a key if a colon follows in the same line. -/
structure PossibleKey where
  number : Nat
  required : Bool
  mark : Mark
  deriving DecidableEq, Repr

structure TokenStream where
  cursor : Cursor
  indents : List Nat
  key : Option PossibleKey
  /-- Those around each open pair of brackets, innermost first. -/
  outerKeys : List (Option PossibleKey)
  keyAllowed : Bool
  queue : List Token
  taken : Nat
  deriving DecidableEq, Repr

namespace TokenStream

def start (cs : List Char) : TokenStream :=
  ⟨⟨.start, cs⟩, [], none, [], true, [⟨.other, 0⟩], 0⟩

def mark (s : TokenStream) : Mark :=
  s.cursor.mark

def inBrackets (s : TokenStream) : Bool :=
  !s.outerKeys.isEmpty

def problem (s : TokenStream) (cause : Cause) : Problem :=
  ⟨cause, s.mark.line, s.mark.line⟩

def push (s : TokenStream) (l : Lexeme) : TokenStream :=
  { s with queue := s.queue ++ [⟨l, s.mark.line⟩] }

def pass (s : TokenStream) (l : Lexeme) (after : Cursor) : TokenStream :=
  { s.push l with cursor := after }

def insert (s : TokenStream) (number : Nat) (ts : List Token) : TokenStream :=
  let n := number - s.taken
  { s with queue := s.queue.take n ++ ts ++ s.queue.drop n }

def dropKey (s : TokenStream) : Except Problem TokenStream :=
  match s.key with
  | some k =>
    if k.required then .error ⟨.keyUnfinished, k.mark.line, s.mark.line⟩ else .ok { s with key := none }
  | none => .ok s

/-- Takes the next token for a possible key where one is allowed. -/
def saveKey (s : TokenStream) : Except Problem TokenStream :=
  if s.keyAllowed then do
    let required := !s.inBrackets && s.indents.head? = some s.mark.column
    let s ← s.dropKey
    return { s with key := some ⟨s.taken + s.queue.length, required, s.mark⟩ }
  else .ok s

/-- Whether a colon here makes a token a key: in the same line, at most 1024 characters behind. -/
def isOpen (s : TokenStream) (k : PossibleKey) : Except Problem Bool :=
  if k.mark.line < s.mark.line || k.mark.index + 1024 < s.mark.index then
    if k.required then .error ⟨.keyUnfinished, k.mark.line, s.mark.line⟩ else .ok false
  else .ok true

def deeper (s : TokenStream) (column : Nat) : Bool :=
  !s.inBrackets && s.indents.head?.all (· < column)

def openBlock (s : TokenStream) (l : Lexeme) : TokenStream :=
  if s.deeper s.mark.column then { s.push l with indents := s.mark.column :: s.indents } else s

def closeBlocks (s : TokenStream) (line : Nat) (deeper : Nat → Bool) : TokenStream :=
  if s.inBrackets then s
  else
    let closed := s.indents.takeWhile deeper
    { s with
      indents := s.indents.dropWhile deeper
      queue := s.queue ++ closed.map fun _ => ⟨.blockEnd, line⟩ }

/-- The number of characters that are searched for the next comment. -/
def commentReach : Nat := 512

def skipComments : (fuel : Nat) → Cursor → Cursor
  | 0, c => c
  | fuel + 1, c =>
    let c := c.skipWhile (!isBreak ·)
    match c.rest with
    | '\n' :: rest =>
      let gap := rest.takeWhile fun d => isBlank d || d == '\n'
      if gap.length + 1 < commentReach && (rest.drop gap.length).head? = some '#' then
        skipComments fuel (c.advance (gap.length + 1))
      else c
    | _ => c

/-- Goes to the next token. At the front of a line, where a key may begin, tabs are not passed over. -/
def approach : (fuel : Nat) → TokenStream → TokenStream
  | 0, s => s
  | fuel + 1, s =>
    let tabs := s.inBrackets || !s.keyAllowed
    let c := s.cursor.skipWhile fun d => d == ' ' || (tabs && d == '\t')
    let c := if c.rest.head? = some '#' then skipComments c.rest.length c else c
    if c.rest.head?.any isBreak then
      approach fuel { s with cursor := c.advance 1, keyAllowed := s.keyAllowed || !s.inBrackets }
    else { s with cursor := c }

def trail (s : TokenStream) : TokenStream :=
  let c := s.cursor.skipWhile isBlank
  if c.rest.head? = some '#' && c.mark.index < s.mark.index + commentReach then
    { s with cursor := c.skipWhile (!isBreak ·) }
  else s

/-- The end of the document. It may be read again and again. -/
def finish (s : TokenStream) : Except Problem TokenStream :=
  let m := s.mark
  let m : Mark := if m.column = 0 then m else ⟨m.index, m.line + 1, 0⟩
  let s := ({ s with cursor := ⟨m, []⟩ } : TokenStream).closeBlocks m.line fun _ => true
  s.dropKey.map fun s => { s with keyAllowed := false }.push .other

def entry (s : TokenStream) : Except Problem TokenStream :=
  if !s.inBrackets && !s.keyAllowed then .error (s.problem .entryMisplaced)
  else (s.openBlock .sequence).dropKey.map fun s => { s with keyAllowed := true }.pass .entry (s.cursor.advance 1)

def longKey (s : TokenStream) : Except Problem TokenStream :=
  if !s.inBrackets && !s.keyAllowed then .error (s.problem .keyMisplaced)
  else (s.openBlock .other).dropKey.map fun s =>
    { s with keyAllowed := !s.inBrackets }.pass .other (s.cursor.advance 1)

/-- The possible key becomes one, and a mapping begins with it if it is a new one. -/
def settleKey (s : TokenStream) (k : PossibleKey) : TokenStream :=
  let column := k.mark.column
  let t : Token := ⟨.other, k.mark.line⟩
  let s := if s.deeper column then { s.insert k.number [t, t] with indents := column :: s.indents }
    else s.insert k.number [t]
  { s with key := none, keyAllowed := false }

def longValue (s : TokenStream) : Except Problem TokenStream :=
  if !s.inBrackets && !s.keyAllowed then .error (s.problem .valueMisplaced)
  else .ok { s.openBlock .other with key := none, keyAllowed := !s.inBrackets }

def value (s : TokenStream) : Except Problem TokenStream := do
  let s ← match s.key with
    | some k => if ← s.isOpen k then .ok (s.settleKey k) else s.longValue
    | none => s.longValue
  return s.pass .other (s.cursor.advance 1)

def openBracket (s : TokenStream) : Except Problem TokenStream :=
  s.saveKey.map fun s =>
    { s with key := none, outerKeys := s.key :: s.outerKeys, keyAllowed := true }.pass .other (s.cursor.advance 1)

def closeBracket (s : TokenStream) : Except Problem TokenStream :=
  s.dropKey.map fun s =>
    let s := match s.outerKeys with
      | [] => s
      | k :: outer => { s with key := k, outerKeys := outer }
    { s with keyAllowed := false }.pass .other (s.cursor.advance 1)

def comma (s : TokenStream) : Except Problem TokenStream :=
  s.dropKey.map fun s => { s with keyAllowed := true }.pass .other (s.cursor.advance 1)

def name (s : TokenStream) : Except Problem TokenStream := do
  let s ← s.saveKey
  return { s with keyAllowed := false }.pass .other (← readName s.cursor)

def tag (s : TokenStream) : Except Problem TokenStream := do
  let s ← s.saveKey
  let (cs, after) ← readTag s.cursor
  return { s with keyAllowed := false }.pass (.tag cs) after

/-- A block scalar; one that is folded is no text of ours. -/
def block (s : TokenStream) (literal : Bool) : Except Problem TokenStream := do
  let s ← s.dropKey
  let (cs, after) ← readBlock s.indents.head? s.cursor
  return { s with keyAllowed := true }.pass (if literal then .scalar .literal cs else .other) after

/-- A scalar that may be a key. If a line ends behind it another one may follow. -/
def inline (s : TokenStream) (style : Style) (read : TokenStream → Except Problem Inline) :
    Except Problem TokenStream := do
  let s ← s.saveKey
  let scalar ← read s
  let s := { s with keyAllowed := scalar.broken }.pass (.scalar style scalar.chars) scalar.after
  return if scalar.broken then s else s.trail

def single (s : TokenStream) : Except Problem TokenStream :=
  s.inline .single fun s =>
    let c := s.cursor.advance 1
    singleFrom s.mark.line [] .none c.mark c.rest

def double (s : TokenStream) : Except Problem TokenStream :=
  s.inline .double fun s =>
    let c := s.cursor.advance 1
    doubleFrom s.mark.line (0, 0) [] .none c.mark c.rest

def bare (s : TokenStream) : Except Problem TokenStream :=
  s.inline .bare fun s =>
    bareFrom s.inBrackets (s.indents.head?.elim 0 (· + 1)) s.mark.line [] .none s.mark s.cursor.rest

def startsBare (s : TokenStream) (c : Char) (rest : List Char) : Bool :=
  if isGap c then false
  else if c == '-' then !rest.head?.any isBlank
  else if c == '?' || c == ':' then !s.inBrackets && !rest.head?.all isGap
  else !leadIndicators.contains c

def token (s : TokenStream) (c : Char) (rest : List Char) : Except Problem TokenStream :=
  let apart := rest.head?.all isGap
  if c == '[' || c == '\x7b' then s.openBracket.map trail
  else if c == ']' || c == '\x7d' then s.closeBracket.map trail
  else if c == ',' then s.comma.map trail
  else if c == '-' && apart then s.entry
  else if c == '?' && (s.inBrackets || apart) then s.longKey.map trail
  else if c == ':' && (s.inBrackets || apart) then s.value.map trail
  else if c == '*' || c == '&' then s.name.map trail
  else if c == '!' then s.tag.map trail
  else if (c == '|' || c == '>') && !s.inBrackets then s.block (c == '|')
  else if c == '\'' then s.single
  else if c == '"' then s.double
  else if s.startsBare c rest then s.bare
  else .error (s.problem .strayCharacter)

/-- Adds the next token to the queue, behind the ends of the collections that it is not part of. -/
def fetch (s : TokenStream) : Except Problem TokenStream :=
  let line := s.mark.line
  let s := s.approach (s.cursor.rest.length + 1)
  let s := s.closeBlocks line fun n => s.mark.column < n
  match s.cursor.rest with
  | [] => s.finish
  | c :: rest => s.token c rest

def headUnsettled (s : TokenStream) : Except Problem Bool :=
  match (s.key :: s.outerKeys).find? fun k => k.any (·.number = s.taken) with
  | some (some k) => s.isOpen k
  | _ => .ok false

def fill : (fuel : Nat) → TokenStream → Except Problem TokenStream
  | 0, s => .ok s
  | fuel + 1, s => do
    if s.queue.length < 3 then fill fuel (← s.fetch)
    else if ← s.headUnsettled then fill fuel (← s.fetch)
    else return s

/-- Takes the next token. Every token that is fetched has a character, apart from the ends. -/
def next (s : TokenStream) : Except Problem (Token × TokenStream) := do
  let s ← s.fill (s.cursor.rest.length + 4)
  match s.queue with
  | t :: rest => return (t, { s with queue := rest, taken := s.taken + 1 })
  | [] => return (⟨.other, s.mark.line⟩, s)

end TokenStream

end Population.Yaml

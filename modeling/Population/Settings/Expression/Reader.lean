import Population.Settings.Expression.Basic
import Population.Settings.Token

/-!
Between parentheses and brackets and in the sequences of templates the ends of lines do not count; between the braces
of an object they part its members.
-/
namespace Population.Settings

/-- Readers take tokens from the front, or fail. -/
abbrev Reader := StateT (List Token) Option

namespace Reader

/-- The next token. If lines do not count, their ends are passed over. -/
def look (lines : Bool) : Reader (Option Token) := do
  if !lines then modify (List.dropWhile (· == .newline))
  return (← get).head?

def advance : Reader Unit :=
  modify (List.drop 1)

def expect (lines : Bool) (token : Token) : Reader Unit := do
  if (← look lines) == some token then advance else failure

def takes (lines : Bool) (token : Token) : Reader Bool := do
  if (← look lines) == some token then
    advance
    return true
  else return false

def name (lines : Bool) : Reader Text := do
  match ← look lines with
  | some (.name t) =>
    advance
    return t
  | _ => failure

end Reader

/-- A part of a template: literal text, a value, or a mark of a directive. -/
inductive Part
  | literal (t : Text)
  | value (e : Expr)
  | ifMark (condition : Expr)
  | elseMark
  | endIfMark
  | forMark (key : Option Text) (entry : Text) (collection : Expr)
  | endForMark

namespace Part

def trimEnd : Part → Part
  | .literal t => .literal t.trimEnd
  | part => part

def text? : Part → Option Text
  | .literal t => some t
  | _ => none

def startsLine : Part → Bool
  | .literal t => t.getLast? = some 0x0a
  | _ => false

/-- The number of blanks at the start of a line; a line of blanks has no margin. -/
def margin? : Part → Option Nat
  | .literal t =>
    let rest := t.trimStart
    if rest.isEmpty && t.getLast? = some 0x0a then none
    else some (t.symbols.length - rest.symbols.length)
  | _ => some 0

def lineStarts (atStart : Bool) : List Part → List (Bool × Part)
  | [] => []
  | part :: rest => (atStart, part) :: lineStarts part.startsLine rest

/-- Takes the first characters of a literal part away, unless it is a line of blanks. -/
def dropMargin (n : Nat) (part : Part) : Part :=
  match part with
  | .literal t => if part.margin?.isSome then .literal (t.eachSymbol.drop n).flatten else part
  | part => part

def flush (parts : List Part) : List Part :=
  let marked := lineStarts true parts
  let margins := marked.filterMap fun (atStart, part) => if atStart then part.margin? else none
  let margin := margins.foldl min (margins.headD 0)
  marked.map fun (atStart, part) => if atStart then part.dropMargin margin else part

/-- The expressions of parts up to a mark that ends something, and the rest. -/
def gather : (steps : Nat) → List Part → Option (List Expr × List Part)
  | 0, _ => none
  | _ + 1, [] => some ([], [])
  | steps + 1, part :: rest => do
    let (e, rest) ← match part with
      | .literal t => pure (Expr.literal (.text t), rest)
      | .value e => pure (e, rest)
      | .ifMark condition =>
        let (yes, rest) ← gather steps rest
        let (no, rest) ← match rest with
          | .elseMark :: rest => gather steps rest
          | rest => pure ([], rest)
        match rest with
        | .endIfMark :: rest => pure (.conditional condition (.template yes) (.template no), rest)
        | _ => none
      | .forMark key entry collection =>
        let (content, rest) ← gather steps rest
        match rest with
        | .endForMark :: rest =>
          pure (.joined (.eachItem key entry collection (.template content) (.literal (.bool true))), rest)
        | _ => none
      | _ => return ([], part :: rest)
    let (more, rest) ← gather steps rest
    return (e :: more, rest)

/-- The expression of a template. One that is a single value has the datum of that, and one without values
is a text. -/
def toExpr? (parts : List Part) : Option Expr :=
  match parts with
  | [.value e] => some e
  | parts => match parts.mapM text? with
    | some texts => some (.literal (.text texts.flatten))
    | none => match gather (2 * parts.length + 1) parts with
      | some (es, []) => some (.template es)
      | _ => none

end Part

namespace Operator

/-- The operators of a level bind more loosely than those of the levels after it. -/
def levels : List (List (Sign × Operator)) :=
  [[(.or, .or)], [(.and, .and)], [(.equal, .equal), (.notEqual, .notEqual)],
    [(.less, .less), (.lessEqual, .lessEqual), (.greater, .greater), (.greaterEqual, .greaterEqual)],
    [(.plus, .add), (.minus, .subtract)],
    [(.star, .multiply), (.slash, .divide), (.percent, .modulo)]]

def ofToken? (level : List (Sign × Operator)) : Option Token → Option Operator
  | some (.sign s) => level.lookup s
  | _ => none

end Operator

namespace Expr

open Reader

def ofName (t : Text) : Expr :=
  if t = "true" then .literal (.bool true)
  else if t = "false" then .literal (.bool false)
  else if t = "null" then .literal (.null .any)
  else .variable t

/-- A whole number behind a point names an item. -/
def readPlace (t : Text) : Reader Expr :=
  if t.contains [0x2e] then failure
  else match Number.parse? t with
    | some n => return .literal (.number n)
    | none => failure

def readNames : Reader (Option Text × Text) := do
  let first ← Reader.name false
  if ← takes false (.sign .comma) then
    return (some first, ← Reader.name false)
  else return (none, first)

def readScopes (lines : Bool) : (steps : Nat) → Reader Unit
  | 0 => failure
  | steps + 1 => do
    if ← takes lines (.sign .doubleColon) then
      let _ ← Reader.name lines
      readScopes lines steps
    else expect lines (.sign .openParen)

def readShortSteps (lines : Bool) : (steps : Nat) → Expr → Reader Expr
  | 0, _ => failure
  | steps + 1, e => do
    if ← takes lines (.sign .dot) then
      match ← look lines with
      | some (.number t) =>
        advance
        readShortSteps lines steps (.element e (← readPlace t))
      | some (.name t) =>
        advance
        readShortSteps lines steps (.member e t)
      | _ => failure
    else return e

mutual

def read (lines : Bool) : (steps : Nat) → Reader Expr
  | 0 => failure
  | steps + 1 => do
    let e ← readLevels lines Operator.levels steps
    if ← takes lines (.sign .question) then
      let yes ← read lines steps
      expect lines (.sign .colon)
      let no ← read lines steps
      return .conditional e yes no
    else return e

def readLevels (lines : Bool) (levels : List (List (Sign × Operator))) : (steps : Nat) → Reader Expr
  | 0 => failure
  | steps + 1 => match levels with
    | [] => readOperand lines steps
    | level :: more => do
      let e ← readLevels lines more steps
      readChain lines level more steps e

def readChain (lines : Bool) (level : List (Sign × Operator)) (more : List (List (Sign × Operator))) :
    (steps : Nat) → Expr → Reader Expr
  | 0, _ => failure
  | steps + 1, left => do
    match Operator.ofToken? level (← look lines) with
    | none => return left
    | some op =>
      advance
      let right ← readLevels lines more steps
      readChain lines level more steps (.binary op left right)

def readOperand (lines : Bool) : (steps : Nat) → Reader Expr
  | 0 => failure
  | steps + 1 => do
    let e ← readTerm lines steps
    readSteps lines steps e

def readSteps (lines : Bool) : (steps : Nat) → Expr → Reader Expr
  | 0, _ => failure
  | steps + 1, e => do
    match ← look lines with
    | some (.sign .dot) =>
      advance
      match ← look lines with
      | some (.name t) =>
        advance
        readSteps lines steps (.member e t)
      | some (.number t) =>
        advance
        readSteps lines steps (.element e (← readPlace t))
      | some (.sign .star) =>
        advance
        let each ← readShortSteps lines steps .item
        readSteps lines steps (.splat e each)
      | _ => failure
    | some (.sign .openBracket) =>
      advance
      if ← takes lines (.sign .star) then
        expect lines (.sign .closeBracket)
        let each ← readSteps lines steps .item
        readSteps lines steps (.splat e each)
      else
        let key ← read false steps
        expect false (.sign .closeBracket)
        readSteps lines steps (.element e key)
    | _ => return e

def readTerm (lines : Bool) : (steps : Nat) → Reader Expr
  | 0 => failure
  | steps + 1 => do
    let token ← look lines
    advance
    match token with
    | some (.sign .openParen) =>
      let e ← read false steps
      expect false (.sign .closeParen)
      return e
    | some (.number t) => match Number.parse? t with
      | some n => return .literal (.number n)
      | none => failure
    | some (.name t) => match ← look lines with
      | some (.sign .openParen) => readCall lines steps
      | some (.sign .doubleColon) => readCall lines steps
      | _ => return ofName t
    | some .openQuote => readTemplate .closeQuote false steps
    | some (.openLines flush) => readTemplate .closeLines flush steps
    | some (.sign .minus) => return .negate (← readOperand lines steps)
    | some (.sign .bang) => return .not (← readOperand lines steps)
    | some (.sign .openBracket) =>
      if ← takes false (.name "for") then readEachItem steps
      else return .tuple (← readItems steps)
    | some (.sign .openBrace) =>
      if ← takes false (.name "for") then readEachMember steps
      else return .object (← readMembers steps)
    | _ => failure

def readCall (lines : Bool) : (steps : Nat) → Reader Expr
  | 0 => failure
  | steps + 1 => do
    readScopes lines steps
    readArguments steps
    return .unusable

/-- The arguments of a call up to its closing parenthesis; the last one may be expanded. -/
def readArguments : (steps : Nat) → Reader Unit
  | 0 => failure
  | steps + 1 => do
    if ← takes false (.sign .closeParen) then return ()
    let _ ← read false steps
    if ← takes false (.sign .closeParen) then return ()
    if ← takes false (.sign .ellipsis) then expect false (.sign .closeParen)
    else
      expect false (.sign .comma)
      readArguments steps

def readItems : (steps : Nat) → Reader (List Expr)
  | 0 => failure
  | steps + 1 => do
    if ← takes false (.sign .closeBracket) then return []
    let e ← read false steps
    if ← takes false (.sign .closeBracket) then return [e]
    expect false (.sign .comma)
    return e :: (← readItems steps)

/-- The members of an object up to its closing brace, with a comma or the end of a line between two. -/
def readMembers : (steps : Nat) → Reader (List (Expr × Expr))
  | 0 => failure
  | steps + 1 => do
    match ← look false with
    | some (.sign .closeBrace) =>
      advance
      return []
    | first =>
      let key ← read true steps
      let key := match first with
        | some (.name _) => key.asKey
        | _ => key
      unless ← takes true (.sign .assign) do expect true (.sign .colon)
      let value ← read true steps
      if ← takes true (.sign .closeBrace) then return [(key, value)]
      unless ← takes true (.sign .comma) do expect true .newline
      return (key, value) :: (← readMembers steps)

def readEachItem : (steps : Nat) → Reader Expr
  | 0 => failure
  | steps + 1 => do
    let (key, entry) ← readNames
    expect false (.name "in")
    let collection ← read false steps
    expect false (.sign .colon)
    let content ← read false steps
    let condition ← readCondition steps
    expect false (.sign .closeBracket)
    return .eachItem key entry collection content condition

def readEachMember : (steps : Nat) → Reader Expr
  | 0 => failure
  | steps + 1 => do
    let (key, entry) ← readNames
    expect false (.name "in")
    let collection ← read false steps
    expect false (.sign .colon)
    let name ← read false steps
    expect false (.sign .arrow)
    let content ← read false steps
    let grouped ← takes false (.sign .ellipsis)
    let condition ← readCondition steps
    expect false (.sign .closeBrace)
    return .eachMember key entry collection name content condition grouped

/-- The condition of an entry, which holds if there is none. -/
def readCondition : (steps : Nat) → Reader Expr
  | 0 => failure
  | steps + 1 => do
    if ← takes false (.name "if") then read false steps
    else return .literal (.bool true)

def readTemplate (close : Token) (flush : Bool) : (steps : Nat) → Reader Expr
  | 0 => failure
  | steps + 1 => do
    let parts ← readParts close steps [] false
    match Part.toExpr? (if flush then Part.flush parts.reverse else parts.reverse) with
    | some e => return e
    | none => failure

/-- The parts of a template up to its closing mark, last one first. With `trim`, the blanks at the start of
the next literal part are taken away. -/
def readParts (close : Token) : (steps : Nat) → (seen : List Part) → (trim : Bool) → Reader (List Part)
  | 0, _, _ => failure
  | steps + 1, seen, trim => do
    let token ← look true
    advance
    match token with
    | some (.literal t) => readParts close steps (.literal (if trim then t.trimStart else t) :: seen) false
    | some (.openValue before) =>
      let e ← read false steps
      let behind ← readClose
      readParts close steps (.value e :: trimmed before seen) behind
    | some (.openDirective before) =>
      let part ← readDirective steps
      let behind ← readClose
      readParts close steps (part :: trimmed before seen) behind
    | token => if token == some close then return seen else failure
where
  trimmed (before : Bool) : List Part → List Part
    | [] => []
    | part :: rest => if before then part.trimEnd :: rest else part :: rest
  readClose : Reader Bool := do
    match ← look false with
    | some (.closeSequence behind) =>
      advance
      return behind
    | _ => failure

/-- A directive without its marks. -/
def readDirective : (steps : Nat) → Reader Part
  | 0 => failure
  | steps + 1 => do
    let keyword ← Reader.name false
    if keyword = "if" then return .ifMark (← read false steps)
    else if keyword = "else" then return .elseMark
    else if keyword = "endif" then return .endIfMark
    else if keyword = "for" then
      let (key, entry) ← readNames
      expect false (.name "in")
      return .forMark key entry (← read false steps)
    else if keyword = "endfor" then return .endForMark
    else failure

end

/-- More steps than readers of so many tokens can take. -/
def enough (tokens : List Token) : Nat :=
  16 * (tokens.length + 1)

end Expr

end Population.Settings

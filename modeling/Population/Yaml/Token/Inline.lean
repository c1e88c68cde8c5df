import Population.Yaml.Token.Basic

namespace Population.Yaml

/-- What stands between two words: blanks, or breaks with the first one apart. All are kept last one first. -/
inductive Gap
  | blanks (cs : List Char)
  | breaks (first : Option Char) (more : List Char)
  deriving DecidableEq, Repr

namespace Gap

def none : Gap :=
  .blanks []

def isNone (g : Gap) : Bool :=
  g = none

def isBroken : Gap → Bool
  | .blanks _ => false
  | .breaks _ _ => true

/-- Adds a blank or a break. Blanks around breaks are dropped. -/
def push (c : Char) : Gap → Gap
  | .blanks cs => if isBreak c then .breaks (some (keptBreak c)) [] else .blanks (c :: cs)
  | .breaks first more => if isBreak c then .breaks first (keptBreak c :: more) else .breaks first more

def folded : Gap → List Char
  | .blanks cs => cs
  | .breaks (some '\n') [] => [' ']
  | .breaks (some '\n') more => more
  | .breaks (some c) more => more ++ [c]
  | .breaks Option.none more => more

end Gap

structure Inline where
  chars : List Char
  broken : Bool
  after : Cursor
  deriving DecidableEq, Repr

def flowIndicators : List Char :=
  [',', '?', '[', ']', '\x7b', '\x7d']

def endsBare (flow : Bool) (c : Char) (rest : List Char) : Bool :=
  (c == ':' && rest.head?.all isGap) || (flow && flowIndicators.contains c)

/-- Reads a bare scalar that began in line `start`, with the characters so far, last one first. Outside of
brackets its lines are indented by `indent` at least. -/
def bareFrom (flow : Bool) (indent start : Nat) (seen : List Char) (gap : Gap) (m : Mark) :
    List Char → Except Problem Inline
  | [] => .ok ⟨seen.reverse, gap.isBroken, ⟨m, []⟩⟩
  | c :: rest =>
    if isGap c then
      if c == '\t' && gap.isBroken && m.column < indent then .error ⟨.tabInBare, start, m.line⟩
      else bareFrom flow indent start seen (gap.push c) (m.past c) rest
    else if endsBare flow c rest || (!gap.isNone && (c == '#' || (!flow && m.column < indent))) then
      .ok ⟨seen.reverse, gap.isBroken, ⟨m, c :: rest⟩⟩
    else bareFrom flow indent start (c :: (gap.folded ++ seen)) .none (m.past c) rest

def unescape? : Char → Option Char
  | '0' => some '\x00'
  | 'a' => some '\x07'
  | 'b' => some '\x08'
  | 't' => some '\t'
  | '\t' => some '\t'
  | 'n' => some '\n'
  | 'v' => some '\x0b'
  | 'f' => some '\x0c'
  | 'r' => some '\r'
  | 'e' => some '\x1b'
  | ' ' => some ' '
  | '"' => some '"'
  | '\'' => some '\''
  | '\\' => some '\\'
  | 'N' => some '\u0085'
  | '_' => some '\u00a0'
  | 'L' => some '\u2028'
  | 'P' => some '\u2029'
  | _ => none

def codeLength? : Char → Option Nat
  | 'x' => some 2
  | 'u' => some 4
  | 'U' => some 8
  | _ => none

def isCharCode (n : Nat) : Bool :=
  n ≤ 0x10ffff && !(0xd800 ≤ n && n ≤ 0xdfff)

/-- Reads the rest of a text in double quotes. `code` is the number of digits that are missing of a code, and
its value so far. -/
def doubleFrom (start : Nat) (code : Nat × Nat) (seen : List Char) (gap : Gap) (m : Mark) :
    List Char → Except Problem Inline
  | [] => .error ⟨if code.1 = 0 then .unclosedQuote else .escapeDigits, start, m.line⟩
  | c :: rest =>
    if code.1 ≠ 0 then
      let value := code.2 * 16 + hexValue c
      if !isHexDigit c then .error ⟨.escapeDigits, start, m.line⟩
      else if code.1 ≠ 1 then doubleFrom start (code.1 - 1, value) seen .none (m.past c) rest
      else if isCharCode value then
        doubleFrom start (0, 0) (Char.ofNat value :: seen) .none (m.past c) rest
      else .error ⟨.escapeCode, start, m.line⟩
    else if isGap c then doubleFrom start (0, 0) seen (gap.push c) (m.past c) rest
    else
      let seen := gap.folded ++ seen
      if c == '"' then .ok ⟨seen.reverse, false, ⟨m.past c, rest⟩⟩
      else if c == '\\' then
        match rest with
        | [] => .error ⟨.unknownEscape, start, m.line⟩
        | d :: rest =>
          let next := (m.past c).past d
          if isBreak d then doubleFrom start (0, 0) seen (.breaks none []) next rest
          else match codeLength? d, unescape? d with
            | some n, _ => doubleFrom start (n, 0) seen .none next rest
            | none, some e => doubleFrom start (0, 0) (e :: seen) .none next rest
            | none, none => .error ⟨.unknownEscape, start, m.line⟩
      else doubleFrom start (0, 0) (c :: seen) .none (m.past c) rest

/-- Reads the rest of a text in single quotes, in which a quote is written twice. -/
def singleFrom (start : Nat) (seen : List Char) (gap : Gap) (m : Mark) :
    List Char → Except Problem Inline
  | [] => .error ⟨.unclosedQuote, start, m.line⟩
  | '\'' :: '\'' :: rest =>
    singleFrom start ('\'' :: (gap.folded ++ seen)) .none ((m.past '\'').past '\'') rest
  | c :: rest =>
    if isGap c then singleFrom start seen (gap.push c) (m.past c) rest
    else if c == '\'' then .ok ⟨(gap.folded ++ seen).reverse, false, ⟨m.past c, rest⟩⟩
    else singleFrom start (c :: (gap.folded ++ seen)) .none (m.past c) rest

end Population.Yaml

import Population.Text.Symbol
import Population.Yaml.Style

namespace Population.Yaml

/-- A place in a document. Lines and columns are counted from zero. -/
structure Mark where
  index : Nat
  line : Nat
  column : Nat
  deriving DecidableEq, Repr

namespace Mark

def start : Mark :=
  ⟨0, 0, 0⟩

def past (m : Mark) (c : Char) : Mark :=
  if isBreak c then ⟨m.index + 1, m.line + 1, 0⟩ else ⟨m.index + 1, m.line, m.column + 1⟩

end Mark

structure Cursor where
  mark : Mark
  rest : List Char
  deriving DecidableEq, Repr

namespace Cursor

def advance : Nat → Cursor → Cursor
  | n + 1, ⟨m, c :: rest⟩ => advance n ⟨m.past c, rest⟩
  | _, c => c

/-- The first place from `m` on at which a character does not pass. -/
def skipFrom (pass : Char → Bool) (m : Mark) : List Char → Cursor
  | [] => ⟨m, []⟩
  | c :: rest => if pass c then skipFrom pass (m.past c) rest else ⟨m, c :: rest⟩

def skipWhile (pass : Char → Bool) (c : Cursor) : Cursor :=
  skipFrom pass c.mark c.rest

/-- Whether the next characters end a token: a blank, a break or nothing. -/
def atGap (c : Cursor) : Bool :=
  c.rest.head?.all isGap

end Cursor

inductive Cause
  | tabIndent
  | tabInBare
  | zeroIndent
  | blockHeading
  | unclosedQuote
  | unknownEscape
  | escapeDigits
  | escapeCode
  | nameExpected
  | tagUnclosed
  | tagEmpty
  | tagUnended
  | octetExpected
  | octetLeading
  | octetTrailing
  | keyUnfinished
  | entryMisplaced
  | keyMisplaced
  | valueMisplaced
  | strayCharacter
  | entryExpected
  deriving DecidableEq, Repr

namespace Cause

def message : Cause → Text
  | .tabIndent => "found a tab character where an indentation space is expected"
  | .tabInBare => "found a tab character that violates indentation"
  | .zeroIndent => "found an indentation indicator equal to 0"
  | .blockHeading => "did not find expected comment or line break"
  | .unclosedQuote => "found unexpected end of stream"
  | .unknownEscape => "found unknown escape character"
  | .escapeDigits => "did not find expected hexdecimal number"
  | .escapeCode => "found invalid Unicode character escape code"
  | .nameExpected => "did not find expected alphabetic or numeric character"
  | .tagUnclosed => "did not find the expected '>'"
  | .tagEmpty => "did not find expected tag URI"
  | .tagUnended => "did not find expected whitespace or line break"
  | .octetExpected => "did not find URI escaped octet"
  | .octetLeading => "found an incorrect leading UTF-8 octet"
  | .octetTrailing => "found an incorrect trailing UTF-8 octet"
  | .keyUnfinished => "could not find expected ':'"
  | .entryMisplaced => "block sequence entries are not allowed in this context"
  | .keyMisplaced => "mapping keys are not allowed in this context"
  | .valueMisplaced => "mapping values are not allowed in this context"
  | .strayCharacter => "found character that cannot start any token"
  | .entryExpected => "did not find expected '-' indicator"

end Cause

/-- A cause with the lines in which the faulty part begins and in which it was found. -/
structure Problem where
  cause : Cause
  context : Nat
  line : Nat
  deriving DecidableEq, Repr

namespace Problem

/-- The line that is named: where the part begins or, if that is the first line, where the fault is; none if
that is the first line too. An entry that is missing is named by the line before. -/
def shownLine (p : Problem) : Nat :=
  let line := if p.context ≠ 0 then p.context else p.line
  if line = 0 || p.cause = .entryExpected then line else line + 1

def message (p : Problem) : Text :=
  let place : Text := if p.shownLine = 0 then [] else "line " ++ Text.ofNat p.shownLine ++ ": "
  "yaml: " ++ place ++ p.cause.message

end Problem

/-- What a token is. Those that no document of texts has are not told apart. -/
inductive Lexeme
  | sequence
  | entry
  | blockEnd
  | tag (cs : List Char)
  | scalar (style : Style) (cs : List Char)
  | other
  deriving DecidableEq, Repr

structure Token where
  lexeme : Lexeme
  line : Nat
  deriving DecidableEq, Repr

end Population.Yaml

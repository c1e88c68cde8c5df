import Population.Text.Basic

/-!
A text is read as UTF-8 from the left; a byte at which no encoded character starts is a stray byte and stands for
itself.
-/
namespace Population

/-- What stands at a position of a text: a character, or a byte that begins none. -/
inductive Symbol
  | char (c : Char)
  | stray (b : UInt8)
  deriving DecidableEq, Repr

namespace Text

/-- The value of a byte `10xxxxxx`. -/
def continuation? (b : UInt8) : Option Nat :=
  if 0x80 ≤ b && b ≤ 0xbf then some (b.toNat - 0x80) else none

def two? (a b : UInt8) : Option Nat := do
  let y ← continuation? b
  if 0xc2 ≤ a && a ≤ 0xdf then some ((a.toNat - 0xc0) * 64 + y) else none

/-- Rejects longer forms of shorter codes and the surrogates. -/
def three? (a b c : UInt8) : Option Nat := do
  let y ← continuation? b
  let z ← continuation? c
  let code := ((a.toNat - 0xe0) * 64 + y) * 64 + z
  if 0xe0 ≤ a && a ≤ 0xef && 0x800 ≤ code && !(0xd800 ≤ code && code ≤ 0xdfff) then some code
  else none

/-- Rejects longer forms of shorter codes and what lies past the last code point. -/
def four? (a b c d : UInt8) : Option Nat := do
  let x ← continuation? b
  let y ← continuation? c
  let z ← continuation? d
  let code := (((a.toNat - 0xf0) * 64 + x) * 64 + y) * 64 + z
  if 0xf0 ≤ a && a ≤ 0xf4 && 0x10000 ≤ code && code ≤ 0x10ffff then some code else none

/-- The first character and the number of bytes after its first. -/
def decode? : Text → Option (Char × Nat)
  | [] => none
  | a :: rest =>
    if a < 0x80 then some (Char.ofNat a.toNat, 0)
    else match rest with
      | [] => none
      | b :: rest => match two? a b with
        | some code => some (Char.ofNat code, 1)
        | none => match rest with
          | [] => none
          | c :: rest => match three? a b c with
            | some code => some (Char.ofNat code, 2)
            | none => match rest with
              | [] => none
              | d :: _ => (four? a b c d).map fun code => (Char.ofNat code, 3)

def symbolsFrom (seen : List Symbol) (t : Text) : List Symbol :=
  match t with
  | [] => seen.reverse
  | a :: rest => match decode? (a :: rest) with
    | some (c, more) => symbolsFrom (.char c :: seen) (rest.drop more)
    | none => symbolsFrom (.stray a :: seen) rest
termination_by t.length
decreasing_by all_goals (simp only [List.length_cons, List.length_drop]; omega)

def symbols (t : Text) : List Symbol :=
  symbolsFrom [] t

def isValid (t : Text) : Bool :=
  t.symbols.all fun
    | .char _ => true
    | .stray _ => false

def ofChar (c : Char) : Text :=
  String.utf8EncodeChar c

def ofChars (cs : List Char) : Text :=
  cs.flatMap ofChar

/-- The character that stands in for a stray byte where a text must be valid. -/
def replacement : Char := '\ufffd'

/-- The characters of a text, a stray byte read as the replacement character. -/
def chars (t : Text) : List Char :=
  t.symbols.map fun
    | .char c => c
    | .stray _ => replacement

def eachSymbol (t : Text) : List Text :=
  t.symbols.map fun
    | .char c => ofChar c
    | .stray b => [b]

end Text

end Population

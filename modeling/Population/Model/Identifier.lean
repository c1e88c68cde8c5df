import Population.Text.Blank
import Population.Text.Quoted

namespace Population

inductive IdentifierError
  | malformed (tag : Text)
  | belowOne (number : Int) (tag : Text)
  | numberBelowOne (number : Int)
  | reserved
  deriving DecidableEq, Repr

namespace Identifier

/-- The attribute that stands in identifier 1 of a new class until its own attributes are known. -/
def placeholder : Text := "__POP_Dummy_ID"

end Identifier

def IdentifierError.message : IdentifierError → Text
  | .malformed tag => "malformed identifier tag " ++ tag.quoted
  | .belowOne number tag =>
    "identifier number " ++ Text.ofInt number ++ " is less than 1 in " ++ tag.quoted
  | .numberBelowOne number => "identifier number " ++ Text.ofInt number ++ " is less than 1"
  | .reserved => "attribute name " ++ Identifier.placeholder.quoted ++ " is reserved"

namespace Identifier

def digit (tag : Text) (b : UInt8) : Except IdentifierError Int :=
  if !Text.isDigit b then .error (.malformed tag)
  else if b == 0x30 then .error (.belowOne 0 tag)
  else .ok (b.toNat - 0x30)

/-- The identifiers that a tag names, ascending and each once: `I` names the first, and every digit after
it names one. -/
def parseTag (raw : Text) : Except IdentifierError (List Int) :=
  let tag := raw.trim
  match tag with
  | [0x49] => .ok [1]
  | 0x49 :: digits => do
    let numbers ← digits.mapM (digit tag)
    return numbers.eraseDups.mergeSort
  | _ => .error (.malformed tag)

/-- The attributes of identifier `n` stand at index `n - 1`. -/
abbrev Group := List (List Text)

/-- Adds an attribute to the identifier at an index, after identifiers without attributes if need be. -/
def addAt (attr : Text) : (index : Nat) → Group → Group
  | 0, [] => [[attr]]
  | 0, attrs :: rest => (if attr ∈ attrs then attrs else attrs ++ [attr]) :: rest
  | index + 1, [] => [] :: addAt attr index []
  | index + 1, attrs :: rest => attrs :: addAt attr index rest

def merge (g : Group) (attr : Text) (numbers : List Int) : Except IdentifierError Group :=
  if attr = placeholder then .error .reserved
  else match numbers.find? (· < 1) with
    | some n => .error (.numberBelowOne n)
    | none => .ok (numbers.foldl (fun g n => addAt attr (n - 1).toNat g) g)

end Identifier

end Population

/-!
A text is a list of bytes, so that input which is not valid UTF-8 keeps its exact form; modules beside this one read
its characters.
-/
namespace Population

abbrev Text := List UInt8

namespace Text

def ofString (s : String) : Text :=
  s.toByteArray.data.toList

instance : Coe String Text := ⟨ofString⟩

instance instLawfulBEqText : LawfulBEq Text := inferInstance

def ofNat (n : Nat) : Text :=
  ofString (Nat.repr n)

def ofInt : Int → Text
  | .ofNat n => ofNat n
  | .negSucc n => "-" ++ ofNat (n + 1)

def join (sep : Text) (parts : List Text) : Text :=
  List.intercalate sep parts

def lines (parts : List Text) : Text :=
  parts.flatMap (· ++ "\n")

def startsWith (t lead : Text) : Bool :=
  lead.isPrefixOf t

def endsWith (t tail : Text) : Bool :=
  tail.isSuffixOf t

/-- `cut` with the bytes already passed over, last one first. -/
def cutFrom (sep seen : Text) : Text → Option (Text × Text)
  | [] => if sep.isEmpty then some (seen.reverse, []) else none
  | b :: rest =>
    if sep.isPrefixOf (b :: rest) then some (seen.reverse, (b :: rest).drop sep.length)
    else cutFrom sep (b :: seen) rest

/-- The text before and the text after the first occurrence of `sep`. -/
def cut (sep t : Text) : Option (Text × Text) :=
  cutFrom sep [] t

def contains (t part : Text) : Bool :=
  (cut part t).isSome

def splitByte (sep : UInt8) (t : Text) : List Text :=
  t.splitOnP (· == sep)

/-- The pieces between the occurrences of a text that is not empty. -/
def splitAround (sep t : Text) : List Text :=
  match cut sep t with
  | none => [t]
  | some (piece, rest) =>
    if rest.length < t.length then piece :: splitAround sep rest else [t]
termination_by t.length

def trimLeft (drop : UInt8 → Bool) (t : Text) : Text :=
  t.dropWhile drop

def trimRight (drop : UInt8 → Bool) (t : Text) : Text :=
  (t.reverse.dropWhile drop).reverse

def isBlankOrTab (b : UInt8) : Bool :=
  b == 0x20 || b == 0x09

def isDigit (b : UInt8) : Bool :=
  0x30 ≤ b && b ≤ 0x39

/-- Letters, digits and the underscore of ASCII. -/
def isWord (b : UInt8) : Bool :=
  isDigit b || (0x41 ≤ b && b ≤ 0x5a) || (0x61 ≤ b && b ≤ 0x7a) || b == 0x5f

/-- Tab, line feed, form feed, carriage return and space. -/
def isSpace (b : UInt8) : Bool :=
  b == 0x20 || b == 0x09 || b == 0x0a || b == 0x0c || b == 0x0d

def digitsToNat (digits : Text) : Nat :=
  digits.foldl (fun n d => 10 * n + (d.toNat - 0x30)) 0

/-- Bytewise order, a proper beginning first. -/
def le (s t : Text) : Bool :=
  match s, t with
  | [], _ => true
  | _ :: _, [] => false
  | a :: s, b :: t => a < b || (a == b && le s t)

def sort (ts : List Text) : List Text :=
  ts.mergeSort le

def hexDigit (n : Nat) : UInt8 :=
  if n < 10 then (0x30 + n).toUInt8 else (0x57 + n).toUInt8

def hex : (width : Nat) → (n : Nat) → Text
  | 0, _ => []
  | width + 1, n => hex width (n / 16) ++ [hexDigit (n % 16)]

end Text

end Population

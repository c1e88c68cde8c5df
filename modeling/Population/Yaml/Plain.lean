import Population.Number.Double
import Population.Number.Reader

/-!
A text may stand without quotes only if no reader takes it for a null, a truth value, a number, a date or a time.
-/
namespace Population.Yaml

/-- Words that are read as a null, a truth value or a number that is not finite. -/
def reservedWords : List Text :=
  ["", "~", "null", "Null", "NULL", "true", "True", "TRUE", "false", "False", "FALSE",
    ".nan", ".NaN", ".NAN", ".inf", ".Inf", ".INF", "+.inf", "+.Inf", "+.INF", "-.inf", "-.Inf", "-.INF"]

def oldTruthWords : List Text :=
  ["y", "Y", "yes", "Yes", "YES", "on", "On", "ON", "n", "N", "no", "No", "NO", "off", "Off", "OFF"]

def dropSign : Text → Text
  | 0x2b :: rest => rest
  | 0x2d :: rest => rest
  | rest => rest

def digitValue (b : UInt8) : Nat :=
  if Text.isDigit b then b.toNat - 0x30
  else if 0x61 ≤ b && b ≤ 0x66 then b.toNat - 0x57
  else if 0x41 ≤ b && b ≤ 0x46 then b.toNat - 0x37
  else 16

def readBase (base : Nat) (digits : Text) : Option Nat :=
  if digits.isEmpty || !digits.all (digitValue · < base) then none
  else some (digits.foldl (fun n d => base * n + digitValue d) 0)

/-- Digits behind a mark of their base; a leading zero alone marks base eight. -/
def readMarked : Text → Option Nat
  | [0x30] => some 0
  | 0x30 :: mark :: rest =>
    if mark == 0x78 || mark == 0x58 then readBase 16 rest
    else if mark == 0x62 || mark == 0x42 then readBase 2 rest
    else if mark == 0x6f || mark == 0x4f then readBase 8 rest
    else readBase 8 (mark :: rest)
  | digits => readBase 10 digits

/-- Whether a magnitude fits 64 bits: without a sign all of them, else those that a sign leaves. -/
def fits (t : Text) (n : Nat) : Bool :=
  match t with
  | 0x2b :: _ => n < Nat.pow 2 63
  | 0x2d :: _ => n ≤ Nat.pow 2 63
  | _ => n < Nat.pow 2 64

def isInteger (t : Text) : Bool :=
  (readMarked (dropSign t)).any (fits t)

def isMarkedSigned (mark : Text) (base : Nat) (t : Text) : Bool :=
  if t.startsWith mark then (readBase base (dropSign (t.drop 2))).any (fits (t.drop 2))
  else false

def isDecimal (t : Text) : Bool :=
  let (whole, fraction, rest) := Number.takeMantissa (dropSign t)
  let exponent := match rest with
    | [] => true
    | mark :: rest =>
      (mark == 0x65 || mark == 0x45) && !(dropSign rest).isEmpty && (dropSign rest).all Text.isDigit
  (!whole.isEmpty || !fraction.isEmpty) && exponent

def isZeroDecimal (t : Text) : Bool :=
  let (whole, fraction, _) := Number.takeMantissa (dropSign t)
  (whole ++ fraction).all (· == 0x30)

/-- A decimal that double precision can hold. One too small for it counts, and zero has any exponent. -/
def isFloat (t : Text) : Bool :=
  isDecimal t && (isZeroDecimal t || match Number.parse? t with
    | some n => !(Double.ofNumber n).isInfinite
    | none => t.contains "e-" || t.contains "E-")

def underscoresSeparate : Text → Bool
  | a :: 0x5f :: b :: rest => Text.isDigit a && Text.isDigit b && underscoresSeparate (b :: rest)
  | [_, 0x5f] => false
  | 0x5f :: _ => false
  | _ :: rest => underscoresSeparate rest
  | [] => true

def isSexagesimalDigits (t : Text) : Bool :=
  match t with
  | [a] => Text.isDigit a
  | [a, b] => Text.isDigit a && a ≤ 0x35 && Text.isDigit b
  | _ => false

/-- Groups of base sixty, such as the hours and minutes of a time. -/
def isSexagesimal (t : Text) : Bool :=
  let loose := fun b => Text.isDigit b || b == 0x5f
  let (lead, rest) := (dropSign t).span loose
  match rest with
  | 0x3a :: rest =>
    let groups := Text.splitByte 0x3a rest
    let (last, fraction) := (groups.getLastD []).span (· != 0x2e)
    lead.head?.any Text.isDigit && (groups.dropLast ++ [last]).all isSexagesimalDigits &&
      (fraction.drop 1).all loose
  | _ => false

end Population.Yaml

import Population.Text.Basic

/-!
The shortest decimal in an interval: of all decimals between two bounds the one with the fewest digits,
and of those the nearest to a given number, the even one of two that are equally near.
-/
namespace Population

/-- The decimal `0.d₁d₂… * 10 ^ point`, its digits written as text. -/
structure Decimal where
  digits : Text
  point : Int
  deriving DecidableEq, Repr

namespace Decimal

def decimalLength (n : Nat) : Nat :=
  (Nat.repr n).length

/-- The least `e` with `numerator / denominator < 10 ^ e`, for a fraction above zero. -/
def pointOf (numerator denominator : Nat) : Int :=
  if denominator ≤ numerator then decimalLength (numerator / denominator)
  else 1 - decimalLength ((denominator + numerator - 1) / numerator - 1)

/-- A number and the bounds around it, all over one denominator. -/
structure Interval where
  lower : Nat
  value : Nat
  upper : Nat
  denominator : Nat
  /-- Whether the bounds themselves count. -/
  inclusive : Bool

def Interval.scale (i : Interval) : (place : Int) → Interval
  | .ofNat p => { i with denominator := i.denominator * Nat.pow 10 p }
  | .negSucc p =>
    let factor := Nat.pow 10 (p + 1)
    { i with lower := i.lower * factor, value := i.value * factor, upper := i.upper * factor }

def Interval.holds (i : Interval) (units : Nat) : Bool :=
  let point := units * i.denominator
  (i.lower < point && point < i.upper) || (i.inclusive && (point = i.lower || point = i.upper))

/-- The nearer of the two whole numbers of units around the value that lie between the bounds. -/
def Interval.nearest? (i : Interval) : Option Nat :=
  let down := i.value / i.denominator
  let rest := 2 * (i.value % i.denominator)
  match i.holds down, i.holds (down + 1) with
  | true, true =>
    some (if rest < i.denominator || (rest = i.denominator && down % 2 = 0) then down else down + 1)
  | true, false => some down
  | false, true => some (down + 1)
  | false, false => none

def ofUnits (units : Nat) (place : Int) : Decimal :=
  let digits := Text.ofNat units
  ⟨Text.trimRight (· == 0x30) digits, digits.length + place⟩

/-- Tries `places` more digits, from `place` on. -/
def searchFrom (i : Interval) : (places : Nat) → (place : Int) → Decimal
  | 0, place => ofUnits ((i.scale place).value / (i.scale place).denominator) place
  | places + 1, place => match (i.scale place).nearest? with
    | some units => ofUnits units place
    | none => searchFrom i places (place - 1)

def shortest (precision : Nat) (i : Interval) : Decimal :=
  searchFrom i (precision + 4) (pointOf i.value i.denominator - 1)

def zeros (n : Nat) : Text :=
  List.replicate n 0x30

def positional (d : Decimal) : Text :=
  let before := d.point.toNat
  let whole : Text := if before = 0 then "0" else d.digits.take before ++ zeros (before - d.digits.length)
  let rest := d.digits.drop before
  if rest.isEmpty then whole else whole ++ "." ++ zeros (-d.point).toNat ++ rest

/-- The exponent of ten when one digit stands before the point. -/
def exponent (d : Decimal) : Int :=
  d.point - 1

/-- A sign and at least two digits. -/
def signedExponent (e : Int) : Text :=
  let digits := Text.ofNat e.natAbs
  let sign : Text := if e < 0 then "-" else "+"
  sign ++ zeros (2 - digits.length) ++ digits

def scientific (d : Decimal) : Text :=
  let rest := d.digits.drop 1
  let fraction : Text := if rest.isEmpty then [] else "." ++ rest
  d.digits.take 1 ++ fraction ++ "e" ++ signedExponent d.exponent

end Decimal

end Population

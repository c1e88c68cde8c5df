/-!
Rounding goes to the nearest number of so many bits, and to the even one of two that are equally near.
-/
namespace Population

/-- The number `mantissa * 2 ^ exponent`. -/
structure Magnitude where
  mantissa : Nat
  exponent : Int
  deriving DecidableEq, Repr

def bitLength (n : Nat) : Nat :=
  if n = 0 then 0 else n.log2 + 1

namespace Magnitude

/-- The exponent of the smallest power of two above the number. -/
def top (x : Magnitude) : Int :=
  x.exponent + bitLength x.mantissa

/-- Rounds to at most `precision` bits. With `sticky`, the exact number lies above `x` by less than one
unit of its last bit, and `x` has at least one bit more than `precision`. -/
def round (precision : Nat) (sticky : Bool) (x : Magnitude) : Magnitude :=
  let excess := bitLength x.mantissa - precision
  if excess = 0 then x
  else
    let unit := Nat.pow 2 excess
    let kept := x.mantissa / unit
    let lost := 2 * (x.mantissa % unit)
    let up := unit < lost || (lost = unit && (sticky || kept % 2 = 1))
    ⟨if up then kept + 1 else kept, x.exponent + excess⟩

def mul (precision : Nat) (x y : Magnitude) : Magnitude :=
  round precision false ⟨x.mantissa * y.mantissa, x.exponent + y.exponent⟩

def add (precision : Nat) (x y : Magnitude) : Magnitude :=
  let exponent := min x.exponent y.exponent
  let units := fun z : Magnitude => z.mantissa * Nat.pow 2 (z.exponent - exponent).toNat
  round precision false ⟨units x + units y, exponent⟩

/-- The quotient, taken to two bits more than `precision` before it is rounded. -/
def div (precision : Nat) (x y : Magnitude) : Magnitude :=
  let shift := precision + 2 + bitLength y.mantissa - bitLength x.mantissa
  let numerator := x.mantissa * Nat.pow 2 shift
  round precision (numerator % y.mantissa ≠ 0)
    ⟨numerator / y.mantissa, x.exponent - y.exponent - shift⟩

/-- The same number with an odd mantissa. -/
def reduce (x : Magnitude) : Magnitude :=
  if x.mantissa ≠ 0 ∧ x.mantissa % 2 = 0 then reduce ⟨x.mantissa / 2, x.exponent + 1⟩ else x
termination_by x.mantissa
decreasing_by omega

def floor (x : Magnitude) : Nat :=
  if 0 ≤ x.exponent then x.mantissa * Nat.pow 2 x.exponent.toNat else x.mantissa / Nat.pow 2 (-x.exponent).toNat

def toNat? (x : Magnitude) : Option Nat :=
  if 0 ≤ x.exponent then some (x.mantissa * Nat.pow 2 x.exponent.toNat)
  else
    let unit := Nat.pow 2 (-x.exponent).toNat
    if x.mantissa % unit = 0 then some (x.mantissa / unit) else none

end Magnitude

end Population

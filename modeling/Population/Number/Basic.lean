import Population.Number.Magnitude

/-!
Numbers: binary floating point with 512 bits, two zeros and two infinities. A finite number other than
zero has an odd mantissa, so equal numbers are equal terms.
-/
namespace Population

inductive Number
  | zero (negative : Bool)
  | finite (negative : Bool) (size : Magnitude)
  | infinite (negative : Bool)
  deriving DecidableEq, Repr

namespace Number

def precision : Nat := 512

def maxExponent : Int := 2147483647

def minExponent : Int := -2147483648

/-- A magnitude as a number: infinite or zero when its exponent is out of range. -/
def ofMagnitude (negative : Bool) (x : Magnitude) : Number :=
  if x.mantissa = 0 || x.top < minExponent then .zero negative
  else if maxExponent < x.top then .infinite negative
  else .finite negative x.reduce

def ofInt (i : Int) : Number :=
  ofMagnitude (i < 0) (Magnitude.round precision false ⟨i.natAbs, 0⟩)

def toInt? : Number → Option Int
  | .zero _ => some 0
  | .finite negative x => x.toNat?.map fun n => if negative then -n else n
  | .infinite _ => none

def isWhole (n : Number) : Bool :=
  n.toInt?.isSome

def minInt64 : Int := -9223372036854775808

def maxInt64 : Int := 9223372036854775807

def toInt64? (n : Number) : Option Int :=
  n.toInt?.filter fun i => minInt64 ≤ i && i ≤ maxInt64

end Number

end Population

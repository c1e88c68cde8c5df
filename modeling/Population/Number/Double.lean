import Population.Number.Writer

namespace Population

structure Double where
  value : Number
  deriving DecidableEq, Repr

namespace Double

def precision : Nat := 53

def minExponent : Int := -1074

def maxTop : Int := 1024

/-- The bits that are left at the size of `x`, fewer near zero. -/
def bitsAt (x : Magnitude) : Nat :=
  min precision (x.top - minExponent).toNat

def roundMagnitude (x : Magnitude) : Magnitude :=
  if x.top < minExponent then ⟨0, 0⟩
  else if x.top = minExponent then ⟨if x.reduce.mantissa = 1 then 0 else 1, minExponent⟩
  else x.round (bitsAt x) false

def ofNumber : Number → Double
  | .zero negative => ⟨.zero negative⟩
  | .infinite negative => ⟨.infinite negative⟩
  | .finite negative x =>
    let rounded := roundMagnitude x
    if maxTop < rounded.top then ⟨.infinite negative⟩ else ⟨Number.ofMagnitude negative rounded⟩

def ofInt (i : Int) : Double :=
  ofNumber (Number.ofInt i)

/-- The double that is nearest to the sum. An infinite term is the sum, the first one of two. -/
def add (a b : Double) : Double :=
  match a.value, b.value with
  | .infinite _, _ => a
  | _, .infinite _ => b
  | .zero s, .zero t => ⟨.zero (s && t)⟩
  | .zero _, _ => b
  | _, .zero _ => a
  | .finite s x, .finite t y =>
    let exponent := min x.exponent y.exponent
    let units := fun (negative : Bool) (z : Magnitude) =>
      let size : Int := z.mantissa * Nat.pow 2 (z.exponent - exponent).toNat
      if negative then -size else size
    let sum := units s x + units t y
    ofNumber (Number.ofMagnitude (sum < 0) ⟨sum.natAbs, exponent⟩)

def isInfinite (d : Double) : Bool :=
  match d.value with
  | .infinite _ => true
  | _ => false

/-- The decimals that are nearer to a double than to its neighbours; below a power of two they are
half as far apart as above it. -/
def interval (x : Magnitude) : Decimal.Interval :=
  let unit := max (x.top - precision) minExponent
  let units := x.mantissa * Nat.pow 2 (x.exponent - unit).toNat
  let below := if units = Nat.pow 2 (precision - 1) && minExponent < unit then 1 else 2
  let factor := Nat.pow 2 (unit - 2).toNat
  { lower := (4 * units - below) * factor
    value := 4 * units * factor
    upper := (4 * units + 2) * factor
    denominator := Nat.pow 2 (2 - unit).toNat
    inclusive := units % 2 == 0 }

def decimal (x : Magnitude) : Decimal :=
  Decimal.shortest precision (interval x)

/-- Which exponents are written out: all from `least` up to but not including `bound`. -/
structure Layout where
  least : Int
  bound : Int
  infinity : Bool → Text
  scientific : Decimal → Text

def write (layout : Layout) (d : Double) : Text :=
  match d.value with
  | .zero negative => Number.sign negative ++ "0"
  | .infinite negative => layout.infinity negative
  | .finite negative x =>
    let decimal := decimal x
    Number.sign negative ++
      (if layout.least ≤ decimal.exponent && decimal.exponent < layout.bound then decimal.positional
      else layout.scientific decimal)

/-- Six digits before the point and three zeros after it are written out, an exponent beyond. -/
def general : Layout where
  least := -4
  bound := 6
  infinity negative := if negative then "-Inf" else "+Inf"
  scientific := Decimal.scientific

end Double

end Population

import Population.Number.Basic
import Population.Number.Shortest

namespace Population.Number

/-- The decimals that are nearer to a number than to its neighbours half a unit of the last bit away. -/
def interval (x : Magnitude) : Decimal.Interval :=
  let unit := x.top - precision
  let units := x.mantissa * Nat.pow 2 (x.exponent - unit).toNat
  let factor := Nat.pow 2 (unit - 1).toNat
  { lower := (2 * units - 1) * factor
    value := 2 * units * factor
    upper := (2 * units + 1) * factor
    denominator := Nat.pow 2 (1 - unit).toNat
    inclusive := units % 2 == 0 }

def sign (negative : Bool) : Text :=
  if negative then "-" else []

def toText : Number → Text
  | .zero negative => sign negative ++ "0"
  | .finite negative x => sign negative ++ (Decimal.shortest precision (interval x)).positional
  | .infinite negative => if negative then "-Inf" else "+Inf"

end Population.Number

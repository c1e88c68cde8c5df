import Population.Number.Basic

/-!
Every result is the exact one, rounded once; where no number can stand for it, such as for a sum of opposite
infinities, there is none.
-/
namespace Population

namespace Magnitude

/-- The bits that two numbers may lie apart before the smaller one is no more than a trace of the greater. -/
def reach (precision : Nat) : Nat :=
  2 * precision + 8

/-- A number of the same effect on sums and differences with one whose top is at `top`. -/
def nearer (precision : Nat) (top : Int) (x : Magnitude) : Magnitude :=
  if x.top + reach precision < top then ⟨1, top - reach precision⟩ else x

/-- Two numbers in units of the same power of two, that of the smaller exponent. -/
def align (precision : Nat) (x y : Magnitude) : Nat × Nat × Int :=
  let x' := nearer precision y.top x
  let y' := nearer precision x.top y
  let exponent := min x'.exponent y'.exponent
  let units := fun z : Magnitude => z.mantissa * Nat.pow 2 (z.exponent - exponent).toNat
  (units x', units y', exponent)

def compare (x y : Magnitude) : Ordering :=
  if x.top ≠ y.top then Ord.compare x.top y.top
  else
    let exponent := min x.exponent y.exponent
    let units := fun z : Magnitude => z.mantissa * Nat.pow 2 (z.exponent - exponent).toNat
    Ord.compare (units x) (units y)

end Magnitude

namespace Number

def negative : Number → Bool
  | .zero negative => negative
  | .finite negative _ => negative
  | .infinite negative => negative

def neg : Number → Number
  | .zero negative => .zero (!negative)
  | .finite negative x => .finite (!negative) x
  | .infinite negative => .infinite (!negative)

def ofUnits (units : Int) (exponent : Int) : Number :=
  if units = 0 then .zero false
  else ofMagnitude (units < 0) (Magnitude.round precision false ⟨units.natAbs, exponent⟩)

def signed (negative : Bool) (n : Nat) : Int :=
  if negative then -n else n

/-- Equal numbers of opposite sign give the positive zero. -/
def add? : Number → Number → Option Number
  | .finite p x, .finite q y =>
    let (m, n, exponent) := Magnitude.align precision x y
    some (ofUnits (signed p m + signed q n) exponent)
  | .infinite p, .infinite q => if p = q then some (.infinite p) else none
  | .zero p, .zero q => some (.zero (p && q))
  | .infinite p, _ => some (.infinite p)
  | _, .infinite q => some (.infinite q)
  | x, .zero _ => some x
  | .zero _, y => some y

def sub? (x y : Number) : Option Number :=
  x.add? y.neg

def mul? (x y : Number) : Option Number :=
  let negative := x.negative != y.negative
  match x, y with
  | .finite _ x, .finite _ y => some (ofMagnitude negative (Magnitude.mul precision x y))
  | .zero _, .infinite _ => none
  | .infinite _, .zero _ => none
  | .infinite _, _ => some (.infinite negative)
  | _, .infinite _ => some (.infinite negative)
  | _, _ => some (.zero negative)

/-- A number over zero is infinite. -/
def div? (x y : Number) : Option Number :=
  let negative := x.negative != y.negative
  match x, y with
  | .finite _ x, .finite _ y => some (ofMagnitude negative (Magnitude.div precision x y))
  | .zero _, .zero _ => none
  | .infinite _, .infinite _ => none
  | .zero _, _ => some (.zero negative)
  | _, .infinite _ => some (.zero negative)
  | _, _ => some (.infinite negative)

def truncate? : Number → Option Int
  | .zero _ => some 0
  | .finite negative x => some (signed negative x.floor)
  | .infinite _ => none

/-- What is left of a number when as many whole multiples of another as fit are taken away; all of it if
that is zero. -/
def mod? (x y : Number) : Option Number :=
  match y with
  | .zero _ => some x
  | _ => do
    let times ← (← x.div? y).truncate?
    x.sub? (← y.mul? (.ofInt times))

def compare : Number → Number → Ordering
  | .zero _, .zero _ => .eq
  | .finite p x, .finite q y =>
    if p ≠ q then (if p then .lt else .gt)
    else if p then Magnitude.compare y x
    else Magnitude.compare x y
  | .infinite p, .infinite q => if p = q then .eq else if p then .lt else .gt
  | .infinite p, _ => if p then .lt else .gt
  | _, .infinite q => if q then .gt else .lt
  | .zero _, .finite q _ => if q then .gt else .lt
  | .finite p _, .zero _ => if p then .lt else .gt

end Number

end Population

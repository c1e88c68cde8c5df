import Population.Text.Basic
import Population.Number.Basic

/-!
A number is an optional sign, decimal digits with at most one point among them, and an optional exponent, of ten after
`e` and of two after `p`; or a signed `Inf`. A power of five that does not fit is itself rounded, to 64 bits more than
the result has.
-/
namespace Population.Number

structure Spelling where
  negative : Bool
  digits : Text
  places : Nat
  binary : Bool
  exponent : Int

/-- A sign, where no sign is a plus, and the rest. -/
def takeSign : Text → Bool × Text
  | 0x2b :: rest => (false, rest)
  | 0x2d :: rest => (true, rest)
  | rest => (false, rest)

/-- Digits before and after a point that may be missing. -/
def takeMantissa (t : Text) : Text × Text × Text :=
  let (whole, rest) := t.span Text.isDigit
  match rest with
  | 0x2e :: rest =>
    let (fraction, rest) := rest.span Text.isDigit
    (whole, fraction, rest)
  | rest => (whole, [], rest)

/-- A signed number of 64 bits that makes up the whole text. -/
def exponent? (t : Text) : Option Int :=
  let (negative, digits) := takeSign t
  if digits.isEmpty || !digits.all Text.isDigit then none
  else
    let size : Int := Text.digitsToNat digits
    let value := if negative then -size else size
    if minInt64 ≤ value && value ≤ maxInt64 then some value else none

def spelling? (t : Text) : Option Spelling :=
  let (negative, rest) := takeSign t
  let (whole, fraction, rest) := takeMantissa rest
  let digits := whole ++ fraction
  if digits.isEmpty then none
  else match rest with
    | [] => some ⟨negative, digits, fraction.length, false, 0⟩
    | mark :: rest =>
      if mark == 0x65 || mark == 0x45 then
        (exponent? rest).map fun e => ⟨negative, digits, fraction.length, false, e⟩
      else if mark == 0x70 || mark == 0x50 then
        (exponent? rest).map fun e => ⟨negative, digits, fraction.length, true, e⟩
      else none

/-- `none` stands for a magnitude above all others. -/
def mulBounded (bits : Nat) (x y : Option Magnitude) : Option Magnitude :=
  match x, y with
  | some x, some y =>
    let product := Magnitude.mul bits x y
    if maxExponent < product.top then none else some product
  | _, _ => none

/-- The bits of a power of five that is rounded, and of the squares it is made of. -/
def powerBits : Nat := precision + 64

def squareBits : Nat := powerBits + 64

/-- `acc * base ^ n` by repeated squaring. -/
def powerFrom (acc base : Option Magnitude) (n : Nat) : Option Magnitude :=
  if n = 0 then acc
  else
    powerFrom (if n % 2 = 1 then mulBounded powerBits acc base else acc)
      (mulBounded squareBits base base) (n / 2)
termination_by n

/-- Powers of five up to this one are not put together from squares. -/
def directPower : Nat := 27

def powerOfFive (n : Nat) : Option Magnitude :=
  if n ≤ directPower then some ⟨Nat.pow 5 n, 0⟩
  else powerFrom (some ⟨Nat.pow 5 directPower, 0⟩) (some ⟨5, 0⟩) (n - directPower)

def scaleByFive (negative : Bool) (x : Magnitude) (power : Int) : Number :=
  match power with
  | .ofNat 0 => ofMagnitude negative (x.round precision false)
  | .ofNat n => match powerOfFive n with
    | some p => ofMagnitude negative (Magnitude.mul precision x p)
    | none => .infinite negative
  | .negSucc n => match powerOfFive (n + 1) with
    | some p => ofMagnitude negative (Magnitude.div precision x p)
    | none => .zero negative

/-- The number that is nearest to what is written; none if its binary exponent is out of range. -/
def Spelling.value? (s : Spelling) : Option Number :=
  let mantissa := Text.digitsToNat s.digits
  if mantissa = 0 then some (.zero s.negative)
  else
    let scale := s.exponent - s.places
    let x : Magnitude := ⟨mantissa, scale⟩
    if minExponent ≤ x.top && x.top ≤ maxExponent then
      some (scaleByFive s.negative x (if s.binary then -s.places else scale))
    else none

def infinity? (t : Text) : Option Number :=
  if t = "Inf" || t = "inf" || t = "+Inf" || t = "+inf" then some (.infinite false)
  else if t = "-Inf" || t = "-inf" then some (.infinite true)
  else none

def parse? (t : Text) : Option Number :=
  (infinity? t).or ((spelling? t).bind Spelling.value?)

end Population.Number

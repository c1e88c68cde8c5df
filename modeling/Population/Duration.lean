import Population.Number.Double
import Population.Number.Reader

namespace Population

structure Duration where
  nanoseconds : Int
  deriving DecidableEq, Repr

namespace Duration

def microsecond : Nat := 1000

def millisecond : Nat := 1000000

def second : Nat := 1000000000

def minute : Nat := 60 * second

def hour : Nat := 60 * minute

def ofSeconds (n : Nat) : Duration :=
  ⟨n * second⟩

def ofMilliseconds (n : Int) : Duration :=
  ⟨n * millisecond⟩

/-- The seconds of a duration: whole seconds and the rest, each rounded, and then their sum. -/
def seconds (d : Duration) : Double :=
  let n := d.nanoseconds.natAbs
  let rest := Magnitude.div Double.precision ⟨n % second, 0⟩ ⟨second, 0⟩
  let size := Magnitude.add Double.precision ⟨n / second, 0⟩ rest
  .ofNumber (Number.ofMagnitude (d.nanoseconds < 0) size)

def units : List (Text × Nat) :=
  [("ns", 1), ("us", microsecond), ("µs", microsecond), ("μs", microsecond), ("ms", millisecond),
    ("s", second), ("m", minute), ("h", hour)]

inductive ParseError
  | invalid (text : Text)
  | missingUnit (text : Text)
  | unknownUnit (name text : Text)
  deriving DecidableEq, Repr

/-- A text in quotes, all bytes outside of ASCII by their codes. -/
def quoteByte (b : UInt8) : Text :=
  if b < 0x20 || 0x80 ≤ b then "\\x" ++ Text.hex 2 b.toNat
  else if b == 0x22 || b == 0x5c then [0x5c, b]
  else [b]

def quote (t : Text) : Text :=
  "\"" ++ t.flatMap quoteByte ++ "\""

def ParseError.message : ParseError → Text
  | .invalid text => "time: invalid duration " ++ quote text
  | .missingUnit text => "time: missing unit in duration " ++ quote text
  | .unknownUnit name text => "time: unknown unit " ++ quote name ++ " in duration " ++ quote text

def bound : Nat := Nat.pow 2 63

/-- The digits of a fraction that count: those that keep it below the bound. -/
def significant (n : Nat) (digits : Nat) : Text → Nat × Nat
  | [] => (n, digits)
  | d :: rest =>
    let next := 10 * n + (d.toNat - 0x30)
    if (bound - 1) / 10 < n || bound < next then (n, digits) else significant next (digits + 1) rest

/-- The nanoseconds of a fraction of a unit, computed with doubles. -/
def fractionOf (unit : Nat) (fraction : Text) : Nat :=
  let (n, digits) := significant 0 0 fraction
  if n = 0 then 0
  else
    let scale := Magnitude.div Double.precision ⟨unit, 0⟩ (Magnitude.round Double.precision false ⟨Nat.pow 10 digits, 0⟩)
    (Magnitude.mul Double.precision (Magnitude.round Double.precision false ⟨n, 0⟩) scale).floor

def isNumeric (b : UInt8) : Bool :=
  b == 0x2e || Text.isDigit b

def readPart (whole t : Text) : Except ParseError (Nat × Text) := do
  let (digits, rest) := t.span Text.isDigit
  let (fraction, rest) : Text × Text := match rest with
    | 0x2e :: rest => rest.span Text.isDigit
    | _ => ([], rest)
  if digits.isEmpty && fraction.isEmpty then throw (.invalid whole)
  if bound < Text.digitsToNat digits then throw (.invalid whole)
  let (name, rest) := rest.span fun b => !isNumeric b
  if name.isEmpty then throw (.missingUnit whole)
  match units.lookup name with
  | none => throw (.unknownUnit name whole)
  | some unit =>
    let n := Text.digitsToNat digits
    if bound / unit < n then throw (.invalid whole)
    let total := n * unit + fractionOf unit fraction
    if bound < total then throw (.invalid whole)
    return (total, rest)

def readParts (whole : Text) : (steps : Nat) → (sum : Nat) → Text → Except ParseError Nat
  | _, sum, [] => .ok sum
  | 0, _, _ => .error (.invalid whole)
  | steps + 1, sum, t =>
    if !t.head?.any isNumeric then .error (.invalid whole)
    else do
      let (part, rest) ← readPart whole t
      if bound < sum + part then throw (.invalid whole)
      readParts whole steps (sum + part) rest

/-- The duration that a text writes. A zero needs no unit. -/
def parse (t : Text) : Except ParseError Duration := do
  let (negative, rest) := Number.takeSign t
  if rest = "0" then return ⟨0⟩
  if rest.isEmpty then throw (.invalid t)
  let sum ← readParts t (rest.length + 1) 0 rest
  if negative then return ⟨-sum⟩
  else if sum < bound then return ⟨sum⟩
  else throw (.invalid t)

/-- A number of units that is a fraction with `places` digits, without trailing zeros. -/
def fixed (n places : Nat) : Text :=
  let whole := n / Nat.pow 10 places
  let rest := Text.ofNat (n % Nat.pow 10 places)
  let digits := Text.trimRight (· == 0x30) (Decimal.zeros (places - rest.length) ++ rest)
  if digits.isEmpty then Text.ofNat whole else Text.ofNat whole ++ "." ++ digits

def clockText (n : Nat) : Text :=
  let minutes := n / minute
  let seconds : Text := fixed (n % minute) 9 ++ "s"
  if minutes = 0 then seconds
  else
    let inner : Text := Text.ofNat (minutes % 60) ++ "m" ++ seconds
    if minutes < 60 then inner else Text.ofNat (minutes / 60) ++ "h" ++ inner

def sizeText (n : Nat) : Text :=
  if n = 0 then "0s"
  else if n < microsecond then Text.ofNat n ++ "ns"
  else if n < millisecond then fixed n 3 ++ "µs"
  else if n < second then fixed n 6 ++ "ms"
  else clockText n

def toText (d : Duration) : Text :=
  if d.nanoseconds < 0 then "-" ++ sizeText d.nanoseconds.natAbs else sizeText d.nanoseconds.natAbs

end Duration

end Population

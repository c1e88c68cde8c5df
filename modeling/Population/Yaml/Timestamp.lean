import Population.Text.Basic

namespace Population.Yaml

def takeShort : Text → Option (Nat × Text)
  | a :: b :: rest =>
    if !Text.isDigit a then none
    else if Text.isDigit b then some (Text.digitsToNat [a, b], rest)
    else some (Text.digitsToNat [a], b :: rest)
  | [a] => if Text.isDigit a then some (Text.digitsToNat [a], []) else none
  | [] => none

def takeByte (b : UInt8) : Text → Option Text
  | a :: rest => if a == b then some rest else none
  | [] => none

def isLeap (year : Nat) : Bool :=
  year % 4 = 0 && (year % 100 ≠ 0 || year % 400 = 0)

def daysIn (year month : Nat) : Nat :=
  if month = 2 then (if isLeap year then 29 else 28)
  else if month = 4 || month = 6 || month = 9 || month = 11 then 30
  else 31

def afterDate (t : Text) : Option Text := do
  let (year, rest) := t.span Text.isDigit
  if year.length ≠ 4 then none
  let rest ← takeByte 0x2d rest
  let (month, rest) ← takeShort rest
  let rest ← takeByte 0x2d rest
  let (day, rest) ← takeShort rest
  if 1 ≤ month && month ≤ 12 && 1 ≤ day && day ≤ daysIn (Text.digitsToNat year) month then some rest
  else none

/-- Drops a fraction of a second; a lone point or comma stays. -/
def dropFraction : Text → Text
  | a :: b :: rest =>
    if (a == 0x2e || a == 0x2c) && Text.isDigit b then rest.dropWhile Text.isDigit else a :: b :: rest
  | rest => rest

def afterTime (t : Text) : Option Text := do
  let (hour, rest) ← takeShort t
  let rest ← takeByte 0x3a rest
  let (minute, rest) ← takeShort rest
  let rest ← takeByte 0x3a rest
  let (second, rest) ← takeShort rest
  if hour < 24 && minute < 60 && second < 60 then some (dropFraction rest) else none

def isZone : Text → Bool
  | [0x5a] => true
  | [sign, a, b, 0x3a, c, d] =>
    (sign == 0x2b || sign == 0x2d) && [a, b, c, d].all Text.isDigit &&
      Text.digitsToNat [a, b] ≤ 24 && Text.digitsToNat [c, d] ≤ 60
  | _ => false

/-- A date; a date, `T` and a time with its zone; or a date, blanks and a time without one. -/
def isTimestamp (t : Text) : Bool :=
  match afterDate t with
  | none => false
  | some [] => true
  | some (mark :: rest) =>
    if mark == 0x54 || mark == 0x74 then (afterTime rest).any isZone
    else if mark == 0x20 then (afterTime (rest.dropWhile (· == 0x20))).any (·.isEmpty)
    else false

end Population.Yaml

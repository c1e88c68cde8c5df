import Population.Text.Quoted

namespace Population

inductive IpFault
  | notAddress
  | noAddress
  | emptyZone
  | leadingZero
  | fieldRange
  | emptyField (place : Text)
  | tooLong
  | tooShort
  | character (place : Text)
  | groupLength (place : Text)
  | emptyGroup (place : Text)
  | embeddedPlace (place : Text)
  | embeddedRoom (place : Text)
  | wantColon (place : Text)
  | endsInColon (place : Text)
  | twoGaps (place : Text)
  | trailing (place : Text)
  | groupsMissing
  | emptyGap
  deriving DecidableEq, Repr

namespace IpFault

def text : IpFault → Text
  | .notAddress => "unable to parse IP"
  | .noAddress => "missing IPv6 address"
  | .emptyZone => "zone must be a non-empty string"
  | .leadingZero => "IPv4 field has octet with leading zero"
  | .fieldRange => "IPv4 field has value >255"
  | .emptyField _ => "IPv4 field must have at least one digit"
  | .tooLong => "IPv4 address too long"
  | .tooShort => "IPv4 address too short"
  | .character _ => "unexpected character"
  | .groupLength _ => "each group must have 4 or fewer digits"
  | .emptyGroup _ => "each colon-separated field must have at least one digit"
  | .embeddedPlace _ => "embedded IPv4 address must replace the final 2 fields of the address"
  | .embeddedRoom _ => "too many hex fields to fit an embedded IPv4 at the end of the address"
  | .wantColon _ => "unexpected character, want colon"
  | .endsInColon _ => "colon must be followed by more characters"
  | .twoGaps _ => "multiple :: in address"
  | .trailing _ => "trailing garbage after address"
  | .groupsMissing => "address string too short"
  | .emptyGap => "the :: must expand to at least one field of zeros"

/-- The rest of the text from where it goes wrong. -/
def place? : IpFault → Option Text
  | .emptyField t | .character t | .groupLength t | .emptyGroup t | .embeddedPlace t | .embeddedRoom t
  | .wantColon t | .endsInColon t | .twoGaps t | .trailing t => some t
  | _ => none

end IpFault

structure IpError where
  input : Text
  fault : IpFault
  deriving DecidableEq, Repr

def IpError.message (e : IpError) : Text :=
  let place : Text := match e.fault.place? with
    | some (b :: rest) => " (at " ++ Text.quoted (b :: rest) ++ ")"
    | _ => []
  "ParseAddr(" ++ e.input.quoted ++ "): " ++ e.fault.text ++ place

inductive IpKind
  | decimal
  | hexadecimal
  deriving DecidableEq, Repr

namespace IpKind

def point : UInt8 := 0x2e

def colon : UInt8 := 0x3a

def isHex (b : UInt8) : Bool :=
  Text.isDigit b || (0x41 ≤ b && b ≤ 0x46) || (0x61 ≤ b && b ≤ 0x66)

/-- Reads decimal fields. `before` is the byte before the text, `fields` counts the points passed, and
`digits` and `value` belong to the field that is being read. -/
def decimalFrom (before : Option UInt8) (fields digits value : Nat) : Text → Except IpFault Unit
  | [] => if fields < 3 then .error .tooShort else .ok ()
  | b :: rest =>
    if Text.isDigit b then
      let value' := 10 * value + (b.toNat - 0x30)
      if digits = 1 && value = 0 then .error .leadingZero
      else if 255 < value' then .error .fieldRange
      else decimalFrom (some b) fields (digits + 1) value' rest
    else if b == point then
      if before = none || rest.isEmpty || before = some point then .error (.emptyField (b :: rest))
      else if fields = 3 then .error .tooLong
      else decimalFrom (some b) (fields + 1) 0 0 rest
    else .error (.character (b :: rest))

def decimal? (t : Text) : Except IpFault Unit :=
  decimalFrom none 0 0 0 t

/-- The number of 16-bit fields of an address. -/
def groupCount : Nat := 8

/-- Reads up to `left` more groups. `gap` is whether a pair of colons was passed. The result is the number of
groups that are missing at the end. -/
def groups (gap : Bool) : (left : Nat) → Text → Except IpFault (Nat × Bool)
  | 0, t => if t.isEmpty then .ok (0, gap) else .error (.trailing t)
  | left + 1, t =>
    let (digits, rest) := t.span isHex
    if 4 < digits.length then .error (.groupLength t)
    else if digits.isEmpty then .error (.emptyGroup t)
    else if rest.head? = some point then
      if !gap && left + 1 ≠ 2 then .error (.embeddedPlace t)
      else if left = 0 then .error (.embeddedRoom t)
      else (decimal? t).map fun () => (left - 1, gap)
    else match rest with
      | [] => .ok (left, gap)
      | [b] => if b == colon then .error (.endsInColon rest) else .error (.wantColon rest)
      | b :: c :: more =>
        if b != colon then .error (.wantColon rest)
        else if c != colon then groups gap left (c :: more)
        else if gap then .error (.twoGaps (c :: more))
        else if more.isEmpty then .ok (left, true)
        else groups true left more

def hexadecimal? (t : Text) : Except IpFault Unit := do
  let whole := t.takeWhile (· != 0x25)
  if t.length = whole.length + 1 then throw .emptyZone
  let opens := whole.take 2 = [colon, colon]
  let rest := if opens then whole.drop 2 else whole
  if opens && rest.isEmpty then return ()
  let (missing, gap) ← groups opens groupCount rest
  if 0 < missing && !gap then throw .groupsMissing
  if missing = 0 && gap then throw .emptyGap

def ofText (t : Text) : Except IpError IpKind :=
  match t.find? fun b => b == point || b == colon || b == 0x25 with
  | none => .error ⟨t, .notAddress⟩
  | some b =>
    if b == point then ((decimal? t).map fun () => decimal).mapError (⟨t, ·⟩)
    else if b == colon then ((hexadecimal? t).map fun () => hexadecimal).mapError (⟨t, ·⟩)
    else .error ⟨t, .noAddress⟩

end IpKind

end Population

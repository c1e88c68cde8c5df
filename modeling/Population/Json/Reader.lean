import Population.Json.Basic

/-!
A text that is not valid UTF-8 is read with the replacement character in place of each stray byte, and so is an escaped
surrogate without its partner.
-/
namespace Population.Json

def isBlank (b : UInt8) : Bool :=
  b == 0x20 || b == 0x09 || b == 0x0a || b == 0x0d

def skipBlanks (t : Text) : Text :=
  t.dropWhile isBlank

def hexValue? (b : UInt8) : Option Nat :=
  if Text.isDigit b then some (b.toNat - 0x30)
  else if 0x61 ≤ b && b ≤ 0x66 then some (b.toNat - 0x57)
  else if 0x41 ≤ b && b ≤ 0x46 then some (b.toNat - 0x37)
  else none

def unit? (a b c d : UInt8) : Option Nat := do
  let w ← hexValue? a
  let x ← hexValue? b
  let y ← hexValue? c
  let z ← hexValue? d
  return ((w * 16 + x) * 16 + y) * 16 + z

/-- A piece of a text: a byte that stands for itself, or an escaped unit of 16 bits. -/
inductive Piece
  | byte (b : UInt8)
  | unit (n : Nat)

def isHigh (n : Nat) : Bool :=
  0xd800 ≤ n && n < 0xdc00

def isLow (n : Nat) : Bool :=
  0xdc00 ≤ n && n < 0xe000

def unitText (n : Nat) : Text :=
  Text.ofChar (if isHigh n || isLow n then Text.replacement else Char.ofNat n)

/-- Puts pieces together, two surrogates that belong together as one character. -/
def assemble : List Piece → Text
  | [] => []
  | .byte b :: rest => b :: assemble rest
  | .unit n :: .unit m :: rest =>
    if isHigh n && isLow m then
      Text.ofChar (Char.ofNat (0x10000 + (n - 0xd800) * 0x400 + (m - 0xdc00))) ++ assemble rest
    else unitText n ++ assemble (.unit m :: rest)
  | .unit n :: rest => unitText n ++ assemble rest

def letter? (b : UInt8) : Option UInt8 :=
  match b with
  | 0x22 | 0x5c | 0x2f => some b
  | 0x62 => some 0x08
  | 0x66 => some 0x0c
  | 0x6e => some 0x0a
  | 0x72 => some 0x0d
  | 0x74 => some 0x09
  | _ => none

/-- The pieces up to the closing quote, last one first, and the rest. -/
def pieces (seen : List Piece) : Text → Option (List Piece × Text)
  | [] => none
  | 0x22 :: rest => some (seen, rest)
  | 0x5c :: 0x75 :: a :: b :: c :: d :: rest => match unit? a b c d with
    | some n => pieces (.unit n :: seen) rest
    | none => none
  | 0x5c :: b :: rest => match letter? b with
    | some c => pieces (.byte c :: seen) rest
    | none => none
  | b :: rest => if b < 0x20 || b == 0x5c then none else pieces (.byte b :: seen) rest

/-- A text behind its opening quote. -/
def readText (t : Text) : Option (Text × Text) :=
  (pieces [] t).map fun (seen, rest) => (Text.ofChars (Text.chars (assemble seen.reverse)), rest)

def takeMinus (t : Text) : Text × Text :=
  match t with
  | 0x2d :: rest => ([0x2d], rest)
  | _ => ([], t)

def takeWhole : Text → Option (Text × Text)
  | 0x30 :: rest => some ([0x30], rest)
  | t =>
    let (digits, rest) := t.span Text.isDigit
    if digits.isEmpty then none else some (digits, rest)

def takeFraction : Text → Option (Text × Text)
  | 0x2e :: rest =>
    let (digits, rest) := rest.span Text.isDigit
    if digits.isEmpty then none else some (0x2e :: digits, rest)
  | t => some ([], t)

def takeSign : Text → Text × Text
  | 0x2b :: rest => ([0x2b], rest)
  | 0x2d :: rest => ([0x2d], rest)
  | t => ([], t)

def takeExponent : Text → Option (Text × Text)
  | [] => some ([], [])
  | mark :: rest =>
    if mark == 0x65 || mark == 0x45 then
      let (sign, rest) := takeSign rest
      let (digits, rest) := rest.span Text.isDigit
      if digits.isEmpty then none else some (mark :: (sign ++ digits), rest)
    else some ([], mark :: rest)

def readNumber (t : Text) : Option (Json × Text) := do
  let (minus, rest) := takeMinus t
  let (whole, rest) ← takeWhole rest
  let (fraction, rest) ← takeFraction rest
  let (exponent, rest) ← takeExponent rest
  return (.number (minus ++ whole ++ fraction ++ exponent), rest)

def readWord (word : Text) (value : Json) (t : Text) : Option (Json × Text) :=
  if word.isPrefixOf t then some (value, t.drop word.length) else none

mutual

/-- A value and the rest. `depth` bounds the steps. -/
def readValue : (depth : Nat) → Text → Option (Json × Text)
  | 0, _ => none
  | depth + 1, t => match skipBlanks t with
    | 0x22 :: rest => (readText rest).map fun (t, rest) => (.text t, rest)
    | 0x5b :: rest => match skipBlanks rest with
      | 0x5d :: rest => some (.array [], rest)
      | rest => (readItems depth rest).map fun (items, rest) => (.array items, rest)
    | 0x7b :: rest => match skipBlanks rest with
      | 0x7d :: rest => some (.object [], rest)
      | rest => (readMembers depth rest).map fun (members, rest) => (.object members, rest)
    | 0x6e :: rest => readWord "null" .null (0x6e :: rest)
    | 0x74 :: rest => readWord "true" (.bool true) (0x74 :: rest)
    | 0x66 :: rest => readWord "false" (.bool false) (0x66 :: rest)
    | rest => readNumber rest

def readItems : (depth : Nat) → Text → Option (List Json × Text)
  | 0, _ => none
  | depth + 1, t => match readValue depth t with
    | none => none
    | some (item, rest) => match skipBlanks rest with
      | 0x5d :: rest => some ([item], rest)
      | 0x2c :: rest => (readItems depth rest).map fun (items, rest) => (item :: items, rest)
      | _ => none

def readMembers : (depth : Nat) → Text → Option (List (Text × Json) × Text)
  | 0, _ => none
  | depth + 1, t => match skipBlanks t with
    | 0x22 :: rest => match readText rest with
      | none => none
      | some (name, rest) => match skipBlanks rest with
        | 0x3a :: rest => match readValue depth rest with
          | none => none
          | some (value, rest) => match skipBlanks rest with
            | 0x7d :: rest => some ([(name, value)], rest)
            | 0x2c :: rest =>
              (readMembers depth rest).map fun (members, rest) => ((name, value) :: members, rest)
            | _ => none
        | _ => none
    | _ => none

end

def parse? (t : Text) : Option Json :=
  match readValue (2 * t.length + 2) t with
  | some (value, rest) => if (skipBlanks rest).isEmpty then some value else none
  | none => none

end Population.Json

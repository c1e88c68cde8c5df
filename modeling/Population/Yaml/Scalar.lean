import Population.Yaml.Pen
import Population.Yaml.Plain
import Population.Yaml.Style
import Population.Yaml.Timestamp

/-!
A text is bare where it is read as a text, a literal block where it has several lines, and in quotes otherwise. Bytes
that are no text are written in base 64.
-/
namespace Population.Yaml

def readsAsText (t : Text) : Bool :=
  match t with
  | [] => false
  | b :: _ =>
    if reservedWords.contains t then false
    else if b == 0x2e then !(underscoresSeparate t && isFloat (t.filter (· != 0x5f)))
    else if Text.isDigit b || b == 0x2b || b == 0x2d then
      let plain := t.filter (· != 0x5f)
      !(isTimestamp t || isInteger plain || isFloat plain || isMarkedSigned "0b" 2 plain ||
        isMarkedSigned "0o" 8 plain)
    else true

/-- Whether a text need not be quoted to stay a text for old and new readers. -/
def isBare (t : Text) : Bool :=
  readsAsText t && !isSexagesimal t && !oldTruthWords.contains t

def base64Digit (n : Nat) : UInt8 :=
  if n < 26 then (0x41 + n).toUInt8
  else if n < 52 then (0x61 + (n - 26)).toUInt8
  else if n < 62 then (0x30 + (n - 52)).toUInt8
  else if n = 62 then 0x2b
  else 0x2f

def base64 : Text → Text
  | a :: b :: c :: rest =>
    let n := (a.toNat * 256 + b.toNat) * 256 + c.toNat
    [n / 262144, n / 4096 % 64, n / 64 % 64, n % 64].map base64Digit ++ base64 rest
  | [a, b] =>
    let n := (a.toNat * 256 + b.toNat) * 4
    [n / 4096, n / 64 % 64, n % 64].map base64Digit ++ "="
  | [a] =>
    let n := a.toNat * 16
    [n / 64, n % 64].map base64Digit ++ "=="
  | [] => []

def chunks (width : Nat) (t : Text) : List Text :=
  if _h : t.length = 0 ∨ width = 0 then []
  else t.take width :: chunks width (t.drop width)
termination_by t.length
decreasing_by simp only [List.length_drop]; omega

def base64Width : Nat := 70

def base64Lines (t : Text) : Text :=
  let digits := base64 t
  if digits.length < base64Width then digits else Text.lines (chunks base64Width digits)

structure Scalar where
  tag : Option (List Char)
  style : Style
  chars : List Char
  deriving DecidableEq, Repr

namespace Scalar

def bare (t : Text) : Scalar :=
  ⟨none, .bare, t.chars⟩

/-- A text of several lines is a literal block. -/
def ofChars (tag : Option (List Char)) (short : Style) (cs : List Char) : Scalar :=
  ⟨tag, if cs.contains '\n' then .literal else short, cs⟩

def ofText (t : Text) : Scalar :=
  if t.isValid then ofChars none (if isBare t then .bare else .double) t.chars
  else ofChars (some "!!binary".toList) .bare (base64Lines t).chars

/-- The scalar that stands for the name of an entry, quoted if it would be read as something else than a text.
It has to be a text. -/
def ofName? (t : Text) : Option Scalar :=
  if t.isValid then some (ofChars none (if readsAsText t then .bare else .double) t.chars) else none

/-- A bare scalar that merges mappings keeps its meaning by a tag. -/
def ofRead (tag : Option (List Char)) (style : Style) (cs : List Char) : Scalar :=
  let merges : Bool := style = .bare && cs = ['<', '<']
  ⟨tag.or (if merges then some "!!merge".toList else none), style, cs⟩

def isBlock (s : Scalar) : Bool :=
  s.style.fit false s.chars = .literal

def asRead (s : Scalar) : Scalar :=
  ofRead s.tag (s.style.fit false s.chars) s.chars

def escapeLetter? : Char → Option Char
  | '\x00' => some '0'
  | '\x07' => some 'a'
  | '\x08' => some 'b'
  | '\x09' => some 't'
  | '\x0a' => some 'n'
  | '\x0b' => some 'v'
  | '\x0c' => some 'f'
  | '\x0d' => some 'r'
  | '\x1b' => some 'e'
  | '"' => some '"'
  | '\\' => some '\\'
  | '\u0085' => some 'N'
  | '\u00a0' => some '_'
  | '\u2028' => some 'L'
  | '\u2029' => some 'P'
  | _ => none

def upperHex (width n : Nat) : List Char :=
  (Text.hex width n).chars.map Char.toUpper

def escape (c : Char) : List Char :=
  match escapeLetter? c with
  | some letter => ['\\', letter]
  | none =>
    if c.toNat ≤ 0xff then '\\' :: 'x' :: upperHex 2 c.toNat
    else if c.toNat ≤ 0xffff then '\\' :: 'u' :: upperHex 4 c.toNat
    else '\\' :: 'U' :: upperHex 8 c.toNat

def needsEscape (c : Char) : Bool :=
  !isShown c || isBreak c || c == '"' || c == '\\'

/-- What stands between double quotes. Behind a byte order mark nothing stands as it is. -/
def escaped (cs : List Char) : List Char :=
  let all : Bool := cs.head? = some '\ufeff'
  cs.flatMap fun c => if all || needsEscape c then escape c else [c]

/-- What stands between single quotes. A line feed ends a line and leaves an empty one behind it. -/
def writeQuoted (indent : Nat) (broken : Bool) : List Char → Pen → Pen
  | [], p => p
  | c :: rest, p =>
    if isBreak c then
      let p := if !broken && c == '\n' then p.endLine c else p
      writeQuoted indent true rest (p.endLine c)
    else
      let p := if broken then p.indent indent else p
      let p := if c == '\'' then p.put c else p
      writeQuoted indent false rest { p.put c with fresh := false }

/-- The lines of a literal block. The break that a text begins with also ends the heading. -/
def writeLines (indent : Nat) (broken : Bool) : List Char → Pen → Pen
  | [], p => p
  | c :: rest, p =>
    if isBreak c then writeLines indent true rest (p.endLine c)
    else
      let p := if broken then p.indent indent else p
      writeLines indent false rest { p.put c with fresh := false }

/-- How a literal block treats the breaks at its end. -/
def chomping (cs : List Char) : List Char :=
  match cs.reverse with
  | [] => ['-']
  | [c] => if isBreak c then ['+'] else ['-']
  | c :: d :: _ => if !isBreak c then ['-'] else if isBreak d then ['+'] else []

/-- The indentation of a literal block is named where its first line does not show it. -/
def indentHint (step : Nat) (cs : List Char) : List Char :=
  if cs.head?.any (fun c => c == ' ' || isBreak c) then (Text.ofNat step).chars else []

def writeTag (s : Scalar) (p : Pen) : Pen :=
  match s.tag with
  | none => p
  | some tag => p.word tag

def write (step indent : Nat) (isKey : Bool) (s : Scalar) (p : Pen) : Pen :=
  let p := s.writeTag p
  match s.style.fit isKey s.chars with
  | .bare => p.word s.chars
  | .single => (writeQuoted indent false s.chars (p.word ['\''])).glue ['\'']
  | .double => p.word ('"' :: escaped s.chars ++ ['"'])
  | .literal =>
    let p := (p.word ['|']).glue (indentHint step s.chars ++ chomping s.chars)
    writeLines indent true s.chars { p with spaced := true }

/-- Whether a name fits in front of its value: on one line, and short enough to be found there. -/
def isShort (s : Scalar) : Bool :=
  !s.chars.any isBreak && (Text.ofChars s.chars).length ≤ 128

end Scalar

end Population.Yaml

import Population.Text.Blank
import Population.Text.Naming

/-!
Texts in quotes and texts over several lines are templates: between their marks stand literal characters and sequences
in braces, in which there are tokens again. A text is scanned by its bytes, each read as one character, since only
those of ASCII have a part in the syntax.
-/
namespace Population.Settings

inductive Sign
  | openBrace
  | closeBrace
  | openBracket
  | closeBracket
  | openParen
  | closeParen
  | dot
  | comma
  | ellipsis
  | assign
  | equal
  | notEqual
  | less
  | lessEqual
  | greater
  | greaterEqual
  | arrow
  | colon
  | doubleColon
  | question
  | bang
  | and
  | or
  | plus
  | minus
  | star
  | slash
  | percent
  deriving DecidableEq, Repr

inductive Token
  | name (t : Text)
  | number (t : Text)
  | sign (s : Sign)
  | newline
  | openQuote
  | closeQuote
  /-- The start of a text over several lines, which may be freed of its common margin. -/
  | openLines (flush : Bool)
  | closeLines
  /-- Characters of a template, after its escapes have been replaced. -/
  | literal (t : Text)
  /-- The start of a value in a template, which may take the blanks before it away. -/
  | openValue (trim : Bool)
  | openDirective (trim : Bool)
  /-- The end of a value or directive, which may take the blanks behind it away. -/
  | closeSequence (trim : Bool)
  deriving DecidableEq, Repr

/-- What the scanner is inside of, innermost first. -/
inductive Frame
  /-- A sequence of a template, in which braces are open. -/
  | sequence (opened : Nat)
  | quoted
  /-- A text over several lines that ends with a marker on a line of its own. -/
  | lines (marker : Text) (atStart : Bool)
  deriving DecidableEq, Repr

namespace Token

def ofBytes (t : Text) : List Char :=
  t.map fun b => Char.ofNat b.toNat

def toBytes (cs : List Char) : Text :=
  cs.map fun c => c.toNat.toUInt8

def decode? (cs : List Char) : Option (Char × Nat) :=
  (Text.decode? (toBytes (cs.take 4))).map fun (c, more) => (c, more + 1)

def nameLength : (steps : Nat) → List Char → Nat
  | 0, _ => 0
  | steps + 1, cs => match decode? cs with
    | some (c, size) =>
      if Text.continuesName c || c == '-' then size + nameLength steps (cs.drop size) else 0
    | none => 0

def takeName (cs : List Char) : Option (Text × List Char) :=
  match decode? cs with
  | none => none
  | some (c, _) =>
    if Text.startsName c || c == '_' then
      let length := nameLength cs.length cs
      some (toBytes (cs.take length), cs.drop length)
    else none

/-- Digits, points and exponents, last one first, and the rest. -/
def takeNumberFrom (seen : List Char) : List Char → List Char × List Char
  | [] => (seen, [])
  | c :: rest =>
    if c.isDigit || c == '.' then takeNumberFrom (c :: seen) rest
    else if c == 'e' || c == 'E' then match rest with
      | [] => (seen, c :: rest)
      | d :: more =>
        if d.isDigit then takeNumberFrom (d :: c :: seen) more
        else if d == '+' || d == '-' then match more with
          | [] => (seen, c :: rest)
          | e :: more => if e.isDigit then takeNumberFrom (e :: d :: c :: seen) more else (seen, c :: rest)
        else (seen, c :: rest)
    else (seen, c :: rest)

/-- A number, which does not end in points, and the rest. -/
def takeNumber (cs : List Char) : Text × List Char :=
  let (seen, rest) := takeNumberFrom [] cs
  let points := seen.takeWhile (· == '.')
  (toBytes (seen.drop points.length).reverse, points ++ rest)

/-- What follows the end of a comment between two marks. -/
def afterComment : List Char → Option (List Char)
  | [] => none
  | '*' :: '/' :: rest => some rest
  | _ :: rest => afterComment rest

def isHex (c : Char) : Bool :=
  c.isDigit || ('a' ≤ c && c ≤ 'f') || ('A' ≤ c && c ≤ 'F')

def hexValue (digits : List Char) : Nat :=
  digits.foldl (fun n c =>
    16 * n + (if c.isDigit then c.toNat - 0x30 else if 'a' ≤ c then c.toNat - 0x57 else c.toNat - 0x37)) 0

/-- The character of so many hexadecimal digits; a surrogate is none. -/
def coded? (size : Nat) (cs : List Char) : Option Char :=
  let digits := cs.take size
  let n := hexValue digits
  if digits.length = size && digits.all isHex && n.isValidChar then some (Char.ofNat n) else none

def escape? : List Char → Option (Text × List Char)
  | 'n' :: rest => some ([0x0a], rest)
  | 'r' :: rest => some ([0x0d], rest)
  | 't' :: rest => some ([0x09], rest)
  | '"' :: rest => some ([0x22], rest)
  | '\\' :: rest => some ([0x5c], rest)
  | 'u' :: rest => (coded? 4 rest).map fun c => (Text.ofChar c, rest.drop 4)
  | 'U' :: rest => (coded? 8 rest).map fun c => (Text.ofChar c, rest.drop 8)
  | _ => none

/-- Literal characters in quotes up to a sequence or the closing quote, and the rest. The bytes so far are
last first. -/
def quotedFrom (seen : Text) : (steps : Nat) → List Char → Option (Text × List Char)
  | 0, _ => none
  | steps + 1, cs => match cs with
    | [] => none
    | '"' :: _ => some (seen.reverse, cs)
    | '\n' :: _ => none
    | '\x0d' :: _ => none
    | '\\' :: rest => match escape? rest with
      | some (t, rest) => quotedFrom (t.reverse ++ seen) steps rest
      | none => none
    | '$' :: '$' :: '\x7b' :: rest => quotedFrom (0x7b :: 0x24 :: seen) steps rest
    | '%' :: '%' :: '\x7b' :: rest => quotedFrom (0x7b :: 0x25 :: seen) steps rest
    | '$' :: '\x7b' :: _ => some (seen.reverse, cs)
    | '%' :: '\x7b' :: _ => some (seen.reverse, cs)
    | c :: rest => quotedFrom (c.toNat.toUInt8 :: seen) steps rest

/-- Literal characters on a line up to a sequence or behind its end, and the rest. -/
def lineFrom (seen : Text) : List Char → Option (Text × List Char)
  | [] => none
  | '\n' :: rest => some ((0x0a :: seen).reverse, rest)
  | '\x0d' :: '\n' :: rest => some ((0x0a :: 0x0d :: seen).reverse, rest)
  | '\x0d' :: _ => none
  | '$' :: '$' :: '\x7b' :: rest => lineFrom (0x7b :: 0x24 :: seen) rest
  | '%' :: '%' :: '\x7b' :: rest => lineFrom (0x7b :: 0x25 :: seen) rest
  | '$' :: '\x7b' :: rest => some (seen.reverse, '$' :: '\x7b' :: rest)
  | '%' :: '\x7b' :: rest => some (seen.reverse, '%' :: '\x7b' :: rest)
  | c :: rest => lineFrom (c.toNat.toUInt8 :: seen) rest

/-- The marker behind the two signs that start a text over several lines, and the line after it. -/
def marker? (cs : List Char) : Option (Text × List Char) :=
  match takeName cs with
  | some (marker, '\n' :: rest) => some (marker, rest)
  | some (marker, '\x0d' :: '\n' :: rest) => some (marker, rest)
  | _ => none

/-- Signs of two and more characters come before their parts. -/
def signs : List (List Char × Sign) :=
  [(['.', '.', '.'], .ellipsis), (['=', '='], .equal), (['=', '>'], .arrow), (['!', '='], .notEqual),
    (['<', '='], .lessEqual), (['>', '='], .greaterEqual), (['&', '&'], .and), (['|', '|'], .or),
    ([':', ':'], .doubleColon), (['['], .openBracket), ([']'], .closeBracket), (['('], .openParen),
    ([')'], .closeParen), (['.'], .dot), ([','], .comma), (['='], .assign), (['<'], .less), (['>'], .greater),
    ([':'], .colon), (['?'], .question), (['!'], .bang), (['+'], .plus), (['-'], .minus), (['*'], .star),
    (['/'], .slash), (['%'], .percent)]

def word? (cs : List Char) : Option (Token × List Char) :=
  match signs.find? fun (spelling, _) => spelling.isPrefixOf cs with
  | some (spelling, s) => some (.sign s, cs.drop spelling.length)
  | none => (takeName cs).map fun (t, rest) => (.name t, rest)

/-- A step of the scanner: the tokens it finds, what it is inside of then, and the rest. -/
abbrev Step := List Token × List Frame × List Char

def lineComment (stack : List Frame) (cs : List Char) : Step :=
  match cs.dropWhile (· != '\n') with
  | [] => ([], stack, [])
  | _ :: rest => ([.newline], stack, rest)

def close? (trim : Bool) (rest : List Char) : List Frame → Option Step
  | .sequence 0 :: stack => some ([.closeSequence trim], stack, rest)
  | _ => none

/-- A step outside of the literal parts of templates. -/
def codeStep (stack : List Frame) (cs : List Char) : Option Step :=
  match cs with
  | [] => none
  | ' ' :: rest => some ([], stack, rest)
  | '\t' :: rest => some ([], stack, rest)
  | '\n' :: rest => some ([.newline], stack, rest)
  | '\x0d' :: '\n' :: rest => some ([.newline], stack, rest)
  | '#' :: rest => some (lineComment stack rest)
  | '/' :: '/' :: rest => some (lineComment stack rest)
  | '/' :: '*' :: rest => match afterComment rest with
    | some rest => some ([], stack, rest)
    | none => none
  | '"' :: rest => some ([.openQuote], .quoted :: stack, rest)
  | '\x7b' :: rest => some ([.sign .openBrace], (match stack with
    | .sequence opened :: stack => .sequence (opened + 1) :: stack
    | _ => stack), rest)
  | '\x7d' :: rest => match stack with
    | .sequence (opened + 1) :: stack => some ([.sign .closeBrace], .sequence opened :: stack, rest)
    | [] => some ([.sign .closeBrace], [], rest)
    | _ => close? false rest stack
  | '~' :: '\x7d' :: rest => close? true rest stack
  | '<' :: '<' :: rest =>
    let (flush, rest) : Bool × List Char := match rest with
      | '-' :: rest => (true, rest)
      | _ => (false, rest)
    (marker? rest).map fun (marker, rest) => ([.openLines flush], .lines marker true :: stack, rest)
  | c :: rest =>
    if c.isDigit then
      let (t, rest) := takeNumber (c :: rest)
      some ([.number t], stack, rest)
    else (word? (c :: rest)).map fun (token, rest) => ([token], stack, rest)

def opening? : List Char → Option (Token × List Char)
  | '$' :: '\x7b' :: '~' :: rest => some (.openValue true, rest)
  | '$' :: '\x7b' :: rest => some (.openValue false, rest)
  | '%' :: '\x7b' :: '~' :: rest => some (.openDirective true, rest)
  | '%' :: '\x7b' :: rest => some (.openDirective false, rest)
  | _ => none

def quotedStep (stack : List Frame) (cs : List Char) : Option Step :=
  match opening? cs with
  | some (token, rest) => some ([token], .sequence 0 :: .quoted :: stack, rest)
  | none => match cs with
    | '"' :: rest => some ([.closeQuote], stack, rest)
    | _ => match quotedFrom [] (cs.length + 1) cs with
      | some (t, rest) => if t.isValid then some ([.literal t], .quoted :: stack, rest) else none
      | none => none

/-- A line is the marker only if it is so from its start. -/
def linesStep (marker : Text) (atStart : Bool) (stack : List Frame) (cs : List Char) : Option Step :=
  match opening? cs with
  | some (token, rest) => some ([token], .sequence 0 :: .lines marker false :: stack, rest)
  | none => match lineFrom [] cs with
    | none => none
    | some (t, rest) =>
      let whole := t.getLast? = some 0x0a
      if whole && atStart && t.trim = marker then some ([.closeLines, .newline], stack, rest)
      else if t.isValid then some ([.literal t], .lines marker whole :: stack, rest)
      else none

def step? (stack : List Frame) (cs : List Char) : Option Step :=
  match stack with
  | .quoted :: stack => quotedStep stack cs
  | .lines marker atStart :: stack => linesStep marker atStart stack cs
  | stack => codeStep stack cs

/-- The tokens of bytes, those so far last first; nothing may be left open. -/
def scanFrom : (steps : Nat) → (seen : List Token) → List Frame → List Char → Option (List Token)
  | 0, _, _, _ => none
  | _ + 1, seen, stack, [] => if stack.isEmpty then some seen.reverse else none
  | steps + 1, seen, stack, c :: cs => match step? stack (c :: cs) with
    | some (found, stack, rest) => scanFrom steps (found.reverse ++ seen) stack rest
    | none => none

/-- The tokens of a text, which may start with a byte order mark; none if something in it is no token. -/
def scan? (t : Text) : Option (List Token) :=
  let t := if t.startsWith [0xef, 0xbb, 0xbf] then t.drop 3 else t
  scanFrom (t.length + 1) [] [] (ofBytes t)

end Token

end Population.Settings

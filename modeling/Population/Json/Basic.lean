import Population.Text.Symbol

namespace Population

inductive Json
  | null
  | bool (b : Bool)
  | number (digits : Text)
  | text (t : Text)
  | array (items : List Json)
  | object (members : List (Text × Json))
  deriving Repr

namespace Json

/-- Which characters of a text are escaped, apart from the quote, the backslash, other control
characters and line separators. -/
structure Escapes where
  letters : List (Char × Char)
  coded : List Char

def webSafe : Escapes where
  letters := [('\x08', 'b'), ('\x0c', 'f'), ('\n', 'n'), ('\x0d', 'r'), ('\t', 't')]
  coded := ['<', '>', '&']

def logLine : Escapes where
  letters := [('\n', 'n'), ('\x0d', 'r'), ('\t', 't')]
  coded := []

def logList : Escapes :=
  { webSafe with coded := [] }

def codeEscape (c : Char) : Text :=
  "\\u" ++ Text.hex 4 c.toNat

def escapeChar (e : Escapes) (c : Char) : Text :=
  if c == '"' || c == '\\' then Text.ofChars ['\\', c]
  else match e.letters.lookup c with
    | some letter => Text.ofChars ['\\', letter]
    | none =>
      if c.toNat < 0x20 || c == '\u2028' || c == '\u2029' || e.coded.contains c then codeEscape c
      else Text.ofChar c

def escapeSymbol (e : Escapes) : Symbol → Text
  | .char c => escapeChar e c
  | .stray _ => codeEscape Text.replacement

def quoted (e : Escapes) (t : Text) : Text :=
  "\"" ++ t.symbols.flatMap (escapeSymbol e) ++ "\""

mutual

/-- A value without white space. -/
def toText (e : Escapes) : Json → Text
  | .null => "null"
  | .bool b => if b then "true" else "false"
  | .number digits => digits
  | .text t => quoted e t
  | .array items => "[" ++ Text.join "," (itemTexts e items) ++ "]"
  | .object members => "\x7b" ++ Text.join "," (memberTexts e members) ++ "\x7d"

def itemTexts (e : Escapes) : List Json → List Text
  | [] => []
  | item :: rest => toText e item :: itemTexts e rest

def memberTexts (e : Escapes) : List (Text × Json) → List Text
  | [] => []
  | (name, value) :: rest => (quoted e name ++ ":" ++ toText e value) :: memberTexts e rest

end

end Json

end Population

import Population.Text.Printable

namespace Population.Text

def controlLetter? : Char → Option Char
  | '\x07' => some 'a'
  | '\x08' => some 'b'
  | '\x0c' => some 'f'
  | '\x0a' => some 'n'
  | '\x0d' => some 'r'
  | '\x09' => some 't'
  | '\x0b' => some 'v'
  | _ => none

/-- A character by its code: two, four or eight hexadecimal digits, as many as it needs. -/
def codeEscape (c : Char) : Text :=
  if c.toNat < 0x20 || c.toNat == 0x7f then "\\x" ++ hex 2 c.toNat
  else if c.toNat < 0x10000 then "\\u" ++ hex 4 c.toNat
  else "\\U" ++ hex 8 c.toNat

def escapeChar (c : Char) : Text :=
  if c == '"' || c == '\\' then ofChars ['\\', c]
  else if isPrintable c then ofChar c
  else match controlLetter? c with
    | some letter => ofChars ['\\', letter]
    | none => codeEscape c

def escapeSymbol : Symbol → Text
  | .char c => escapeChar c
  | .stray b => "\\x" ++ hex 2 b.toNat

def quoted (t : Text) : Text :=
  "\"" ++ t.symbols.flatMap escapeSymbol ++ "\""

end Population.Text

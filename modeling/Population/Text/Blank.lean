import Population.Text.Symbol

namespace Population.Text

/-- The characters with the White_Space property. -/
def blankChars : List Char :=
  ['\x20', '\x09', '\x0a', '\x0b', '\x0c', '\x0d', '\u0085', '\u00a0', '\u1680', '\u2000', '\u2001',
    '\u2002', '\u2003', '\u2004', '\u2005', '\u2006', '\u2007', '\u2008', '\u2009', '\u200a', '\u2028',
    '\u2029', '\u202f', '\u205f', '\u3000']

def blankCodes : List Text :=
  blankChars.map ofChar

def blankCodesReversed : List Text :=
  blankCodes.map List.reverse

/-- What is left of a text after the first of the codes that it starts with. -/
def dropCode? (codes : List Text) (t : Text) : Option Text :=
  codes.findSome? fun code => if code.isPrefixOf t then some (t.drop code.length) else none

def strip (codes : List Text) (t : Text) : Text :=
  match dropCode? codes t with
  | none => t
  | some rest => if rest.length < t.length then strip codes rest else t
termination_by t.length

def trimStart (t : Text) : Text :=
  strip blankCodes t

def trimEnd (t : Text) : Text :=
  (strip blankCodesReversed t.reverse).reverse

def trim (t : Text) : Text :=
  t.trimStart.trimEnd

/-- The bytes before the first blank character, with those already passed over, and the rest. -/
def untilBlankFrom (seen : Text) : Text → Text × Text
  | [] => (seen.reverse, [])
  | b :: rest =>
    if (dropCode? blankCodes (b :: rest)).isSome then (seen.reverse, b :: rest)
    else untilBlankFrom (b :: seen) rest

def fields (t : Text) : List Text :=
  let (field, rest) := untilBlankFrom [] t.trimStart
  if field.isEmpty then []
  else if rest.length < t.length then field :: fields rest
  else [field]
termination_by t.length

end Population.Text

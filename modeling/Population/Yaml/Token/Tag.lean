import Population.Yaml.Token.Basic

namespace Population.Yaml

def afterName : List Char :=
  ['?', ':', ',', ']', '\x7d', '%', '@', '\x60']

def readName (c : Cursor) : Except Problem Cursor :=
  let first := c.advance 1
  let after := first.skipWhile isNameChar
  if after.mark = first.mark || !(after.atGap || after.rest.head?.any afterName.contains) then
    .error ⟨.nameExpected, c.mark.line, after.mark.line⟩
  else .ok after

def isTagChar (c : Char) : Bool :=
  isNameChar c ||
    [';', '/', '?', ':', '@', '&', '=', '+', '$', ',', '.', '!', '~', '*', '\'', '(', ')', '[', ']'].contains c

def octetCount (octet : Nat) : Nat :=
  if octet < 0x80 then 1
  else if 0xc0 ≤ octet && octet < 0xe0 then 2
  else if 0xe0 ≤ octet && octet < 0xf0 then 3
  else if 0xf0 ≤ octet && octet < 0xf8 then 4
  else 0

/-- Passes over the characters of a tag that began in line `start`. `owed` octets of an escaped character are
missing. -/
def tagFrom (start owed : Nat) (m : Mark) : List Char → Except Problem Cursor
  | '%' :: a :: b :: rest =>
    let octet := hexValue a * 16 + hexValue b
    let next := ((m.past '%').past a).past b
    if !(isHexDigit a && isHexDigit b) then .error ⟨.octetExpected, start, m.line⟩
    else if owed = 0 then
      if octetCount octet = 0 then .error ⟨.octetLeading, start, m.line⟩
      else tagFrom start (octetCount octet - 1) next rest
    else if 0x80 ≤ octet && octet < 0xc0 then tagFrom start (owed - 1) next rest
    else .error ⟨.octetTrailing, start, m.line⟩
  | c :: rest =>
    if owed ≠ 0 || c == '%' then .error ⟨.octetExpected, start, m.line⟩
    else if isTagChar c then tagFrom start 0 (m.past c) rest
    else .ok ⟨m, c :: rest⟩
  | [] => if owed ≠ 0 then .error ⟨.octetExpected, start, m.line⟩ else .ok ⟨m, []⟩

/-- The place at which the characters of a tag have to begin, and whether there may be none: behind an angle
bracket, behind a handle between two marks, or behind a single mark. -/
def tagBody (c : Cursor) : Cursor × Bool :=
  let first := c.advance 1
  let name := first.skipWhile isNameChar
  if first.rest.head? = some '<' then (first.advance 1, false)
  else if name.rest.head? = some '!' then (name.advance 1, false)
  else (name, true)

def readTag (c : Cursor) : Except Problem (List Char × Cursor) :=
  let start := c.mark.line
  let (body, mayBeEmpty) := tagBody c
  match tagFrom start 0 body.mark body.rest with
  | .error e => .error e
  | .ok after =>
    if after.mark = body.mark && !mayBeEmpty then .error ⟨.tagEmpty, start, after.mark.line⟩
    else
      let quoted : Bool := (c.advance 1).rest.head? = some '<'
      if quoted && after.rest.head? ≠ some '>' then .error ⟨.tagUnclosed, start, after.mark.line⟩
      else
        let after := if quoted then after.advance 1 else after
        if after.atGap then .ok (c.rest.take (after.mark.index - c.mark.index), after)
        else .error ⟨.tagUnended, start, after.mark.line⟩

end Population.Yaml

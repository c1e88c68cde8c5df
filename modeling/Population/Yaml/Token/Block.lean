import Population.Yaml.Token.Basic

namespace Population.Yaml

inductive Chomping
  | strip
  | clip
  | keep
  deriving DecidableEq, Repr

def Chomping.ofChar? : Char → Option Chomping
  | '-' => some .strip
  | '+' => some .keep
  | _ => none

/-- The marks behind the bar: a digit for the indentation and a sign for the end, in either order. A missing
digit is zero. -/
structure Heading where
  indent : Nat
  chomping : Chomping
  size : Nat
  deriving DecidableEq, Repr

def Heading.ofChars? (cs : List Char) : Option Heading :=
  let sign := fun cs : List Char => cs.head?.bind Chomping.ofChar?
  let digit := fun cs : List Char => (cs.head?.filter Char.isDigit).map hexValue
  let first := sign cs
  let cs := if first.isSome then cs.drop 1 else cs
  match digit cs with
  | some 0 => none
  | some n =>
    let last := if first.isSome then none else sign (cs.drop 1)
    some ⟨n, (first.or last).getD .clip, 1 + first.toList.length + last.toList.length⟩
  | none => some ⟨0, first.getD .clip, first.toList.length⟩

structure Block where
  seen : List Char
  last : Option Char
  /-- The breaks of empty lines behind that, last one first. -/
  more : List Char
  /-- The indentation; zero if no line has shown it yet. -/
  indent : Nat
  deepest : Nat
  inLine : Bool
  deriving DecidableEq, Repr

namespace Block

def start (indent : Nat) : Block :=
  ⟨[], none, [], indent, 0, false⟩

/-- The breaks between the last line and a new one are kept. -/
def openLine (b : Block) : Block :=
  { b with seen := b.more ++ b.last.toList ++ b.seen, last := none, more := [], inLine := true }

def close (b : Block) : Chomping → List Char
  | .strip => b.seen.reverse
  | .clip => (b.last.toList ++ b.seen).reverse
  | .keep => (b.more ++ b.last.toList ++ b.seen).reverse

def indents (b : Block) (column : Nat) : Bool :=
  b.indent = 0 || column < b.indent

/-- Reads the lines of a block that began in line `start`. Its indentation is `least` at least. -/
def readFrom (start least : Nat) (b : Block) (m : Mark) : List Char → Except Problem (Block × Cursor)
  | [] => .ok (b, ⟨m, []⟩)
  | c :: rest =>
    if b.inLine then
      if isBreak c then
        readFrom start least { b with last := some (keptBreak c), inLine := false } (m.past c) rest
      else readFrom start least { b with seen := c :: b.seen } (m.past c) rest
    else
      let deepest := max b.deepest m.column
      if b.indents m.column && c == ' ' then readFrom start least { b with deepest } (m.past c) rest
      else if b.indents m.column && c == '\t' then .error ⟨.tabIndent, start, m.line⟩
      else if isBreak c then
        readFrom start least { b with more := keptBreak c :: b.more, deepest } (m.past c) rest
      else
        let indent := if b.indent = 0 then max deepest least else b.indent
        if m.column = indent then
          let opened := ({ b with indent } : Block).openLine
          readFrom start least { opened with seen := c :: opened.seen } (m.past c) rest
        else .ok (b, ⟨m, c :: rest⟩)

end Block

def readBlock (outer : Option Nat) (c : Cursor) : Except Problem (List Char × Cursor) :=
  let start := c.mark.line
  let fail := fun (cause : Cause) (m : Mark) => .error ⟨cause, start, m.line⟩
  let c := c.advance 1
  match Heading.ofChars? c.rest with
  | none => fail .zeroIndent c.mark
  | some heading =>
    let c := (c.advance heading.size).skipWhile isBlank
    let c := if c.rest.head? = some '#' then c.skipWhile (!isBreak ·) else c
    if c.rest.head?.all isBreak then
      let c := c.advance 1
      let indent := if heading.indent = 0 then 0 else outer.getD 0 + heading.indent
      let least := outer.elim 1 (· + 1)
      match Block.readFrom start least (Block.start indent) c.mark c.rest with
      | .error e => .error e
      | .ok (block, after) => .ok (block.close heading.chomping, after)
    else fail .blockHeading c.mark

end Population.Yaml

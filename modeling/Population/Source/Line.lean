import Population.Text.Blank

namespace Population

structure Line where
  /-- Counts from one. -/
  number : Nat
  /-- The bytes of the lines before, each counted with one byte for its end. -/
  offset : Nat
  raw : Text
  /-- `raw` without its comment and the blanks before that, but with its indentation. -/
  text : Text
  deriving DecidableEq, Repr

def Line.trimmed (l : Line) : Text :=
  l.text.trim

structure SourceFile where
  name : Text
  bytes : Text
  lines : List Line
  deriving DecidableEq, Repr

namespace SourceFile

/-- The longest line that is read, with a carriage return at its end and without its line feed. -/
def lineLimit : Nat := 1048575

def physicalLines (bytes : Text) : List Text :=
  let pieces := Text.splitByte 0x0a bytes
  if pieces.getLast? = some [] then pieces.dropLast else pieces

def dropReturn (line : Text) : Text :=
  if line.getLast? = some 0x0d then line.dropLast else line

/-- A line without its comment and without the blanks, tabs and carriage returns before it. -/
def stripComment (line : Text) : Text :=
  Text.trimRight (fun b => Text.isBlankOrTab b || b == 0x0d) (line.takeWhile (· != 0x23))

/-- What has been read: the number and offset of the next line, and the lines with content, last first. -/
structure Reading where
  next : Nat
  offset : Nat
  seen : List Line

def Reading.add (r : Reading) (raw : Text) : Reading where
  next := r.next + 1
  offset := r.offset + raw.length + 1
  seen :=
    let text := stripComment raw
    if text.isEmpty then r.seen else ⟨r.next, r.offset, raw, text⟩ :: r.seen

/-- The content lines of a file. Reading ends before the first line above the limit. -/
def contentLines (bytes : Text) : List Line :=
  let readable := (physicalLines bytes).takeWhile (·.length ≤ lineLimit)
  ((readable.map dropReturn).foldl Reading.add ⟨1, 0, []⟩).seen.reverse

def ofBytes (name bytes : Text) : SourceFile :=
  ⟨name, bytes, contentLines bytes⟩

/-- The offset of a line by its number, zero for a line without content. -/
def offset (f : SourceFile) (number : Int) : Nat :=
  match f.lines.find? fun l => (l.number : Int) = number with
  | some l => l.offset
  | none => 0

end SourceFile

end Population

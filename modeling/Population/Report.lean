import Population.Fault
import Population.Source.Line

namespace Population

/-- The bytes from `start` up to but not including `stop`. -/
structure ByteRange where
  start : Int
  stop : Int
  deriving DecidableEq, Repr

namespace ByteRange

def isEmpty (s : ByteRange) : Bool :=
  s.start = s.stop

def holds (s : ByteRange) (byte : Int) : Bool :=
  s.start ≤ byte && byte < s.stop

/-- Whether a bound of one range lies in the other. An empty range meets none. -/
def meets (s t : ByteRange) : Bool :=
  !s.isEmpty && !t.isEmpty && (s.holds t.start || s.holds t.stop || t.holds s.start || t.holds s.stop)

def orByte (s : ByteRange) : ByteRange :=
  if s.isEmpty then { s with stop := s.stop + 1 } else s

end ByteRange

/-- A line of a file as it is shown, without its end. -/
structure ShownLine where
  number : Nat
  start : Nat
  text : Text
  deriving DecidableEq, Repr

namespace ShownLine

def range (l : ShownLine) : ByteRange :=
  ⟨l.start, l.start + l.text.length⟩

def padLeft (width : Nat) (t : Text) : Text :=
  List.replicate (width - t.length) 0x20 ++ t

def toText (l : ShownLine) : Text :=
  padLeft 4 (Text.ofNat l.number) ++ ": " ++ l.text ++ "\n"

/-- Lines from a number and a byte on. A carriage return inside of a line counts as the end of one. -/
def ofLines (number start : Nat) : List Text → List ShownLine
  | [] => []
  | raw :: rest =>
    let text := SourceFile.dropReturn raw
    ⟨number, start, text⟩ :: ofLines (number + text.count 0x0d + 1) (start + raw.length + 1) rest

def ofSource (f : SourceFile) : List ShownLine :=
  ofLines 1 0 (SourceFile.physicalLines f.bytes)

end ShownLine

namespace Region

def range (r : Region) : ByteRange :=
  ⟨r.startByte, r.endByte⟩

/-- The lines that a region meets, under its file and line. -/
def excerpt (r : Region) (source : Option SourceFile) : Text :=
  let place : Text := "  on " ++ r.file ++ " line " ++ Text.ofInt r.line ++ ":\n"
  match source with
  | none => place ++ "  (source code not available)\n\n"
  | some f =>
    let shown := (ShownLine.ofSource f).filter fun l => l.range.meets r.range.orByte
    place ++ shown.flatMap ShownLine.toText ++ "\n"

end Region

def Diagnostic.toText (d : Diagnostic) (source : Option SourceFile) : Text :=
  let excerpt : Text := match d.subject with
    | some r => r.excerpt source
    | none => []
  let detail : Text := if d.detail.isEmpty then [] else d.detail ++ "\n\n"
  "Error: " ++ d.summary ++ "\n\n" ++ excerpt ++ detail

namespace Failure

def locatedFault? (f : Failure) : Option Fault :=
  f.fault?.filter fun known => !known.file.isEmpty

def report (sources : List SourceFile) (f : Failure) : Text :=
  match f.locatedFault? with
  | none => "Error: " ++ f.message ++ "\n"
  | some known =>
    let source := sources.find? (·.name = known.file)
    let offset := (source.map fun s => s.offset known.line).getD 0
    (known.diagnostic offset).toText source

end Failure

end Population

import Population.Yaml.Scalar

namespace Population.Yaml

inductive Node
  | scalar (s : Scalar)
  | sequence (items : List Node)
  | mapping (entries : List (Scalar × Node))

/-- Where a node stands: the indentation of the collection around it, and whether that is a sequence. -/
structure Place where
  indent : Option Nat
  inSequence : Bool
  deriving DecidableEq, Repr

namespace Place

def top : Place :=
  ⟨none, false⟩

/-- The indentation in a place; in an item of a sequence it only passes the mark. -/
def inside (step first : Nat) (place : Place) : Nat :=
  match place.indent with
  | none => first
  | some n => if place.inSequence then n + 2 else step * ((n + step) / step)

end Place

namespace Node

/-- The name of an entry with its colon. A name that is long or has several lines gets a mark of its own. -/
def writeName (step indent : Nat) (name : Scalar) (p : Pen) : Pen :=
  let inner := (⟨some indent, false⟩ : Place).inside step step
  if name.isShort then (name.write step inner true p).glue [':']
  else ((name.write step inner false (p.lead '?')).indent indent).lead ':'

mutual

def write (step : Nat) (place : Place) : Node → Pen → Pen
  | .scalar s, p => s.write step (place.inside step step) false p
  | .sequence [], p => p.word ['[', ']']
  | .sequence (item :: rest), p => writeItems step (place.inside step 0) (item :: rest) p
  | .mapping [], p => p.word ['\x7b', '\x7d']
  | .mapping (entry :: rest), p => writeEntries step (place.inside step 0) (entry :: rest) p

def writeItems (step indent : Nat) : List Node → Pen → Pen
  | [], p => p
  | item :: rest, p =>
    writeItems step indent rest (item.write step ⟨some indent, true⟩ ((p.indent indent).lead '-'))

def writeEntries (step indent : Nat) : List (Scalar × Node) → Pen → Pen
  | [], p => p
  | (name, value) :: rest, p =>
    writeEntries step indent rest
      (value.write step ⟨some indent, false⟩ (writeName step indent name (p.indent indent)))

end

def document (step : Nat) (n : Node) : Text :=
  ((n.write step Place.top Pen.start).indent 0).text

end Node

end Population.Yaml

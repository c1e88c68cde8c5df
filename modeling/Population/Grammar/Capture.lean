import Population.Text.Blank
import Population.Text.Quoted

namespace Population

structure Capture where
  name : Text
  text : Text
  deriving DecidableEq, Repr

inductive Transform
  | none
  /-- Writes multiplicities as `1`, `M`, `1c` and `Mc`. -/
  | multiplicity
  /-- Writes marks that are present as `true`. -/
  | flags
  deriving DecidableEq, Repr

structure UnknownMultiplicity where
  text : Text
  deriving DecidableEq, Repr

def UnknownMultiplicity.message (e : UnknownMultiplicity) : Text :=
  "unknown multiplicity " ++ e.text.quoted

namespace Capture

/-- The arrow heads of a perspective and the multiplicities they stand for. -/
def multiplicities : List (Text × Text) :=
  [(">", "1"), (">>", "M"), (">0", "1c"), (">>0", "Mc")]

def multiplicity? (t : Text) : Option Text :=
  multiplicities.lookup t

def multiplicityNames : List Text :=
  ["a_mult", "p_mult"]

def flagNames : List Text :=
  ["derived", "constrained"]

/-- Writes out multiplicities up to the first that is unknown. -/
def writeMultiplicities : List Capture → List Capture × Option UnknownMultiplicity
  | [] => ([], none)
  | c :: rest =>
    if c.name ∈ multiplicityNames then
      match multiplicity? c.text with
      | none => (c :: rest, some ⟨c.text⟩)
      | some m =>
        let (rest, e) := writeMultiplicities rest
        ({ c with text := m } :: rest, e)
    else
      let (rest, e) := writeMultiplicities rest
      (c :: rest, e)

def writeFlag (c : Capture) : Capture :=
  if c.name ∈ flagNames then { c with text := "true" } else c

def transform (t : Transform) (cs : List Capture) : List Capture × Option UnknownMultiplicity :=
  match t with
  | .none => (cs, none)
  | .multiplicity => writeMultiplicities cs
  | .flags => (cs.map writeFlag, none)

def get? (cs : List Capture) (name : Text) : Option Text :=
  (cs.find? (·.name = name)).map (·.text)

/-- The pieces of a list, without blanks around them and without empty ones. An empty separator stands
between every two symbols. -/
def split (sep t : Text) : List Text :=
  let pieces := if sep.isEmpty then t.eachSymbol else Text.splitAround sep t
  (pieces.map Text.trim).filter (!·.isEmpty)

end Capture

end Population

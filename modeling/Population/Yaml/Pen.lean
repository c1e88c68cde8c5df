import Population.Text.Symbol

/-!
A pen knows where it stands in its line, so that words are kept apart and a new line begins only where one is needed.
-/
namespace Population.Yaml

structure Pen where
  /-- What is written, last byte first. -/
  ink : Text
  column : Nat
  /-- The next word needs no space in front. -/
  spaced : Bool
  /-- The line so far holds indentation and marks of entries only. -/
  fresh : Bool
  deriving DecidableEq, Repr

namespace Pen

def start : Pen :=
  ⟨[], 0, true, true⟩

def text (p : Pen) : Text :=
  p.ink.reverse

def put (p : Pen) (c : Char) : Pen :=
  { p with ink := (Text.ofChar c).reverse ++ p.ink, column := p.column + 1 }

def puts (p : Pen) (cs : List Char) : Pen :=
  cs.foldl put p

def endLine (p : Pen) (c : Char) : Pen :=
  { p.put c with column := 0, fresh := true }

/-- Goes to a column, on a new line unless this one can be used. -/
def indent (p : Pen) (n : Nat) : Pen :=
  let p := if !p.fresh || n < p.column || (n = p.column && !p.spaced) then p.endLine '\n' else p
  { p.puts (List.replicate (n - p.column) ' ') with spaced := true }

def space (p : Pen) : Pen :=
  if p.spaced then p else p.put ' '

/-- The mark of an entry: another one may follow in the same line. -/
def lead (p : Pen) (c : Char) : Pen :=
  { p.space.put c with spaced := false }

def glue (p : Pen) (cs : List Char) : Pen :=
  { p.puts cs with spaced := false, fresh := false }

def word (p : Pen) (cs : List Char) : Pen :=
  p.space.glue cs

end Pen

end Population.Yaml

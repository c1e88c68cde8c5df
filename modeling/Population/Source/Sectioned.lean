import Population.Text.Quoted
import Population.Source.Line

namespace Population

structure FileSection where
  name : Text
  lines : List Line
  deriving DecidableEq, Repr

structure SectionedFile where
  name : Text
  sections : List FileSection
  deriving DecidableEq, Repr

inductive SectioningError
  | duplicate (file : Text) (line : Nat) (name : Text)
  | beforeFirst (file : Text) (line : Nat) (text : Text)
  deriving DecidableEq, Repr

def SectioningError.message : SectioningError → Text
  | .duplicate file line name =>
    file ++ ":" ++ Text.ofNat line ++ ": duplicate section " ++ name.quoted
  | .beforeFirst file line text =>
    file ++ ":" ++ Text.ofNat line ++ ": content before first section: " ++ text.quoted

namespace SectionedFile

/-- The word between brackets, with white space around the brackets and the word. -/
def header? (t : Text) : Option Text :=
  match t.dropWhile Text.isSpace with
  | 0x5b :: rest =>
    let (word, rest) := (rest.dropWhile Text.isSpace).span Text.isWord
    match rest.dropWhile Text.isSpace with
    | 0x5d :: rest => if !word.isEmpty && rest.all Text.isSpace then some word else none
    | _ => none
  | _ => none

/-- Takes in one line. Sections and their lines are kept last first. -/
def add (file : Text) (seen : List FileSection) (l : Line) : Except SectioningError (List FileSection) :=
  match header? l.text, seen with
  | some name, seen =>
    if seen.any (·.name = name) then .error (.duplicate file l.number name)
    else .ok (⟨name, []⟩ :: seen)
  | none, s :: rest => .ok ({ s with lines := l :: s.lines } :: rest)
  | none, [] => .error (.beforeFirst file l.number l.trimmed)

def ofSource (f : SourceFile) : Except SectioningError SectionedFile := do
  let seen ← f.lines.foldlM (add f.name) []
  return ⟨f.name, seen.reverse.map fun s => { s with lines := s.lines.reverse }⟩

def ofBytes (name bytes : Text) : Except SectioningError SectionedFile :=
  ofSource (.ofBytes name bytes)

def section? (f : SectionedFile) (name : Text) : Option (List Line) :=
  (f.sections.find? (·.name = name)).map (·.lines)

def linesOf (f : SectionedFile) (name : Text) : List Line :=
  (f.section? name).getD []

end SectionedFile

end Population

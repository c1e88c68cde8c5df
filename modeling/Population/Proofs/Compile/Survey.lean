import Population.Compile.Build
import Population.Proofs.Compile.Reading
import Population.Proofs.Model.Identifier

/-!
A domain ends with the next header that closes it. What is declared after that, while no other domain has been named,
still stands in the domain; it has lapsed.
-/
namespace Population

inductive Declared
  | cls (name : Text)
  | tagged (cls : Text) (number : Int) (attr : Text)
  | reference (rnum : Int) (cls attr : Text) (target : Target)
  deriving DecidableEq

namespace Declared

def isTag : Declared → Bool
  | .tagged .. => true
  | _ => false

def class? : Declared → Option Text
  | .cls name => some name
  | _ => none

def reference? : Declared → Option (Int × Text × Text × Target)
  | .reference rnum owner attr target => some (rnum, owner, attr, target)
  | _ => none

end Declared

def classesIn (ds : List Declared) : List Text :=
  ds.filterMap Declared.class?

def referencesIn (ds : List Declared) : List (Int × Text × Text × Target) :=
  ds.filterMap Declared.reference?

namespace Matched

variable (m : Matched)

def tags (cls : Text) : List Declared :=
  (Analyzer.tagNumbers (m.text "id")).map fun n => .tagged cls n (m.text "name")

def references (cls : Text) : List Declared :=
  match m.int? "rnum", Target.parseList (m.text "to_attrs") with
  | some rnum, .ok targets => targets.map (.reference rnum cls (m.text "name"))
  | _, _ => []

/-- What a line declares in a class, or outside of classes. -/
def declares (cls : Option Text) : List Declared :=
  match m.form.kind, cls with
  | .classDef, _ => [.cls (m.text "name")]
  | .ownAttribute, some cls => m.tags cls
  | .reference, some cls => m.references cls ++ m.tags cls
  | _, _ => []

/-- The class that the lines after a line stand in, if they are of the same domain. -/
def entered (cls : Option Text) : Option Text :=
  match m.form.kind with
  | .subsystem => none
  | .classDef => some (m.text "name")
  | _ => cls

end Matched

/-- The declarations of a domain, those before its end and those after it. -/
structure DomainSurvey where
  name : Text
  kept : List Declared
  lapsed : List Declared
  deriving DecidableEq

namespace DomainSurvey

def declared (d : DomainSurvey) : List Declared :=
  d.kept ++ d.lapsed

def add (d : DomainSurvey) (ended : Bool) (ds : List Declared) : DomainSurvey :=
  if ended then { d with lapsed := d.lapsed ++ ds } else { d with kept := d.kept ++ ds }

theorem name_add (d : DomainSurvey) (ended : Bool) (ds : List Declared) : (d.add ended ds).name = d.name := by
  cases ended <;> rfl

end DomainSurvey

structure Surveyor where
  home : Option Section
  cls : Option Text
  ended : Bool
  current : Option DomainSurvey
  done : List DomainSurvey

namespace Surveyor

def start : Surveyor :=
  ⟨none, none, false, none, []⟩

def domains (r : Surveyor) : List DomainSurvey :=
  r.done ++ r.current.toList

def statement (r : Surveyor) (m : Matched) : Surveyor :=
  if m.form.kind = .domain then
    { r with cls := none, ended := false, current := some ⟨m.text "name", [], []⟩, done := r.domains }
  else { r with cls := m.entered r.cls, current := r.current.map (·.add r.ended (m.declares r.cls)) }

def line (r : Surveyor) (l : Line) : Surveyor :=
  match Section.header? l.trimmed, r.home with
  | some word, _ => match Section.ofName? word with
    | some home => { r with home := some home, ended := r.ended || Building.closesDomain home }
    | none => r
  | none, some home => match Statement.matchLine home.name l.trimmed with
    | .ok m => r.statement m
    | .error _ => r
  | none, none => r

end Surveyor

def SourceFile.survey (f : SourceFile) : List DomainSurvey :=
  (f.lines.foldl Surveyor.line .start).domains

/-- The domains that files name, with what is declared in them. -/
def survey (fs : List SourceFile) : List DomainSurvey :=
  fs.flatMap (·.survey)

namespace Surveyor

theorem line_header {r : Surveyor} {l : Line} {word : Text} {home : Section}
    (hword : Section.header? l.trimmed = some word) (hhome : Section.ofName? word = some home) :
    r.line l = { r with home := some home, ended := r.ended || Building.closesDomain home } := by
  simp only [line, hword, hhome]

theorem line_statement {r : Surveyor} {l : Line} {home : Section} {m : Matched}
    (hword : Section.header? l.trimmed = none) (hhome : r.home = some home)
    (hm : Statement.matchLine home.name l.trimmed = .ok m) : r.line l = r.statement m := by
  simp only [line, hword, hhome, hm]

end Surveyor

end Population

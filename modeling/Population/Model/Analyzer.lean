import Population.Grammar.Statement
import Population.Model.Graph
import Population.Model.Identifier
import Population.Model.Target
import Population.Script.Command

namespace Population

structure Subsystem where
  name : Text
  floor : Int
  ceiling : Int
  deriving DecidableEq, Repr

structure ModelClass where
  name : Text
  subsystem : Text
  /-- Zero if the class has no number. -/
  number : Int
  identifiers : Identifier.Group
  origin : Origin
  deriving DecidableEq, Repr

/-- One target of a referential attribute, until its relationship is formalized. -/
structure PendingReference where
  rnum : Int
  fromClass : Text
  fromAttr : Text
  target : Target
  constrained : Bool
  subsystem : Text
  origin : Origin
  deriving DecidableEq, Repr

inductive Ends
  | association (active passive : Text)
  | generalization (superclass : Text)
  deriving DecidableEq, Repr

structure Relationship where
  rnum : Int
  ends : Ends
  subsystem : Text
  origin : Origin
  deriving DecidableEq, Repr

structure Dependency where
  source : Text
  target : Text
  origin : Origin
  deriving DecidableEq, Repr

structure Analyzer where
  domain : Text
  active : Bool
  subsystems : List Subsystem
  /-- In the order in which they were declared. -/
  classes : List ModelClass
  /-- In the order in which they were read. -/
  references : List PendingReference
  declared : List Relationship
  last : Option Relationship
  graph : Graph
  dependencies : List Dependency
  deriving DecidableEq, Repr

/-- A line with its values, and the scope after those that set it. -/
structure Statement where
  /-- `none` if the line is of no known kind. -/
  kind : Option StatementKind
  fields : List Field
  scope : Scope
  origin : Origin

inductive AnalysisError
  | unhandled
  | notWhole (field : Text)
  | floorAboveCeiling (name : Text) (floor ceiling : Int)
  | duplicateSubsystem (name domain : Text)
  | duplicateClass (name domain : Text)
  | classNumber (number : Int) (name : Text) (subsystem : Subsystem)
  | outsideClass
  | identifier (e : IdentifierError)
  | noRelationship (attr : Text)
  | target (e : TargetError)
  | duplicateRelationship (rnum line : Int)
  | noActive
  | perspective (rnum : Int) (passive active : Text)
  | noSuperclass
  | ownSubclass (name : Text) (rnum : Int)
  /-- A subclass that is not a text. Lines have one only under a schema that types subclasses otherwise. -/
  | subclassNotText
  deriving DecidableEq, Repr

namespace AnalysisError

def range (s : Subsystem) : Text :=
  " range " ++ Text.ofInt s.floor ++ "-" ++ Text.ofInt s.ceiling

def message : AnalysisError → Text
  | .unhandled => "no semantic handling for expression kind unknown"
  | .notWhole field => "field " ++ field ++ " is not a whole number in range"
  | .floorAboveCeiling name floor ceiling =>
    "subsystem " ++ name.quoted ++ range ⟨name, floor, ceiling⟩ ++ " has floor above ceiling"
  | .duplicateSubsystem name domain =>
    "subsystem " ++ name.quoted ++ " already declared in domain " ++ domain.quoted
  | .duplicateClass name domain =>
    "class " ++ name.quoted ++ " already declared in domain " ++ domain.quoted
  | .classNumber number name subsystem =>
    "class number " ++ Text.ofInt number ++ " of " ++ name.quoted ++ " is outside subsystem " ++
      subsystem.name.quoted ++ range subsystem
  | .outsideClass => "attribute declared outside of a class"
  | .identifier e => e.message
  | .noRelationship attr => "reference " ++ attr.quoted ++ " has no usable relationship number"
  | .target e => e.message
  | .duplicateRelationship rnum line =>
    "relationship R" ++ Text.ofInt rnum ++ " already declared on line " ++ Text.ofInt line
  | .noActive => "passive perspective without an active perspective"
  | .perspective rnum passive active =>
    "passive perspective of R" ++ Text.ofInt rnum ++ " must read " ++ passive ++ " ... " ++ active
  | .noSuperclass => "subclasses without a superclass"
  | .ownSubclass name rnum =>
    "class " ++ name.quoted ++ " cannot be a subclass of itself in R" ++ Text.ofInt rnum
  | .subclassNotText => "a subclass is not a text"

/-- The fault of an error. A subclass that is not a text has none: no comparison with it is defined. -/
def fault? : AnalysisError → Option Fault
  | .subclassNotText => none
  | e => some (.plain .semantic e.message)

end AnalysisError

namespace Statement

def value? (st : Statement) (name : Text) : Option Value :=
  (st.fields.find? (·.name = name)).map (·.value)

def text (st : Statement) (name : Text) : Text :=
  match st.value? name with
  | some v => v.textOrEmpty
  | none => []

def int? (st : Statement) (name : Text) : Option Int :=
  match st.value? name with
  | some (.number n) => n.toInt64?
  | _ => none

def whole (st : Statement) (name : Text) : Except AnalysisError Int :=
  match st.int? name with
  | some n => .ok n
  | none => .error (.notWhole name)

def flag (st : Statement) (name : Text) : Bool :=
  match st.value? name with
  | some (.bool b) => b
  | _ => false

end Statement

namespace Analyzer

def opened (domain : Text) : Analyzer where
  domain
  active := true
  subsystems := []
  classes := []
  references := []
  declared := []
  last := none
  graph := .empty
  dependencies := []

def idle : Analyzer :=
  { opened [] with active := false }

def class? (a : Analyzer) (name : Text) : Option ModelClass :=
  a.classes.find? (·.name = name)

def subsystem? (a : Analyzer) (name : Text) : Option Subsystem :=
  a.subsystems.find? (·.name = name)

def relationship? (a : Analyzer) (rnum : Int) : Option Relationship :=
  a.declared.find? (·.rnum = rnum)

def referencesOf (a : Analyzer) (rnum : Int) : List PendingReference :=
  a.references.filter (·.rnum = rnum)

def addSubsystem (a : Analyzer) (st : Statement) : Except AnalysisError Analyzer := do
  let name := st.text "name"
  let floor ← st.whole "floor"
  let ceiling ← st.whole "ceiling"
  if ceiling < floor then throw (.floorAboveCeiling name floor ceiling)
  if (a.subsystem? name).isSome then throw (.duplicateSubsystem name a.domain)
  return { a with
    subsystems := a.subsystems ++ [⟨name, floor, ceiling⟩]
    graph := a.graph.addNode name }

/-- The number of a class, which must lie in the range of its subsystem if that is known. -/
def classNumber (a : Analyzer) (st : Statement) (name subsystem : Text) : Except AnalysisError Int := do
  if (st.value? "cnum").isNone then return 0
  let number ← st.whole "cnum"
  match a.subsystem? subsystem with
  | some s =>
    if number < s.floor || s.ceiling < number then throw (.classNumber number name s)
    return number
  | none => return number

def addClass (a : Analyzer) (st : Statement) : Except AnalysisError Analyzer := do
  let name := st.scope.text .innerClass
  if (a.class? name).isSome then throw (.duplicateClass name a.domain)
  let subsystem := st.scope.text .subsystem
  let number ← a.classNumber st name subsystem
  return { a with classes := a.classes ++ [⟨name, subsystem, number, [], st.origin⟩] }

def currentClass (a : Analyzer) (st : Statement) : Except AnalysisError ModelClass :=
  let name := st.scope.text .innerClass
  match a.class? name with
  | some c => if name.isEmpty then .error .outsideClass else .ok c
  | none => .error .outsideClass

def tagged (c : ModelClass) (attr tag : Text) : Except AnalysisError Identifier.Group :=
  if attr = Identifier.placeholder then .error (.identifier .reserved)
  else if tag.isEmpty then .ok c.identifiers
  else match Identifier.parseTag tag with
    | .error e => .error (.identifier e)
    | .ok numbers => (Identifier.merge c.identifiers attr numbers).mapError .identifier

def setIdentifiers (a : Analyzer) (name : Text) (group : Identifier.Group) : Analyzer :=
  { a with classes := a.classes.map fun c => if c.name = name then { c with identifiers := group } else c }

def addAttribute (a : Analyzer) (st : Statement) : Except AnalysisError Analyzer := do
  let c ← a.currentClass st
  let group ← tagged c (st.text "name") (st.text "id")
  return a.setIdentifiers c.name group

def pending (st : Statement) (c : ModelClass) (rnum : Int) (targets : List Target) :
    List PendingReference :=
  targets.map fun target =>
    ⟨rnum, c.name, st.text "name", target, st.flag "constrained", st.scope.text .subsystem, st.origin⟩

def crossing (st : Statement) (targets : List Target) : List Dependency :=
  let source := st.scope.text .subsystem
  targets.filterMap fun target => match target.subsystem with
    | none => none
    | some subsystem => if subsystem = source then none else some ⟨source, subsystem, st.origin⟩

def readReference (a : Analyzer) (st : Statement) :
    Except AnalysisError (ModelClass × Int × List Target) := do
  let c ← a.currentClass st
  match st.int? "rnum" with
  | none => throw (.noRelationship (st.text "name"))
  | some rnum =>
    let targets ← (Target.parseList (st.text "to_attrs")).mapError .target
    return (c, rnum, targets)

/-- Records a reference. It stays recorded even if the tag of its line is refused. -/
def addReference (a : Analyzer) (st : Statement) : Analyzer × Option AnalysisError :=
  match a.readReference st with
  | .error e => (a, some e)
  | .ok (c, rnum, targets) =>
    let a := { a with
      references := a.references ++ pending st c rnum targets
      dependencies := a.dependencies ++ crossing st targets }
    match tagged c (st.text "name") (st.text "id") with
    | .error e => (a, some e)
    | .ok group => (a.setIdentifiers c.name group, none)

def declare (a : Analyzer) (st : Statement) (ends : Ends) : Except AnalysisError Analyzer := do
  let rnum ← st.whole "rnum"
  match a.relationship? rnum with
  | some previous => throw (.duplicateRelationship rnum previous.origin.line)
  | none =>
    let r : Relationship := ⟨rnum, ends, st.scope.text .subsystem, st.origin⟩
    return { a with declared := a.declared ++ [r], last := some r }

/-- The passive perspective names the two classes of the last association in reverse. -/
def checkPassive (a : Analyzer) (st : Statement) : Except AnalysisError Unit :=
  match a.last with
  | some ⟨rnum, .association active passive, _, _⟩ =>
    if st.text "p_view" = passive && st.text "a_view" = active then .ok ()
    else .error (.perspective rnum passive active)
  | _ => .error .noActive

def checkItems (superclass : Text) (rnum : Int) : List Value → Except AnalysisError Unit
  | [] => .ok ()
  | .text t :: rest =>
    if t = superclass then .error (.ownSubclass t rnum) else checkItems superclass rnum rest
  | _ :: _ => .error .subclassNotText

/-- The items of a list of subclasses. Captured text is never converted to a null, so a list of them that is null, whose
items cannot be gone through, does not come up; it is read as an empty one here. -/
def checkSubclasses (a : Analyzer) (st : Statement) : Except AnalysisError Unit :=
  match a.last with
  | some ⟨rnum, .generalization superclass, _, _⟩ =>
    match st.value? "subclasses" with
    | some (.list _ items) => checkItems superclass rnum items
    | _ => .ok ()
  | _ => .error .noSuperclass

/-- The analyzer after a step that changes nothing when it fails. -/
def orKeep (a : Analyzer) : Except AnalysisError Analyzer → Analyzer × Option AnalysisError
  | .ok a => (a, none)
  | .error e => (a, some e)

/-- The analyzer after a statement, and what is wrong with the statement. -/
def handle (a : Analyzer) (st : Statement) : Analyzer × Option AnalysisError :=
  match st.kind with
  | none => (a, some .unhandled)
  | some .none | some .typeDef | some .bridge => (a, none)
  | some .domain => (opened (st.text "name"), none)
  | some .subsystem => a.orKeep (a.addSubsystem st)
  | some .classDef => a.orKeep (a.addClass st)
  | some .ownAttribute => a.orKeep (a.addAttribute st)
  | some .reference => a.addReference st
  | some .activePerspective =>
    a.orKeep (a.declare st (.association (st.text "a_class") (st.text "p_class")))
  | some .passivePerspective => a.orKeep ((a.checkPassive st).map fun _ => a)
  | some .superclass => a.orKeep (a.declare st (.generalization (st.text "superclass")))
  | some .subclasses => a.orKeep ((a.checkSubclasses st).map fun _ => a)

end Analyzer

end Population

import Population.Model.Analyzer

namespace Population

structure Emission where
  call : Text
  fields : List Field
  origin : Origin

inductive ClosingError
  | unknownSubsystem (name : Text)
  | dependency (e : GraphError)
  | undeclared (rnum : Int)
  | unknownClass (rnum : Int) (name : Text)
  | wrongSubsystem (cls subsystem : Text)
  deriving DecidableEq, Repr

namespace ClosingError

def fault (e : ClosingError) (o : Origin) : Fault :=
  let f : Fault := match e with
    | .unknownSubsystem name => .plain .semantic ("reference to unknown subsystem " ++ name.quoted)
    | .dependency e => .causedBy .semantic "bad subsystem dependency" e.message
    | .undeclared rnum =>
      .plain .semantic ("reference to undeclared relationship R" ++ Text.ofInt rnum)
    | .unknownClass rnum name =>
      .plain .semantic ("R" ++ Text.ofInt rnum ++ " refers to unknown class " ++ name.quoted)
    | .wrongSubsystem cls subsystem =>
      .plain .semantic ("class " ++ cls.quoted ++ " is not in subsystem " ++ subsystem.quoted)
  f.locate o.file o.line o.text

end ClosingError

namespace Analyzer

def formalizeCall : Text := "formalize_rel"

def addIdCall : Text := "add_attr_to_id"

def removeIdCall : Text := "remove_attr_from_id"

/-- Adds the recorded dependencies to the graph, up to the first that is refused. -/
def connect : Graph → List Dependency → Graph × Option (ClosingError × Origin)
  | g, [] => (g, none)
  | g, d :: rest =>
    if d.target ∉ g.nodes then (g, some (.unknownSubsystem d.target, d.origin))
    else match g.addEdge d.source d.target with
      | .ok g => connect g rest
      | .error e => (g, some (.dependency e, d.origin))

/-- The target of a reference is a class of the domain, and of the subsystem that is named. -/
def checkTarget (a : Analyzer) (r : PendingReference) : Except (ClosingError × Origin) Unit :=
  match a.class? r.target.cls with
  | none => .error (.unknownClass r.rnum r.target.cls, r.origin)
  | some c => match r.target.subsystem with
    | none => .ok ()
    | some subsystem =>
      if c.subsystem = subsystem then .ok ()
      else .error (.wrongSubsystem r.target.cls subsystem, r.origin)

/-- The command that formalizes a relationship by its references, the first of which is given apart. -/
def formalization (a : Analyzer) (rnum : Int) (first : PendingReference) (refs : List PendingReference) :
    Emission where
  call := formalizeCall
  fields :=
    [⟨"rnum", .ofInt rnum⟩,
      ⟨"ref_classes", .texts (refs.map (·.fromClass))⟩,
      ⟨"ref_attrs", .texts (refs.map (·.fromAttr))⟩,
      ⟨"to_classes", .texts (refs.map (·.target.cls))⟩,
      ⟨"to_attrs", .texts (refs.map (·.target.attr))⟩] ++
    (if refs.any (·.constrained) then [⟨"constrained", .bool true⟩] else []) ++
    [⟨"domain", .text a.domain⟩]
  origin := first.origin

def formalize (a : Analyzer) (rnum : Int) : Except (ClosingError × Origin) (Option Emission) :=
  match a.referencesOf rnum with
  | [] => .ok none
  | first :: rest => do
    if (a.relationship? rnum).isNone then throw (.undeclared rnum, first.origin)
    (first :: rest).forM a.checkTarget
    return some (a.formalization rnum first (first :: rest))

def pendingNumbers (a : Analyzer) : List Int :=
  (a.references.map (·.rnum)).eraseDups.mergeSort

def idCommand (call : Text) (a : Analyzer) (c : ModelClass) (number : Nat) (attr : Text) : Emission where
  call
  fields :=
    [⟨"class", .text c.name⟩, ⟨"id_num", .ofInt number⟩, ⟨"attr", .text attr⟩,
      ⟨"domain", .text a.domain⟩]
  origin := c.origin

/-- The commands that give a class its identifiers and take the placeholder out of the first. -/
def identification (a : Analyzer) (c : ModelClass) : List Emission :=
  let added := c.identifiers.zipIdx.flatMap fun (attrs, i) =>
    attrs.map fun attr => idCommand addIdCall a c (i + 1) attr
  added ++ [idCommand removeIdCall a c 1 Identifier.placeholder]

def emissions (a : Analyzer) : Except (ClosingError × Origin) (List Emission) := do
  let formalizations ← a.pendingNumbers.mapM a.formalize
  return formalizations.filterMap id ++ a.classes.flatMap a.identification

def finalize (a : Analyzer) : Analyzer × Except Fault (List Emission) :=
  if !a.active then (a, .ok [])
  else match connect a.graph a.dependencies with
    | (graph, some (e, o)) => ({ a with active := false, graph }, .error (e.fault o))
    | (graph, none) =>
      let a := { a with active := false, graph }
      (a, a.emissions.mapError fun (e, o) => e.fault o)

end Analyzer

end Population

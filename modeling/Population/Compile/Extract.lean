import Population.Grammar.Statement
import Population.Script.Scope

namespace Population

structure Extraction where
  fields : List Field
  params : List Field
  entries : List (Text × Value)

inductive ExtractError
  | unknownCall (form call : Text)
  | unknownType (field type : Text)
  | notParam (field call : Text)
  | badValue (field : Text) (e : ConvertError)
  deriving DecidableEq, Repr

def ExtractError.fault : ExtractError → Fault
  | .unknownCall form call =>
    .plain .semantic ("expression " ++ form ++ " targets unknown call " ++ call.quoted)
  | .unknownType field type =>
    .plain .semantic ("field " ++ field.quoted ++ " has unknown type " ++ type.quoted)
  | .notParam field call =>
    .plain .semantic ("field " ++ field.quoted ++ " is not a parameter of " ++ call)
  | .badValue field e => .causedBy .semantic ("bad value for " ++ field) e.message

namespace Extraction

def empty : Extraction :=
  ⟨[], [], []⟩

def captureType (s : Schema) (f : Form) (field : Text) (param : Option Param) :
    Except ExtractError AppType :=
  match f.fieldTypes.lookup field, param with
  | some hint, _ => match s.type? hint with
    | some type => .ok type
    | none => .error (.unknownType field hint)
  | none, some param => .ok param.type
  | none, none => .error (.notParam field (f.target.getD []))

/-- The value of a capture; that of a parameter that takes a list is split first. -/
def captureValue (f : Form) (type : AppType) (param : Option Param) (c : Capture) :
    Except ExtractError Value :=
  let converted :=
    if param.any (·.multiple) then type.convertList (f.split c.name c.text) else type.convert c.text
  converted.mapError (.badValue c.name)

def add (x : Extraction) (field : Field) : Option Param → Extraction
  | none => { x with fields := x.fields ++ [field] }
  | some param =>
    { fields := x.fields ++ [field]
      params := x.params ++ [field]
      entries := match param.scope with
        | none => x.entries
        | some scope => x.entries ++ [(scope, field.value)] }

def addCapture (s : Schema) (f : Form) (call : Option Call) (x : Extraction) (c : Capture) :
    Except ExtractError Extraction := do
  let param := call.bind (·.param? c.name)
  let type ← captureType s f c.name param
  let value ← captureValue f type param c
  return x.add ⟨c.name, value⟩ param

def targetCall (s : Schema) (f : Form) : Except ExtractError (Option Call) :=
  match f.target with
  | none => .ok none
  | some target => match s.call? target with
    | some call => .ok (some call)
    | none => .error (.unknownCall f.name target)

def ofCaptures (s : Schema) (f : Form) (cs : List Capture) : Except ExtractError Extraction := do
  let call ← targetCall s f
  cs.foldlM (addCapture s f call) empty

def applyScope (x : Extraction) (scope : Scope) : Except UnknownScope Scope :=
  x.entries.foldlM (fun scope (name, value) => scope.set name value) scope

end Extraction

end Population

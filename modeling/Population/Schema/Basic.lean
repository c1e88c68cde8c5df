import Population.Value.Convert

namespace Population

structure Param where
  name : Text
  type : AppType
  optional : Bool
  multiple : Bool
  scope : Option Text
  deriving DecidableEq, Repr

namespace Param

def arrow : Option Text → Text
  | none => []
  | some scope => "->" ++ scope

def toText (p : Param) : Text :=
  let dots : Text := if p.multiple then "..." else []
  let record := p.name ++ arrow p.scope ++ ":" ++ p.type.name ++ dots
  if p.optional then "[" ++ record ++ "]" else record

end Param

structure Call where
  metaclass : Text
  name : Text
  params : List Param
  deriving DecidableEq, Repr

namespace Call

def param? (c : Call) (name : Text) : Option Param :=
  c.params.find? (·.name = name)

def hasParam (c : Call) (name : Text) : Bool :=
  (c.param? name).isSome

def required (c : Call) : List Text :=
  (c.params.filter (!·.optional)).map (·.name)

def toText (c : Call) : Text :=
  c.name ++ "(" ++ Text.join ", " (c.params.map Param.toText) ++ ")"

end Call

structure Schema where
  types : List AppType
  calls : List Call
  deriving DecidableEq, Repr

inductive SchemaError
  | typeRecord
  | unknownUiType (name : Text)
  | duplicateType (name : Text)
  | metaclassRecord
  | duplicateMetaclass (name : Text)
  | duplicateCall (name : Text)
  | paramWithoutCall
  | paramRecord (record : Text)
  | paramNameMissing
  | paramTypeMissing (name : Text)
  | duplicateParam (name call : Text)
  | unknownType (param call type : Text)
  | unknownCall (name : Text)
  deriving DecidableEq, Repr

def SchemaError.message : SchemaError → Text
  | .typeRecord => "type record needs an app type and a ui type"
  | .unknownUiType name => "unknown ui type " ++ name.quoted
  | .duplicateType name => "duplicate type " ++ name.quoted
  | .metaclassRecord => "bad metaclass record"
  | .duplicateMetaclass name => "duplicate metaclass " ++ name.quoted
  | .duplicateCall name => "duplicate call " ++ name.quoted
  | .paramWithoutCall => "parameter with no metaclass"
  | .paramRecord record => "bad parameter record " ++ record.quoted
  | .paramNameMissing => "parameter name missing"
  | .paramTypeMissing name => "parameter type missing for " ++ name.quoted
  | .duplicateParam name call => "duplicate parameter " ++ name.quoted ++ " in " ++ call
  | .unknownType param call type =>
    "parameter " ++ param.quoted ++ " of " ++ call ++ " has unknown type " ++ type.quoted
  | .unknownCall name => "unknown call " ++ name.quoted

namespace Schema

def empty : Schema :=
  ⟨[], []⟩

def type? (s : Schema) (name : Text) : Option AppType :=
  s.types.find? (·.name = name)

def call? (s : Schema) (name : Text) : Option Call :=
  s.calls.find? (·.name = name)

def callOf? (s : Schema) (metaclass : Text) : Option Call :=
  s.calls.find? (·.metaclass = metaclass)

def addType (s : Schema) (t : AppType) : Except SchemaError Schema :=
  if (s.type? t.name).isSome then .error (.duplicateType t.name)
  else .ok { s with types := s.types ++ [t] }

/-- The name of the call of a metaclass that does not name one. -/
def defaultCall (metaclass : Text) : Text :=
  "new_" ++ metaclass

def addCall (s : Schema) (metaclass name : Text) : Except SchemaError Schema :=
  if (s.callOf? metaclass).isSome then .error (.duplicateMetaclass metaclass)
  else if (s.call? name).isSome then .error (.duplicateCall name)
  else .ok { s with calls := s.calls ++ [⟨metaclass, name, []⟩] }

def addParam (s : Schema) (call : Text) (type : Text) (p : AppType → Param) :
    Except SchemaError Schema :=
  match s.call? call with
  | none => .error (.unknownCall call)
  | some c =>
    let name := (p ⟨type, .string⟩).name
    if c.hasParam name then .error (.duplicateParam name call)
    else match s.type? type with
      | none => .error (.unknownType name call type)
      | some t =>
        let grown := { c with params := c.params ++ [p t] }
        .ok { s with calls := s.calls.map fun d => if d.name = call then grown else d }

def scopeFaults (s : Schema) (known : List Text) : List Text :=
  s.calls.flatMap fun c => c.params.filterMap fun p => match p.scope with
    | none => none
    | some scope =>
      if scope ∈ known then none
      else some (c.name ++ ": parameter " ++ p.name.quoted ++ " sets unknown scope " ++ scope.quoted)

end Schema

end Population

import Population.Schema.Basic
import Population.Script.Scope

namespace Population

/-- The line that began a command. -/
structure Origin where
  file : Text
  line : Int
  text : Text
  deriving DecidableEq, Repr

structure Command where
  call : Call
  origin : Origin
  /-- The values so far, in the order in which their parameters were first given. -/
  values : List Field
  /-- The parameters that lines gave, as opposed to the scope. -/
  explicit : List Text

inductive CommandError
  | complete (call : Text)
  | noParam (call name : Text)
  | suppliedTwice (call name : Text)
  deriving DecidableEq, Repr

def CommandError.message : CommandError → Text
  | .complete call => call ++ " is already complete"
  | .noParam call name => call ++ " has no parameter " ++ name.quoted
  | .suppliedTwice call name => "parameter " ++ name.quoted ++ " of " ++ call ++ " supplied twice"

namespace Command

def value? (c : Command) (name : Text) : Option Value :=
  (c.values.find? (·.name = name)).map (·.value)

def missing (c : Command) : List Text :=
  c.call.required.filter fun name => !c.values.any (·.name = name)

def completed (c : Command) : Bool :=
  c.missing.isEmpty

/-- Sets a value in place, or at the end if its name is new. -/
def setField (f : Field) : List Field → List Field
  | [] => [f]
  | g :: rest => if g.name = f.name then f :: rest else g :: setField f rest

/-- Checks that fields are parameters of a call and were not given before. -/
def checkFields (call : Call) : (given : List Text) → List Field → Except CommandError Unit
  | _, [] => .ok ()
  | given, f :: rest =>
    if !call.hasParam f.name then .error (.noParam call.name f.name)
    else if f.name ∈ given then .error (.suppliedTwice call.name f.name)
    else checkFields call (f.name :: given) rest

/-- Takes in the fields of a line: all of them, or none if one is refused. -/
def contribute (c : Command) (fields : List Field) : Except CommandError Command := do
  if c.completed then throw (.complete c.call.name)
  checkFields c.call c.explicit fields
  return { c with
    values := fields.foldl (fun values f => setField f values) c.values
    explicit := c.explicit ++ fields.map (·.name) }

def fromScope (call : Call) (scope : Option Scope) (origin : Origin) : Command where
  call
  origin
  values := ((scope.map Scope.fields).getD []).filter fun f => call.hasParam f.name
  explicit := []

def begin (call : Call) (scope : Option Scope) (fields : List Field) (origin : Origin) :
    Except CommandError Command := do
  checkFields call [] fields
  let c := fromScope call scope origin
  return { c with
    values := fields.foldl (fun values f => setField f values) c.values
    explicit := fields.map (·.name) }

def params (c : Command) : List Text :=
  if c.completed then c.values.map (·.name) else []

def arguments (c : Command) : List Field :=
  if c.completed then c.values else []

/-- The call with numbered places for its values. -/
def signature (c : Command) : Text :=
  let places : List Text := c.params.zipIdx.map fun (name, i) => name ++ " => $" ++ Text.ofNat (i + 1)
  c.call.name ++ "(" ++ Text.join ", " places ++ ")"

def toText (c : Command) : Text :=
  let bound : List Text := c.values.map fun f => f.name ++ " => " ++ f.value.literal
  c.call.name ++ "(" ++ Text.join ", " bound ++ ")"

end Command

end Population

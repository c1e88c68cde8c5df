import Population.Script.Command
import Population.Value.Native

namespace Population

/-- A parameter whose value has no such form. -/
structure ParamError where
  call : Text
  param : Text
  cause : NativeError
  deriving DecidableEq, Repr

def ParamError.message (e : ParamError) : Text :=
  e.call ++ " parameter " ++ e.param ++ ": " ++ e.cause.message

structure Argument where
  name : Text
  value : Native
  deriving DecidableEq, Repr

namespace Command

def argument (c : Command) (f : Field) : Except ParamError Argument :=
  match f.value.native with
  | .ok value => .ok ⟨f.name, value⟩
  | .error e => .error ⟨c.call.name, f.name, e⟩

def natives (c : Command) : Except ParamError (List Argument) :=
  c.arguments.mapM c.argument

end Command

end Population

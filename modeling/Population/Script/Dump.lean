import Population.Script.Arguments
import Population.Script.Basic
import Population.Yaml.Reader

/-!
A parameter that is a text or a list of texts is written as a document of its own first, and stands in the script as
that document is read.
-/
namespace Population

inductive DumpError
  | param (e : ParamError)
  | unreadable (call name : Text) (problem : Yaml.Problem)
  /-- The name of a parameter is no text. -/
  | invalidName
  deriving DecidableEq, Repr

def DumpError.message : DumpError → Text
  | .param e => e.message
  | .unreadable call name problem => call ++ " parameter " ++ name ++ ": " ++ problem.message
  | .invalidName => "failed to encode script: yaml: cannot marshal invalid UTF-8 data as !!str"

namespace Script

/-- The spaces that a level of nesting adds in a script, and in the document of a parameter. -/
def indentStep : Nat := 2

def paramStep : Nat := 4

def floatText (d : Double) : Text :=
  match d.value with
  | .infinite false => ".inf"
  | .infinite true => "-.inf"
  | _ => Double.write Double.general d

def bareNode (t : Text) : Yaml.Node :=
  .scalar (.bare t)

def bareNodes (ts : List Text) : Yaml.Node :=
  .sequence (ts.map bareNode)

def nativeNode : Native → Except Yaml.Problem Yaml.Node
  | .none => .ok (bareNode "null")
  | .text t => Yaml.Node.reread paramStep (.ofText t)
  | .int i => .ok (bareNode (Text.ofInt i))
  | .float d => .ok (bareNode (floatText d))
  | .bool b => .ok (bareNode (Value.boolText b))
  | .texts ts => Yaml.Node.rereadAll paramStep (ts.map .ofText)
  | .ints is => .ok (bareNodes (is.map Text.ofInt))
  | .floats ds => .ok (bareNodes (ds.map floatText))
  | .bools bs => .ok (bareNodes (bs.map Value.boolText))

def paramNode (c : Command) (f : Field) : Except DumpError (Text × Yaml.Node) := do
  let a ← (c.argument f).mapError .param
  let n ← (nativeNode a.value).mapError (.unreadable c.call.name a.name)
  return (a.name, n)

def commandParams (c : Command) : Except DumpError (Command × List (Text × Yaml.Node)) := do
  return (c, ← c.arguments.mapM (paramNode c))

/-- The entries of a mapping. Their names have to be texts. -/
def entries (params : List (Text × Yaml.Node)) : Except DumpError (List (Yaml.Scalar × Yaml.Node)) :=
  params.mapM fun (name, value) => match Yaml.Scalar.ofName? name with
    | some s => .ok (s, value)
    | none => .error .invalidName

/-- A line that is zero is left out. -/
def commandNode (c : Command) (params : List (Yaml.Scalar × Yaml.Node)) : Yaml.Node :=
  let line := c.origin.line
  .mapping
    ((.bare "call", .scalar (.ofText c.call.name)) ::
      (if line = 0 then [] else [(.bare "line", bareNode (Text.ofInt line))]) ++
      [(.bare "params", .mapping params)])

def toYaml (s : Script) : Except DumpError Text := do
  let commands ← s.completed.mapM commandParams
  let nodes ← commands.mapM fun (c, params) => return commandNode c (← entries params)
  return (Yaml.Node.sequence nodes).document indentStep

end Script

end Population

import Population.Fault
import Population.Script.Command

namespace Population

structure Script where
  commands : List Command

inductive ScriptError
  | stillMissing (call : Text) (missing : List Text)
  | noOpenCommand
  | unknownCall (name : Text)
  | command (e : CommandError)
  deriving DecidableEq, Repr

namespace ScriptError

def message : ScriptError → Text
  | .stillMissing call missing => call ++ " is still missing " ++ Text.join ", " missing
  | .noOpenCommand => "no open command to attach this line to"
  | .unknownCall name => "unknown call " ++ name.quoted
  | .command e => e.message

def fault (e : ScriptError) : Fault :=
  .plain .semantic e.message

end ScriptError

namespace Script

def empty : Script :=
  ⟨[]⟩

/-- The last command, if it is not complete. -/
def lastOpen (s : Script) : Option Command :=
  s.commands.getLast?.filter (!·.completed)

def replaceLast (s : Script) (c : Command) : Script :=
  ⟨s.commands.dropLast ++ [c]⟩

def append (s : Script) (c : Command) : Script :=
  ⟨s.commands ++ [c]⟩

/-- Hands fields to the open command, if the call is its own or none is named, or else begins a command. -/
def add (schema : Schema) (s : Script) (call : Option Text) (scope : Option Scope) (fields : List Field)
    (origin : Origin) : Except ScriptError (Script × Command) :=
  match s.lastOpen, call with
  | some tail, call => do
    if call.any (· ≠ tail.call.name) then throw (.stillMissing tail.call.name tail.missing)
    let c ← (tail.contribute fields).mapError .command
    return (s.replaceLast c, c)
  | none, none => .error .noOpenCommand
  | none, some name => match schema.call? name with
    | none => .error (.unknownCall name)
    | some call => do
      let c ← (Command.begin call scope fields origin).mapError .command
      return (s.append c, c)

def close (s : Script) : Except Fault Unit :=
  match s.lastOpen with
  | none => .ok ()
  | some tail =>
    let f := Fault.plain .semantic (tail.call.name ++ " is missing " ++ Text.join ", " tail.missing)
    .error (f.locate tail.origin.file tail.origin.line tail.origin.text)

def completed (s : Script) : List Command :=
  s.commands.filter (·.completed)

def toText (s : Script) : Text :=
  Text.lines (s.completed.map (·.toText))

end Script

end Population

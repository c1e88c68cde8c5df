import Population.Fault
import Population.Text.Blank

namespace Population

structure Target where
  /-- `none` for a class of the referring class's own subsystem. -/
  subsystem : Option Text
  cls : Text
  attr : Text
  deriving DecidableEq, Repr

inductive TargetError
  | emptySubsystem (raw : Text)
  | noSeparator (raw : Text)
  | malformed (raw : Text)
  | noTargets
  deriving DecidableEq, Repr

def TargetError.message : TargetError → Text
  | .emptySubsystem raw => "reference target " ++ raw.quoted ++ " has an empty subsystem"
  | .noSeparator raw =>
    "reference target " ++ raw.quoted ++ " is missing the class.attribute separator"
  | .malformed raw => "malformed reference target " ++ raw.quoted
  | .noTargets => "reference has no targets"

namespace Target

def toText (t : Target) : Text :=
  let place := t.cls ++ "." ++ t.attr
  match t.subsystem with
  | none => place
  | some subsystem => subsystem ++ "::" ++ place

def splitSubsystem (raw : Text) : Except TargetError (Option Text × Text) :=
  match Text.cut "::" raw.trim with
  | none => .ok (none, raw.trim)
  | some (subsystem, rest) =>
    if subsystem.trim.isEmpty then .error (.emptySubsystem raw) else .ok (some subsystem.trim, rest)

def parse (raw : Text) : Except TargetError Target := do
  let (subsystem, rest) ← splitSubsystem raw
  match Text.cut "." rest with
  | none => throw (.noSeparator raw.trim)
  | some (cls, attr) =>
    let t : Target := ⟨subsystem, cls.trim, attr.trim⟩
    if t.cls.isEmpty || t.attr.isEmpty || 0x2e ∈ t.attr || 0x3a ∈ rest then
      throw (.malformed raw.trim)
    return t

def fragments (raw : Text) : List Text :=
  (Text.splitByte 0x2c raw).filter fun fragment => !fragment.trim.isEmpty

def parseList (raw : Text) : Except TargetError (List Target) := do
  let targets ← (fragments raw).mapM parse
  if targets.isEmpty then throw .noTargets
  return targets

end Target

end Population

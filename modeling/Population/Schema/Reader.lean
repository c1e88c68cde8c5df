import Population.Fault
import Population.Source.Sectioned
import Population.Schema.Basic

/-!
The section `type` has a line for each application type, its name and its category. The section `constructor` has a
line for each metaclass, perhaps with the name of its call after a slash, and after it lines with parameter records.
-/
namespace Population.Schema

/-- A parameter record with its type still a name. -/
structure Record where
  name : Text
  typeName : Text
  optional : Bool
  multiple : Bool
  scope : Option Text
  deriving DecidableEq, Repr

def Record.toParam (r : Record) (type : AppType) : Param :=
  ⟨r.name, type, r.optional, r.multiple, r.scope⟩

def readType (s : Schema) (line : Text) : Except SchemaError Schema :=
  match line.fields with
  | [name, ui] => match UiType.ofName? ui with
    | some ui => s.addType ⟨name, ui⟩
    | none => .error (.unknownUiType ui)
  | _ => .error .typeRecord

def metaclassLine? (line : Text) : Option (Text × Option Text) :=
  let (metaclass, rest) := line.span Text.isWord
  if metaclass.isEmpty then none
  else if rest.isEmpty then some (metaclass, none)
  else match rest.dropWhile Text.isSpace with
    | 0x2f :: rest =>
      let (call, rest) := (rest.dropWhile Text.isSpace).span Text.isWord
      if !call.isEmpty && rest.isEmpty then some (metaclass, some call) else none
    | _ => none

def splitScope (name : Text) : Text × Option Text :=
  match Text.cut "->" name with
  | none => (name, none)
  | some (name, scope) => (name.trim, if scope.trim.isEmpty then none else some scope.trim)

def splitDots (type : Text) : Text × Bool :=
  if type.endsWith "..." then (Text.trim (type.take (type.length - 3)), true) else (type, false)

def readRecord (record : Text) : Except SchemaError Record := do
  let some (left, right) := Text.cut ":" record | throw (.paramRecord record.trim)
  if right.contains ":" then throw (.paramRecord record.trim)
  let (name, scope) := splitScope (Text.trimLeft (· == 0x5b) left.trim).trim
  let (typeName, multiple) := splitDots (Text.trimRight (· == 0x5d) right.trim).trim
  if name.isEmpty then throw .paramNameMissing
  if typeName.isEmpty then throw (.paramTypeMissing name)
  return ⟨name, typeName, left.contains "[", multiple, scope⟩

def readRecords (call : Text) (line : Text) (s : Schema) : Except SchemaError Schema :=
  let records := Text.splitByte 0x2c (Text.trimRight (fun b => b == 0x2c || b == 0x20) line)
  records.foldlM (fun s record => do
    let r ← readRecord record
    s.addParam call r.typeName r.toParam) s

structure Reading where
  schema : Schema
  call : Option Text

def readConstructor (r : Reading) (line : Text) : Except SchemaError Reading := do
  if line.contains ":" then
    match r.call with
    | none => throw .paramWithoutCall
    | some call => return { r with schema := ← readRecords call line r.schema }
  else match metaclassLine? line with
    | none => throw .metaclassRecord
    | some (metaclass, call) =>
      let call := call.getD (defaultCall metaclass)
      return ⟨← r.schema.addCall metaclass call, some call⟩

def faultAt (file : Text) (l : Line) (e : SchemaError) : Fault :=
  (Fault.plain .schema e.message).locate file l.number l.trimmed

def ofSectioned (f : SectionedFile) : Except Fault Schema := do
  let typed ← (f.linesOf "type").foldlM
    (fun s l => (readType s l.trimmed).mapError (faultAt f.name l)) Schema.empty
  let r ← (f.linesOf "constructor").foldlM
    (fun r l => (readConstructor r l.trimmed).mapError (faultAt f.name l)) ⟨typed, none⟩
  return r.schema

/-- A schema file that is not there, or is not in sections. -/
def unreadable (cause : Text) : Fault :=
  .causedBy .schema "cannot load constructor schema" cause

def ofBytes (name bytes : Text) : Except Fault Schema := do
  let f ← (SectionedFile.ofBytes name bytes).mapError fun e => unreadable e.message
  ofSectioned f

def checkScopes (s : Schema) (known : List Text) : Except Fault Unit :=
  match s.scopeFaults known with
  | [] => .ok ()
  | faults =>
    .error (.plain .schema ("registry validation failed:\n- " ++ Text.join "\n- " faults))

end Population.Schema

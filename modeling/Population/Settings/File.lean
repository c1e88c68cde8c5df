import Population.Files.Path
import Population.Settings.Basic
import Population.Settings.Body

namespace Population.Settings

structure LogBlock where
  level : Text
  format : Text

structure StoreBlock where
  kind : Text
  dsn : Text
  url : Text
  subject : Text
  timeout : Text

/-- The contents of a file; what is not given is empty. -/
structure File where
  schema : Text
  /-- The store to use, if there are blocks for several. -/
  use : Text
  log : Option LogBlock
  stores : List StoreBlock
  metrics : Option Text

inductive Finding
  | duplicateStore (kind : Text)
  | timeout (value : Text) (e : Duration.ParseError)
  | unknownStore (kind : Text)
  | ambiguous
  deriving DecidableEq, Repr

def Finding.message : Finding → Text
  | .duplicateStore kind =>
    "<nil>: Duplicate backend " ++ kind.quoted ++ "; Only one block per backend kind is allowed."
  | .timeout value e =>
    "<nil>: Invalid timeout; Cannot parse " ++ value.quoted ++ " as a duration: " ++ e.message ++ "."
  | .unknownStore kind =>
    "<nil>: Unknown backend; Backend " ++ kind.quoted ++ " is not one of [" ++
      Text.join " " (StoreKind.all.map StoreKind.name) ++ "]."
  | .ambiguous =>
    "<nil>: Ambiguous backend; Several backends are configured; select one with the \"use\" attribute."

inductive FileError
  | unreadable (path : Text)
  | unparsable (path : Text)
  | undecodable (path : Text)
  | invalid (path : Text) (first : Finding) (others : Nat)
  deriving DecidableEq, Repr

def FileError.message : FileError → Text
  | .unreadable path =>
    "failed to parse config file " ++ path ++ ": <nil>: Failed to read file; The configuration file " ++
      path.quoted ++ " could not be read."
  | .unparsable path => "failed to parse config file " ++ path ++ ": <nil>: Syntax error; The file cannot be parsed."
  | .undecodable path =>
    "failed to decode config file " ++ path ++ ": <nil>: Unsupported content; The file cannot be decoded."
  | .invalid path first others =>
    let more : Text := if others = 0 then [] else ", and " ++ Text.ofNat others ++ " other diagnostic(s)"
    "invalid config file " ++ path ++ ": " ++ first.message ++ more

namespace File

def textOf (b : Body) (name : Text) : Option Text :=
  match b.attrs.find? (·.name = name) with
  | none => some []
  | some a => a.value.text?

def hasOnly (b : Body) (names : List Text) : Bool :=
  b.attrs.all fun a => names.contains a.name

def logBlock? (b : Block) : Option LogBlock := do
  if !b.labels.isEmpty || !hasOnly b.body ["level", "format"] || !b.body.blocks.isEmpty then none
  return ⟨← textOf b.body "level", ← textOf b.body "format"⟩

def storeBlock? (b : Block) : Option StoreBlock := do
  if !hasOnly b.body ["dsn", "url", "subject", "timeout"] || !b.body.blocks.isEmpty then none
  match b.labels with
  | [kind] =>
    return ⟨kind, ← textOf b.body "dsn", ← textOf b.body "url", ← textOf b.body "subject",
      ← textOf b.body "timeout"⟩
  | _ => none

/-- The file that metrics are written to, which a metrics block must name. -/
def metricsBlock? (b : Block) : Option Text := do
  if !b.labels.isEmpty || !hasOnly b.body ["textfile"] || !b.body.blocks.isEmpty then none
  if b.body.attrs.isEmpty then none
  textOf b.body "textfile"

def single (blocks : List Block) (read : Block → Option α) : Option (Option α) :=
  match blocks with
  | [] => some none
  | [b] => (read b).map some
  | _ => none

def ofBody? (b : Body) : Option File := do
  let known : List Text := ["log", "backend", "metrics"]
  let named := fun (type : Text) => b.blocks.filter (·.type = type)
  if !hasOnly b ["schema", "use"] || !b.blocks.all (known.contains ·.type) then none
  return {
    schema := ← textOf b "schema"
    use := ← textOf b "use"
    log := ← single (named "log") logBlock?
    stores := ← (named "backend").mapM storeBlock?
    metrics := ← single (named "metrics") metricsBlock? }

/-- A schema path is taken from the directory of the file. -/
def schemaPath (path schema : Text) : Text :=
  if Path.isAbsolute schema then schema else Path.join (Path.directory path) schema

def applyRemote (s : Settings) (b : StoreBlock) : Settings × List Finding :=
  let s := { s with natsUrl := b.url, natsSubject := replace s.natsSubject b.subject }
  if b.timeout.isEmpty then (s, [])
  else match Duration.parse b.timeout with
    | .ok d => ({ s with natsTimeout := d }, [])
    | .error e => (s, [.timeout b.timeout e])

def applyStore (s : Settings) (b : StoreBlock) : Settings × List Finding :=
  match StoreKind.ofName? b.kind with
  | none => (s, [.unknownStore b.kind])
  | some .memory => (s, [])
  | some .postgres => ({ s with dsn := b.dsn }, [])
  | some .nats => applyRemote s b

/-- The settings of blocks in turn; each kind counts once. -/
def applyStores (s : Settings) (seen : List Text) : List StoreBlock → Settings × List Finding
  | [] => (s, [])
  | b :: rest =>
    if b.kind ∈ seen then
      let (s, findings) := applyStores s seen rest
      (s, .duplicateStore b.kind :: findings)
    else
      let (s, found) := applyStore s b
      let (s, findings) := applyStores s (b.kind :: seen) rest
      (s, found ++ findings)

/-- The store that is selected: by name, or as the only one. -/
def selectStore (f : File) (s : Settings) : Settings × List Finding :=
  if !f.use.isEmpty then ({ s with store := f.use }, [])
  else match f.stores with
    | [] => (s, [])
    | [b] => ({ s with store := b.kind }, [])
    | _ => (s, [.ambiguous])

def applyPlain (f : File) (path : Text) (s : Settings) : Settings :=
  { s with
    schemaPath := if f.schema.isEmpty then s.schemaPath else schemaPath path f.schema
    logLevel := match f.log with
      | some log => replace s.logLevel log.level
      | none => s.logLevel
    logFormat := match f.log with
      | some log => replace s.logFormat log.format
      | none => s.logFormat
    metricsFile := f.metrics.getD s.metricsFile }

def applyTo (f : File) (path : Text) (base : Settings) : Except FileError Settings :=
  let (s, found) := applyStores (f.applyPlain path base) [] f.stores
  let (s, more) := f.selectStore s
  match found ++ more with
  | [] => .ok s
  | first :: others => .error (.invalid path first others.length)

end File

/-- Reads a file on top of settings; `bytes` is none if the file cannot be read. -/
def load (path : Text) (bytes : Option Text) (base : Settings) : Except FileError Settings :=
  match bytes with
  | none => .error (.unreadable path)
  | some bytes => match Body.parse? bytes with
    | none => .error (.unparsable path)
    | some body => match File.ofBody? body with
      | none => .error (.undecodable path)
      | some f => f.applyTo path base

end Population.Settings

import Population.Job.Basic
import Population.Script.Dump

namespace Population

inductive ScriptFormat
  | text
  | yaml
  deriving DecidableEq, Repr

namespace ScriptFormat

def all : List ScriptFormat :=
  [.text, .yaml]

def name : ScriptFormat → Text
  | .text => "text"
  | .yaml => "yaml"

def ofName? (t : Text) : Option ScriptFormat :=
  all.find? (·.name = t)

def write : ScriptFormat → Script → Except DumpError Text
  | .text, s => .ok s.toText
  | .yaml, s => s.toYaml

end ScriptFormat

inductive Closing
  | nothing
  | written (path bytes : Text)
  | unwritten (path : Text)
  deriving DecidableEq, Repr

namespace Job

def check (j : Job) (args : List Text) : Job × Outcome :=
  match j.readInputs args with
  | .error f => (j, .failed f)
  | .ok (j, files) => match Check.files files with
    | .error fault => j.fail (.fault fault)
    | .ok () =>
      let j := j.note .info "Check passed." [("files", .int files.length), ("lines", .int (countLines files))]
      (j.print (Text.ofNat files.length ++ " file(s) checked, no errors.\n"), .done)

def compileFiles (j : Job) (files : List SourceFile) : Job × Compiled :=
  let compiled := Compiled.compile j.schema files
  ({ j with
    console := j.console.addAll compiled.log
    metrics := j.metrics.observeScript (countLines files) compiled.script }, compiled)

def printScript (j : Job) (format : ScriptFormat) (s : Script) : Job × Outcome :=
  let j := j.note .info "Compilation finished." [("commands", .int s.completed.length)]
  match format.write s with
  | .ok t => (j.print t, .done)
  | .error e => (j, .failed (.plain e.message))

def compile (j : Job) (args : List Text) (format : ScriptFormat) : Job × Outcome :=
  match j.readInputs args with
  | .error f => (j, .failed f)
  | .ok (j, files) =>
    let (j, compiled) := j.compileFiles files
    match compiled.ending with
    | .abandoned => (j, .abandoned)
    | .faulty fault => j.fail (.fault fault)
    | .complete => j.printScript format compiled.script

/-- What an attempt to reach a server gives here, where none is reachable. -/
def unreachable : StoreKind → Text
  | .postgres => "creating pgx connection pool: connection refused"
  | _ => "nats: no servers available for connection"

def servers (url : Text) : List Text :=
  let parts := (Text.splitByte 0x2c url).map fun t =>
    let t := t.trim
    if t.getLast? = some 0x2f then t.dropLast else t
  parts.filter (!·.isEmpty)

/-- Checks servers in turn. All of them are reached through web sockets or none is, as the first one. -/
def checkServers (web : Option Bool) : List Text → Except Text Unit
  | [] => .ok ()
  | t :: rest => do
    let t : Text := if t.contains "://" then t else if web = some true then "ws://" ++ t else "nats://" ++ t
    let a ← (Address.parse t).mapError fun (about, e) => "parse " ++ about.quoted ++ ": " ++ e.message
    let isWeb : Bool := a.scheme = "ws" || a.scheme = "wss"
    if web = some !isWeb then throw ("mixing of websocket and non websocket URLs is not allowed" : Text)
    checkServers (some isWeb) rest

def serverError (url : Text) : Text :=
  match checkServers none (servers url) with
  | .ok () => unreachable .nats
  | .error message => message

def databaseError (t : Tree) (dsn : Text) : Text :=
  match Connection.check t.read dsn with
  | .ok () => unreachable .postgres
  | .error e => "parsing postgres dsn: " ++ e.message

/-- The store that the settings name. A store that is remote cannot be opened from here. -/
def configuredStore (t : Tree) (s : Settings) : Except Fault MemoryStore :=
  match StoreKind.ofName? s.store with
  | some .postgres => .error (.causedBy .execution "cannot open postgres backend" (databaseError t s.dsn))
  | some .nats =>
    .error (.causedBy .execution "cannot open nats backend"
      ("connecting to nats at " ++ s.natsUrl ++ ": " ++ serverError s.natsUrl))
  | _ => .ok (.empty MemoryStore.accepting)

def openStore (j : Job) : Except Fault (Job × MemoryStore) :=
  match j.store with
  | some store => .ok (j, store)
  | none => do
    let store ← configuredStore j.env.tree j.settings
    let j := { j with store := some store }
    return (j.note .debug "Backend opened." [("backend", .text j.settings.store)], store)

def endsEarly (f : Fault) : Bool :=
  f.kind = .syntactic || f.kind = .schema

def execute (j : Job) (store : MemoryStore) (s : Script) (compileFault : Option Fault) : Job × Outcome :=
  let j := j.note .info "Executing population script."
    [("backend", .text j.settings.store), ("commands", .int s.completed.length)]
  let e := MemoryStore.store.execute store s compileFault
  let j := { j with
    store := some e.store
    console := j.console.addAll e.log
    metrics := j.metrics.observeExecution j.env.elapsed }
  match e.fault with
  | some fault => j.fail (.fault fault)
  | none => (j.note .debug "App.Run method finished." [], .done)

/-- Executes what was compiled. A script that stopped at a fault of the model is still executed, and taken
back in the end. -/
def executeCompiled (j : Job) (compiled : Compiled) : Job × Outcome :=
  match compiled.fault.filter endsEarly with
  | some fault => j.fail (.fault fault)
  | none => match j.openStore with
    | .error fault => j.fail (.fault fault)
    | .ok (j, store) => j.execute store compiled.script compiled.fault

/-- Compiles inputs and executes the script as one transaction. -/
def run (j : Job) (args : List Text) : Job × Outcome :=
  let j := j.note .debug "App.Run method started." []
  match j.readInputs args with
  | .error f => (j, .failed f)
  | .ok (j, files) =>
    let (j, compiled) := j.compileFiles files
    if compiled.ending = .abandoned then (j, .abandoned) else j.executeCompiled compiled

def printSchema (j : Job) : Job × Outcome :=
  (j.print (Text.lines (j.schema.calls.map Call.toText)), .done)

def watchedDirectory (e : Environment) (path : Text) : Text :=
  Path.directory (if Path.isAbsolute path then path else Path.join e.directory path)

def watchFailure? (e : Environment) (paths : List Text) : Option Failure :=
  paths.findSome? fun path => match e.tree.find (Path.directory path) with
    | .ok _ => none
    | .error x => some (.plain ("failed to watch " ++ watchedDirectory e path ++ ": " ++ x.message))

/-- Checks inputs and shows the result, up to the first change of a file. -/
def watch (j : Job) (args : List Text) : Job × Outcome :=
  match Expand.paths j.env.tree.view args with
  | .error x => (j, .failed (.input [] x.message))
  | .ok paths => match watchFailure? j.env paths with
    | some f => (j, .failed f)
    | none =>
      let dirs := (paths.map (watchedDirectory j.env)).eraseDups
      let j := j.note .info "Watching inputs." [("files", .int paths.length), ("dirs", .int dirs.length)]
      let j := match j.check paths with
        | (j, .failed f) => j.report f
        | (j, _) => j
      (j.note .debug "Watch stopped." [], .done)

def close (j : Job) : Job × Closing :=
  let path := j.settings.metricsFile
  if path.isEmpty then (j, .nothing)
  else
    let closing := if j.env.tree.canWrite path then Closing.written path j.metrics.toText else .unwritten path
    (j.note .debug "Metrics written." [("path", .text path)], closing)

end Job

end Population

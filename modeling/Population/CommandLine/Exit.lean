import Population.CommandLine.Verb
import Population.Job.Actions
import Population.Settings.File

namespace Population

inductive ExitStatus
  | success
  /-- The message is empty if the failure is in the log. -/
  | failure (code : Nat) (message : Text)
  /-- The program came to no end of its own. -/
  | abandoned
  deriving DecidableEq, Repr

structure Exit where
  status : ExitStatus
  printed : Text
  log : Text
  store : Option MemoryStore
  closing : Closing

namespace ExitStatus

def failed (message : Text) : ExitStatus :=
  .failure 1 message

def misuse (message : Text) : ExitStatus :=
  .failure 2 message

end ExitStatus

namespace CommandLine

/-- The settings file that is read if there is one and no other is named. -/
def defaultFile : Text := "mitext.hcl"

def usage : Text :=
  "mitext compiles miUML text scripts into a population script of metamodel\n" ++
  "constructor calls and executes it as one atomic unit.\n\n" ++
  "Usage:\n" ++
  "  mitext [FILE...]\n" ++
  "  mitext run FILE...\n" ++
  "  mitext check [-w] FILE...\n" ++
  "  mitext compile [-f FORMAT] FILE...\n" ++
  "  mitext schema\n"

def overrides (a : Arguments) : Overrides where
  schemaPath := a.value .schema
  logLevel := a.value .logLevel
  logFormat := a.value .logFormat
  store := a.value .store
  dsn := a.value .dsn
  natsUrl := a.value .natsUrl
  metricsFile := a.value .metricsFile

def settingsPath? (e : Environment) (a : Arguments) : Option Text :=
  let named := a.value .config
  if !named.isEmpty then some named
  else if (e.tree.stat defaultFile).isSome then some defaultFile
  else none

/-- The settings of the file, with those of the command line on top. -/
def settings (e : Environment) (a : Arguments) : Except ExitStatus Settings := do
  let base ← match settingsPath? e a with
    | none => pure Settings.default
    | some path =>
      (Settings.load path (e.tree.read path).toOption .default).mapError fun x => ExitStatus.failed x.message
  let s := base.apply (overrides a)
  if s.errors.isEmpty then return s
  else throw (.misuse (Settings.errorMessage s.errors))

/-- The files that a command line reads, as far as they are known: that of its settings, the schema and the
inputs. Only the first has to be read to know the others. -/
def wanted (e : Environment) (words : List Text) : List Text :=
  match (Invocation.ofWords words).parse with
  | .error _ => []
  | .ok a =>
    let schema := ((settings e a).toOption.map (·.schemaPath)).toList.filter (!·.isEmpty)
    let inputs := (Expand.paths e.tree.view a.words).toOption.getD []
    (settingsPath? e a).toList ++ schema ++ inputs

inductive Action
  | run (files : List Text)
  | check (files : List Text)
  | watch (files : List Text)
  | compile (files : List Text) (format : ScriptFormat)
  | printSchema
  deriving DecidableEq, Repr

def Action.perform (j : Job) : Action → Job × Outcome
  | .run files => j.run files
  | .check files => j.check files
  | .watch files => j.watch files
  | .compile files format => j.compile files format
  | .printSchema => j.printSchema

def files (i : Invocation) (a : Arguments) : Except ExitStatus (List Text) :=
  if a.words.isEmpty then .error (.misuse (i.path ++ ": at least one input file is required"))
  else .ok a.words

def noWords (i : Invocation) (a : Arguments) : Except ExitStatus Unit :=
  match a.words with
  | [] => .ok ()
  | word :: _ => .error (.misuse ("unknown command " ++ word.quoted ++ " for " ++ i.path.quoted))

def format (a : Arguments) : Except ExitStatus ScriptFormat :=
  let name := (a.value? .format).getD (ScriptFormat.name .text)
  match ScriptFormat.ofName? name with
  | some f => .ok f
  | none => .error (.misuse ("invalid format " ++ name.quoted ++ ": must be 'text' or 'yaml'"))

/-- The action of an invocation; asking for help or for completion is none. -/
def action? (i : Invocation) (a : Arguments) : Except ExitStatus (Option Action) :=
  if a.isOn .help then .ok none
  else match i.verb with
    | some .help => .ok none
    | some .schema => do
      noWords i a
      return some .printSchema
    | some (.completion none) => .ok none
    | some (.completion (some _)) => do
      noWords i a
      return none
    | some .complete =>
      if a.words.isEmpty then .error (.misuse "requires at least 1 arg(s), only received 0") else .ok none
    | some .check => do
      let fs ← files i a
      return some (if a.isOn .watch then .watch fs else .check fs)
    | some .compile => do
      let fs ← files i a
      return some (.compile fs (← format a))
    | _ => do return some (.run (← files i a))

def logStyle (e : Environment) (s : Settings) : LogStyle where
  level := (LogLevel.ofName? s.logLevel).getD .info
  json := s.logFormat = "json"
  time := e.time

def stop (status : ExitStatus) (printed : Text) (store : Option MemoryStore) : Exit :=
  ⟨status, printed, [], store, .nothing⟩

/-- Closes a job after an action. Its failure is shown in the log. -/
def finish (style : LogStyle) (j : Job) (outcome : Outcome) : Exit :=
  let (j, closing) := j.close
  let (j, status) : Job × ExitStatus := match outcome with
    | .done => (j, .success)
    | .failed f => (j.report f, .failed [])
    | .abandoned => (j, .abandoned)
  ⟨status, j.console.printed, j.console.logText style, j.store, closing⟩

def perform (e : Environment) (s : Settings) (store : Option MemoryStore) (a : Action) : Exit :=
  let style := logStyle e s
  match Job.start e s store with
  | (console, .error f) =>
    { stop (.failed ("Error: " ++ f.message)) [] store with log := console.logText style }
  | (_, .ok j) =>
    let (j, outcome) := a.perform j
    finish style j outcome

def read (e : Environment) (words : List Text) : Except ExitStatus (Option (Action × Settings)) := do
  let i := Invocation.ofWords words
  let a ← i.parse.mapError fun x => ExitStatus.misuse x.message
  match ← action? i a with
  | none => return none
  | some action => return some (action, ← settings e a)

/-- Carries out a command line. Scripts go to the store that is given, or to the one of the settings. -/
def execute (e : Environment) (store : Option MemoryStore) (words : List Text) : Exit :=
  match read e words with
  | .error status => stop status [] store
  | .ok none => stop .success usage store
  | .ok (some (action, s)) => perform e s store action

end CommandLine

end Population

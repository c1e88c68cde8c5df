import Population.Compile.Build
import Population.Files.Expand
import Population.Job.Console
import Population.Metrics
import Population.Report
import Population.Schema.Default
import Population.Settings.Basic
import Population.Store.Connection
import Population.Store.Memory

namespace Population

structure Environment where
  tree : Tree
  /-- The absolute path that the others start from. -/
  directory : Text
  runId : Text
  time : Option Text
  elapsed : Duration

structure Job where
  env : Environment
  settings : Settings
  schema : Schema
  /-- The store in use; none is open in the beginning unless one was given. -/
  store : Option MemoryStore
  metrics : Metrics
  /-- The files that were read, the last ones first. -/
  sources : List SourceFile
  console : Console

inductive Outcome
  | done
  | failed (f : Failure)
  /-- It has no result, not even a failure. -/
  | abandoned
  deriving DecidableEq, Repr

namespace Environment

def read (e : Environment) (path : Text) : Except Text Text :=
  (e.tree.read path).mapError fun cause => "could not open " ++ path ++ ": " ++ cause

end Environment

namespace Job

def runAttr (e : Environment) : List (Text × LogValue) :=
  [("run_id", .text e.runId)]

def loadSchema (e : Environment) (s : Settings) : Text × Except Fault Schema :=
  if s.schemaPath.isEmpty then (Schema.defaultName, Schema.default)
  else (s.schemaPath, do Schema.ofBytes s.schemaPath (← (e.read s.schemaPath).mapError Schema.unreadable))

/-- Notes a schema, once as a file and once as the schema of a job. -/
def noteSchema (c : Console) (name : Text) (s : Schema) : Console :=
  let types : Text × LogValue := ("types", .int s.types.length)
  let calls : Text × LogValue := ("calls", .int s.calls.length)
  (c.note .debug "Constructor schema loaded." [("schema", .text name), types, calls]).note
    .debug "Constructor schema loaded." [calls, types]

def start (e : Environment) (s : Settings) (store : Option MemoryStore) : Console × Except Failure Job :=
  let c := (Console.start (runAttr e)).note .debug "Logger configured successfully." []
  match loadSchema e s with
  | (_, .error f) => (c, .error (.fault f))
  | (name, .ok schema) =>
    let c := noteSchema c name schema
    match Compiled.checkSchema schema with
    | .error f => (c, .error (.within "grammar does not fit the constructor schema" (.fault f)))
    | .ok () => (c, .ok ⟨e, s, schema, store, .empty, [], c⟩)

def note (j : Job) (level : LogLevel) (message : Text) (attrs : List (Text × LogValue)) : Job :=
  { j with console := j.console.note level message attrs }

def print (j : Job) (t : Text) : Job :=
  { j with console := j.console.print t }

def fail (j : Job) (f : Failure) : Job × Outcome :=
  ({ j with metrics := j.metrics.observeFailure f }, .failed f)

def readSource (e : Environment) (path : Text) : Except Failure SourceFile :=
  match e.read path with
  | .ok bytes => .ok (.ofBytes path bytes)
  | .error message => .error (.input path message)

def inputs (e : Environment) (args : List Text) : Except Failure (List SourceFile) :=
  if args.isEmpty then .error (.input [] "no input files")
  else match Expand.paths e.tree.view args with
    | .error x => .error (.input [] x.message)
    | .ok paths => paths.mapM (readSource e)

def readInputs (j : Job) (args : List Text) : Except Failure (Job × List SourceFile) := do
  let files ← inputs j.env args
  let j := { j with sources := files.reverse ++ j.sources }
  return (j.note .debug "Input files read." [("count", .int files.length)], files)

def countLines (files : List SourceFile) : Nat :=
  files.foldl (fun n f => n + f.lines.length) 0

def report (j : Job) (f : Failure) : Job :=
  { j with console := j.console.tell (f.report j.sources) }

end Job

end Population

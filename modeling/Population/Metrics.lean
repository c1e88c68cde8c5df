import Population.Duration
import Population.Fault
import Population.Script.Basic

namespace Population

/-- All that was observed, in order. -/
structure Metrics where
  lines : Nat
  calls : List Text
  errors : List Text
  executions : List Duration

/-- A number under a name, which is that of its family and an ending. -/
structure Sample where
  ending : Text
  labels : List (Text × Text)
  value : Double

structure Family where
  name : Text
  help : Text
  type : Text
  samples : List Sample

namespace Sample

def escapeByte (b : UInt8) : Text :=
  if b == 0x5c then "\\\\" else if b == 0x0a then "\\n" else if b == 0x22 then "\\\"" else [b]

def labelText (label : Text × Text) : Text :=
  label.1 ++ "=\"" ++ label.2.flatMap escapeByte ++ "\""

def toText (family : Text) (s : Sample) : Text :=
  let labels : Text :=
    if s.labels.isEmpty then [] else "\x7b" ++ Text.join "," (s.labels.map labelText) ++ "\x7d"
  family ++ s.ending ++ labels ++ " " ++ s.value.write Double.general ++ "\n"

end Sample

/-- A family with its samples; without any it is not written. -/
def Family.toText (f : Family) : Text :=
  if f.samples.isEmpty then []
  else
    "# HELP " ++ f.name ++ " " ++ f.help ++ "\n# TYPE " ++ f.name ++ " " ++ f.type ++ "\n" ++
      f.samples.flatMap (Sample.toText f.name)

namespace Metrics

def empty : Metrics :=
  ⟨0, [], [], []⟩

def observeScript (m : Metrics) (lines : Nat) (s : Script) : Metrics :=
  { m with lines := m.lines + lines, calls := m.calls ++ s.completed.map (·.call.name) }

def errorLabel (f : Failure) : Text :=
  match f.kind? with
  | none | some (.unknown 0) => "other"
  | some kind => kind.name

def observeFailure (m : Metrics) (f : Failure) : Metrics :=
  { m with errors := m.errors ++ [errorLabel f] }

def observeExecution (m : Metrics) (d : Duration) : Metrics :=
  { m with executions := m.executions ++ [d] }

/-- How often each text occurs, the texts in bytewise order. -/
def counts (label : Text) (ts : List Text) : List Sample :=
  (Text.sort ts.eraseDups).map fun t => ⟨[], [(label, t)], .ofInt (ts.count t)⟩

def bounds : List Duration :=
  [5, 10, 25, 50, 100, 250, 500, 1000, 2500, 5000, 10000].map .ofMilliseconds

/-- A bucket counts the executions that took no longer than its bound. -/
def bucket (m : Metrics) (bound : Duration) : Sample where
  ending := "_bucket"
  labels := [("le", bound.seconds.write Double.general)]
  value := .ofInt (m.executions.countP (·.nanoseconds ≤ bound.nanoseconds))

def executionSamples (m : Metrics) : List Sample :=
  let number := Double.ofInt m.executions.length
  let sum := m.executions.foldl (fun sum d => sum.add d.seconds) (.ofInt 0)
  let ends : List Sample :=
    [⟨"_bucket", [("le", "+Inf")], number⟩, ⟨"_sum", [], sum⟩, ⟨"_count", [], number⟩]
  bounds.map m.bucket ++ ends

def families (m : Metrics) : List Family :=
  [⟨"mitext_commands_total", "Completed commands compiled, by call.", "counter", counts "call" m.calls⟩,
    ⟨"mitext_errors_total", "Errors reported, by kind.", "counter", counts "kind" m.errors⟩,
    ⟨"mitext_execute_seconds", "Time spent executing population scripts.", "histogram", m.executionSamples⟩,
    ⟨"mitext_lines_total", "Content lines read from text scripts.", "counter", [⟨[], [], .ofInt m.lines⟩]⟩]

def toText (m : Metrics) : Text :=
  m.families.flatMap Family.toText

end Metrics

end Population

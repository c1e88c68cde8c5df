import Population.Compile.Check
import Population.Compile.Extract
import Population.Log
import Population.Model.Closing
import Population.Schema.Reader
import Population.Script.Basic

/-!
A build that stops keeps the script it has made so far. The commands derived from a domain follow when the domain is
closed.
-/
namespace Population

structure Output where
  script : Script
  /-- Last record first. -/
  log : List LogRecord

def Output.empty : Output :=
  ⟨.empty, []⟩

structure Building where
  file : Text
  walker : Walker
  scope : Scope
  analyzer : Analyzer
  out : Output

structure Halt where
  /-- `none` if the build was abandoned. -/
  fault : Option Fault
  out : Output

def Halt.locate (h : Halt) (file : Text) (line : Int) (text : Text) : Halt :=
  { h with fault := h.fault.map (·.locate file line text) }

namespace Building

def start (file : Text) (out : Output) : Building :=
  ⟨file, .start, .empty, .idle, out⟩

def halt (b : Building) (fault : Fault) : Halt :=
  ⟨some fault, b.out⟩

/-- A step that can go wrong without changing the build. -/
def attempt (b : Building) (r : Except Fault α) : Except Halt α :=
  r.mapError b.halt

def note (b : Building) (level : LogLevel) (message : Text) (attrs : List (Text × LogValue)) : Building :=
  let record : LogRecord := ⟨level, message, ("file", .text b.file) :: attrs⟩
  { b with out := { b.out with log := record :: b.out.log } }

def noteCommand (b : Building) (c : Command) : Building :=
  if c.completed then
    b.note .debug "Command completed." [("call", .text c.call.name), ("line", .int c.origin.line)]
  else b

def add (s : Schema) (b : Building) (call : Option Text) (scope : Option Scope) (fields : List Field)
    (origin : Origin) : Except Halt Building := do
  let (script, c) ← b.attempt ((Script.add s b.out.script call scope fields origin).mapError (·.fault))
  return ({ b with out := { b.out with script } } : Building).noteCommand c

def addEmission (s : Schema) (b : Building) (e : Emission) : Except Halt Building :=
  (b.add s (some e.call) none e.fields e.origin).mapError
    (·.locate e.origin.file e.origin.line e.origin.text)

def noteDomain (b : Building) (domain : Text) (commands : Nat) : Building :=
  let graph := b.analyzer.graph
  let b := match graph.findCycle with
    | some cycle =>
      b.note .info "Subsystems depend on each other." [("domain", .text domain), ("cycle", .texts cycle)]
    | none => b
  b.note .debug "Domain finalized."
    [("domain", .text domain), ("commands", .int commands), ("subsystem_deps", .int graph.edges.length)]

/-- Closes the open domain. No command may be left open across its end. -/
def closeDomain (s : Schema) (b : Building) : Except Halt Building := do
  b.attempt b.out.script.close
  if !b.analyzer.active then return b
  let (analyzer, result) := b.analyzer.finalize
  let emissions ← b.attempt result
  let b ← emissions.foldlM (addEmission s) { b with analyzer }
  return b.noteDomain analyzer.domain emissions.length

def closesDomain : Section → Bool
  | .bridges | .domain => true
  | _ => false

def header (s : Schema) (b : Building) (line : Line) (word : Text) : Except Halt Building := do
  let (home, walker) ← b.attempt ((b.walker.enter word).mapError (·.fault))
  let b := { b with walker }
  let b ← if closesDomain home then b.closeDomain s else pure b
  return b.note .debug "Entering section." [("section", .text home.name), ("line", .int line.number)]

/-- Hands the parameters of a statement to the script. A form without a call has none. -/
def assemble (s : Schema) (b : Building) (f : Form) (params : List Field) (origin : Origin) :
    Except Halt Building :=
  match f.target, f.continues with
  | none, _ => .ok b
  | some _, none => b.add s f.call (some b.scope) params origin
  | some _, some extended =>
    if b.out.script.lastOpen.any (·.call.name = extended) then
      b.add s f.call (some b.scope) params origin
    else
      .error (b.halt (.plain .semantic (f.name ++ " must continue an open " ++ extended)))

def transformed (m : Matched) : Except Fault (List Capture) :=
  match Capture.transform m.form.transform m.captures with
  | (cs, none) => .ok cs
  | (_, some e) => .error (.causedBy .syntactic "bad statement" e.message)

def statement (s : Schema) (b : Building) (line : Line) : Except Halt Building := do
  let text := line.trimmed
  let (home, walker) ← b.attempt (b.walker.statement.mapError (·.fault))
  let m ← b.attempt ((Statement.matchLine home.name text).mapError (·.fault))
  let cs ← b.attempt (transformed m)
  let x ← b.attempt ((Extraction.ofCaptures s m.form cs).mapError (·.fault))
  let scope ← b.attempt ((x.applyScope b.scope).mapError (·.fault))
  let origin : Origin := ⟨b.file, line.number, text⟩
  match b.analyzer.handle ⟨some m.form.kind, x.fields, scope, origin⟩ with
  | (_, some e) => throw ⟨e.fault?, b.out⟩
  | (analyzer, none) => ({ b with walker, scope, analyzer } : Building).assemble s m.form x.params origin

/-- Builds one line; a fault is put at it unless it has a place. -/
def line (s : Schema) (b : Building) (l : Line) : Except Halt Building :=
  let built := match Section.header? l.trimmed with
    | some word => b.header s l word
    | none => b.statement s l
  built.mapError (·.locate b.file l.number l.trimmed)

def run (s : Schema) (b : Building) (lines : List Line) : Except Halt Building := do
  let b ← lines.foldlM (line s) b
  b.closeDomain s

end Building

namespace Output

def addFile (s : Schema) (out : Output) (f : SourceFile) : Except Halt Output :=
  (Building.run s (.start f.name out) f.lines).map (·.out)

def ofFiles (s : Schema) (fs : List SourceFile) : Except Halt Output :=
  fs.foldlM (addFile s) .empty

end Output

inductive Ending
  | complete
  | faulty (f : Fault)
  /-- It has no result, not even a fault. -/
  | abandoned
  deriving DecidableEq, Repr

/-- The result of a compilation: the script, complete or as far as it got. -/
structure Compiled where
  script : Script
  log : List LogRecord
  ending : Ending

namespace Compiled

def fault (c : Compiled) : Option Fault :=
  match c.ending with
  | .faulty f => some f
  | _ => none

def ofHalt (h : Halt) : Compiled where
  script := h.out.script
  log := h.out.log.reverse
  ending := match h.fault with
    | some f => .faulty f
    | none => .abandoned

def ofBuild : Except Halt Output → Compiled
  | .ok out => ⟨out.script, out.log.reverse, .complete⟩
  | .error h => ofHalt h

def failed (fault : Fault) : Compiled :=
  ⟨.empty, [], .faulty fault⟩

/-- Builds files without checking them first. -/
def build (s : Schema) (fs : List SourceFile) : Compiled :=
  ofBuild (Output.ofFiles s fs)

def compile (s : Schema) (fs : List SourceFile) : Compiled :=
  match Check.files fs with
  | .error fault => failed fault
  | .ok () => build s fs

def checkSchema (s : Schema) : Except Fault Unit := do
  Statement.checkFit s
  s.checkScopes Level.names

end Compiled

end Population

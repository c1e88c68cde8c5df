import Population.Log
import Population.Script.Arguments
import Population.Script.Basic

namespace Population

inductive StoreKind
  | memory
  | postgres
  | nats
  deriving DecidableEq, Repr

namespace StoreKind

def all : List StoreKind :=
  [.memory, .postgres, .nats]

def name : StoreKind → Text
  | .memory => "memory"
  | .postgres => "postgres"
  | .nats => "nats"

def ofName? (t : Text) : Option StoreKind :=
  all.find? (·.name = t)

end StoreKind

def procedureName (call : Text) : Text :=
  "UI_" ++ call

/-- A failure that a store ascribes to one command, by its position in the transaction. -/
structure CommandFailure where
  index : Nat
  call : Text
  cause : Text
  deriving DecidableEq, Repr

inductive StoreError
  /-- The transaction was committed or rolled back before. -/
  | finished
  | incomplete (call : Text) (missing : List Text)
  /-- An incomplete command that was to become a statement. -/
  | incompleteStatement (call : Text) (missing : List Text)
  | param (e : ParamError)
  /-- A number that has no form in a payload. -/
  | unsupportedNumber (digits : Text)
  | beginning (cause : Text)
  | refused (cause : Text)
  | requesting (subject cause : Text)
  | undecodable
  | executor (cause : Text)
  | command (f : CommandFailure)
  deriving DecidableEq, Repr

namespace StoreError

def message : StoreError → Text
  | .finished => "transaction already finished"
  | .incomplete call missing => call ++ " is incomplete, missing [" ++ Text.join " " missing ++ "]"
  | .incompleteStatement call missing => call ++ " is incomplete, missing " ++ Text.join ", " missing
  | .param e => e.message
  | .unsupportedNumber digits => "json: unsupported value: " ++ digits
  | .beginning cause => "beginning transaction: " ++ cause
  | .refused cause => cause
  | .requesting subject cause => "requesting " ++ subject ++ ": " ++ cause
  | .undecodable => "decoding executor reply: not a reply"
  | .executor cause => "executor failed: " ++ cause
  | .command f => "command " ++ Text.ofNat f.index ++ " (" ++ f.call ++ "): " ++ f.cause

def commandFailure? : StoreError → Option CommandFailure
  | .command f => some f
  | _ => none

end StoreError

structure Step (σ τ : Type) where
  store : σ
  tx : τ
  log : List LogRecord
  error : Option StoreError

structure Store (σ τ : Type) where
  begin : σ → σ × Except StoreError τ
  exec : σ → τ → Command → Step σ τ
  commit : σ → τ → Step σ τ
  rollback : σ → τ → Step σ τ

structure Execution (σ : Type) where
  store : σ
  log : List LogRecord
  fault : Option Fault

namespace Store

structure Refusal where
  index : Nat
  command : Command
  error : StoreError

structure Replay (σ τ : Type) where
  store : σ
  tx : τ
  log : List LogRecord
  refusal : Option Refusal

def executed (index : Nat) (c : Command) : LogRecord :=
  ⟨.debug, "Command executed.", [("index", .int index), ("call", .text c.call.name)]⟩

variable {σ τ : Type}

/-- Hands commands to a transaction until one is refused. -/
def replay (b : Store σ τ) (s : σ) (t : τ) (index : Nat) : List Command → Replay σ τ
  | [] => ⟨s, t, [], none⟩
  | c :: rest =>
    let step := b.exec s t c
    match step.error with
    | some e => ⟨step.store, step.tx, step.log, some ⟨index, c, e⟩⟩
    | none =>
      let r := replay b step.store step.tx (index + 1) rest
      { r with log := step.log ++ executed index c :: r.log }

def errorAttr (e : StoreError) : Text × LogValue :=
  ("error", .text e.message)

/-- Takes a transaction back; that this fails is only noted. -/
def takeBack (b : Store σ τ) (s : σ) (t : τ) : σ × List LogRecord :=
  let step := b.rollback s t
  match step.error with
  | none => (step.store, step.log)
  | some e => (step.store, step.log ++ [⟨.error, "Rollback failed.", [errorAttr e]⟩])

def commandFault (c : Command) (cause : Text) : Fault :=
  ⟨.execution, c.origin.file, c.origin.line, c.origin.text, c.call.name ++ " failed", some cause⟩

/-- The fault of a transaction that was not committed, at the line of a command if one is to blame. -/
def commitFault (commands : List Command) (e : StoreError) : Fault :=
  match e.commandFailure? with
  | none => .causedBy .execution "commit failed" e.message
  | some f => match commands[f.index]? with
    | some c => commandFault c f.cause
    | none => .causedBy .execution "commit failed" e.message

def refused (r : Refusal) : LogRecord :=
  ⟨.error, "Command failed, rolling back.",
    [("index", .int r.index), ("call", .text r.command.call.name), errorAttr r.error]⟩

def commitAll (b : Store σ τ) (commands : List Command) (r : Replay σ τ) : Execution σ :=
  let step := b.commit r.store r.tx
  match step.error with
  | some e => ⟨step.store, r.log ++ step.log, some (commitFault commands e)⟩
  | none =>
    let done : LogRecord :=
      ⟨.info, "Population script committed.", [("commands", .int commands.length)]⟩
    ⟨step.store, r.log ++ step.log ++ [done], none⟩

/-- Ends a transaction after its commands: it is committed unless a command was refused or the script
did not compile. -/
def conclude (b : Store σ τ) (commands : List Command) (compileFault : Option Fault) (r : Replay σ τ) :
    Execution σ :=
  match r.refusal, compileFault with
  | some refusal, _ =>
    let (s, log) := b.takeBack r.store r.tx
    ⟨s, r.log ++ refused refusal :: log, some (commandFault refusal.command refusal.error.message)⟩
  | none, some fault =>
    let (s, log) := b.takeBack r.store r.tx
    let warning : LogRecord :=
      ⟨.warn, "Compilation failed, rolling back executed commands.", [("executed", .int commands.length)]⟩
    ⟨s, r.log ++ warning :: log, some fault⟩
  | none, none => b.commitAll commands r

/-- Executes the complete commands of a script as one transaction. The fault that stopped the compilation
takes all of them back in the end. -/
def execute (b : Store σ τ) (s : σ) (script : Script) (compileFault : Option Fault) : Execution σ :=
  match b.begin s with
  | (s, .error e) => ⟨s, [], some (.causedBy .execution "cannot begin transaction" e.message)⟩
  | (s, .ok t) => b.conclude script.completed compileFault (b.replay s t 0 script.completed)

end Store

end Population

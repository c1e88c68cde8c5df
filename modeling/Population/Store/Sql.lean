import Population.Store.Basic

namespace Population

structure SqlStatement where
  sql : Text
  arguments : List Native
  deriving DecidableEq, Repr

namespace SqlStatement

/-- Parameters of procedures have the names of those of calls after this text. -/
def paramLead : Text := "p_"

def ofCommand (c : Command) : Except StoreError SqlStatement := do
  if !c.completed then throw (.incompleteStatement c.call.name c.missing)
  let arguments ← c.natives.mapError .param
  let places : List Text := arguments.zipIdx.map fun (a, i) =>
    paramLead ++ a.name ++ " => $" ++ Text.ofNat (i + 1)
  return ⟨"SELECT " ++ procedureName c.call.name ++ "(" ++ Text.join ", " places ++ ")",
    arguments.map (·.value)⟩

end SqlStatement

structure Database where
  beginError : Option Text
  /-- By the position of a statement in its transaction. -/
  statementError : Nat → Option Text
  commitError : Option Text
  rollbackError : Option Text

inductive SqlEvent
  | begin
  | statement (st : SqlStatement)
  | commit
  | rollback
  deriving DecidableEq, Repr

structure SqlStore where
  database : Database
  /-- What the database was asked, last first. -/
  asked : List SqlEvent

namespace SqlStore

structure Tx where
  sent : Nat

def ask (s : SqlStore) (e : SqlEvent) : SqlStore :=
  { s with asked := e :: s.asked }

def begin (s : SqlStore) : SqlStore × Except StoreError Tx :=
  (s.ask .begin, match s.database.beginError with
    | some cause => .error (.beginning cause)
    | none => .ok ⟨0⟩)

def exec (s : SqlStore) (t : Tx) (c : Command) : Step SqlStore Tx :=
  match SqlStatement.ofCommand c with
  | .error e => ⟨s, t, [], some e⟩
  | .ok st =>
    ⟨s.ask (.statement st), ⟨t.sent + 1⟩, [⟨.debug, "Executing statement.", [("sql", .text st.sql)]⟩],
      (s.database.statementError t.sent).map .refused⟩

def commit (s : SqlStore) (t : Tx) : Step SqlStore Tx :=
  ⟨s.ask .commit, t, [], s.database.commitError.map .refused⟩

def rollback (s : SqlStore) (t : Tx) : Step SqlStore Tx :=
  ⟨s.ask .rollback, t, [], s.database.rollbackError.map .refused⟩

def store : Store SqlStore Tx where
  begin
  exec
  commit
  rollback

end SqlStore

end Population

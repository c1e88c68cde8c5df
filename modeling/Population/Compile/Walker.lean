import Population.Grammar.Section

namespace Population

structure Walker where
  /-- `none` before the first header. -/
  current : Option Section
  statements : Nat
  deriving DecidableEq, Repr

inductive WalkError
  | transition (e : TransitionError)
  | beforeFirst
  | single (home : Section)
  deriving DecidableEq, Repr

namespace WalkError

def message : WalkError → Text
  | .transition e => e.message
  | .beforeFirst => "statement before the first section header"
  | .single home => "section " ++ home.name.quoted ++ " takes a single statement"

def fault (e : WalkError) : Fault :=
  .plain .syntactic e.message

end WalkError

namespace Walker

def start : Walker :=
  ⟨none, 0⟩

def enter (w : Walker) (word : Text) : Except WalkError (Section × Walker) :=
  match Section.step w.current word with
  | .ok next => .ok (next, ⟨some next, 0⟩)
  | .error e => .error (.transition e)

def statement (w : Walker) : Except WalkError (Section × Walker) :=
  match w.current with
  | none => .error .beforeFirst
  | some home =>
    if home.singular && 0 < w.statements then .error (.single home)
    else .ok (home, { w with statements := w.statements + 1 })

end Walker

end Population

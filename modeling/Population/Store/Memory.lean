import Population.Store.Basic

namespace Population

structure MemoryStore where
  committed : List Command
  commits : Nat
  rollbacks : Nat
  /-- Why the store refuses a command, if it does. -/
  refuses : Command → Option Text

namespace MemoryStore

def empty (refuses : Command → Option Text) : MemoryStore :=
  ⟨[], 0, 0, refuses⟩

def accepting (_ : Command) : Option Text :=
  none

def rejecting (call : Text) (c : Command) : Option Text :=
  if c.call.name = call then some (call ++ " rejected") else none

def calls (s : MemoryStore) : List Text :=
  s.committed.map (·.call.name)

structure Tx where
  /-- Last command first. -/
  gathered : List Command
  done : Bool

def keep (s : MemoryStore) (t : Tx) (e : StoreError) : Step MemoryStore Tx :=
  ⟨s, t, [], some e⟩

def exec (s : MemoryStore) (t : Tx) (c : Command) : Step MemoryStore Tx :=
  if t.done then s.keep t .finished
  else if !c.completed then s.keep t (.incomplete c.call.name c.missing)
  else match s.refuses c with
    | some cause => s.keep t (.refused cause)
    | none => ⟨s, { t with gathered := c :: t.gathered }, [], none⟩

def commit (s : MemoryStore) (t : Tx) : Step MemoryStore Tx :=
  if t.done then s.keep t .finished
  else
    ⟨{ s with committed := s.committed ++ t.gathered.reverse, commits := s.commits + 1 },
      { t with done := true }, [], none⟩

def rollback (s : MemoryStore) (t : Tx) : Step MemoryStore Tx :=
  if t.done then s.keep t .finished
  else ⟨{ s with rollbacks := s.rollbacks + 1 }, ⟨[], true⟩, [], none⟩

def store : Store MemoryStore Tx where
  begin s := (s, .ok ⟨[], false⟩)
  exec
  commit
  rollback

end MemoryStore

end Population

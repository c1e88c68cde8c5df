import Population.Store.Memory

namespace Population

namespace MemoryStore

def FirstRefused (m : MemoryStore) (commands : List Command) (c : Command) (cause : Text) : Prop :=
  ∃ before after, commands = before ++ c :: after ∧ (∀ d ∈ before, m.refuses d = none) ∧ m.refuses c = some cause

def takenBack (m : MemoryStore) : MemoryStore :=
  { m with rollbacks := m.rollbacks + 1 }

def committing (m : MemoryStore) (commands : List Command) : MemoryStore :=
  { m with committed := m.committed ++ commands, commits := m.commits + 1 }

variable {m : MemoryStore} {gathered : List Command} {c : Command}

theorem exec_accepted (hc : c.completed) (h : m.refuses c = none) :
    m.exec ⟨gathered, false⟩ c = ⟨m, ⟨c :: gathered, false⟩, [], none⟩ := by
  simp [exec, hc, h]

theorem exec_refused {cause : Text} (hc : c.completed) (h : m.refuses c = some cause) :
    m.exec ⟨gathered, false⟩ c = ⟨m, ⟨gathered, false⟩, [], some (.refused cause)⟩ := by
  simp [exec, keep, hc, h]

/-- Commands are gathered one by one, and the store stands still, until one of them is refused. -/
theorem replay_gathers (m : MemoryStore) {commands : List Command} (hc : ∀ c ∈ commands, c.completed = true)
    (gathered : List Command) (index : Nat) :
    ((∀ c ∈ commands, m.refuses c = none) ∧ ∃ log,
      store.replay m ⟨gathered, false⟩ index commands = ⟨m, ⟨commands.reverse ++ gathered, false⟩, log, none⟩) ∨
    ∃ c cause t log i, m.FirstRefused commands c cause ∧ t.done = false ∧
      store.replay m ⟨gathered, false⟩ index commands = ⟨m, t, log, some ⟨i, c, .refused cause⟩⟩ := by
  induction commands generalizing gathered index with
  | nil => exact .inl ⟨nofun, [], rfl⟩
  | cons c rest ih =>
      obtain ⟨hhead, hrest⟩ := List.forall_mem_cons.mp hc
      cases h : m.refuses c with
      | some cause =>
          refine .inr ⟨c, cause, ⟨gathered, false⟩, [], index, ⟨[], rest, rfl, nofun, h⟩, rfl, ?_⟩
          simp only [Store.replay, store, exec_refused hhead h]
      | none =>
          have hstep : store.exec m ⟨gathered, false⟩ c = ⟨m, ⟨c :: gathered, false⟩, [], none⟩ :=
            exec_accepted hhead h
          rcases ih hrest (c :: gathered) (index + 1) with
            ⟨hall, log, hreplay⟩ | ⟨d, cause, t, log, i, ⟨before, after, hsplit, hbefore, hd⟩, ht, hreplay⟩
          · refine .inl ⟨List.forall_mem_cons.mpr ⟨h, hall⟩, Store.executed index c :: log, ?_⟩
            simp only [Store.replay, hstep, hreplay, List.reverse_cons, List.append_assoc, List.cons_append,
              List.nil_append]
          · refine .inr ⟨d, cause, t, Store.executed index c :: log, i, ⟨c :: before, after, ?_, ?_, hd⟩, ht, ?_⟩
            · rw [hsplit, List.cons_append]
            · exact List.forall_mem_cons.mpr ⟨h, hbefore⟩
            · simp only [Store.replay, hstep, hreplay, List.nil_append]

theorem takeBack_open {t : Tx} (ht : t.done = false) : store.takeBack m t = (m.takenBack, []) := by
  simp [Store.takeBack, store, rollback, ht, takenBack]

theorem commitAll_open (commands : List Command) {r : Store.Replay MemoryStore Tx} (hr : r.tx.done = false) :
    (store.commitAll commands r).fault = none ∧
      (store.commitAll commands r).store = r.store.committing r.tx.gathered.reverse := by
  simp [Store.commitAll, store, commit, hr, committing]

inductive Executed (m : MemoryStore) (commands : List Command) : Option Fault → Option Fault → MemoryStore → Prop
  | committed (h : ∀ c ∈ commands, m.refuses c = none) : Executed m commands none none (m.committing commands)
  | faulty (fault : Fault) (h : ∀ c ∈ commands, m.refuses c = none) :
      Executed m commands (some fault) (some fault) m.takenBack
  | refused (compileFault : Option Fault) {c : Command} {cause : Text} (h : m.FirstRefused commands c cause) :
      Executed m commands compileFault (some (Store.commandFault c cause)) m.takenBack

/-- A script is executed as a whole or not at all. -/
theorem execute_executed (m : MemoryStore) (s : Script) (compileFault : Option Fault) :
    Executed m s.completed compileFault (store.execute m s compileFault).fault
      (store.execute m s compileFault).store := by
  have hcompleted : ∀ c ∈ s.completed, c.completed = true := fun c hc => (List.mem_filter.mp hc).2
  simp only [Store.execute, show store.begin m = (m, .ok ⟨[], false⟩) from rfl]
  rcases replay_gathers m hcompleted [] 0 with ⟨hall, log, hreplay⟩ | ⟨c, cause, t, log, i, hc, ht, hreplay⟩
  · rw [List.append_nil] at hreplay
    rw [hreplay]
    cases compileFault with
    | none =>
        obtain ⟨hfault, hstore⟩ := commitAll_open s.completed
          (r := ⟨m, ⟨s.completed.reverse, false⟩, log, none⟩) rfl
        rw [List.reverse_reverse] at hstore
        simp only [Store.conclude, hfault, hstore]
        exact .committed hall
    | some fault =>
        simp only [Store.conclude, takeBack_open]
        exact .faulty fault hall
  · rw [hreplay]
    simp only [Store.conclude, takeBack_open ht]
    exact .refused compileFault hc

end MemoryStore

end Population

import Population.Job.Actions
import Population.Proofs.Compile.Phases
import Population.Proofs.Store.Memory

namespace Population

theorem Compiled.ending_of_fault {c : Compiled} {g : Fault} (h : c.fault = some g) : c.ending = .faulty g := by
  rw [Compiled.fault] at h
  split at h
  next he =>
      cases h
      exact he
  next => cases h

namespace Job

/-- How a run on a store ends, and the store that it leaves. -/
inductive Ran (e : Environment) (s : Schema) (m : MemoryStore) (args : List Text) : Outcome → MemoryStore → Prop
  /-- No input is left unread, no line unbuilt and no command refused. -/
  | done {files : List SourceFile} (hi : inputs e args = .ok files)
      (hc : (Compiled.compile s files).ending = .complete)
      (hr : ∀ c ∈ (Compiled.compile s files).script.completed, m.refuses c = none) :
      Ran e s m args .done (m.committing (Compiled.compile s files).script.completed)
  | unread {f : Failure} (hi : inputs e args = .error f) : Ran e s m args (.failed f) m
  | syntactic {files : List SourceFile} {g : Fault} (hi : inputs e args = .ok files)
      (hc : (Compiled.compile s files).ending = .faulty g) (hg : g.kind = .syntactic) :
      Ran e s m args (.failed (.fault g)) m
  | semantic {files : List SourceFile} {g : Fault} (hi : inputs e args = .ok files)
      (hc : (Compiled.compile s files).ending = .faulty g) (hg : g.kind = .semantic)
      (hr : ∀ c ∈ (Compiled.compile s files).script.completed, m.refuses c = none) :
      Ran e s m args (.failed (.fault g)) m.takenBack
  /-- The script may be complete or as far as it got. -/
  | refused {files : List SourceFile} {c : Command} {cause : Text} (hi : inputs e args = .ok files)
      (hr : m.FirstRefused (Compiled.compile s files).script.completed c cause) :
      Ran e s m args (.failed (.fault (Store.commandFault c cause))) m.takenBack
  | abandoned {files : List SourceFile} (hi : inputs e args = .ok files)
      (hc : (Compiled.compile s files).ending = .abandoned) : Ran e s m args .abandoned m

variable {j : Job} {e : Environment} {s : Schema} {m : MemoryStore} {args : List Text}

def outcome : Option Fault → Outcome
  | some fault => .failed (.fault fault)
  | none => .done

theorem execute_store (m : MemoryStore) (s : Script) (compileFault : Option Fault) :
    (j.execute m s compileFault).1.store = some (MemoryStore.store.execute m s compileFault).store ∧
      (j.execute m s compileFault).2 = outcome (MemoryStore.store.execute m s compileFault).fault := by
  simp only [execute]
  split
  next h => exact ⟨rfl, by rw [h]; rfl⟩
  next h => exact ⟨rfl, by rw [h]; rfl⟩

theorem ran_of_executed {files : List SourceFile} {fault : Option Fault} {after : MemoryStore}
    (hi : inputs e args = .ok files) (hend : (Compiled.compile s files).ending ≠ .abandoned)
    (hsem : ∀ g, (Compiled.compile s files).ending = .faulty g → g.kind = .semantic)
    (h : m.Executed (Compiled.compile s files).script.completed (Compiled.compile s files).fault
      fault after) : Ran e s m args (outcome fault) after := by
  generalize hc : (Compiled.compile s files).fault = compileFault at h
  cases h with
  | refused _ hr => exact .refused hi hr
  | committed hr =>
      refine .done hi ?_ hr
      cases he : (Compiled.compile s files).ending with
      | complete => rfl
      | abandoned => exact absurd he hend
      | faulty g =>
          rw [Compiled.fault, he] at hc
          cases hc
  | faulty g hr =>
      have he := Compiled.ending_of_fault hc
      exact .semantic hi he (hsem g he) hr

theorem executeCompiled_ran (hm : j.store = some m) {files : List SourceFile} (hi : inputs j.env args = .ok files)
    (hend : (Compiled.compile j.schema files).ending ≠ .abandoned) :
    ∃ after, (j.executeCompiled (Compiled.compile j.schema files)).1.store = some after ∧
      Ran j.env j.schema m args (j.executeCompiled (Compiled.compile j.schema files)).2 after := by
  rw [executeCompiled]
  split
  next g hg =>
      obtain ⟨hfault, hearly⟩ := Option.filter_eq_some_iff.mp hg
      have he := Compiled.ending_of_fault hfault
      have hkind : g.kind = .syntactic := by
        rcases Compiled.compile_fault_kind he with h | h
        · exact h
        · simp [endsEarly, h] at hearly
      exact ⟨m, hm, .syntactic hi he hkind⟩
  next hg =>
      have hopen : j.openStore = .ok (j, m) := by
        rw [openStore, hm]
      rw [hopen]
      obtain ⟨hstore, hout⟩ := execute_store (j := j) m (Compiled.compile j.schema files).script
        (Compiled.compile j.schema files).fault
      refine ⟨_, hstore, ?_⟩
      rw [hout]
      refine ran_of_executed hi hend (fun g he => ?_) (MemoryStore.execute_executed m _ _)
      rcases Compiled.compile_fault_kind he with h | h
      · rw [Compiled.fault, he] at hg
        simp [endsEarly, h] at hg
      · exact h

/-- A job that differs only in what it has read, said and counted. -/
def SameGround (j j' : Job) : Prop :=
  j'.env = j.env ∧ j'.schema = j.schema ∧ j'.store = j.store

theorem readInputs_ok {files : List SourceFile} (hi : inputs j.env args = .ok files) :
    ∃ j', j.readInputs args = .ok (j', files) ∧ j.SameGround j' := by
  rw [readInputs, hi]
  exact ⟨_, rfl, rfl, rfl, rfl⟩

theorem readInputs_error {f : Failure} (hi : inputs j.env args = .error f) : j.readInputs args = .error f := by
  rw [readInputs, hi]
  rfl

theorem compileFiles_eq (j : Job) (files : List SourceFile) :
    ∃ j', j.compileFiles files = (j', Compiled.compile j.schema files) ∧ j.SameGround j' :=
  ⟨_, rfl, rfl, rfl, rfl⟩

/-- Every run on a store ends in one of the ways there are. -/
theorem run_ran (hm : j.store = some m) (args : List Text) :
    ∃ after, (j.run args).1.store = some after ∧ Ran j.env j.schema m args (j.run args).2 after := by
  obtain ⟨started, hnote, henv, hschema, hstore⟩ :
      ∃ j', j.note .debug "App.Run method started." [] = j' ∧ j.SameGround j' := ⟨_, rfl, rfl, rfl, rfl⟩
  simp only [run, hnote]
  rw [← henv, ← hschema]
  rw [hm] at hstore
  cases hi : inputs started.env args with
  | error f =>
      rw [readInputs_error hi]
      exact ⟨m, hstore, .unread hi⟩
  | ok files =>
      obtain ⟨loaded, hread, henv', hschema', hstore'⟩ := readInputs_ok hi
      obtain ⟨compiled, hcompile, henv'', hschema'', hstore''⟩ := compileFiles_eq loaded files
      rw [← henv', ← henv''] at hi ⊢
      rw [← hschema', ← hschema'']
      rw [← hschema''] at hcompile
      have hcm : compiled.store = some m := by rw [hstore'', hstore', hstore]
      simp only [hread, hcompile]
      by_cases hend : (Compiled.compile compiled.schema files).ending = .abandoned
      · rw [if_pos hend]
        exact ⟨m, hcm, .abandoned hi hend⟩
      · rw [if_neg hend]
        exact executeCompiled_ran hcm hi hend

/-- A run on a store is all or nothing. If it succeeds, the store has the complete commands of the script after
what it had, and one more commit. If it fails, what was committed is unchanged: no transaction was begun if the
inputs could not be read or are not well formed, and one was taken back if they do not fit together or if a
command was refused. -/
theorem run_all_or_nothing (j : Job) (m : MemoryStore) (args : List Text) :
    ∃ after, (run { j with store := some m } args).1.store = some after ∧
      ((run { j with store := some m } args).2 = .done →
        ∃ files, inputs j.env args = .ok files ∧ (Compiled.compile j.schema files).ending = .complete ∧
          after.committed = m.committed ++ (Compiled.compile j.schema files).script.completed ∧
          after.commits = m.commits + 1 ∧ after.rollbacks = m.rollbacks) ∧
      (∀ f, (run { j with store := some m } args).2 = .failed f →
        after.committed = m.committed ∧ after.commits = m.commits ∧
        ((inputs j.env args = .error f ∧ after.rollbacks = m.rollbacks) ∨
          ∃ files, inputs j.env args = .ok files ∧
            ((∃ g, f = .fault g ∧ (Compiled.compile j.schema files).ending = .faulty g ∧
                ((g.kind = .syntactic ∧ after.rollbacks = m.rollbacks) ∨
                  (g.kind = .semantic ∧ after.rollbacks = m.rollbacks + 1))) ∨
              ∃ c cause, m.FirstRefused (Compiled.compile j.schema files).script.completed c cause ∧
                f = .fault (Store.commandFault c cause) ∧ after.rollbacks = m.rollbacks + 1))) ∧
      ((run { j with store := some m } args).2 = .abandoned →
        after = m ∧ ∃ files, inputs j.env args = .ok files ∧
          (Compiled.compile j.schema files).ending = .abandoned) := by
  obtain ⟨after, hstore, hran⟩ := run_ran (j := { j with store := some m }) rfl args
  refine ⟨after, hstore, ?_⟩
  generalize (run { j with store := some m } args).2 = out at hran
  cases hran with
  | done hi hc => exact ⟨fun _ => ⟨_, hi, hc, rfl, rfl, rfl⟩, nofun, nofun⟩
  | unread hi =>
      refine ⟨nofun, fun f hf => ?_, nofun⟩
      cases hf
      exact ⟨rfl, rfl, .inl ⟨hi, rfl⟩⟩
  | syntactic hi hc hg =>
      refine ⟨nofun, fun f hf => ?_, nofun⟩
      cases hf
      exact ⟨rfl, rfl, .inr ⟨_, hi, .inl ⟨_, rfl, hc, .inl ⟨hg, rfl⟩⟩⟩⟩
  | semantic hi hc hg =>
      refine ⟨nofun, fun f hf => ?_, nofun⟩
      cases hf
      exact ⟨rfl, rfl, .inr ⟨_, hi, .inl ⟨_, rfl, hc, .inr ⟨hg, rfl⟩⟩⟩⟩
  | refused hi hr =>
      refine ⟨nofun, fun f hf => ?_, nofun⟩
      cases hf
      exact ⟨rfl, rfl, .inr ⟨_, hi, .inr ⟨_, _, hr, rfl, rfl⟩⟩⟩
  | abandoned hi hc => exact ⟨nofun, nofun, fun _ => ⟨rfl, _, hi, hc⟩⟩

end Job

end Population

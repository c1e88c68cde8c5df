import Population.Compile.Build
import Population.Proofs.Schema.Standard
import Population.Store.Sql

/-!
A store that remembers what it is asked shows the calls that an execution makes: one begins the transaction, the
commands follow in order up to the first that is refused, and one more call ends it.
-/
namespace Population

inductive StoreCall
  | begin (answer : Option StoreError)
  | exec (c : Command) (answer : Option StoreError)
  | commit (answer : Option StoreError)
  | rollback (answer : Option StoreError)

structure Recorded (σ : Type) where
  store : σ
  calls : List StoreCall

def Recorded.step {σ τ : Type} (r : Recorded σ) (call : Option StoreError → StoreCall) (s : Step σ τ) :
    Step (Recorded σ) τ :=
  ⟨⟨s.store, r.calls ++ [call s.error]⟩, s.tx, s.log, s.error⟩

namespace Store

variable {σ τ : Type}

def recorded (b : Store σ τ) : Store (Recorded σ) τ where
  begin r := match b.begin r.store with
    | (s, .ok t) => (⟨s, r.calls ++ [.begin none]⟩, .ok t)
    | (s, .error e) => (⟨s, r.calls ++ [.begin (some e)]⟩, .error e)
  exec r t c := r.step (.exec c) (b.exec r.store t c)
  commit r t := r.step .commit (b.commit r.store t)
  rollback r t := r.step .rollback (b.rollback r.store t)

/-- Calls that hand over commands in order, up to and with the first that is refused. -/
inductive Handed (commands : List Command) : Option Refusal → List StoreCall → Prop
  | all : Handed commands none (commands.map (.exec · none))
  | refused {before after : List Command} (r : Refusal) (h : commands = before ++ r.command :: after) :
      Handed commands (some r) (before.map (.exec · none) ++ [.exec r.command (some r.error)])

theorem Handed.cons {commands : List Command} {refusal : Option Refusal} {calls : List StoreCall}
    (h : Handed commands refusal calls) (c : Command) : Handed (c :: commands) refusal (.exec c none :: calls) := by
  cases h with
  | all => exact .all
  | @refused before after r h =>
      rw [h]
      exact @refused _ (c :: before) after r rfl

theorem replay_recorded (b : Store σ τ) (s : σ) (t : τ) (index : Nat) (commands : List Command)
    (calls : List StoreCall) : ∃ handed, Handed commands (b.replay s t index commands).refusal handed ∧
      b.recorded.replay ⟨s, calls⟩ t index commands =
        ⟨⟨(b.replay s t index commands).store, calls ++ handed⟩, (b.replay s t index commands).tx,
          (b.replay s t index commands).log, (b.replay s t index commands).refusal⟩ := by
  induction commands generalizing s t index calls with
  | nil => exact ⟨[], .all, by rw [List.append_nil]; rfl⟩
  | cons c rest ih =>
      simp only [replay, recorded, Recorded.step]
      cases herror : (b.exec s t c).error with
      | some e => exact ⟨_, @Handed.refused _ [] rest ⟨index, c, e⟩ rfl, rfl⟩
      | none =>
          obtain ⟨handed, hhanded, hreplay⟩ := ih (b.exec s t c).store (b.exec s t c).tx (index + 1)
            (calls ++ [.exec c none])
          refine ⟨_, hhanded.cons c, ?_⟩
          simp only [recorded, Recorded.step] at hreplay
          simp only [hreplay, List.append_assoc, List.cons_append, List.nil_append]

theorem takeBack_recorded (b : Store σ τ) (s : σ) (t : τ) (calls : List StoreCall) :
    b.recorded.takeBack ⟨s, calls⟩ t =
      (⟨(b.takeBack s t).1, calls ++ [.rollback (b.rollback s t).error]⟩, (b.takeBack s t).2) := by
  simp only [takeBack, recorded, Recorded.step]
  cases (b.rollback s t).error <;> rfl

/-- How the execution of commands can go: the fault of the compilation, the calls that are made and the fault that is
returned. -/
inductive Transacted (commands : List Command) : Option Fault → List StoreCall → Option Fault → Prop
  | unbegun (compileFault : Option Fault) (e : StoreError) : Transacted commands compileFault [.begin (some e)]
      (some (.causedBy .execution "cannot begin transaction" e.message))
  | refused (compileFault : Option Fault) (r : Refusal) {handed : List StoreCall} (h : Handed commands (some r) handed)
      (answer : Option StoreError) : Transacted commands compileFault (.begin none :: handed ++ [.rollback answer])
        (some (commandFault r.command r.error.message))
  | faulty (fault : Fault) (answer : Option StoreError) : Transacted commands (some fault)
      (.begin none :: commands.map (.exec · none) ++ [.rollback answer]) (some fault)
  | committed : Transacted commands none (.begin none :: commands.map (.exec · none) ++ [.commit none]) none
  | uncommitted (e : StoreError) : Transacted commands none
      (.begin none :: commands.map (.exec · none) ++ [.commit (some e)]) (some (commitFault commands e))

/-- The end of a transaction is one call, whichever it is. -/
theorem conclude_recorded (b : Store σ τ) {commands : List Command} {r : Replay σ τ} {handed : List StoreCall}
    (h : Handed commands r.refusal handed) (compileFault : Option Fault) :
    ∃ calls, Transacted commands compileFault calls (b.conclude commands compileFault r).fault ∧
      b.recorded.conclude commands compileFault ⟨⟨r.store, .begin none :: handed⟩, r.tx, r.log, r.refusal⟩ =
        ⟨⟨(b.conclude commands compileFault r).store, calls⟩, (b.conclude commands compileFault r).log,
          (b.conclude commands compileFault r).fault⟩ := by
  obtain ⟨s, t, log, refusal⟩ := r
  cases h with
  | refused r hcommands =>
      refine ⟨_, .refused compileFault r (.refused r hcommands) (b.rollback s t).error, ?_⟩
      simp only [conclude, takeBack_recorded]
  | all =>
      cases compileFault with
      | some fault =>
          refine ⟨_, .faulty fault (b.rollback s t).error, ?_⟩
          simp only [conclude, takeBack_recorded]
      | none =>
          simp only [conclude, commitAll, recorded, Recorded.step]
          cases (b.commit s t).error with
          | none => exact ⟨_, .committed, rfl⟩
          | some e => exact ⟨_, .uncommitted e, rfl⟩

/-- A store that remembers its calls is asked, and answers, as it would be without that. -/
theorem execute_recorded (b : Store σ τ) (s : σ) (script : Script) (compileFault : Option Fault) :
    ∃ calls, Transacted script.completed compileFault calls (b.execute s script compileFault).fault ∧
      b.recorded.execute ⟨s, []⟩ script compileFault = ⟨⟨(b.execute s script compileFault).store, calls⟩,
        (b.execute s script compileFault).log, (b.execute s script compileFault).fault⟩ := by
  rw [execute, execute]
  have hbegin : b.recorded.begin ⟨s, []⟩ = match b.begin s with
      | (s, .ok t) => (⟨s, [.begin none]⟩, .ok t)
      | (s, .error e) => (⟨s, [.begin (some e)]⟩, .error e) := rfl
  rw [hbegin]
  rcases b.begin s with ⟨s, e | t⟩
  · exact ⟨_, .unbegun compileFault e, rfl⟩
  · obtain ⟨handed, hhanded, hreplay⟩ := b.replay_recorded s t 0 script.completed [.begin none]
    simp only [hreplay]
    exact b.conclude_recorded hhanded compileFault

theorem Handed.mem_exec {commands : List Command} {refusal : Option Refusal} {handed : List StoreCall}
    (h : Handed commands refusal handed) {call : StoreCall} (hcall : call ∈ handed) : ∃ c answer, call = .exec c answer := by
  cases h with
  | all =>
      obtain ⟨c, -, rfl⟩ := List.mem_map.mp hcall
      exact ⟨c, none, rfl⟩
  | refused r =>
      rcases List.mem_append.mp hcall with hcall | hcall
      · obtain ⟨c, -, rfl⟩ := List.mem_map.mp hcall
        exact ⟨c, none, rfl⟩
      · cases List.mem_singleton.mp hcall
        exact ⟨r.command, some r.error, rfl⟩

theorem Handed.mem_refused_iff {commands : List Command} {refusal : Option Refusal} {handed : List StoreCall}
    (h : Handed commands refusal handed) {c : Command} {e : StoreError} :
    .exec c (some e) ∈ handed ↔ ∃ index, refusal = some ⟨index, c, e⟩ := by
  cases h with
  | all => simp
  | refused r =>
      obtain ⟨index, command, error⟩ := r
      simp [eq_comm]

theorem Transacted.reports {commands : List Command} {compileFault fault : Option Fault} {calls : List StoreCall}
    (h : Transacted commands compileFault calls fault) : (fault = none ↔ .commit none ∈ calls) ∧
      (∀ c e, .exec c (some e) ∈ calls → fault = some (commandFault c e.message)) ∧
      (.begin none ∈ calls → (∀ c e, .exec c (some e) ∉ calls) → ∀ g, compileFault = some g → fault = some g) := by
  have hnot {handed : List StoreCall} {refusal : Option Refusal} (h : Handed commands refusal handed) :
      .commit none ∉ handed := by
    intro hcall
    obtain ⟨_, _, hcall⟩ := h.mem_exec hcall
    cases hcall
  cases h with
  | unbegun => simp
  | @refused _ r handed h answer =>
      refine ⟨by simp [hnot h], fun c e hc => ?_, fun _ hall => ?_⟩
      · have hhanded : .exec c (some e) ∈ handed := by simpa using hc
        obtain ⟨index, hr⟩ := h.mem_refused_iff.mp hhanded
        cases hr
        rfl
      · have hhanded : .exec r.command (some r.error) ∈ handed := h.mem_refused_iff.mpr ⟨r.index, rfl⟩
        exact absurd (by simp [hhanded]) (hall r.command r.error)
  | faulty fault answer => simp
  | committed => simp
  | uncommitted e => simp

/-- The execution of a script obeys the protocol of transactions, whatever the store answers. -/
theorem execute_protocol (b : Store σ τ) (s : σ) (script : Script) (compileFault : Option Fault) :
    ∃ run, b.recorded.execute ⟨s, []⟩ script compileFault = run ∧
      b.execute s script compileFault = ⟨run.store.store, run.log, run.fault⟩ ∧
      ((∃ e, run.store.calls = [.begin (some e)] ∧
          run.fault = some (.causedBy .execution "cannot begin transaction" e.message)) ∨
        ∃ refusal handed last, run.store.calls = .begin none :: handed ++ [last] ∧
          Handed script.completed refusal handed ∧
          if refusal = none ∧ compileFault = none then ∃ answer, last = .commit answer
          else ∃ answer, last = .rollback answer) ∧
      (run.fault = none ↔ .commit none ∈ run.store.calls) ∧
      (∀ c e, .exec c (some e) ∈ run.store.calls → ∃ g, run.fault = some g ∧ g.kind = .execution ∧
        g.file = c.origin.file ∧ g.line = c.origin.line ∧ g.text = c.origin.text ∧ g.cause = some e.message) ∧
      (.begin none ∈ run.store.calls → (∀ c e, .exec c (some e) ∉ run.store.calls) →
        ∀ g, compileFault = some g → run.fault = some g) := by
  obtain ⟨calls, htransacted, hrun⟩ := b.execute_recorded s script compileFault
  obtain ⟨hdone, hrefused, hfaulty⟩ := htransacted.reports
  refine ⟨_, hrun, rfl, ?_, hdone, fun c e hc => ⟨_, hrefused c e hc, rfl, rfl, rfl, rfl, rfl⟩, hfaulty⟩
  generalize (b.execute s script compileFault).fault = fault at htransacted
  cases htransacted with
  | unbegun _ e => exact .inl ⟨e, rfl, rfl⟩
  | refused _ r h answer => exact .inr ⟨some r, _, _, rfl, h, by simp⟩
  | faulty fault answer => exact .inr ⟨none, _, _, rfl, .all, by simp⟩
  | committed => exact .inr ⟨none, _, _, rfl, .all, by simp⟩
  | uncommitted e => exact .inr ⟨none, _, _, rfl, .all, by simp⟩

def unreachable : SqlStore :=
  ⟨⟨some "no db", fun _ => none, none, none⟩, []⟩

def twoPilots : SourceFile :=
  .ofBytes "m.mi" "domain\nATC / ATC\nsubsystem\nAir Field / AF 1-50\nclasses\nPilot / P\nPilot / PP\n"

/-- A transaction that cannot be begun is reported instead of what stopped the compilation, though no command was
refused. -/
theorem execute_unreachable : ∃ g run, (Compiled.build Schema.standard [twoPilots]).ending = .faulty g ∧
    SqlStore.store.recorded.execute ⟨unreachable, []⟩ (Compiled.build Schema.standard [twoPilots]).script (some g) = run ∧
    run.store.calls = [.begin (some (.beginning "no db"))] ∧ (∀ c e, .exec c (some e) ∉ run.store.calls) ∧
    run.fault ≠ some g := by
  have hcalls (script : Script) (g : Fault) :
      (SqlStore.store.recorded.execute ⟨unreachable, []⟩ script (some g)).store.calls =
        [.begin (some (.beginning "no db"))] := rfl
  refine ⟨⟨.semantic, "m.mi", 7, "Pilot / PP", "class \"Pilot\" already declared in domain \"ATC\"", none⟩, _,
    by decide +kernel, rfl, hcalls .., fun c e hc => ?_, fun hfault => ?_⟩
  · rw [hcalls] at hc
    simp at hc
  · cases congrArg (Option.map Fault.kind) hfault

end Store

end Population

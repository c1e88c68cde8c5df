import Mathlib.Data.List.Nodup
import Population.Proofs.Store.Memory

namespace Population.MemoryStore

inductive Request
  | exec (c : Command)
  | commit
  | rollback

def Request.on (m : MemoryStore) (t : Tx) : Request → Step MemoryStore Tx
  | .exec c => store.exec m t c
  | .commit => store.commit m t
  | .rollback => store.rollback m t

/-- A request that a transaction made, and the error that was the answer, if any. -/
structure Answer where
  tx : Nat
  request : Request
  error : Option StoreError

inductive Event
  | begin
  | request (tx : Nat) (r : Request)
  /-- The store comes to refuse other commands. -/
  | hook (refuses : Command → Option Text)

structure Shared where
  store : MemoryStore
  /-- All transactions that were begun, by number. -/
  txs : List Tx
  answers : List Answer

def Shared.next (w : Shared) : Event → Shared
  | .begin => match MemoryStore.store.begin w.store with
    | (m, .ok t) => { w with store := m, txs := w.txs ++ [t] }
    | (m, .error _) => { w with store := m }
  | .request i r => match w.txs[i]? with
    | none => w
    | some t =>
      let step := r.on w.store t
      ⟨step.store, w.txs.set i step.tx, w.answers ++ [⟨i, r, step.error⟩]⟩
  | .hook refuses => { w with store := { w.store with refuses } }

def share (m : MemoryStore) (events : List Event) : Shared :=
  events.foldl Shared.next ⟨m, [], []⟩

def Answer.executed (a : Answer) : List Command :=
  match a.request, a.error with
  | .exec c, none => [c]
  | _, _ => []

def Answer.committed (a : Answer) : List Nat :=
  match a.request, a.error with
  | .commit, none => [a.tx]
  | _, _ => []

def Answer.rolledBack (a : Answer) : List Nat :=
  match a.request, a.error with
  | .rollback, none => [a.tx]
  | _, _ => []

/-- The commands that a transaction executed successfully, in its own order. -/
def executedBy (answers : List Answer) (i : Nat) : List Command :=
  (answers.filter (·.tx = i)).flatMap Answer.executed

def committedIn (answers : List Answer) : List Nat :=
  answers.flatMap Answer.committed

def rolledBackIn (answers : List Answer) : List Nat :=
  answers.flatMap Answer.rolledBack

def finishedIn (answers : List Answer) : List Nat :=
  committedIn answers ++ rolledBackIn answers

def Permits (m : MemoryStore) : Request → Prop
  | .exec c => c.completed = true ∧ m.refuses c = none
  | .commit | .rollback => True

/-- What a store that began as `m` has taken from the transactions on it. -/
structure Taken (m : MemoryStore) (w : Shared) : Prop where
  committed : w.store.committed = m.committed ++ (committedIn w.answers).flatMap (executedBy w.answers)
  commits : w.store.commits = m.commits + (committedIn w.answers).length
  rollbacks : w.store.rollbacks = m.rollbacks + (rolledBackIn w.answers).length
  once : (finishedIn w.answers).Nodup

/-- That, and how the transactions are answered from now on: one that is finished changes nothing any more. -/
structure Isolated (m : MemoryStore) (w : Shared) : Prop extends Taken m w where
  begun : ∀ i ∈ finishedIn w.answers, i < w.txs.length
  finished : ∀ i ∈ finishedIn w.answers, ∀ r,
    w.next (.request i r) = { w with answers := w.answers ++ [⟨i, r, some .finished⟩] }
  unfinished : ∀ i < w.txs.length, i ∉ finishedIn w.answers → ∀ r, ∃ error,
    (w.next (.request i r)).answers = w.answers ++ [⟨i, r, error⟩] ∧ (error = none ↔ w.store.Permits r)

inductive Performed (m : MemoryStore) (t : Tx) : Request → Step MemoryStore Tx → Prop
  | finished (r : Request) (h : t.done = true) : Performed m t r ⟨m, t, [], some .finished⟩
  | refused {c : Command} (e : StoreError) (h : t.done = false) (hc : ¬ m.Permits (.exec c)) :
      Performed m t (.exec c) ⟨m, t, [], some e⟩
  | executed {c : Command} (h : t.done = false) (hc : m.Permits (.exec c)) :
      Performed m t (.exec c) ⟨m, ⟨c :: t.gathered, false⟩, [], none⟩
  | committed (h : t.done = false) :
      Performed m t .commit ⟨m.committing t.gathered.reverse, ⟨t.gathered, true⟩, [], none⟩
  | rolledBack (h : t.done = false) : Performed m t .rollback ⟨m.takenBack, ⟨[], true⟩, [], none⟩

theorem on_performed (m : MemoryStore) (t : Tx) (r : Request) : Performed m t r (r.on m t) := by
  obtain ⟨gathered, done⟩ := t
  cases done with
  | true => cases r <;> exact .finished _ rfl
  | false =>
      cases r with
      | commit => exact .committed rfl
      | rollback => exact .rolledBack rfl
      | exec c =>
          cases hc : c.completed with
          | false =>
              have hstep : Request.on m ⟨gathered, false⟩ (.exec c) =
                  ⟨m, ⟨gathered, false⟩, [], some (.incomplete c.call.name c.missing)⟩ := by
                simp [Request.on, store, exec, keep, hc]
              rw [hstep]
              exact .refused _ rfl (by simp [Permits, hc])
          | true =>
              cases hr : m.refuses c with
              | some cause =>
                  rw [show Request.on m ⟨gathered, false⟩ (.exec c) = _ from exec_refused hc hr]
                  exact .refused _ rfl (by simp [Permits, hr])
              | none =>
                  rw [show Request.on m ⟨gathered, false⟩ (.exec c) = _ from exec_accepted hc hr]
                  exact .executed rfl ⟨hc, hr⟩

section Views

variable {answers : List Answer} {a : Answer} {i : Nat}

theorem executedBy_snoc (answers : List Answer) (a : Answer) (i : Nat) :
    executedBy (answers ++ [a]) i = executedBy answers i ++ if a.tx = i then a.executed else [] := by
  by_cases h : a.tx = i <;> simp [executedBy, h]

theorem executedBy_of_idle (h : a.executed = []) : executedBy (answers ++ [a]) = executedBy answers := by
  funext i
  rw [executedBy_snoc, h]
  simp

@[simp] theorem committedIn_snoc (answers : List Answer) (a : Answer) :
    committedIn (answers ++ [a]) = committedIn answers ++ a.committed := by
  simp [committedIn]

@[simp] theorem rolledBackIn_snoc (answers : List Answer) (a : Answer) :
    rolledBackIn (answers ++ [a]) = rolledBackIn answers ++ a.rolledBack := by
  simp [rolledBackIn]

theorem mem_finishedIn_snoc : i ∈ finishedIn (answers ++ [a]) ↔
    i ∈ finishedIn answers ∨ i ∈ a.committed ∨ i ∈ a.rolledBack := by
  simp only [finishedIn, committedIn_snoc, rolledBackIn_snoc, List.mem_append]
  tauto

theorem Answer.eq_tx_of_finished (h : i ∈ a.committed ∨ i ∈ a.rolledBack) : i = a.tx := by
  unfold Answer.committed Answer.rolledBack at h
  rcases h with h | h <;> split at h <;> simp_all

theorem exists_answer_of_finished (h : i ∈ finishedIn answers) : ∃ a ∈ answers, a.tx = i := by
  rcases List.mem_append.mp h with h | h
  · obtain ⟨a, ha, hi⟩ := List.mem_flatMap.mp h
    exact ⟨a, ha, (Answer.eq_tx_of_finished (.inl hi)).symm⟩
  · obtain ⟨a, ha, hi⟩ := List.mem_flatMap.mp h
    exact ⟨a, ha, (Answer.eq_tx_of_finished (.inr hi)).symm⟩

theorem executedBy_eq_nil (h : ∀ a ∈ answers, a.tx ≠ i) : executedBy answers i = [] := by
  have hnone : answers.filter (·.tx = i) = [] := by
    apply List.filter_eq_nil_iff.mpr
    intro a ha
    simpa using h a ha
  rw [executedBy, hnone]
  rfl

end Views

/-- A transaction knows whether it has ended, and has gathered what it executed until then. -/
structure Tx.Follows (t : Tx) (answers : List Answer) (i : Nat) : Prop where
  done : t.done = true ↔ i ∈ finishedIn answers
  gathered : t.done = false → t.gathered.reverse = executedBy answers i

theorem Tx.Follows.not_mem {t : Tx} {answers : List Answer} {i : Nat} (h : t.Follows answers i)
    (hdone : t.done = false) : i ∉ finishedIn answers := by
  intro hi
  simp [h.done.mpr hi] at hdone

theorem Tx.Follows.other {t : Tx} {answers : List Answer} {a : Answer} {i : Nat} (h : t.Follows answers i)
    (hi : a.tx ≠ i) : t.Follows (answers ++ [a]) i := by
  constructor
  · rw [h.done, mem_finishedIn_snoc]
    constructor
    · exact .inl
    · rintro (hold | hnew)
      · exact hold
      · exact absurd (Answer.eq_tx_of_finished hnew).symm hi
  · intro hdone
    rw [executedBy_snoc, if_neg hi, List.append_nil]
    exact h.gathered hdone

/-- The store, and each transaction on it, stand where the answers have brought them. -/
structure Followed (m : MemoryStore) (w : Shared) : Prop extends Taken m w where
  begun : ∀ a ∈ w.answers, a.tx < w.txs.length
  txs : ∀ i (t : Tx), w.txs[i]? = some t → t.Follows w.answers i

theorem followed_start (m : MemoryStore) : Followed m ⟨m, [], []⟩ := by
  refine ⟨⟨?_, rfl, rfl, .nil⟩, nofun, ?_⟩
  · exact (List.append_nil m.committed).symm
  · intro i t ht
    simp at ht

namespace Followed

variable {m s : MemoryStore} {w : Shared} {i : Nat} {t t' : Tx} {r : Request}

theorem begin (h : Followed m w) : Followed m (w.next .begin) := by
  refine ⟨⟨h.committed, h.commits, h.rollbacks, h.once⟩, ?_, ?_⟩
  · intro a ha
    have hlt := h.begun a ha
    simp only [Shared.next, store, List.length_append, List.length_singleton]
    omega
  · intro i t ht
    simp only [Shared.next, store] at ht ⊢
    rcases Nat.lt_or_ge i w.txs.length with hi | hi
    · rw [List.getElem?_append_left hi] at ht
      exact h.txs i t ht
    · -- a number that has not been given out has no answers
      have hnew : ∀ a ∈ w.answers, a.tx ≠ i := by
        intro a ha
        have hlt := h.begun a ha
        omega
      rw [List.getElem?_append_right hi, List.getElem?_singleton] at ht
      split at ht
      next =>
          cases ht
          constructor
          · simp only [Bool.false_eq_true, false_iff]
            intro hfinished
            obtain ⟨a, ha, htx⟩ := exists_answer_of_finished hfinished
            exact hnew a ha htx
          · intro _
            rw [executedBy_eq_nil hnew]
            rfl
      next => cases ht

/-- An answer keeps the account if the store and the transaction it is for do. -/
theorem answer (h : Followed m w) (ht : w.txs[i]? = some t) {error : Option StoreError}
    (hs : Taken m ⟨s, w.txs.set i t', w.answers ++ [⟨i, r, error⟩]⟩)
    (ht' : t'.Follows (w.answers ++ [⟨i, r, error⟩]) i) :
    Followed m ⟨s, w.txs.set i t', w.answers ++ [⟨i, r, error⟩]⟩ := by
  have hi : i < w.txs.length := (List.getElem?_eq_some_iff.mp ht).1
  refine ⟨hs, ?_, ?_⟩
  · intro a ha
    rw [List.length_set]
    rcases List.mem_append.mp ha with ha | ha
    · exact h.begun a ha
    · rw [List.mem_singleton.mp ha]
      exact hi
  · intro j x hx
    by_cases hj : i = j
    · subst j
      rw [List.getElem?_set_self hi] at hx
      cases hx
      exact ht'
    · rw [List.getElem?_set_ne hj] at hx
      exact (h.txs j x hx).other hj

theorem fail (h : Followed m w) (ht : w.txs[i]? = some t) (e : StoreError) :
    Followed m ⟨w.store, w.txs.set i t, w.answers ++ [⟨i, r, some e⟩]⟩ := by
  have hidle : Answer.executed ⟨i, r, some e⟩ = [] ∧ Answer.committed ⟨i, r, some e⟩ = [] ∧
      Answer.rolledBack ⟨i, r, some e⟩ = [] := by
    cases r <;> exact ⟨rfl, rfl, rfl⟩
  obtain ⟨hexecuted, hcommitted, hrolledBack⟩ := hidle
  refine h.answer ht ⟨?_, ?_, ?_, ?_⟩ ⟨?_, ?_⟩
  · rw [committedIn_snoc, hcommitted, List.append_nil, executedBy_of_idle hexecuted]
    exact h.committed
  · rw [committedIn_snoc, hcommitted, List.append_nil]
    exact h.commits
  · rw [rolledBackIn_snoc, hrolledBack, List.append_nil]
    exact h.rollbacks
  · rw [finishedIn, committedIn_snoc, rolledBackIn_snoc, hcommitted, hrolledBack, List.append_nil, List.append_nil]
    exact h.once
  · rw [(h.txs i t ht).done, mem_finishedIn_snoc, hcommitted, hrolledBack]
    simp
  · rw [executedBy_of_idle hexecuted]
    exact (h.txs i t ht).gathered

theorem exec (h : Followed m w) (ht : w.txs[i]? = some t) (hdone : t.done = false) (c : Command) :
    Followed m ⟨w.store, w.txs.set i ⟨c :: t.gathered, false⟩, w.answers ++ [⟨i, .exec c, none⟩]⟩ := by
  have hfollows := h.txs i t ht
  have hopen := hfollows.not_mem hdone
  refine h.answer ht ⟨?_, ?_, ?_, ?_⟩ ⟨?_, ?_⟩
  · rw [committedIn_snoc, h.committed]
    -- what the transaction executes is in no committed one
    have hsame : (committedIn w.answers).flatMap (executedBy (w.answers ++ [⟨i, .exec c, none⟩])) =
        (committedIn w.answers).flatMap (executedBy w.answers) := by
      apply List.flatMap_congr
      intro j hj
      have hij : i ≠ j := by
        rintro rfl
        exact hopen (List.mem_append_left _ hj)
      rw [executedBy_snoc, if_neg hij, List.append_nil]
    simp only [Answer.committed, List.append_nil, hsame]
  · simpa [Answer.committed] using h.commits
  · simpa [Answer.rolledBack] using h.rollbacks
  · simpa [finishedIn, Answer.committed, Answer.rolledBack] using h.once
  · simpa [mem_finishedIn_snoc, Answer.committed, Answer.rolledBack] using hopen
  · intro _
    rw [executedBy_snoc, if_pos rfl, ← hfollows.gathered hdone]
    simp [Answer.executed]

theorem commit (h : Followed m w) (ht : w.txs[i]? = some t) (hdone : t.done = false) :
    Followed m ⟨w.store.committing t.gathered.reverse, w.txs.set i ⟨t.gathered, true⟩,
      w.answers ++ [⟨i, .commit, none⟩]⟩ := by
  have hfollows := h.txs i t ht
  have hopen := hfollows.not_mem hdone
  refine h.answer ht ⟨?_, ?_, ?_, ?_⟩ ⟨?_, ?_⟩
  · rw [committedIn_snoc, executedBy_of_idle rfl, List.flatMap_append, ← List.append_assoc, ← h.committed]
    simp [committing, Answer.committed, hfollows.gathered hdone]
  · rw [committedIn_snoc, List.length_append, ← Nat.add_assoc, ← h.commits]
    rfl
  · simpa [committing, Answer.rolledBack] using h.rollbacks
  · have hperm : (finishedIn (w.answers ++ [⟨i, .commit, none⟩])).Perm (i :: finishedIn w.answers) := by
      simp [finishedIn, Answer.committed, Answer.rolledBack]
    exact hperm.nodup_iff.mpr (List.nodup_cons.mpr ⟨hopen, h.once⟩)
  · simp [mem_finishedIn_snoc, Answer.committed]
  · intro hdone
    cases hdone

theorem rollback (h : Followed m w) (ht : w.txs[i]? = some t) (hdone : t.done = false) :
    Followed m ⟨w.store.takenBack, w.txs.set i ⟨[], true⟩, w.answers ++ [⟨i, .rollback, none⟩]⟩ := by
  have hfollows := h.txs i t ht
  have hopen := hfollows.not_mem hdone
  refine h.answer ht ⟨?_, ?_, ?_, ?_⟩ ⟨?_, ?_⟩
  · rw [committedIn_snoc, executedBy_of_idle rfl]
    simpa [takenBack, Answer.committed] using h.committed
  · simpa [takenBack, Answer.committed] using h.commits
  · rw [rolledBackIn_snoc, List.length_append, ← Nat.add_assoc, ← h.rollbacks]
    rfl
  · have hperm : (finishedIn (w.answers ++ [⟨i, .rollback, none⟩])).Perm (i :: finishedIn w.answers) := by
      have hend := List.perm_append_singleton i (finishedIn w.answers)
      simpa [finishedIn, Answer.committed, Answer.rolledBack] using hend
    exact hperm.nodup_iff.mpr (List.nodup_cons.mpr ⟨hopen, h.once⟩)
  · simp [mem_finishedIn_snoc, Answer.rolledBack]
  · intro hdone
    cases hdone

theorem request (h : Followed m w) (i : Nat) (r : Request) : Followed m (w.next (.request i r)) := by
  rw [Shared.next]
  split
  next => exact h
  next t ht =>
      have hperformed := on_performed w.store t r
      generalize r.on w.store t = step at hperformed
      cases hperformed with
      | finished => exact h.fail ht _
      | refused e => exact h.fail ht e
      | executed hdone => exact h.exec ht hdone _
      | committed hdone => exact h.commit ht hdone
      | rolledBack hdone => exact h.rollback ht hdone

theorem next (h : Followed m w) (e : Event) : Followed m (w.next e) := by
  cases e with
  | begin => exact h.begin
  | request i r => exact h.request i r
  | hook refuses => exact ⟨⟨h.committed, h.commits, h.rollbacks, h.once⟩, h.begun, h.txs⟩

theorem finished (h : Followed m w) (hi : i ∈ finishedIn w.answers) (r : Request) :
    w.next (.request i r) = { w with answers := w.answers ++ [⟨i, r, some .finished⟩] } := by
  obtain ⟨a, ha, htx⟩ := exists_answer_of_finished hi
  have hlt : i < w.txs.length := htx ▸ h.begun a ha
  have ht : w.txs[i]? = some w.txs[i] := List.getElem?_eq_getElem hlt
  have hdone : w.txs[i].done = true := (h.txs i _ ht).done.mpr hi
  have hset : w.txs.set i w.txs[i] = w.txs := List.set_getElem_self hlt
  have hperformed := on_performed w.store w.txs[i] r
  rw [Shared.next, ht]
  simp only
  generalize r.on w.store w.txs[i] = step at hperformed
  cases hperformed with
  | finished => simp only [hset]
  | refused _ hopen | executed hopen | committed hopen | rolledBack hopen =>
      rw [hdone] at hopen
      cases hopen

theorem unfinished (h : Followed m w) (hlt : i < w.txs.length) (hi : i ∉ finishedIn w.answers) (r : Request) :
    ∃ error, (w.next (.request i r)).answers = w.answers ++ [⟨i, r, error⟩] ∧
      (error = none ↔ w.store.Permits r) := by
  have ht : w.txs[i]? = some w.txs[i] := List.getElem?_eq_getElem hlt
  have hperformed := on_performed w.store w.txs[i] r
  refine ⟨(r.on w.store w.txs[i]).error, by rw [Shared.next, ht], ?_⟩
  generalize r.on w.store w.txs[i] = step at hperformed
  cases hperformed with
  | finished _ hdone => exact absurd ((h.txs i _ ht).done.mp hdone) hi
  | refused _ _ hc => simpa using hc
  | executed _ hc => simpa using hc
  | committed | rolledBack => simp [Permits]

theorem events (h : Followed m w) (events : List Event) : Followed m (events.foldl Shared.next w) := by
  induction events generalizing w with
  | nil => exact h
  | cons e rest ih => exact ih (h.next e)

end Followed

/-- Transactions on one store do not see each other. -/
theorem share_isolated (m : MemoryStore) (events : List Event) : Isolated m (share m events) := by
  have h := (followed_start m).events events
  refine ⟨h.toTaken, ?_, fun i hi r => h.finished hi r, fun i hlt hi r => h.unfinished hlt hi r⟩
  intro i hi
  obtain ⟨a, ha, htx⟩ := exists_answer_of_finished hi
  exact htx ▸ h.begun a ha

end Population.MemoryStore

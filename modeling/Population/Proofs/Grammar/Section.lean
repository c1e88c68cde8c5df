import Population.Grammar.Section

namespace Population.Section

variable {current : Option Section} {x : Text}

theorem ofName?_eq_some_iff {home : Section} : ofName? x = some home ↔ x = home.name := by
  constructor
  · intro h
    exact (by simpa using List.find?_some h : home.name = x).symm
  · rintro rfl
    cases home <;> rfl

theorem step_ok_iff {next : Section} :
    step current x = .ok next ↔ next ∈ following current ∧ x = next.name := by
  rw [← ofName?_eq_some_iff, step]
  cases ofName? x with
  | none => simp
  | some home =>
      by_cases hnext : home ∈ following current
      · simp only [if_pos hnext, Except.ok.injEq, Option.some.injEq]
        constructor
        · rintro rfl
          exact ⟨hnext, rfl⟩
        · exact And.right
      · simp only [if_neg hnext]
        constructor
        · intro h
          cases current <;> cases h
        · rintro ⟨hmem, ⟨⟩⟩
          exact absurd hmem hnext

theorem step_ofName? {next : Section} (h : step current x = .ok next) : ofName? x = some next :=
  ofName?_eq_some_iff.mpr (step_ok_iff.mp h).2

theorem followFrom_concat (index : Nat) (current : Option Section) (words : List Text) (word : Text) :
    followFrom index current (words ++ [word]) = .ok () ↔ followFrom index current words = .ok () ∧
      ∃ next, step (words.getLast?.elim current ofName?) word = .ok next := by
  induction words generalizing index current with
  | nil =>
      simp only [List.nil_append, followFrom, List.getLast?_nil, Option.elim_none, true_and]
      cases step current word with
      | ok next => exact ⟨fun _ => ⟨next, rfl⟩, fun _ => rfl⟩
      | error e => exact ⟨nofun, nofun⟩
  | cons first rest ih =>
      rw [List.cons_append, followFrom, followFrom]
      cases hstep : step current first with
      | error e => exact ⟨nofun, fun h => nomatch h.1⟩
      | ok next =>
          have hlast : (first :: rest).getLast?.elim current ofName? = rest.getLast?.elim (some next) ofName? := by
            rw [List.getLast?_cons]
            cases rest.getLast? with
            | none => exact step_ofName? hstep
            | some word => rfl
          rw [hlast]
          exact ih (index + 1) (some next)

theorem followFrom_of_append {index : Nat} {current : Option Section} {words more : List Text}
    (h : followFrom index current (words ++ more) = .ok ()) : followFrom index current words = .ok () := by
  induction words generalizing index current with
  | nil => rfl
  | cons word rest ih =>
      rw [List.cons_append, followFrom] at h
      rw [followFrom]
      cases hstep : step current word with
      | error e =>
          rw [hstep] at h
          cases h
      | ok next =>
          rw [hstep] at h
          exact ih h

/-- A sequence that cannot be followed can be followed up to the name that is told. -/
theorem followFrom_error {index i : Nat} {words : List Text} {e : TransitionError}
    (h : followFrom index current words = .error (i, e)) :
    ∃ before x after, words = before ++ x :: after ∧ i = index + before.length ∧
      followFrom index current before = .ok () ∧ followFrom index current (before ++ [x]) = .error (i, e) := by
  induction words generalizing index current with
  | nil => cases h
  | cons x words ih =>
      rw [followFrom] at h
      cases hstep : step current x with
      | error e' =>
          rw [hstep] at h
          cases h
          exact ⟨[], x, words, rfl, rfl, rfl, by simp [followFrom, hstep]⟩
      | ok next =>
          rw [hstep] at h
          obtain ⟨before, y, after, rfl, rfl, hbefore, herror⟩ := ih h
          refine ⟨x :: before, y, after, rfl, by simp; omega, ?_, ?_⟩
          · simpa [followFrom, hstep] using hbefore
          · simpa [followFrom, hstep] using herror

end Population.Section

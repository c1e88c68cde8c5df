import Mathlib.Data.List.Induction

namespace Population

variable {α : Type} {xs ys before after : List α} {x y : α}

theorem append_eq_append_cons (h : xs ++ ys = before ++ y :: after) :
    (∃ own, xs = before ++ y :: own) ∨ ∃ later, before = xs ++ later ∧ ys = later ++ y :: after := by
  rcases List.append_eq_append_iff.mp h with ⟨later, hbefore, hys⟩ | ⟨own, hxs, hafter⟩
  · exact .inr ⟨later, hbefore, hys⟩
  · cases own with
    | nil => exact .inr ⟨[], by rw [hxs, List.append_nil, List.append_nil], hafter.symm⟩
    | cons q own =>
        cases hafter
        exact .inl ⟨own, hxs⟩

theorem snoc_eq_append_cons_iff : xs ++ [x] = before ++ y :: after ↔
    (before = xs ∧ y = x ∧ after = []) ∨ ∃ between, after = between ++ [x] ∧ xs = before ++ y :: between := by
  constructor
  · intro h
    rcases List.eq_nil_or_concat after with rfl | ⟨between, z, rfl⟩
    · obtain ⟨rfl, hxy⟩ := List.append_inj' h rfl
      exact .inl ⟨rfl, (List.singleton_inj.mp hxy).symm, rfl⟩
    · rw [List.concat_eq_append, ← List.cons_append, ← List.append_assoc] at h
      obtain ⟨hxs, hxz⟩ := List.append_inj' h rfl
      exact .inr ⟨between, by rw [List.concat_eq_append, hxz], hxs⟩
  · rintro (⟨rfl, rfl, rfl⟩ | ⟨between, rfl, rfl⟩)
    · rfl
    · rw [List.append_assoc, List.cons_append]

/-- What holds of each item of a list and those before it, for a list that is longer by one. -/
theorem forall_split_snoc {P : List α → α → Prop} (hxs : ∀ before y after, xs = before ++ y :: after → P before y)
    (hx : P xs x) : ∀ before y after, xs ++ [x] = before ++ y :: after → P before y := by
  intro before y after h
  rcases snoc_eq_append_cons_iff.mp h with ⟨rfl, rfl, -⟩ | ⟨between, -, hsplit⟩
  · exact hx
  · exact hxs before y between hsplit

end Population

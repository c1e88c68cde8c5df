import Mathlib.Data.List.Basic
import Population.Text.Basic

namespace Population.Text

variable {sep t piece rest : Text} {b : UInt8}

theorem cutFrom_eq (sep seen t : Text) :
    cutFrom sep seen t = (cut sep t).map fun parts => (seen.reverse ++ parts.1, parts.2) := by
  induction t generalizing seen with
  | nil => by_cases h : sep.isEmpty <;> simp [cut, cutFrom, h]
  | cons b t ih =>
      rw [cut, cutFrom, cutFrom]
      by_cases h : sep.isPrefixOf (b :: t)
      · simp [h]
      · rw [if_neg h, if_neg h, ih, ih [b], Option.map_map]
        exact congrArg (Option.map · (cut sep t)) (funext fun parts => by simp)

theorem cut_nil (h : sep ≠ []) : cut sep [] = none :=
  if_neg (by simpa using h)

theorem cut_cons (sep : Text) (b : UInt8) (t : Text) : cut sep (b :: t) =
    if sep.isPrefixOf (b :: t) then some ([], (b :: t).drop sep.length)
    else (cut sep t).map fun parts => (b :: parts.1, parts.2) := by
  rw [cut, cutFrom, cutFrom_eq]
  rfl

/-- A text is cut where the other one occurs in it, and not behind another such place. -/
theorem cut_eq_some_iff (h : sep ≠ []) : cut sep t = some (piece, rest) ↔
    t = piece ++ (sep ++ rest) ∧ ∀ before after, t = before ++ (sep ++ after) → piece.length ≤ before.length := by
  induction t generalizing piece with
  | nil =>
      rw [cut_nil h]
      simp [h]
  | cons b t ih =>
      rw [cut_cons]
      -- either the text is cut in front of its first byte, or as the rest is
      by_cases hhere : sep <+: b :: t
      · obtain ⟨u, hu⟩ := hhere
        rw [if_pos (List.isPrefixOf_iff_prefix.mpr ⟨u, hu⟩), ← hu, List.drop_left]
        constructor
        · rintro ⟨⟩
          exact ⟨rfl, fun _ _ _ => Nat.zero_le _⟩
        · rintro ⟨hsplit, hfirst⟩
          have hnil : piece = [] := List.length_eq_zero_iff.mp (Nat.le_zero.mp (hfirst [] u rfl))
          subst hnil
          rw [List.append_cancel_left hsplit]
      · rw [if_neg fun hp => hhere (List.isPrefixOf_iff_prefix.mp hp), Option.map_eq_some_iff]
        constructor
        · rintro ⟨⟨p, r⟩, hcut, ⟨⟩⟩
          obtain ⟨rfl, hfirst⟩ := ih.mp hcut
          refine ⟨rfl, fun before after hsplit => ?_⟩
          cases before with
          | nil => exact absurd ⟨after, hsplit.symm⟩ hhere
          | cons c before =>
              obtain ⟨-, hrest⟩ := List.cons.inj hsplit
              exact Nat.succ_le_succ (hfirst before after hrest)
        · rintro ⟨hsplit, hfirst⟩
          cases piece with
          | nil => exact absurd ⟨rest, hsplit.symm⟩ hhere
          | cons c p =>
              obtain ⟨rfl, rfl⟩ := List.cons.inj hsplit
              refine ⟨(p, rest), ih.mpr ⟨rfl, fun before after hbefore => ?_⟩, rfl⟩
              have hle := hfirst (b :: before) after (congrArg (b :: ·) hbefore)
              exact Nat.le_of_succ_le_succ hle

theorem not_infix_of_cut (h : sep ≠ []) (hcut : cut sep t = some (piece, rest)) : ¬ sep <:+: piece := by
  obtain ⟨rfl, hfirst⟩ := (cut_eq_some_iff h).mp hcut
  rintro ⟨before, after, rfl⟩
  have hle := hfirst before (after ++ (sep ++ rest)) (by simp)
  have hpos := List.length_pos_iff.mpr h
  simp only [List.length_append] at hle
  omega

theorem cut_eq_none_of_not_mem (hb : b ∈ sep) (h : b ∉ t) : cut sep t = none := by
  rw [Option.eq_none_iff_forall_ne_some]
  rintro ⟨piece, rest⟩ hcut
  obtain ⟨rfl, -⟩ := (cut_eq_some_iff (List.ne_nil_of_mem hb)).mp hcut
  exact h (List.mem_append_right _ (List.mem_append_left _ hb))

theorem cut_of_not_mem {u : Text} (h : b ∉ u) (sep v : Text) : cut (b :: sep) (u ++ (b :: sep ++ v)) = some (u, v) := by
  induction u with
  | nil => simp [cut_cons]
  | cons c u ih =>
      obtain ⟨hne, hu⟩ := List.ne_and_not_mem_of_not_mem_cons h
      rw [List.cons_append, cut_cons, ih hu]
      simp [hne]

theorem cut_byte {u : Text} (h : b ∉ u) (v : Text) : cut [b] (u ++ b :: v) = some (u, v) :=
  cut_of_not_mem h [] v

theorem cut_append_left {u : Text} (h : b ∉ u) (t : Text) :
    cut [b] (u ++ t) = (cut [b] t).map fun parts => (u ++ parts.1, parts.2) := by
  induction u with
  | nil => simp
  | cons c u ih =>
      obtain ⟨hne, hu⟩ := List.ne_and_not_mem_of_not_mem_cons h
      rw [List.cons_append, cut_cons, if_neg (by simpa using hne), ih hu, Option.map_map]
      rfl

theorem cut_append_right {e : Text} (h : b ∉ e) (t : Text) :
    cut [b] (t ++ e) = (cut [b] t).map fun parts => (parts.1, parts.2 ++ e) := by
  induction t with
  | nil => rw [List.nil_append, cut_nil (List.cons_ne_nil b []), cut_eq_none_of_not_mem List.mem_cons_self h, Option.map_none]
  | cons c t ih =>
      rw [List.cons_append, cut_cons, cut_cons, ih]
      by_cases hc : b = c
      · simp [hc]
      · rw [if_neg (by simpa using hc), if_neg (by simpa using hc), Option.map_map, Option.map_map]
        rfl

theorem contains_byte : t.contains [b] = true ↔ b ∈ t := by
  rw [contains]
  constructor
  · intro h
    by_contra hb
    rw [cut_eq_none_of_not_mem List.mem_cons_self hb] at h
    cases h
  · intro h
    obtain ⟨u, v, rfl, hu⟩ := List.eq_append_cons_of_mem h
    rw [cut_byte hu]
    rfl

end Population.Text

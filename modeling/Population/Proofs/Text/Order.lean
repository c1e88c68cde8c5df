import Mathlib.Data.List.Nodup
import Population.Text.Basic

namespace Population.Text

theorem le_iff {s t : Text} : le s t = true ↔ s ≤ t := by
  induction s generalizing t with
  | nil => simp [le]
  | cons a s ih =>
      cases t with
      | nil => simp [le]
      | cons b t => simp [le, List.cons_le_cons_iff, ih]

theorem mem_sort {t : Text} {ts : List Text} : t ∈ sort ts ↔ t ∈ ts :=
  (List.mergeSort_perm ts le).mem_iff

theorem nodup_sort {ts : List Text} : (sort ts).Nodup ↔ ts.Nodup :=
  (List.mergeSort_perm ts le).nodup_iff

theorem sort_pairwise_le (ts : List Text) : (sort ts).Pairwise (· ≤ ·) := by
  have htrans (s t u : Text) (hst : le s t = true) (htu : le t u = true) : le s u = true :=
    le_iff.mpr (List.le_trans (le_iff.mp hst) (le_iff.mp htu))
  have htotal (s t : Text) : (le s t || le t s) = true := by
    rw [Bool.or_eq_true, le_iff, le_iff]
    exact List.le_total s t
  exact (List.pairwise_mergeSort htrans htotal ts).imp le_iff.mp

theorem sort_pairwise_lt {ts : List Text} (h : ts.Nodup) : (sort ts).Pairwise (· < ·) := by
  refine ((sort_pairwise_le ts).and (nodup_sort.mpr h)).imp fun {s t} ⟨hle, hne⟩ => ?_
  -- `s ≤ t` says that `t < s` does not hold
  by_contra hlt
  exact hne (List.le_antisymm hle hlt)

theorem sort_congr {ss ts : List Text} (hs : ss.Nodup) (ht : ts.Nodup) (h : ∀ t, t ∈ ss ↔ t ∈ ts) :
    sort ss = sort ts := by
  have hperm : (sort ss).Perm (sort ts) := by
    refine (List.perm_ext_iff_of_nodup (nodup_sort.mpr hs) (nodup_sort.mpr ht)).mpr fun t => ?_
    rw [mem_sort, mem_sort, h]
  exact hperm.eq_of_pairwise (fun _ _ _ _ => List.le_antisymm) (sort_pairwise_le ss) (sort_pairwise_le ts)

end Population.Text

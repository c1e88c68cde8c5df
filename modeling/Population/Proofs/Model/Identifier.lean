import Mathlib.Data.List.Nodup
import Population.Model.Closing
import Population.Proofs.Outcome

namespace Population

namespace Identifier

variable {attr x : Text} {g : Group} {index n : Nat} {numbers : List Int}

def Holds (g : Group) (index : Nat) (x : Text) : Prop :=
  ∃ attrs, g[index]? = some attrs ∧ x ∈ attrs

def Distinct (g : Group) : Prop :=
  ∀ attrs ∈ g, attrs.Nodup

theorem holds_iff : Holds g index x ↔ x ∈ g[index]?.getD [] := by
  cases hattrs : g[index]? <;> simp [Holds, hattrs]

theorem holds_nil (index : Nat) (x : Text) : ¬ Holds [] index x := by
  rintro ⟨attrs, h, -⟩
  simp at h

/-- A property that no attributes have is had by those of every identifier if it is had at every index, also behind the
last identifier. -/
theorem forall_mem_iff_getD {p : List Text → Prop} (hnil : p []) :
    (∀ attrs ∈ g, p attrs) ↔ ∀ index : Nat, p (g[index]?.getD []) := by
  constructor
  · intro h index
    cases hattrs : g[index]? with
    | none => exact hnil
    | some attrs => exact h attrs (List.mem_of_getElem? hattrs)
  · intro h attrs hmem
    obtain ⟨index, hattrs⟩ := List.mem_iff_getElem?.mp hmem
    have hindex := h index
    rwa [hattrs] at hindex

def put (attr : Text) (attrs : List Text) : List Text :=
  if attr ∈ attrs then attrs else attrs ++ [attr]

theorem mem_put {attrs : List Text} : x ∈ put attr attrs ↔ x ∈ attrs ∨ x = attr := by
  by_cases h : attr ∈ attrs
  · rw [put, if_pos h]
    constructor
    · exact .inl
    · rintro (hx | rfl)
      · exact hx
      · exact h
  · simp [put, h]

theorem put_put (attr : Text) (attrs : List Text) : put attr (put attr attrs) = put attr attrs := by
  have hmem : attr ∈ put attr attrs := mem_put.mpr (.inr rfl)
  rw [put, if_pos hmem]

theorem nodup_put {attrs : List Text} (h : attrs.Nodup) : (put attr attrs).Nodup := by
  rw [put]
  split
  next => exact h
  next hnew =>
      rw [← List.concat_eq_append]
      exact h.concat hnew

theorem getD_addAt : (addAt attr index g)[n]?.getD [] =
    if n = index then put attr (g[n]?.getD []) else g[n]?.getD [] := by
  induction index generalizing g n with
  | zero => cases g <;> cases n <;> simp [addAt, put]
  | succ index ih => cases g <;> cases n <;> simp [addAt, ih]

theorem getD_addAll (attr : Text) (g : Group) (index : Nat) (hpos : ∀ k ∈ numbers, 1 ≤ k) :
    (numbers.foldl (fun g k => addAt attr (k - 1).toNat g) g)[index]?.getD [] =
      if ((index + 1 : Nat) : Int) ∈ numbers then put attr (g[index]?.getD []) else g[index]?.getD [] := by
  induction numbers generalizing g with
  | nil => simp
  | cons k rest ih =>
      obtain ⟨hk, hrest⟩ := List.forall_mem_cons.mp hpos
      have hindex : index = (k - 1).toNat ↔ ((index + 1 : Nat) : Int) = k := by omega
      rw [List.foldl_cons, ih _ hrest, getD_addAt]
      simp only [hindex, List.mem_cons]
      generalize ((index + 1 : Nat) : Int) = m
      by_cases hhere : m = k
      · by_cases hlater : m ∈ rest <;> simp [hhere, put_put]
      · simp [hhere]

theorem holds_addAll (hpos : ∀ k ∈ numbers, 1 ≤ k) :
    Holds (numbers.foldl (fun g k => addAt attr (k - 1).toNat g) g) index x ↔
      Holds g index x ∨ (((index + 1 : Nat) : Int) ∈ numbers ∧ x = attr) := by
  rw [holds_iff, holds_iff, getD_addAll _ _ _ hpos]
  split
  next hnamed => rw [mem_put, and_iff_right hnamed]
  next hnamed => rw [or_iff_left fun h => hnamed h.1]

theorem distinct_addAll (hpos : ∀ k ∈ numbers, 1 ≤ k) (h : Distinct g) :
    Distinct (numbers.foldl (fun g k => addAt attr (k - 1).toNat g) g) := by
  refine (forall_mem_iff_getD List.nodup_nil).mpr fun index => ?_
  have hold := (forall_mem_iff_getD List.nodup_nil).mp h index
  rw [getD_addAll _ _ _ hpos]
  split
  next => exact nodup_put hold
  next => exact hold

def numbered (g : Group) : List (Nat × Text) :=
  g.zipIdx.flatMap fun (attrs, i) => attrs.map (i, ·)

theorem mem_numbered : (index, x) ∈ numbered g ↔ Holds g index x := by
  simp only [numbered, List.mem_flatMap, List.mem_map, Prod.mk.injEq, Prod.exists, List.mk_mem_zipIdx_iff_getElem?, Holds]
  constructor
  · rintro ⟨attrs, i, hi, y, hy, rfl, rfl⟩
    exact ⟨attrs, hi, hy⟩
  · rintro ⟨attrs, hi, hx⟩
    exact ⟨attrs, index, hi, x, hx, rfl, rfl⟩

theorem nodup_numbered (h : Distinct g) : (numbered g).Nodup := by
  refine List.nodup_flatMap.mpr ⟨?_, ?_⟩
  · rintro ⟨attrs, i⟩ hmem
    refine (h attrs ?_).map fun x y hxy => (Prod.mk.inj hxy).2
    exact List.mem_of_getElem? (List.mk_mem_zipIdx_iff_getElem?.mp hmem)
  · have hindices : (g.zipIdx.map Prod.snd).Nodup := by
      rw [List.zipIdx_map_snd]
      exact List.nodup_range'
    refine (List.pairwise_map.mp hindices).imp fun {p q} hne => ?_
    intro x hx hy
    obtain ⟨y, -, rfl⟩ := List.mem_map.mp hx
    obtain ⟨z, -, hz⟩ := List.mem_map.mp hy
    exact hne (congrArg Prod.fst hz).symm

end Identifier

namespace Analyzer

open Identifier

/-- The numbers of the identifiers that a tag names; a tag that cannot be read names none. -/
def tagNumbers (tag : Text) : List Int :=
  (parseTag tag).toOption.getD []

theorem tagNumbers_nil : tagNumbers [] = [] := by
  decide +kernel

theorem digit_range {tag : Text} {b : UInt8} {n : Int} (h : digit tag b = .ok n) : 1 ≤ n ∧ n ≤ 9 := by
  rw [digit] at h
  split at h
  next => cases h
  next hdigit =>
      split at h
      next => cases h
      next hzero =>
          cases h
          have hrange : 48 ≤ b.toNat ∧ b.toNat ≤ 57 := by
            simpa [Text.isDigit, UInt8.le_iff_toNat_le] using hdigit
          have hne : b.toNat ≠ 48 := by
            simpa [← UInt8.toNat_inj] using hzero
          omega

theorem mapM_digit_range {tag digits : Text} {numbers : List Int} (h : digits.mapM (digit tag) = .ok numbers) :
    ∀ n ∈ numbers, 1 ≤ n ∧ n ≤ 9 := by
  induction digits generalizing numbers with
  | nil =>
      cases pure_ok_iff.mp h
      nofun
  | cons b rest ih =>
      rw [List.mapM_cons] at h
      obtain ⟨n, hn, h⟩ := bind_ok_iff.mp h
      obtain ⟨ns, hns, h⟩ := bind_ok_iff.mp h
      cases pure_ok_iff.mp h
      exact List.forall_mem_cons.mpr ⟨digit_range hn, ih hns⟩

theorem tagNumbers_range {tag : Text} {n : Int} (h : n ∈ tagNumbers tag) : 1 ≤ n ∧ n ≤ 9 := by
  rw [tagNumbers, parseTag] at h
  split at h
  next =>
      rw [List.mem_singleton.mp h]
      decide
  next digits _ _ =>
      cases hdigits : digits.mapM (digit tag.trim) with
      | error e =>
          rw [hdigits] at h
          cases h
      | ok numbers =>
          rw [hdigits] at h
          refine mapM_digit_range hdigits n ?_
          have hmem : n ∈ numbers.eraseDups.mergeSort := h
          simpa using hmem
  next => cases h

theorem tagged_ok {c : ModelClass} {attr tag : Text} {group : Group} (h : tagged c attr tag = .ok group) :
    (∀ index x, Holds group index x ↔
      Holds c.identifiers index x ∨ (((index + 1 : Nat) : Int) ∈ tagNumbers tag ∧ x = attr)) ∧
    (Distinct c.identifiers → Distinct group) := by
  rw [tagged] at h
  split at h
  next => cases h
  next =>
      split at h
      next hempty =>
          cases h
          rw [List.isEmpty_iff.mp hempty, tagNumbers_nil]
          exact ⟨fun index x => by simp, id⟩
      next =>
          split at h
          next => cases h
          next numbers hnumbers =>
              have hmerge := mapError_ok_iff.mp h
              rw [merge] at hmerge
              split at hmerge
              next => cases hmerge
              next =>
                  split at hmerge
                  next => cases hmerge
                  next hfind =>
                      cases hmerge
                      have hpos : ∀ n ∈ numbers, 1 ≤ n := by
                        simpa using List.find?_eq_none.mp hfind
                      rw [tagNumbers, hnumbers]
                      exact ⟨fun index x => holds_addAll hpos, distinct_addAll hpos⟩

end Analyzer

end Population

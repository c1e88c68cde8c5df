import Mathlib.Data.List.Forall2
import Mathlib.Data.List.Nodup
import Mathlib.Data.List.Perm.Basic
import Population.Proofs.Outcome

namespace Population

variable {α β : Type} {R : α → β → Prop} {l : List α} {r : List β}

theorem partner_of_right (h : List.Forall₂ R l r) {y : β} (hy : y ∈ r) : ∃ x ∈ l, R x y := by
  induction h with
  | nil => cases hy
  | cons hxy _ ih =>
      rcases List.mem_cons.mp hy with rfl | hy
      · exact ⟨_, List.mem_cons_self, hxy⟩
      · obtain ⟨x, hx, hR⟩ := ih hy
        exact ⟨x, List.mem_cons_of_mem _ hx, hR⟩

theorem partner_of_left (h : List.Forall₂ R l r) {x : α} (hx : x ∈ l) : ∃ y ∈ r, R x y :=
  partner_of_right h.flip hx

theorem partner_append {l₁ l₂ : List α} (h : List.Forall₂ R (l₁ ++ l₂) r) :
    ∃ r₁ r₂, r = r₁ ++ r₂ ∧ List.Forall₂ R l₁ r₁ ∧ List.Forall₂ R l₂ r₂ := by
  induction l₁ generalizing r with
  | nil => exact ⟨[], r, rfl, .nil, h⟩
  | cons x l₁ ih =>
      cases h with
      | cons hxy hrest =>
          obtain ⟨r₁, r₂, rfl, h₁, h₂⟩ := ih hrest
          exact ⟨_ :: r₁, r₂, rfl, .cons hxy h₁, h₂⟩

theorem partner_last {y y' : β} (h : List.Forall₂ R l (r ++ [y])) (hy : ∀ x, R x y → R x y') :
    List.Forall₂ R l (r ++ [y']) := by
  obtain ⟨l₁, l₂, rfl, h₁, h₂⟩ := partner_append h.flip
  refine List.rel_append h₁.flip ?_
  cases h₂ with
  | cons hxy hnil =>
      cases hnil
      exact .cons (hy _ hxy) .nil

theorem flatMap_partner {γ : Type} {f : α → List γ} {g : β → List γ} (h : List.Forall₂ R l r)
    (hR : ∀ x y, R x y → g y = f x) : r.flatMap g = l.flatMap f := by
  induction h with
  | nil => rfl
  | cons hxy _ ih => rw [List.flatMap_cons, List.flatMap_cons, hR _ _ hxy, ih]

theorem flatMap_partner_perm {γ : Type} {f : α → List γ} {g : β → List γ} (h : List.Forall₂ R l r)
    (hR : ∀ x y, R x y → (g y).Perm (f x)) : (r.flatMap g).Perm (l.flatMap f) := by
  induction h with
  | nil => exact .refl _
  | cons hxy _ ih =>
      rw [List.flatMap_cons, List.flatMap_cons]
      exact (hR _ _ hxy).append ih

theorem common_partner {S : α → β → Prop} (h : List.Forall₂ R l r) (hS : List.Forall₂ S l r) {x : α} (hx : x ∈ l) :
    ∃ y, R x y ∧ S x y := by
  induction h with
  | nil => cases hx
  | cons hxy _ ih =>
      cases hS with
      | cons hxy' hrest =>
          rcases List.mem_cons.mp hx with rfl | hx
          · exact ⟨_, hxy, hxy'⟩
          · exact ih hrest hx

theorem pairwise_partner {S : α → α → Prop} {T : β → β → Prop} (h : List.Forall₂ R l r)
    (hR : ∀ x y x' y', R x y → R x' y' → S x x' → T y y') (hl : l.Pairwise S) : r.Pairwise T := by
  induction h with
  | nil => exact .nil
  | cons hxy hrest ih =>
      obtain ⟨hx, hl⟩ := List.pairwise_cons.mp hl
      refine List.pairwise_cons.mpr ⟨fun y' hy' => ?_, ih hl⟩
      obtain ⟨x', hx', hxy'⟩ := partner_of_right hrest hy'
      exact hR _ _ _ _ hxy hxy' (hx x' hx')

theorem exists_partners_iff : (∃ r, List.Forall₂ R l r) ↔ ∀ x ∈ l, ∃ y, R x y := by
  constructor
  · rintro ⟨r, h⟩ x hx
    obtain ⟨y, -, hxy⟩ := partner_of_left h hx
    exact ⟨y, hxy⟩
  · intro h
    induction l with
    | nil => exact ⟨[], .nil⟩
    | cons x rest ih =>
        obtain ⟨hx, hrest⟩ := List.forall_mem_cons.mp h
        obtain ⟨y, hxy⟩ := hx
        obtain ⟨r, hr⟩ := ih hrest
        exact ⟨y :: r, .cons hxy hr⟩

theorem mapM_ok_iff {ε : Type} {f : α → Except ε β} : l.mapM f = .ok r ↔ List.Forall₂ (fun x y => f x = .ok y) l r := by
  induction l generalizing r with
  | nil =>
      rw [List.mapM_nil, pure_ok_iff, List.forall₂_nil_left_iff]
      exact eq_comm
  | cons x rest ih =>
      rw [List.mapM_cons, bind_ok_iff, List.forall₂_cons_left_iff]
      constructor
      · rintro ⟨y, hy, h⟩
        obtain ⟨ys, hys, h⟩ := bind_ok_iff.mp h
        exact ⟨y, ys, hy, ih.mp hys, (pure_ok_iff.mp h).symm⟩
      · rintro ⟨y, ys, hy, hys, rfl⟩
        exact ⟨y, hy, bind_ok_iff.mpr ⟨ys, ih.mpr hys, rfl⟩⟩

theorem exists_mapM_iff {ε : Type} {f : α → Except ε β} : (∃ r, l.mapM f = .ok r) ↔ ∀ x ∈ l, ∃ y, f x = .ok y := by
  simp only [mapM_ok_iff, exists_partners_iff]

theorem mapM_some_iff {f : α → Option β} : l.mapM f = some r ↔ List.Forall₂ (fun x y => f x = some y) l r := by
  induction l generalizing r with
  | nil =>
      rw [List.mapM_nil, List.forall₂_nil_left_iff]
      exact Option.some_inj.trans eq_comm
  | cons x rest ih =>
      rw [List.mapM_cons, Option.bind_eq_bind, Option.bind_eq_some_iff, List.forall₂_cons_left_iff]
      constructor
      · rintro ⟨y, hy, h⟩
        obtain ⟨ys, hys, h⟩ := Option.bind_eq_some_iff.mp h
        exact ⟨y, ys, hy, ih.mp hys, (Option.some.inj h).symm⟩
      · rintro ⟨y, ys, hy, hys, rfl⟩
        exact ⟨y, hy, Option.bind_eq_some_iff.mpr ⟨ys, ih.mpr hys, rfl⟩⟩

theorem mapM_error {ε : Type} {f : α → Except ε β} {e : ε} (h : l.mapM f = .error e) : ∃ x ∈ l, f x = .error e := by
  induction l with
  | nil => exact absurd h pure_ne_error
  | cons x rest ih =>
      rw [List.mapM_cons] at h
      rcases bind_error_iff.mp h with hx | ⟨y, -, h⟩
      · exact ⟨x, List.mem_cons_self, hx⟩
      rcases bind_error_iff.mp h with hrest | ⟨ys, -, h⟩
      · obtain ⟨x', hx', he⟩ := ih hrest
        exact ⟨x', List.mem_cons_of_mem _ hx', he⟩
      · exact absurd h pure_ne_error

theorem partners_some {S : α → Option β → Prop} {r : List (Option β)} (h : List.Forall₂ S l r)
    (hS : ∀ x ∈ l, ∀ o, S x o → ∃ y, o = some y ∧ R x y) : List.Forall₂ R l (r.filterMap id) := by
  induction h with
  | nil => exact .nil
  | cons hxo _ ih =>
      obtain ⟨hhere, hrest⟩ := List.forall_mem_cons.mp hS
      obtain ⟨y, rfl, hxy⟩ := hhere _ hxo
      exact .cons hxy (ih hrest)

theorem eq_or_exists_of_partners {Q : α → Prop} {l' : List α} (h : List.Forall₂ (fun x y => x = y ∨ Q x) l l') :
    l = l' ∨ ∃ x ∈ l, Q x := by
  induction h with
  | nil => exact .inl rfl
  | cons hx _ ih =>
      rcases hx with rfl | hx
      · rcases ih with rfl | ⟨y, hy, hQ⟩
        · exact .inl rfl
        · exact .inr ⟨y, List.mem_cons_of_mem _ hy, hQ⟩
      · exact .inr ⟨_, List.mem_cons_self, hx⟩

theorem map_eq_of_map_eq {γ δ : Type} {f : α → γ} {g : α → δ} {l' : List α} (h : l.map f = l'.map f)
    (hfg : ∀ x ∈ l, ∀ y ∈ l', f x = f y → g x = g y) : l.map g = l'.map g := by
  induction l generalizing l' with
  | nil => rw [List.map_eq_nil_iff.mp h.symm]
  | cons x l ih =>
      cases l' with
      | nil => cases h
      | cons y l' =>
          obtain ⟨hx, hl⟩ := List.cons.inj h
          have hrest := ih hl fun x hx y hy => hfg x (List.mem_cons_of_mem _ hx) y (List.mem_cons_of_mem _ hy)
          rw [List.map_cons, List.map_cons, hrest, hfg x List.mem_cons_self y List.mem_cons_self hx]

theorem nodup_eraseDups [BEq α] [LawfulBEq α] (l : List α) : l.eraseDups.Nodup := by
  induction hn : l.length using Nat.strongRecOn generalizing l with
  | ind n ih =>
      cases l with
      | nil => exact .nil
      | cons x rest =>
          rw [List.eraseDups_cons]
          have hshort : (rest.filter fun y => !y == x).length < n := by
            rw [← hn]
            exact Nat.lt_succ_of_le (List.length_filter_le _ _)
          refine List.nodup_cons.mpr ⟨fun hx => ?_, ih _ hshort _ rfl⟩
          simp [List.mem_eraseDups] at hx

theorem nil_of_flatMap_perm {γ : Type} {f g : α → List γ}
    (h : (l.flatMap f).Perm (l.flatMap fun x => f x ++ g x)) : ∀ x ∈ l, g x = [] := by
  have hsplit : (l.flatMap f ++ []).Perm (l.flatMap f ++ l.flatMap g) := by
    rw [List.append_nil]
    exact h.trans (List.flatMap_append_perm l f g).symm
  have hnil := ((List.perm_append_left_iff _).mp hsplit).nil_eq.symm
  exact List.flatMap_eq_nil_iff.mp hnil

/-- The groups of a list by the keys that its items have are the list in another order. -/
theorem flatMap_filter_perm [DecidableEq β] (key : α → β) {keys : List β} (hkeys : keys.Nodup) (l : List α)
    (hl : ∀ x ∈ l, key x ∈ keys) : (keys.flatMap fun k => l.filter (key · = k)).Perm l := by
  induction keys generalizing l with
  | nil =>
      rw [List.eq_nil_iff_forall_not_mem.mpr fun x hx => List.not_mem_nil (hl x hx)]
      exact .refl _
  | cons k rest ih =>
      obtain ⟨hk, hrest⟩ := List.nodup_cons.mp hkeys
      have hgroups : rest.flatMap (fun j => l.filter (key · = j)) =
          rest.flatMap fun j => (l.filter fun x => !decide (key x = k)).filter (key · = j) := by
        refine List.flatMap_congr fun j hj => ?_
        have hjk : j ≠ k := by
          rintro rfl
          exact hk hj
        rw [List.filter_filter]
        refine List.filter_congr fun x _ => ?_
        by_cases hx : key x = j
        · rw [hx, decide_eq_false hjk]
          simp
        · simp [hx]
      rw [List.flatMap_cons, hgroups]
      refine .trans (.append_left _ (ih hrest _ fun x hx => ?_)) (List.filter_append_perm (fun x => decide (key x = k)) l)
      obtain ⟨hx, hne⟩ := List.mem_filter.mp hx
      exact (List.mem_cons.mp (hl x hx)).resolve_left (by simpa using hne)

section Tables

variable [DecidableEq β] {key : α → β} {k : β}

theorem find?_key_iff (h : (l.map key).Nodup) {x : α} : l.find? (key · = k) = some x ↔ x ∈ l ∧ key x = k := by
  constructor
  · intro hx
    exact ⟨List.mem_of_find?_eq_some hx, by simpa using List.find?_some hx⟩
  · rintro ⟨hx, rfl⟩
    have hsome : (l.find? (key · = key x)).isSome := List.find?_isSome.mpr ⟨x, hx, by simp⟩
    obtain ⟨y, hy⟩ := Option.isSome_iff_exists.mp hsome
    have hkey : key y = key x := by simpa using List.find?_some hy
    rw [hy, List.inj_on_of_nodup_map h (List.mem_of_find?_eq_some hy) hx hkey]

theorem find?_key_isSome : (l.find? (key · = k)).isSome ↔ k ∈ l.map key := by
  simp only [List.find?_isSome, decide_eq_true_eq, List.mem_map]

theorem nodup_map_snoc (h : (l.map key).Nodup) {x : α} (hx : l.find? (key · = key x) = none) :
    ((l ++ [x]).map key).Nodup := by
  have hnew : key x ∉ l.map key := by
    rw [← find?_key_isSome, hx]
    simp
  rw [List.map_append, List.map_singleton, ← List.concat_eq_append]
  exact h.concat hnew

theorem find?_key_perm {l' : List α} (h : l.Perm l') (hl : (l.map key).Nodup) :
    l.find? (key · = k) = l'.find? (key · = k) := by
  have hl' : (l'.map key).Nodup := (h.map key).nodup_iff.mp hl
  refine Option.ext fun x => ?_
  rw [find?_key_iff hl, find?_key_iff hl', h.mem_iff]

end Tables

end Population

import Population.Proofs.Value.Native

/-!
A list of whole numbers is handed over item by item, each as it would be on its own, if all of them have few enough
bits for a double, since it is through doubles that they go.
-/
namespace Population

def Native.items : Native → List Native
  | .texts ts => ts.map .text
  | .ints is => is.map .int
  | .floats ds => ds.map .float
  | .bools bs => bs.map .bool
  | _ => []

namespace Value

variable {n : Number} {i : Int} {ns : List Number} {doubles : List Double} {ints : List Int} {l : Native}

/-- Items that are handed over in a list as each of them is on its own. -/
def HandedAs (items : List Value) (l : Native) : Prop :=
  List.Forall₂ (fun v m => v.native = .ok m) items l.items

theorem native_texts (ts : List Text) :
    ∃ l, (Value.list .text (ts.map .text)).native = .ok l ∧ HandedAs (ts.map .text) l := by
  have hitems : (ts.map Value.text).mapM textItem = .ok ts := by
    rw [mapM_ok_iff, List.forall₂_map_left_iff]
    exact List.forall₂_same.mpr fun t _ => rfl
  refine ⟨.texts ts, map_ok_iff.mpr ⟨ts, hitems, rfl⟩, ?_⟩
  rw [HandedAs, Native.items, List.forall₂_map_left_iff, List.forall₂_map_right_iff]
  exact List.forall₂_same.mpr fun t _ => rfl

theorem native_bools (bs : List Bool) :
    ∃ l, (Value.list .bool (bs.map .bool)).native = .ok l ∧ HandedAs (bs.map .bool) l := by
  have hitems : (bs.map Value.bool).mapM boolItem = .ok bs := by
    rw [mapM_ok_iff, List.forall₂_map_left_iff]
    exact List.forall₂_same.mpr fun b _ => rfl
  refine ⟨.bools bs, map_ok_iff.mpr ⟨bs, hitems, rfl⟩, ?_⟩
  rw [HandedAs, Native.items, List.forall₂_map_left_iff, List.forall₂_map_right_iff]
  exact List.forall₂_same.mpr fun b _ => rfl

theorem native_int64 (h : n.toInt64? = some i) : (Value.number n).native = .ok (.int i) := by
  change nativeNumber n = _
  rw [nativeNumber, if_pos (Number.isWhole_of_toInt64? h), h]

/-- An integer becomes a whole double, the same one if it has few enough bits. -/
theorem doubleOf_int64 {d : Double} (h : n.Held) (hi : n.toInt64? = some i) (hd : doubleOf n = .ok d) :
    ∃ j, d.value.toInt? = some j ∧ (j = i ↔ Double.Exact i.natAbs) := by
  obtain ⟨hint, hrange⟩ := Number.toInt64?_eq_some_iff.mp hi
  cases h with
  | zero negative =>
      cases hint
      cases hd
      exact ⟨0, rfl, iff_of_true rfl ⟨0, 0, by decide, rfl⟩⟩
  | infinite negative => cases hint
  | @finite negative x hsound =>
      obtain ⟨k, hk, rfl⟩ := Number.toInt?_signed hint
      obtain ⟨he, hwhole⟩ := Magnitude.toNat?_odd hsound.odd hk
      obtain rfl : k = Number.whole x := hwhole
      have hlarge := int64_lt_overflow hrange
      rw [Number.natAbs_signed] at hlarge ⊢
      obtain ⟨r, hr, hsame⟩ := Double.ofNumber_whole negative hsound he hlarge
      have hvalue : d = Double.ofNumber (.finite negative x) := by
        simp only [doubleOf] at hd
        split at hd <;> cases hd
        rfl
      refine ⟨_, hvalue ▸ hr, Iff.trans ?_ hsame⟩
      cases negative <;> simp

theorem handedAs_ints (h : ∀ n ∈ ns, n.Held ∧ ∃ i, n.toInt64? = some i)
    (hdoubles : List.Forall₂ (fun v d => numberItem v = .ok d) (ns.map .number) doubles)
    (hints : List.Forall₂ (fun (d : Double) j => d.value.toInt64? = some j) doubles ints) :
    HandedAs (ns.map .number) (.ints ints) ↔ ∀ n ∈ ns, ∀ i, n.toInt64? = some i → Double.Exact i.natAbs := by
  induction ns generalizing doubles ints with
  | nil =>
      cases hdoubles
      cases hints
      exact iff_of_true .nil nofun
  | cons n rest ih =>
      obtain ⟨⟨hheld, i, hi⟩, hrest⟩ := List.forall_mem_cons.mp h
      cases hdoubles with
      | cons hd hdoubles =>
          cases hints with
          | @cons d j _ _ hj hints =>
              obtain ⟨j', hj', hsame⟩ := doubleOf_int64 hheld hi hd
              obtain rfl : j = j' := Option.some.inj ((Number.toInt64?_eq_some_iff.mp hj).1.symm.trans hj')
              have hhead : (Value.number n).native = .ok (.int j) ↔ ∀ i, n.toInt64? = some i → Double.Exact i.natAbs := by
                rw [native_int64 hi, hi]
                simp [← hsame, eq_comm]
              have htail := ih hrest hdoubles hints
              rw [HandedAs, Native.items] at htail ⊢
              rw [List.map_cons, List.map_cons, List.forall₂_cons, List.forall_mem_cons, hhead, htail]

section

variable (h : ∀ n ∈ ns, n.Held ∧ ∃ i, n.toInt64? = some i)
  (hdoubles : List.Forall₂ (fun v d => numberItem v = .ok d) (ns.map .number) doubles)
  (hnone : (doubles.mapM fun d => d.value.toInt64?) = none)
include h hdoubles hnone

theorem not_handedAs_floats : ¬ HandedAs (ns.map .number) (.floats doubles) := by
  intro hhanded
  cases ns with
  | nil =>
      cases hdoubles
      cases hnone
  | cons n rest =>
      obtain ⟨i, hi⟩ := (h n List.mem_cons_self).2
      obtain ⟨m, hm, hnative⟩ := partner_of_left hhanded (List.mem_map.mpr ⟨n, List.mem_cons_self, rfl⟩)
      obtain ⟨d, -, rfl⟩ := List.mem_map.mp hm
      rw [native_int64 hi] at hnative
      cases hnative

/-- Only an integer that is rounded can leave the integers of 64 bits. -/
theorem not_exact_floats : ¬ ∀ n ∈ ns, ∀ i, n.toInt64? = some i → Double.Exact i.natAbs := by
  intro hexact
  have hall : ∀ d ∈ doubles, ∃ i, d.value.toInt64? = some i := by
    intro d hd
    obtain ⟨v, hv, hitem⟩ := partner_of_right hdoubles hd
    obtain ⟨n, hn, rfl⟩ := List.mem_map.mp hv
    obtain ⟨hheld, i, hi⟩ := h n hn
    obtain ⟨j, hj, hsame⟩ := doubleOf_int64 hheld hi hitem
    obtain rfl := hsame.mpr (hexact n hn i hi)
    exact ⟨j, Number.toInt64?_eq_some_iff.mpr ⟨hj, (Number.toInt64?_eq_some_iff.mp hi).2⟩⟩
  obtain ⟨ints, hints⟩ := exists_partners_iff.mpr hall
  rw [mapM_some_iff.mpr hints] at hnone
  cases hnone

end

/-- A list of integers is always taken, and item by item just if all of them have few enough bits for a double. -/
theorem native_int64s (h : ∀ n ∈ ns, n.Held ∧ ∃ i, n.toInt64? = some i) :
    ∃ l, (Value.list .number (ns.map .number)).native = .ok l ∧
      (HandedAs (ns.map .number) l ↔ ∀ n ∈ ns, ∀ i, n.toInt64? = some i → Double.Exact i.natAbs) := by
  have hsingle : ∀ v ∈ ns.map Value.number, v.Single .number := by
    intro v hv
    obtain ⟨n, hn, rfl⟩ := List.mem_map.mp hv
    exact ⟨rfl, (h n hn).1⟩
  have hfits : (Value.list .number (ns.map .number)).Fits := by
    intro n i hn hi
    obtain ⟨m, hm, heq⟩ := List.mem_map.mp hn
    cases heq
    obtain ⟨j, hj⟩ := (h n hm).2
    obtain ⟨heq, hrange⟩ := Number.toInt64?_eq_some_iff.mp hj
    exact int64_lt_overflow (Option.some.inj (hi.symm.trans heq) ▸ hrange)
  obtain ⟨l, hl⟩ := (exists_nativeNumbers_iff hsingle).mpr hfits
  refine ⟨l, hl, ?_⟩
  obtain ⟨doubles, hdoubles, hl⟩ := bind_ok_iff.mp hl
  have hdoubles := mapM_ok_iff.mp hdoubles
  split at hl
  next ints hints =>
      cases hl
      exact handedAs_ints h hdoubles (mapM_some_iff.mp hints)
  next hnone =>
      cases hl
      exact iff_of_false (not_handedAs_floats h hdoubles hnone) (not_exact_floats h hdoubles hnone)

/-- Lists of texts, of truth values and of integers are taken; texts and truth values are handed over as each of them is on
its own, and integers are if all of them have few enough bits for a double, and only then. -/
theorem native_list_alike_iff (ts : List Text) (bs : List Bool) {ns : List Number}
    (h : ∀ n ∈ ns, n.Held ∧ ∃ i, n.toInt64? = some i) :
    (∃ l, (Value.list .text (ts.map .text)).native = .ok l ∧ HandedAs (ts.map .text) l) ∧
    (∃ l, (Value.list .bool (bs.map .bool)).native = .ok l ∧ HandedAs (bs.map .bool) l) ∧
    ∃ l, (Value.list .number (ns.map .number)).native = .ok l ∧
      (HandedAs (ns.map .number) l ↔ ∀ n ∈ ns, ∀ i, n.toInt64? = some i → Double.Exact i.natAbs) :=
  ⟨native_texts ts, native_bools bs, native_int64s h⟩

/-- Two texts, two truth values, and the least integer and the greatest one that a double holds. -/
theorem native_list_alike_limits :
    (∃ l, (Value.list .text [.text "a, b", .text []]).native = .ok l ∧ HandedAs [.text "a, b", .text []] l) ∧
    (∃ l, (Value.list .bool [.bool true, .bool false]).native = .ok l ∧ HandedAs [.bool true, .bool false] l) ∧
    ∃ l, (Value.list .number [.ofInt (-9223372036854775808), .ofInt 9223372036854774784]).native = .ok l ∧
      HandedAs [.ofInt (-9223372036854775808), .ofInt 9223372036854774784] l := by
  have hleast : (Number.ofInt (-9223372036854775808)).toInt64? = some (-9223372036854775808) := by decide +kernel
  have hgreatest : (Number.ofInt 9223372036854774784).toInt64? = some 9223372036854774784 := by decide +kernel
  obtain ⟨htexts, hbools, l, hl, halike⟩ := native_list_alike_iff ["a, b", []] [true, false]
    (show ∀ n ∈ [Number.ofInt (-9223372036854775808), .ofInt 9223372036854774784], n.Held ∧ ∃ i, n.toInt64? = some i by
      simp [Number.held_ofInt, hleast, hgreatest])
  refine ⟨htexts, hbools, l, hl, halike.mpr ?_⟩
  simp only [List.forall_mem_cons, hleast, hgreatest, Option.some.injEq, forall_eq', List.not_mem_nil]
  exact ⟨⟨1, 63, by decide, rfl⟩, ⟨9007199254740991, 10, by decide, rfl⟩, nofun⟩

/-- An integer with one bit too many is another one in a list. -/
theorem native_list_not_alike :
    (Value.ofInt 9007199254740993).native = .ok (.int 9007199254740993) ∧
      (Value.list .number [.ofInt 9007199254740993]).native = .ok (.ints [9007199254740992]) := by
  decide +kernel

end Value

end Population

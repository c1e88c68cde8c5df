import Population.Proofs.Number.Double
import Population.Proofs.Pairing
import Population.Proofs.Value.Formatting
import Population.Value.Native

namespace Population

namespace Value

def Single (type : ValueType) : Value → Prop
  | .text _ => type = .text
  | .bool _ => type = .bool
  | .number n => type = .number ∧ n.Held
  | _ => False

/-- The values that parameters have: single ones, and lists of single ones of one type. -/
inductive WellFormed : Value → Prop
  | single {u : UiType} {v : Value} (h : v.Single u.valueType) : WellFormed v
  | list {u : UiType} {items : List Value} (h : ∀ v ∈ items, v.Single u.valueType) : WellFormed (.list u.valueType items)

/-- On its own a whole number has 64 bits, and in a list it does not become infinite as a double. -/
def Fits : Value → Prop
  | .number n => ∀ i, n.toInt? = some i → Number.minInt64 ≤ i ∧ i ≤ Number.maxInt64
  | .list _ items => ∀ n i, .number n ∈ items → n.toInt? = some i → i.natAbs < Double.overflow
  | _ => True

variable {n : Number} {v : Value} {u : UiType} {items : List Value}

theorem int64_lt_overflow {i : Int} (h : Number.minInt64 ≤ i ∧ i ≤ Number.maxInt64) : i.natAbs < Double.overflow := by
  have hmin : Number.minInt64 = -2 ^ 63 := rfl
  have hmax : Number.maxInt64 = 2 ^ 63 - 1 := rfl
  have hlarge : 2 ^ 63 < Double.overflow := by decide +kernel
  omega

/-- A number that becomes a double stays infinite or finite. -/
theorem doubleOf_ok {d : Double} (h : doubleOf n = .ok d) : d.isInfinite = true ↔ ∃ negative, n = .infinite negative := by
  cases n with
  | zero negative =>
      cases h
      exact iff_of_false nofun nofun
  | infinite negative =>
      cases h
      exact iff_of_true rfl ⟨negative, rfl⟩
  | finite negative x =>
      simp only [doubleOf, Bool.and_true] at h
      split at h
      next => cases h
      next hfinite =>
          cases h
          exact iff_of_false hfinite nofun

theorem exists_doubleOf_iff (h : n.Held) :
    (∃ d, doubleOf n = .ok d) ↔ ∀ i, n.toInt? = some i → i.natAbs < Double.overflow := by
  cases h with
  | zero negative =>
      refine iff_of_true ⟨_, rfl⟩ fun i hi => ?_
      cases hi
      decide +kernel
  | infinite negative => exact iff_of_true ⟨_, rfl⟩ nofun
  | @finite negative x h =>
      have hdouble : (∃ d, doubleOf (.finite negative x) = .ok d) ↔
          (Double.ofNumber (.finite negative x)).isInfinite ≠ true := by
        simp only [doubleOf, Bool.and_true]
        split
        next hinfinite => exact iff_of_false (by simp) (not_not_intro hinfinite)
        next hfinite => exact iff_of_true ⟨_, rfl⟩ hfinite
      rw [hdouble, Ne, Double.isInfinite_iff negative h, Number.toInt?]
      cases x.toNat? with
      | none => simp
      | some k => cases negative <;> simp

theorem exists_nativeNumber_iff (h : n.Held) :
    (∃ m, nativeNumber n = .ok m) ↔ ∀ i, n.toInt? = some i → Number.minInt64 ≤ i ∧ i ≤ Number.maxInt64 := by
  cases hi : n.toInt? with
  | none =>
      obtain ⟨d, hd⟩ := (exists_doubleOf_iff h).mpr (by simp [hi])
      refine iff_of_true ⟨.float d, ?_⟩ (by simp)
      rw [nativeNumber, if_neg (by simp [Number.isWhole, hi]), hd]
      rfl
  | some i =>
      have hwhole : n.isWhole = true := by rw [Number.isWhole, hi]; rfl
      rw [nativeNumber, if_pos hwhole]
      by_cases hrange : Number.minInt64 ≤ i ∧ i ≤ Number.maxInt64
      · rw [Number.toInt64?_eq_some_iff.mpr ⟨hi, hrange⟩]
        exact iff_of_true ⟨_, rfl⟩ fun _ heq => Option.some.inj heq ▸ hrange
      · have hnone : n.toInt64? = none := by
          rw [Option.eq_none_iff_forall_ne_some]
          intro j hj
          obtain ⟨heq, hj⟩ := Number.toInt64?_eq_some_iff.mp hj
          exact hrange (Option.some.inj (hi.symm.trans heq) ▸ hj)
        rw [hnone]
        exact iff_of_false (by simp) fun hall => hrange (hall i rfl)

theorem single_text_iff : v.Single .text ↔ ∃ t, v = .text t := by
  cases v <;> simp [Single]

theorem single_bool_iff : v.Single .bool ↔ ∃ b, v = .bool b := by
  cases v <;> simp [Single]

theorem single_number_iff : v.Single .number ↔ ∃ n, v = .number n ∧ n.Held := by
  cases v <;> simp [Single]

theorem fits_of_not_number {type : ValueType} (h : ∀ n, .number n ∉ items) : (Value.list type items).Fits :=
  fun n _ hn => absurd hn (h n)

theorem exists_nativeNumbers_iff (h : ∀ v ∈ items, v.Single .number) :
    (∃ m, nativeNumbers items = .ok m) ↔ (Value.list .number items).Fits := by
  have hdoubles : (∃ m, nativeNumbers items = .ok m) ↔ ∃ doubles, items.mapM numberItem = .ok doubles := by
    constructor
    · rintro ⟨m, hm⟩
      obtain ⟨doubles, hdoubles, -⟩ := bind_ok_iff.mp hm
      exact ⟨doubles, hdoubles⟩
    · rintro ⟨doubles, hdoubles⟩
      rw [nativeNumbers, hdoubles]
      dsimp only [bind, Except.bind]
      split
      next ints _ => exact ⟨.ints ints, rfl⟩
      next => exact ⟨.floats doubles, rfl⟩
  rw [hdoubles, exists_mapM_iff]
  constructor
  · intro hall n i hn
    obtain ⟨m, heq, hheld⟩ := single_number_iff.mp (h _ hn)
    cases heq
    exact (exists_doubleOf_iff hheld).mp (hall _ hn) i
  · intro hfits v hv
    obtain ⟨n, rfl, hheld⟩ := single_number_iff.mp (h v hv)
    exact (exists_doubleOf_iff hheld).mpr fun i => hfits n i hv

theorem WellFormed.exists_native_iff (h : v.WellFormed) : (∃ m, v.native = .ok m) ↔ v.Fits := by
  cases h with
  | single h =>
      cases v with
      | text t => exact iff_of_true ⟨_, rfl⟩ trivial
      | bool b => exact iff_of_true ⟨_, rfl⟩ trivial
      | number n => exact exists_nativeNumber_iff h.2
      | list element items => exact h.elim
      | null type => exact h.elim
  | @list u items h =>
      cases u with
      | integer => exact exists_nativeNumbers_iff h
      | float => exact exists_nativeNumbers_iff h
      | string =>
          have htext (v : Value) (hv : v ∈ items) : ∃ t, textItem v = .ok t := by
            obtain ⟨t, rfl⟩ := single_text_iff.mp (h v hv)
            exact ⟨t, rfl⟩
          obtain ⟨ts, hts⟩ := exists_mapM_iff.mpr htext
          refine iff_of_true ⟨.texts ts, map_ok_iff.mpr ⟨ts, hts, rfl⟩⟩ (fits_of_not_number fun n hn => ?_)
          obtain ⟨t, ht⟩ := single_text_iff.mp (h _ hn)
          cases ht
      | bool =>
          have hbool (v : Value) (hv : v ∈ items) : ∃ b, boolItem v = .ok b := by
            obtain ⟨b, rfl⟩ := single_bool_iff.mp (h v hv)
            exact ⟨b, rfl⟩
          obtain ⟨bs, hbs⟩ := exists_mapM_iff.mpr hbool
          refine iff_of_true ⟨.bools bs, map_ok_iff.mpr ⟨bs, hbs, rfl⟩⟩ (fits_of_not_number fun n hn => ?_)
          obtain ⟨b, hb⟩ := single_bool_iff.mp (h _ hn)
          cases hb

end Value

namespace AppType

variable {type : AppType} {raw : Text} {raws : List Text} {v : Value}

theorem convert_single (h : type.convert raw = .ok v) : v.Single type.ui.valueType := by
  have hread := mapError_ok_iff.mp h
  have hheld {n : Number} (hn : Number.parse? raw.trim = some n) : n.Held :=
    Number.held_of_sound fun _ _ heq => Number.parse?_sound (heq ▸ hn)
  cases hui : type.ui with
  | string =>
      rw [hui] at hread
      cases hread
      exact rfl
  | integer =>
      rw [hui] at hread
      obtain ⟨n, i, hn, -, rfl⟩ := UiType.read_integer hread
      exact ⟨rfl, hheld hn⟩
  | float =>
      rw [hui] at hread
      obtain ⟨n, hn, rfl⟩ := map_ok_iff.mp hread
      exact ⟨rfl, hheld (UiType.number_ok_iff.mp hn)⟩
  | bool =>
      rw [hui] at hread
      obtain ⟨b, -, rfl⟩ := map_ok_iff.mp hread
      exact rfl

theorem convert_wellFormed (h : type.convert raw = .ok v) : v.WellFormed :=
  .single (convert_single h)

theorem convertList_wellFormed (h : type.convertList raws = .ok v) : v.WellFormed := by
  obtain ⟨items, hitems, rfl⟩ := map_ok_iff.mp h
  refine .list fun v hv => ?_
  obtain ⟨raw, -, hraw⟩ := partner_of_right (mapM_ok_iff.mp hitems) hv
  exact convert_single hraw

/-- A number of a type other than of floating point has 64 bits. -/
theorem convert_number (hui : type.ui ≠ .float) {n : Number} (h : type.convert raw = .ok (.number n)) :
    ∃ i, n.toInt64? = some i := by
  have hread := mapError_ok_iff.mp h
  cases hu : type.ui with
  | float => exact absurd hu hui
  | string =>
      rw [hu] at hread
      cases hread
  | bool =>
      rw [hu] at hread
      obtain ⟨b, -, hb⟩ := map_ok_iff.mp hread
      cases hb
  | integer =>
      rw [hu] at hread
      obtain ⟨n, i, -, hi, heq⟩ := UiType.read_integer hread
      cases heq
      exact ⟨i, hi⟩

theorem convert_fits (hui : type.ui ≠ .float) (h : type.convert raw = .ok v) : v.Fits := by
  cases v with
  | number n =>
      intro i hi
      obtain ⟨j, hj⟩ := convert_number hui h
      obtain ⟨heq, hrange⟩ := Number.toInt64?_eq_some_iff.mp hj
      exact Option.some.inj (hi.symm.trans heq) ▸ hrange
  | list type items => exact (convert_ne_list h).elim
  | text t => exact trivial
  | bool b => exact trivial
  | null type => exact trivial

theorem convertList_fits (hui : type.ui ≠ .float) (h : type.convertList raws = .ok v) : v.Fits := by
  obtain ⟨items, hitems, rfl⟩ := map_ok_iff.mp h
  intro n i hn hi
  obtain ⟨raw, -, hraw⟩ := partner_of_right (mapM_ok_iff.mp hitems) hn
  exact Value.int64_lt_overflow (convert_fits hui hraw i hi)

end AppType

end Population

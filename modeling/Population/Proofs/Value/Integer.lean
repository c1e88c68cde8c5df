import Population.Model.Analyzer
import Population.Number.Arithmetic
import Population.Proofs.Compile.Typing
import Population.Proofs.Number.Readback
import Population.Value.Native

namespace Population

namespace Number

variable {x : Magnitude} {t : Text} {n : Number} {i : Int} {m : Nat}

theorem toInt64?_eq_some_iff : n.toInt64? = some i ↔ n.toInt? = some i ∧ minInt64 ≤ i ∧ i ≤ maxInt64 := by
  rw [toInt64?, Option.filter_eq_some_iff, Bool.and_eq_true, decide_eq_true_eq, decide_eq_true_eq]

theorem isWhole_of_toInt64? (h : n.toInt64? = some i) : n.isWhole = true := by
  rw [isWhole, (toInt64?_eq_some_iff.mp h).1]
  rfl

/-- A magnitude without binary places is the whole number that it stands for, if it is finite. -/
theorem toInt?_ofMagnitude (hne : x.mantissa ≠ 0) (he : 0 ≤ x.exponent) (h : (ofMagnitude false x).toInt? = some i) :
    i = whole x := by
  have hlow : minExponent ≤ x.top := by
    have : minExponent ≤ 0 := by decide
    rw [Magnitude.top]
    omega
  by_cases hhigh : x.top ≤ maxExponent
  · rw [ofMagnitude_of_top hne hlow hhigh] at h
    obtain ⟨k, hk, rfl⟩ := toInt?_finite h
    rw [toNat?_reduce hne he] at hk
    cases hk
    rfl
  · rw [ofMagnitude, if_neg, if_pos (Int.not_le.mp hhigh)] at h
    · cases h
    · simp only [Bool.or_eq_true, decide_eq_true_eq, not_or, Int.not_lt]
      exact ⟨hne, hlow⟩

theorem negative_ofMagnitude (negative : Bool) (x : Magnitude) : (ofMagnitude negative x).negative = negative := by
  rw [ofMagnitude]
  split
  next => rfl
  next => split <;> rfl

theorem toInt?_of_fits (hpos : 0 < m) (hfits : m < 2 ^ precision) :
    (ofMagnitude false (Magnitude.round precision false ⟨m, 0⟩)).toInt? = some (m : Int) := by
  have hbits := bitLength_le_iff.mpr hfits
  have htop : Magnitude.top ⟨m, 0⟩ = bitLength m := Magnitude.top_whole m
  have hmin : minExponent ≤ 0 := by decide
  have hmax : (precision : Int) ≤ maxExponent := by decide
  rw [Magnitude.round_of_fits hfits, ofMagnitude_of_top hpos.ne' (by omega) (by omega), toInt?,
    toNat?_reduce hpos.ne' (Int.le_refl 0), whole]
  simp

theorem round_of_exceeds (h : 2 ^ precision ≤ m) :
    2 ^ (precision - 1) ≤ (Magnitude.round precision false ⟨m, 0⟩).mantissa ∧
      0 ≤ (Magnitude.round precision false ⟨m, 0⟩).exponent := by
  have hbits : precision < bitLength m := lt_bitLength_iff.mpr h
  have hfirst : 2 ^ (bitLength m - 1) ≤ m := lt_bitLength_iff.mp (by omega)
  have hkept : 2 ^ (precision - 1) ≤ m / 2 ^ (bitLength m - precision) := by
    have hprecision : 0 < precision := by decide
    rw [Nat.le_div_iff_mul_le (Nat.two_pow_pos _), ← Nat.pow_add]
    rwa [show precision - 1 + (bitLength m - precision) = bitLength m - 1 by omega]
  have hexcess : bitLength m - precision ≠ 0 := by omega
  simp only [Magnitude.round, if_neg hexcess]
  refine ⟨?_, by omega⟩
  split
  next => exact hkept.trans (Nat.le_succ _)
  next => exact hkept

theorem maxInt64_lt : maxInt64 < (2 ^ (precision - 1) : Nat) := by
  decide +kernel

theorem narrow_of_lt (h : x.Sound) (he : 0 ≤ x.exponent) (hsmall : whole x < 2 ^ (precision - 1)) :
    ∃ d : Nat, x.top + d = precision := by
  refine (top_cases x).resolve_left ?_
  rintro ⟨s, htop⟩
  have hunits := le_units h
  have hwhole : units x ≤ whole x := by
    rw [whole_wide h he htop]
    exact Nat.le_mul_of_pos_right _ (Nat.two_pow_pos _)
  omega

section

variable (hne : t ≠ []) (hd : ∀ b ∈ t, Text.isDigit b = true)
include hne hd

theorem parse?_toInt64? (h : parse? t = some n) (hn : n.toInt64? = some i) : i = Text.digitsToNat t := by
  obtain ⟨hint, -, hmax⟩ := toInt64?_eq_some_iff.mp hn
  rw [parse?_digits hne hd h] at hint
  rcases Nat.eq_zero_or_pos (Text.digitsToNat t) with hzero | hpos
  · rw [hzero] at hint ⊢
    cases hint
    rfl
  by_cases hfits : Text.digitsToNat t < 2 ^ precision
  · rw [toInt?_of_fits hpos hfits] at hint
    exact (Option.some.inj hint).symm
  · -- The first bit alone is too much for 64 bits.
    obtain ⟨hmantissa, hexponent⟩ := round_of_exceeds (Nat.not_lt.mp hfits)
    have hfirst : 0 < 2 ^ (precision - 1) := Nat.two_pow_pos _
    have hwhole := toInt?_ofMagnitude (hfirst.trans_le hmantissa).ne' hexponent hint
    have hle : 2 ^ (precision - 1) ≤ whole (Magnitude.round precision false ⟨Text.digitsToNat t, 0⟩) :=
      hmantissa.trans (Nat.le_mul_of_pos_right _ (Nat.two_pow_pos _))
    have hlarge := maxInt64_lt
    omega

theorem exists_parse? (h : (Text.digitsToNat t : Int) ≤ maxInt64) :
    ∃ n, parse? t = some n ∧ n.toInt64? = some (Text.digitsToNat t : Int) := by
  have hparse : parse? t = Spelling.value? ⟨false, t, 0, false, 0⟩ := parse?_signed hne hd false
  have hmin : minInt64 ≤ (Text.digitsToNat t : Int) := by
    have : minInt64 ≤ 0 := by decide
    omega
  rcases Nat.eq_zero_or_pos (Text.digitsToNat t) with hzero | hpos
  · exact ⟨.zero false, hparse.trans (value?_zero false hzero), by rw [hzero]; decide⟩
  · have hfits : Text.digitsToNat t < 2 ^ precision := by
      have hlarge := maxInt64_lt
      have hhalf : 2 ^ (precision - 1) ≤ 2 ^ precision := Nat.pow_le_pow_right (by decide) (Nat.sub_le _ _)
      omega
    have hbits : (bitLength (Text.digitsToNat t) : Int) ≤ maxExponent := by
      have := bitLength_le_iff.mpr hfits
      have : (precision : Int) ≤ maxExponent := by decide
      omega
    refine ⟨_, hparse.trans (value?_digits false hpos.ne' hbits), ?_⟩
    exact toInt64?_eq_some_iff.mpr ⟨toInt?_of_fits hpos hfits, hmin, h⟩

theorem toText_ofNat (h : parse? t = some n) (hn : n.toInt64? = some (m : Int)) : n.toText = Text.ofNat m := by
  obtain ⟨hint, -, hmax⟩ := toInt64?_eq_some_iff.mp hn
  have hplus : n.negative = false := by rw [parse?_digits hne hd h, negative_ofMagnitude]
  cases n with
  | zero negative =>
      cases hplus
      obtain rfl : m = 0 := by
        have := Option.some.inj hint
        omega
      rfl
  | infinite negative => cases hint
  | finite negative x =>
      cases hplus
      have hsound := parse?_sound h
      obtain ⟨k, hk, hm⟩ := toInt?_finite hint
      obtain ⟨he, rfl⟩ := Magnitude.toNat?_odd hsound.odd hk
      obtain rfl : m = whole x := Int.ofNat_inj.mp hm
      have hlarge := maxInt64_lt
      obtain ⟨d, htop⟩ := narrow_of_lt hsound he (by omega)
      -- The only whole number in the interval is the integer itself.
      obtain ⟨u, hu, htext⟩ := exists_toText hsound he
      rw [htext, holds_narrow hsound he htop hu]
      rfl

end

end Number

namespace UiType

theorem read_integer_iff {t : Text} {v : Value} :
    UiType.integer.read t = .ok v ↔ ∃ n i, Number.parse? t = some n ∧ n.toInt64? = some i ∧ v = .number n := by
  refine ⟨read_integer, ?_⟩
  rintro ⟨n, i, hparse, hint, rfl⟩
  refine bind_ok_iff.mpr ⟨n, by rw [number, hparse], ?_⟩
  simp only [Number.isWhole_of_toInt64? hint, hint]
  rfl

end UiType

namespace AppType

variable {type : AppType} {lead digits tail : Text}

/-- Digits with blanks around them are converted to an integer just if it has 64 bits, and to no other integer than they
write. -/
theorem convert_digits (hui : type.ui = .integer) (hlead : lead.IsBlank) (htail : tail.IsBlank) (hne : digits ≠ [])
    (hd : ∀ b ∈ digits, Text.isDigit b = true) :
    ((∃ v, type.convert (lead ++ (digits ++ tail)) = .ok v) ↔ (Text.digitsToNat digits : Int) ≤ Number.maxInt64) ∧
      ∀ v, type.convert (lead ++ (digits ++ tail)) = .ok v →
        (∃ n, v = .number n ∧ n.toInt? = some (Text.digitsToNat digits : Int)) ∧
        v.native = .ok (.int (Text.digitsToNat digits)) ∧ v.format = Text.trimZeros digits ∧
        ∀ (st : Statement) (name : Text), st.value? name = some v → st.int? name = some (Text.digitsToNat digits : Int) := by
  -- the blanks do not count, so it is about the digits alone
  have htrim : (lead ++ (digits ++ tail)).trim = digits :=
    (Text.trimmed_iff.mpr (Text.trim_of_digits hd)).trim_between hlead htail
  have hconvert (v : Value) : type.convert (lead ++ (digits ++ tail)) = .ok v ↔
      ∃ n i, Number.parse? digits = some n ∧ n.toInt64? = some i ∧ v = .number n := by
    rw [convert, mapError_ok_iff, htrim, hui, UiType.read_integer_iff]
  refine ⟨⟨?_, fun h => ?_⟩, fun v hv => ?_⟩
  · rintro ⟨v, hv⟩
    obtain ⟨n, i, hparse, hint, -⟩ := (hconvert v).mp hv
    obtain rfl := Number.parse?_toInt64? hne hd hparse hint
    exact (Number.toInt64?_eq_some_iff.mp hint).2.2
  · obtain ⟨n, hparse, hint⟩ := Number.exists_parse? hne hd h
    exact ⟨.number n, (hconvert _).mpr ⟨n, _, hparse, hint, rfl⟩⟩
  · obtain ⟨n, i, hparse, hint, rfl⟩ := (hconvert v).mp hv
    obtain rfl := Number.parse?_toInt64? hne hd hparse hint
    refine ⟨⟨n, rfl, ?_⟩, ?_, ?_, fun st name hst => ?_⟩
    · exact (Number.toInt64?_eq_some_iff.mp hint).1
    · change Value.nativeNumber n = _
      rw [Value.nativeNumber, if_pos (Number.isWhole_of_toInt64? hint), hint]
    · rw [← Text.ofNat_digitsToNat hd]
      exact Number.toText_ofNat hne hd hparse hint
    · rw [Statement.int?, hst]
      exact hint

/-- The greatest integer of 64 bits, with zeros in front. -/
theorem convert_digits_greatest :
    ∃ v, convert ⟨"count", .integer⟩ " 0009223372036854775807\t" = .ok v ∧
      v.native = .ok (.int 9223372036854775807) ∧ v.format = "9223372036854775807" := by
  have hvalue : Text.digitsToNat "0009223372036854775807" = 9223372036854775807 := by decide +kernel
  obtain ⟨hiff, hall⟩ := convert_digits (show AppType.ui ⟨"count", .integer⟩ = .integer from rfl)
    (show Text.IsBlank " " by decide +kernel) (show Text.IsBlank "\t" by decide +kernel)
    (show ("0009223372036854775807" : Text) ≠ [] by decide) (by decide +kernel)
  obtain ⟨v, hv⟩ := hiff.mpr (by rw [hvalue]; decide)
  obtain ⟨-, hnative, hformat, -⟩ := hall v hv
  rw [hvalue] at hnative
  exact ⟨v, hv, hnative, hformat⟩

end AppType

end Population

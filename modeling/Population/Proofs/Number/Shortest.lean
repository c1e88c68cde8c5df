import Population.Number.Writer
import Population.Proofs.Number.Rounding
import Population.Proofs.Text.Decimal
import Population.Proofs.Text.Blank

namespace Population

namespace Decimal

variable {i : Interval}

theorem holds_scale (i : Interval) (p u : Nat) : (i.scale p).holds u = i.holds (u * 10 ^ p) := by
  have hpoint : u * (i.denominator * 10 ^ p) = u * 10 ^ p * i.denominator := by ring
  change Interval.holds { i with denominator := i.denominator * 10 ^ p } u = i.holds (u * 10 ^ p)
  simp only [Interval.holds, hpoint]

theorem nearest?_holds {u : Nat} (h : i.nearest? = some u) : i.holds u = true := by
  rw [Interval.nearest?] at h
  split at h
  next hdown hup =>
      cases h
      split
      next => exact hdown
      next => exact hup
  next hdown _ =>
      cases h
      exact hdown
  next hup =>
      cases h
      exact hup
  next => cases h

theorem nearest?_ne_none (h : i.holds (i.value / i.denominator) = true) : i.nearest? ≠ none := by
  rw [Interval.nearest?, h]
  cases i.holds (i.value / i.denominator + 1) <;> simp

structure Around (i : Interval) (whole : Nat) : Prop where
  denominator : 0 < i.denominator
  positive : 0 < i.lower
  value : i.value = whole * i.denominator
  lower : i.lower < i.value
  upper : i.value < i.upper

theorem Around.div (h : Around i whole) (p : Nat) : (i.scale p).value / (i.scale p).denominator = whole / 10 ^ p := by
  change i.value / (i.denominator * 10 ^ p) = whole / 10 ^ p
  rw [h.value, Nat.mul_comm i.denominator, Nat.mul_div_mul_right _ _ h.denominator]

/-- The search stops at the latest where the digits before a place lie in the interval. -/
theorem searchFrom_whole (h : Around i whole) {p q places : Nat} (hq : q ≤ p) (hplaces : p < q + places)
    (hfound : i.holds (whole / 10 ^ q * 10 ^ q) = true) :
    ∃ u r : Nat, searchFrom i places p = ofUnits u r ∧ i.holds (u * 10 ^ r) = true := by
  induction places generalizing p with
  | zero => omega
  | succ places ih =>
      rw [searchFrom]
      split
      next u hu => exact ⟨u, p, rfl, holds_scale i p u ▸ nearest?_holds hu⟩
      next hnone =>
          have hne : p ≠ q := by
            rintro rfl
            refine nearest?_ne_none ?_ hnone
            rw [h.div, holds_scale]
            exact hfound
          obtain ⟨p', rfl⟩ : ∃ p', p = p' + 1 := ⟨p - 1, by omega⟩
          rw [show ((p' + 1 : Nat) : Int) - 1 = (p' : Nat) by omega]
          exact ih (by omega) (by omega)

theorem pow_decimalLength {n : Nat} (hn : 0 < n) : 10 ^ (decimalLength n - 1) ≤ n := by
  by_contra hlt
  rcases Nat.eq_zero_or_pos (decimalLength n - 1) with hzero | hpos
  · rw [hzero] at hlt
    omega
  · have := (Nat.length_repr_le_iff hpos).mpr (Nat.not_le.mp hlt)
    rw [decimalLength] at *
    omega

theorem decimalLength_eq {n k : Nat} (hlow : 10 ^ k ≤ n) (hhigh : n < 10 ^ (k + 1)) : decimalLength n = k + 1 := by
  have hle : (Nat.repr n).length ≤ k + 1 := (Nat.length_repr_le_iff k.succ_pos).mpr hhigh
  have hpos : 0 < (Nat.repr n).length := Nat.length_repr_pos
  refine Nat.le_antisymm hle (Nat.lt_of_not_le fun hshort => ?_)
  rcases Nat.eq_zero_or_pos k with rfl | hk
  · rw [decimalLength] at hshort
    omega
  · exact absurd ((Nat.length_repr_le_iff hk).mp hshort) (Nat.not_lt.mpr hlow)

theorem Around.holds (h : Around i whole) {n : Nat} (hlower : i.lower < n * i.denominator) (hn : n ≤ whole) :
    i.holds n = true := by
  have hvalue := h.value
  have hupper := h.upper
  have hle : n * i.denominator ≤ whole * i.denominator := Nat.mul_le_mul_right _ hn
  have hlt : n * i.denominator < i.upper := by omega
  simp [Interval.holds, hlower, hlt]

theorem Around.holds_zero (h : Around i whole) : i.holds 0 = false := by
  have hpositive := h.positive
  have hlower := h.lower
  have hupper := h.upper
  simp only [Interval.holds, Nat.zero_mul]
  simp only [Bool.or_eq_false_iff, Bool.and_eq_false_iff, decide_eq_false_iff_not]
  omega

/-- More decimal places than the bits of a number and one more take. -/
def spareDigits : Nat := 155

theorem pow_spareDigits : 2 ^ (Number.precision + 1) < 10 ^ spareDigits := by
  decide +kernel

theorem positional_of_whole {t : Text} {n : Nat} (hn : 0 < n) (ht : t.length ≤ n) :
    positional ⟨t, n⟩ = t ++ zeros (n - t.length) := by
  have hrest : t.drop n = [] := List.drop_eq_nil_of_le ht
  simp only [positional, Int.toNat_natCast, List.take_of_length_le ht, hrest, List.isEmpty_nil, if_true,
    if_neg hn.ne']

theorem positional_ofUnits {u : Nat} (hu : 0 < u) (r : Nat) : (ofUnits u r).positional = Text.ofNat (u * 10 ^ r) := by
  obtain ⟨e, he, hdigits⟩ := Text.exists_trimRight (· == 0x30) (Text.ofNat u)
  have hzeros : e = List.replicate e.length 0x30 := List.eq_replicate_iff.mpr ⟨rfl, fun b hb => by simpa using he b hb⟩
  have hlength : (Text.ofNat u).length = (Text.trimRight (· == 0x30) (Text.ofNat u)).length + e.length := by
    rw [← List.length_append, ← hdigits]
  have hpos : 0 < (Text.ofNat u).length := List.length_pos_iff.mpr (Text.ofNat_ne_nil u)
  have hwhole := positional_of_whole (t := Text.trimRight (· == 0x30) (Text.ofNat u))
    (n := (Text.ofNat u).length + r) (by omega) (by omega)
  have hcount : (Text.ofNat u).length + r - (Text.trimRight (· == 0x30) (Text.ofNat u)).length = e.length + r := by omega
  rw [ofUnits]
  push_cast at hwhole
  rw [hwhole, hcount, zeros, List.replicate_add, ← List.append_assoc, ← hzeros, ← hdigits, Text.ofNat_mul_pow hu]

end Decimal

namespace Number

variable {x : Magnitude}

def units (x : Magnitude) : Nat :=
  x.mantissa * 2 ^ (precision - bitLength x.mantissa)

def whole (x : Magnitude) : Nat :=
  x.mantissa * 2 ^ x.exponent.toNat

theorem bitLength_units (h : x.Sound) : bitLength (units x) = precision := by
  have hfits := bitLength_le_iff.mpr h.fits
  have hodd := h.odd
  rw [units, bitLength_mul_pow (by omega)]
  omega

theorem units_pos (h : x.Sound) : 0 < units x := by
  rw [Nat.pos_iff_ne_zero]
  intro hzero
  have hbits := bitLength_units h
  rw [hzero] at hbits
  cases hbits

theorem units_lt (h : x.Sound) : units x < 2 ^ precision :=
  bitLength_le_iff.mp (bitLength_units h).le

theorem le_units (h : x.Sound) : 2 ^ (precision - 1) ≤ units x := by
  rw [← lt_bitLength_iff, bitLength_units h]
  decide

theorem whole_pos (h : x.Sound) : 0 < whole x := by
  have hodd := h.odd
  exact Nat.mul_pos (by omega) (Nat.two_pow_pos _)

theorem units_shift (h : x.Sound) :
    x.mantissa * Nat.pow 2 (x.exponent - (x.top - precision)).toNat = units x := by
  have hfits := bitLength_le_iff.mpr h.fits
  have hshift : (x.exponent - (x.top - precision)).toNat = precision - bitLength x.mantissa := by
    rw [Magnitude.top]
    omega
  rw [hshift]
  rfl

theorem toNat?_reduce (hne : x.mantissa ≠ 0) (he : 0 ≤ x.exponent) : x.reduce.toNat? = some (whole x) := by
  obtain ⟨k, hmantissa, hexponent⟩ := Magnitude.exists_reduce hne
  have hshift : x.reduce.exponent.toNat = k + x.exponent.toNat := by omega
  rw [Magnitude.toNat?, if_pos (by omega), hshift, whole, hmantissa, Nat.mul_assoc, ← Nat.pow_add]
  rfl

theorem interval_wide {s : Nat} (h : x.Sound) (htop : x.top = precision + (s + 1 : Nat)) :
    interval x = ⟨(2 * units x - 1) * 2 ^ s, 2 * units x * 2 ^ s, (2 * units x + 1) * 2 ^ s, 1, units x % 2 == 0⟩ := by
  have hfactor : (x.top - precision - 1).toNat = s := by omega
  have hdenominator : (1 - (x.top - precision)).toNat = 0 := by omega
  simp only [interval, units_shift h, hfactor, hdenominator]
  rfl

theorem interval_narrow {t : Nat} (h : x.Sound) (htop : x.top + t = precision) :
    interval x = ⟨2 * units x - 1, 2 * units x, 2 * units x + 1, 2 ^ (t + 1), units x % 2 == 0⟩ := by
  have hfactor : (x.top - precision - 1).toNat = 0 := by omega
  have hdenominator : (1 - (x.top - precision)).toNat = t + 1 := by omega
  simp only [interval, units_shift h, hfactor, hdenominator]
  simp

theorem top_cases (x : Magnitude) : (∃ s : Nat, x.top = precision + (s + 1 : Nat)) ∨ ∃ t : Nat, x.top + t = precision := by
  rcases Int.lt_or_le precision x.top with hlt | hge
  · exact .inl ⟨(x.top - precision - 1).toNat, by omega⟩
  · exact .inr ⟨(precision - x.top).toNat, by omega⟩

section

variable (h : x.Sound) (he : 0 ≤ x.exponent)
include h he

theorem whole_wide {s : Nat} (htop : x.top = precision + (s + 1 : Nat)) : whole x = units x * 2 ^ (s + 1) := by
  have hfits := bitLength_le_iff.mpr h.fits
  have hexponent : x.exponent.toNat = precision - bitLength x.mantissa + (s + 1) := by
    rw [Magnitude.top] at htop
    omega
  rw [whole, units, hexponent, Nat.pow_add, Nat.mul_assoc]

omit h in
theorem units_narrow {t : Nat} (htop : x.top + t = precision) : units x = whole x * 2 ^ t := by
  have hexponent : precision - bitLength x.mantissa = x.exponent.toNat + t := by
    rw [Magnitude.top] at htop
    omega
  rw [whole, units, hexponent, Nat.pow_add, Nat.mul_assoc]

theorem around : Decimal.Around (interval x) (whole x) := by
  have hpos := units_pos h
  rcases top_cases x with ⟨s, htop⟩ | ⟨t, htop⟩
  · have hunit : 0 < 2 ^ s := Nat.two_pow_pos s
    rw [interval_wide h htop]
    refine ⟨Nat.one_pos, Nat.mul_pos (by omega) hunit, ?_, ?_, ?_⟩
    · rw [whole_wide h he htop, Nat.pow_succ]
      ring
    · exact Nat.mul_lt_mul_of_pos_right (by omega) hunit
    · exact Nat.mul_lt_mul_of_pos_right (by omega) hunit
  · rw [interval_narrow h htop]
    refine ⟨Nat.two_pow_pos _, by dsimp only; omega, ?_, by dsimp only; omega, by dsimp only; omega⟩
    rw [units_narrow he htop, Nat.pow_succ]
    ring

/-- Digits beyond those that are spared are less than half a unit of the last bit, if there are any. -/
theorem pow_place_le {s q : Nat} (htop : x.top = precision + (s + 1 : Nat))
    (hplace : 10 ^ (q + Decimal.spareDigits) ≤ whole x) : 10 ^ q < 2 ^ s := by
  have hunits := units_lt h
  rw [whole_wide h he htop, Nat.pow_add] at hplace
  have hhigh : units x * 2 ^ (s + 1) < 2 ^ precision * 2 ^ (s + 1) := Nat.mul_lt_mul_of_pos_right hunits (Nat.two_pow_pos _)
  have hbits : 2 ^ precision * 2 ^ (s + 1) = 2 ^ (precision + 1) * 2 ^ s := by
    rw [← Nat.pow_add, ← Nat.pow_add]
    congr 1
    omega
  have hdigits : 2 ^ (precision + 1) * 2 ^ s < 10 ^ Decimal.spareDigits * 2 ^ s :=
    Nat.mul_lt_mul_of_pos_right Decimal.pow_spareDigits (Nat.two_pow_pos s)
  refine Nat.lt_of_mul_lt_mul_left (a := 10 ^ Decimal.spareDigits) ?_
  rw [Nat.mul_comm]
  omega

/-- All digits of a number lie in its interval, and so do its first ones without the rest, if it has enough. -/
theorem holds_digits {q : Nat} (hq : q = 0 ∨ 10 ^ (q + Decimal.spareDigits) ≤ whole x) :
    (interval x).holds (whole x / 10 ^ q * 10 ^ q) = true := by
  have haround := around h he
  refine haround.holds ?_ (Nat.div_mul_le_self _ _)
  rcases hq with rfl | hplace
  · rw [Nat.pow_zero, Nat.div_one, Nat.mul_one, ← haround.value]
    exact haround.lower
  rcases top_cases x with ⟨s, htop⟩ | ⟨t, htop⟩
  · have hplace := pow_place_le h he htop hplace
    have hdigits := Nat.div_add_mod' (whole x) (10 ^ q)
    have hrest : whole x % 10 ^ q < 10 ^ q := Nat.mod_lt _ (Nat.pow_pos (by decide))
    have hunits := units_pos h
    have hwhole := whole_wide h he htop
    have hlower : (2 * units x - 1) * 2 ^ s + 2 ^ s = whole x := by
      rw [hwhole, ← Nat.succ_mul, Nat.pow_succ]
      have : (2 * units x - 1).succ = 2 * units x := by omega
      rw [this]
      ring
    rw [interval_wide h htop]
    dsimp only
    omega
  · -- There are not so many digits.
    have hunits := units_lt h
    have hle : whole x ≤ units x := by
      rw [units_narrow he htop]
      exact Nat.le_mul_of_pos_right _ (Nat.two_pow_pos t)
    have hlow : 10 ^ Decimal.spareDigits ≤ 10 ^ (q + Decimal.spareDigits) :=
      Nat.pow_le_pow_right (by decide) (Nat.le_add_left _ _)
    have hhigh : 2 ^ precision ≤ 2 ^ (precision + 1) := Nat.pow_le_pow_right (by decide) (Nat.le_succ _)
    have hspare := Decimal.pow_spareDigits
    omega

theorem point_whole :
    Decimal.pointOf (interval x).value (interval x).denominator - 1 = ((Decimal.decimalLength (whole x) - 1 : Nat) : Int) := by
  have haround := around h he
  have hlength : 0 < Decimal.decimalLength (whole x) := Nat.length_repr_pos
  have hle : (interval x).denominator ≤ (interval x).value := by
    rw [haround.value]
    exact Nat.le_mul_of_pos_left _ (whole_pos h)
  rw [Decimal.pointOf, if_pos hle, haround.value, Nat.mul_div_cancel _ haround.denominator]
  omega

/-- The search for the text of a whole number begins with its first digit. -/
theorem toText_of_digits {k : Nat} (hlow : 10 ^ k ≤ whole x) (hhigh : whole x < 10 ^ (k + 1)) (negative : Bool) :
    toText (.finite negative x) = sign negative ++ (Decimal.searchFrom (interval x) (precision + 4) k).positional := by
  rw [toText, Decimal.shortest, point_whole h he, Decimal.decimalLength_eq hlow hhigh, Nat.add_sub_cancel]

theorem exists_toText : ∃ n : Nat, (interval x).holds n = true ∧
    ∀ negative, toText (.finite negative x) = sign negative ++ Text.ofNat n := by
  have haround := around h he
  have hdigits := Decimal.pow_decimalLength (whole_pos h)
  -- The places that are tried reach the last digit, or leave out fewer digits than half a unit of the last bit has.
  obtain ⟨q, hq, hplaces, henough⟩ : ∃ q ≤ Decimal.decimalLength (whole x) - 1,
      Decimal.decimalLength (whole x) - 1 < q + (precision + 4) ∧
      (q = 0 ∨ 10 ^ (q + Decimal.spareDigits) ≤ whole x) := by
    have hspare : Decimal.spareDigits < precision + 4 := by decide
    by_cases hmany : Decimal.spareDigits ≤ Decimal.decimalLength (whole x) - 1
    · refine ⟨Decimal.decimalLength (whole x) - 1 - Decimal.spareDigits, by omega, by omega, .inr ?_⟩
      rwa [Nat.sub_add_cancel hmany]
    · exact ⟨0, by omega, by omega, .inl rfl⟩
  obtain ⟨u, r, hsearch, hholds⟩ := Decimal.searchFrom_whole haround hq hplaces (holds_digits h he henough)
  have hu : 0 < u := by
    rw [Nat.pos_iff_ne_zero]
    rintro rfl
    rw [Nat.zero_mul, haround.holds_zero] at hholds
    cases hholds
  refine ⟨u * 10 ^ r, hholds, fun negative => ?_⟩
  rw [toText, Decimal.shortest, point_whole h he, hsearch, Decimal.positional_ofUnits hu]

end

end Number

end Population

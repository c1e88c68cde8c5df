import Population.Proofs.Number.Shortest
import Population.Number.Double

namespace Population

namespace Magnitude

variable {x : Magnitude} {m n excess precision : Nat}

/-- What is kept of a number is raised to a power of two just if not more than half a unit is lacking. -/
theorem raised_eq_iff {kept rest unit power : Nat} (hrest : rest < unit) (hkept : kept < power)
    (heven : power % 2 = 0) :
    (if unit < 2 * rest ∨ (2 * rest = unit ∧ kept % 2 = 1) then kept + 1 else kept) = power ↔
      (2 * power - 1) * unit ≤ 2 * (unit * kept + rest) := by
  obtain ⟨d, rfl⟩ : ∃ d, power = kept + 1 + d := ⟨power - (kept + 1), by omega⟩
  rw [show 2 * (kept + 1 + d) - 1 = 2 * kept + 1 + 2 * d by omega]
  have hlack : (2 * kept + 1 + 2 * d) * unit ≤ 2 * (unit * kept + rest) ↔ unit + 2 * d * unit ≤ 2 * rest := by
    constructor <;> intro h <;> nlinarith
  rw [hlack]
  cases d with
  | zero =>
      split
      next hup => omega
      next hdown => omega
  | succ d =>
      have hmore : unit ≤ (d + 1) * unit := Nat.le_mul_of_pos_left unit d.succ_pos
      rw [Nat.mul_assoc]
      split <;> omega

theorem round_excess (e : Int) (hprecision : 0 < precision) (hbits : bitLength m = precision + (excess + 1)) :
    ∃ n, round precision false ⟨m, e⟩ = ⟨n, e + (excess + 1 : Nat)⟩ ∧ 2 ^ (precision - 1) ≤ n ∧ n ≤ 2 ^ precision ∧
      (n = 2 ^ precision ↔ (2 * 2 ^ precision - 1) * 2 ^ (excess + 1) ≤ 2 * m) := by
  have hexcess : bitLength m - precision = excess + 1 := by omega
  have hunit : 0 < 2 ^ (excess + 1) := Nat.two_pow_pos _
  have hfirst : 2 ^ (bitLength m - 1) ≤ m := lt_bitLength_iff.mp (by omega)
  have hlow : 2 ^ (precision - 1) ≤ m / 2 ^ (excess + 1) := by
    rw [Nat.le_div_iff_mul_le hunit, ← Nat.pow_add]
    rwa [show precision - 1 + (excess + 1) = bitLength m - 1 by omega]
  have hhigh : m / 2 ^ (excess + 1) < 2 ^ precision := by
    rw [Nat.div_lt_iff_lt_mul hunit, ← Nat.pow_add, ← hbits]
    exact bitLength_le_iff.mp (Nat.le_refl _)
  have heven : 2 ^ precision % 2 = 0 := Nat.mod_eq_zero_of_dvd (dvd_pow_self 2 hprecision.ne')
  have hraised := raised_eq_iff (Nat.mod_lt m hunit) hhigh heven
  rw [Nat.div_add_mod] at hraised
  refine ⟨_, ?_, ?_, ?_, hraised⟩
  · simp [round, hexcess]
  · split <;> omega
  · split <;> omega

theorem round_of_bitLength (h : bitLength x.mantissa ≤ precision) : round precision false x = x :=
  round_of_fits (bitLength_le_iff.mp h)

theorem top_round (hprecision : 0 < precision) (hne : x.mantissa ≠ 0) :
    (round precision false x).mantissa ≠ 0 ∧ x.exponent ≤ (round precision false x).exponent ∧
      x.top ≤ (round precision false x).top ∧ (round precision false x).top ≤ x.top + 1 := by
  by_cases hfits : bitLength x.mantissa ≤ precision
  · rw [round_of_bitLength hfits]
    exact ⟨hne, Int.le_refl _, Int.le_refl _, by omega⟩
  · obtain ⟨excess, hbits⟩ : ∃ excess, bitLength x.mantissa = precision + (excess + 1) :=
      ⟨bitLength x.mantissa - precision - 1, by omega⟩
    obtain ⟨n, hround, hlow, hhigh, -⟩ := round_excess x.exponent hprecision hbits
    have hleast : precision - 1 < bitLength n := lt_bitLength_iff.mpr hlow
    have hmost : bitLength n ≤ precision + 1 := by
      refine bitLength_le (hhigh.trans_lt ?_)
      exact Nat.pow_lt_pow_right Nat.one_lt_two (Nat.lt_succ_self _)
    have hpos : 0 < 2 ^ (precision - 1) := Nat.two_pow_pos _
    rw [hround, top, top, hbits]
    dsimp only
    omega

end Magnitude

namespace Double

open Number (whole)

variable {x : Magnitude} {k : Nat}

def halfPlace : Nat := 970

/-- The least whole number that becomes infinite: half a unit above the largest double. -/
def overflow : Nat :=
  (2 * 2 ^ precision - 1) * 2 ^ halfPlace

theorem precision_pos : 0 < precision := by
  decide

theorem roundMagnitude_of_top (h : 0 ≤ x.top) : roundMagnitude x = x.round precision false := by
  have hmin : minExponent = -1074 := rfl
  have hbits : bitsAt x = precision := by
    have : precision = 53 := rfl
    rw [bitsAt]
    omega
  rw [roundMagnitude, if_neg (by omega), if_neg (by omega), hbits]

theorem top_roundMagnitude (hne : x.mantissa ≠ 0) (h : x.top < maxTop) : (roundMagnitude x).top ≤ maxTop := by
  have hmax : maxTop = 1024 := rfl
  have hmin : minExponent = -1074 := rfl
  by_cases hpos : 0 ≤ x.top
  · rw [roundMagnitude_of_top hpos]
    have := (Magnitude.top_round precision_pos hne).2.2.2
    omega
  · rw [roundMagnitude]
    split
    next => decide
    next hleast =>
        split
        next =>
            rw [Magnitude.top]
            dsimp only
            split <;> decide
        next hlow =>
            have hbits : 0 < bitsAt x := by
              have : precision = 53 := rfl
              rw [bitsAt]
              omega
            have := (Magnitude.top_round hbits hne).2.2.2
            omega

theorem isInfinite_ofMagnitude (negative : Bool) (h : x.top ≤ maxTop) :
    isInfinite ⟨Number.ofMagnitude negative x⟩ = false := by
  have hmax : maxTop ≤ Number.maxExponent := by decide
  rw [Number.ofMagnitude]
  split
  next => rfl
  next =>
      rw [if_neg (by omega)]
      rfl

theorem isInfinite_ofNumber (negative : Bool) (x : Magnitude) :
    (ofNumber (.finite negative x)).isInfinite = true ↔ maxTop < (roundMagnitude x).top := by
  rw [ofNumber]
  split
  next h => exact ⟨fun _ => h, fun _ => rfl⟩
  next h =>
      rw [isInfinite_ofMagnitude negative (Int.not_lt.mp h)]
      exact ⟨nofun, fun h' => absurd h' h⟩

theorem top_of_whole (hodd : x.mantissa % 2 = 1) (he : 0 ≤ x.exponent) : x.top = bitLength (whole x) := by
  rw [whole, bitLength_mul_pow (by omega), Magnitude.top]
  omega

/-- A number with a top of 1024 becomes infinite if all bits that are kept are set and the next one is, too. -/
theorem top_round_highest (hodd : x.mantissa % 2 = 1) (he : 0 ≤ x.exponent) (htop : x.top = maxTop) :
    maxTop < (x.round precision false).top ↔ overflow ≤ whole x := by
  have hmax : maxTop = 1024 := rfl
  have hprecision : precision = 53 := rfl
  have hplace : halfPlace = 970 := rfl
  obtain ⟨m, e⟩ := x
  obtain ⟨e, rfl⟩ := Int.eq_ofNat_of_zero_le he
  rw [Magnitude.top] at htop
  simp only [whole, Int.toNat_natCast] at htop ⊢
  by_cases hfits : bitLength m ≤ precision
  -- no bit is dropped: the number is its own rounding, and lies below the half unit
  · have hkept : m * 2 ^ (precision - bitLength m) < 2 ^ precision := by
      rw [← Nat.sub_add_cancel hfits, Nat.pow_add, Nat.mul_comm, Nat.sub_add_cancel hfits]
      exact Nat.mul_lt_mul_of_pos_left (bitLength_le_iff.mp (Nat.le_refl _)) (Nat.two_pow_pos _)
    have hexponent : e = precision - bitLength m + 1 + halfPlace := by omega
    have hwhole : m * 2 ^ e = 2 * (m * 2 ^ (precision - bitLength m)) * 2 ^ halfPlace := by
      rw [hexponent, Nat.pow_add, Nat.pow_succ]
      ring
    have hless : m * 2 ^ e < overflow := by
      rw [hwhole, overflow]
      exact Nat.mul_lt_mul_of_pos_right (by omega) (Nat.two_pow_pos _)
    rw [Magnitude.round_of_bitLength hfits, Magnitude.top]
    dsimp only
    omega
  · obtain ⟨excess, hbits⟩ : ∃ excess, bitLength m = precision + (excess + 1) :=
      ⟨bitLength m - precision - 1, by omega⟩
    obtain ⟨n, hround, hlow, hhigh, hraised⟩ := Magnitude.round_excess (e : Int) precision_pos hbits
    -- the bits that are kept are all set just if rounding takes the number to the next power
    have hbound : maxTop < (e : Int) + (excess + 1 : Nat) + bitLength n ↔ n = 2 ^ precision := by
      have hlength : precision < bitLength n ↔ 2 ^ precision ≤ n := lt_bitLength_iff
      omega
    have hscaled : overflow ≤ m * 2 ^ e ↔ (2 * 2 ^ precision - 1) * 2 ^ (excess + 1) ≤ 2 * m := by
      have hexponent : excess + 1 + e = 1 + halfPlace := by omega
      have hunits : (2 * 2 ^ precision - 1) * 2 ^ (excess + 1) * 2 ^ e = 2 * overflow := by
        rw [Nat.mul_assoc, ← Nat.pow_add, hexponent, Nat.pow_add, overflow]
        ring
      rw [← Nat.mul_le_mul_right_iff (n := (2 * 2 ^ precision - 1) * 2 ^ (excess + 1)) (Nat.two_pow_pos e), hunits,
        Nat.mul_assoc]
      omega
    rw [hround, hscaled, ← hraised]
    exact hbound

theorem le_overflow : 2 ^ (precision + halfPlace) ≤ overflow := by
  decide +kernel

theorem overflow_le : overflow ≤ 2 ^ (precision + halfPlace + 1) := by
  decide +kernel

/-- A whole number becomes infinite just from half a unit above the largest double on. -/
theorem isInfinite_whole (negative : Bool) (hodd : x.mantissa % 2 = 1) (he : 0 ≤ x.exponent) :
    (ofNumber (.finite negative x)).isInfinite = true ↔ overflow ≤ whole x := by
  have hmax : maxTop = 1024 := rfl
  have htop := top_of_whole hodd he
  have hne : x.mantissa ≠ 0 := by omega
  rw [isInfinite_ofNumber, roundMagnitude_of_top (by omega)]
  have hplaces : precision + halfPlace = 1023 := rfl
  obtain ⟨-, -, hlow, hhigh⟩ := Magnitude.top_round precision_pos hne
  rcases Int.lt_trichotomy x.top maxTop with hless | heq | hmore
  · have hwhole : whole x < 2 ^ (precision + halfPlace) := bitLength_le_iff.mp (by omega)
    have hbound := le_overflow
    exact iff_of_false (by omega) (by omega)
  · exact top_round_highest hodd he heq
  · have hwhole : 2 ^ (precision + halfPlace + 1) ≤ whole x := lt_bitLength_iff.mp (by omega)
    have hbound := overflow_le
    exact iff_of_true (by omega) (by omega)

/-- Only a whole number can be too great: any other has binary places, and so few digits in front of them. -/
theorem isInfinite_iff (negative : Bool) (h : x.Sound) :
    (ofNumber (.finite negative x)).isInfinite = true ↔ ∃ k, x.toNat? = some k ∧ overflow ≤ k := by
  have hodd := h.odd
  cases hx : x.toNat? with
  | none =>
      have he : x.exponent < 0 := by
        by_contra he
        simp [Magnitude.toNat?, Int.not_lt.mp he] at hx
      have hbits := bitLength_le_iff.mpr h.fits
      have hmax : (Number.precision : Int) ≤ maxTop := by decide
      have hsmall : x.top < maxTop := by
        rw [Magnitude.top]
        omega
      have htop := top_roundMagnitude (by omega) hsmall
      rw [isInfinite_ofNumber]
      simpa using htop
  | some k =>
      obtain ⟨he, rfl⟩ := Magnitude.toNat?_odd hodd hx
      rw [isInfinite_whole negative hodd he]
      simp only [Option.some.injEq, exists_eq_left']
      rfl

/-- A whole number with no more bits than a double has, zeros at its end apart. -/
def Exact (k : Nat) : Prop :=
  ∃ m j, m < 2 ^ precision ∧ k = m * 2 ^ j

theorem exact_odd_iff {m : Nat} (hodd : m % 2 = 1) (j : Nat) : Exact (m * 2 ^ j) ↔ m < 2 ^ precision := by
  refine ⟨?_, fun h => ⟨m, j, h, rfl⟩⟩
  rintro ⟨a, i, ha, heq⟩
  refine lt_of_le_of_lt ?_ ha
  rcases Nat.lt_or_ge j i with hlt | hge
  · obtain ⟨d, rfl⟩ := Nat.exists_eq_add_of_lt hlt
    have heven : m = a * 2 ^ d * 2 := by
      refine Nat.eq_of_mul_eq_mul_right (Nat.two_pow_pos j) ?_
      rw [heq, Nat.pow_succ, Nat.pow_add]
      ring
    omega
  · obtain ⟨d, rfl⟩ := Nat.exists_eq_add_of_le hge
    have hmore : m * 2 ^ d = a := by
      refine Nat.eq_of_mul_eq_mul_right (Nat.two_pow_pos i) ?_
      rw [← heq, Nat.pow_add]
      ring
    exact hmore ▸ Nat.le_mul_of_pos_right m (Nat.two_pow_pos d)

/-- An odd number of units is changed if it has too many bits, since what is left of it are even units. -/
theorem whole_round (hodd : x.mantissa % 2 = 1) (he : 0 ≤ x.exponent) :
    whole (x.round precision false) = whole x ↔ x.mantissa < 2 ^ precision := by
  refine ⟨fun hsame => ?_, fun h => by rw [Magnitude.round_of_fits h]⟩
  by_contra hmany
  obtain ⟨m, e⟩ := x
  obtain ⟨e, rfl⟩ := Int.eq_ofNat_of_zero_le he
  obtain ⟨excess, hbits⟩ : ∃ excess, bitLength m = precision + (excess + 1) := by
    have hlength : precision < bitLength m := lt_bitLength_iff.mpr (Nat.not_lt.mp hmany)
    exact ⟨bitLength m - precision - 1, by omega⟩
  obtain ⟨n, hround, -⟩ := Magnitude.round_excess (e : Int) precision_pos hbits
  rw [hround, whole, whole, ← Int.natCast_add, Int.toNat_natCast, Int.toNat_natCast] at hsame
  dsimp only at hsame hodd
  have hunits : n * 2 ^ excess * 2 = m := by
    refine Nat.eq_of_mul_eq_mul_right (Nat.two_pow_pos e) ?_
    rw [← hsame, Nat.pow_add, Nat.pow_add]
    ring
  omega

/-- A whole number becomes another whole number, or stays the same if a double has bits enough. -/
theorem ofNumber_whole (negative : Bool) (h : x.Sound) (he : 0 ≤ x.exponent) (hsmall : whole x < overflow) :
    ∃ r : Nat, (ofNumber (.finite negative x)).value.toInt? = some (if negative then -(r : Int) else r) ∧
      (r = whole x ↔ Exact (whole x)) := by
  have hodd := h.odd
  have htop := top_of_whole hodd he
  have hfinite : (ofNumber (.finite negative x)).isInfinite ≠ true := by
    rw [Ne, isInfinite_whole negative hodd he]
    exact Nat.not_le.mpr hsmall
  rw [Ne, isInfinite_ofNumber, roundMagnitude_of_top (by omega)] at hfinite
  obtain ⟨hround, hexponent, hlow, -⟩ := Magnitude.top_round (x := x) precision_pos (by omega)
  have hmin : Number.minExponent ≤ 0 := by decide
  have hmax : maxTop ≤ Number.maxExponent := by decide
  refine ⟨whole (x.round precision false), ?_, ?_⟩
  · rw [ofNumber, roundMagnitude_of_top (by omega), if_neg hfinite, Number.ofMagnitude_of_top hround (by omega) (by omega),
      Number.toInt?, Number.toNat?_reduce hround (by omega)]
    rfl
  · rw [whole_round hodd he, whole, exact_odd_iff hodd]

end Double

end Population

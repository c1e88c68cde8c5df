import Mathlib.Tactic.Linarith
import Mathlib.Tactic.Ring
import Population.Proofs.Number.Digits

namespace Population

theorem bitLength_le_iff {n k : Nat} : bitLength n ≤ k ↔ n < 2 ^ k := by
  refine ⟨fun h => ?_, bitLength_le⟩
  rw [bitLength] at h
  split at h
  next hn =>
      rw [hn]
      exact Nat.two_pow_pos k
  next hn => exact (Nat.log2_lt hn).mp h

theorem lt_bitLength_iff {n k : Nat} : k < bitLength n ↔ 2 ^ k ≤ n := by
  rw [← Nat.not_le, bitLength_le_iff, Nat.not_lt]

theorem bitLength_eq {n k : Nat} (h : 2 ^ k ≤ n) (h' : n < 2 ^ (k + 1)) : bitLength n = k + 1 :=
  Nat.le_antisymm (bitLength_le_iff.mpr h') (lt_bitLength_iff.mpr h)

theorem bitLength_mul_pow {n : Nat} (hn : n ≠ 0) (k : Nat) : bitLength (n * 2 ^ k) = bitLength n + k := by
  obtain ⟨b, hb⟩ : ∃ b, bitLength n = b + 1 := by
    refine Nat.exists_eq_succ_of_ne_zero fun h => hn ?_
    simpa using bitLength_le_iff.mp h.le
  have hlow : 2 ^ b ≤ n := lt_bitLength_iff.mp (by omega)
  have hhigh : n < 2 ^ (b + 1) := bitLength_le_iff.mp hb.le
  rw [hb, Nat.add_right_comm]
  apply bitLength_eq
  · rw [Nat.pow_add]
    exact Nat.mul_le_mul_right _ hlow
  · rw [Nat.add_right_comm, Nat.pow_add]
    exact Nat.mul_lt_mul_of_pos_right hhigh (Nat.two_pow_pos k)

namespace Magnitude

variable {x : Magnitude} {precision : Nat}

theorem exists_reduce (hx : x.mantissa ≠ 0) :
    ∃ n : Nat, x.mantissa = x.reduce.mantissa * 2 ^ n ∧ x.reduce.exponent = x.exponent + n := by
  fun_induction reduce x with
  | case1 x hx' ih =>
      obtain ⟨n, hmantissa, hexponent⟩ := ih (by simp only; omega)
      simp only at hmantissa hexponent
      refine ⟨n + 1, ?_, by rw [hexponent]; push_cast; omega⟩
      rw [Nat.pow_succ, ← Nat.mul_assoc, ← hmantissa]
      omega
  | case2 x hx' => exact ⟨0, by simp, by simp⟩

theorem top_reduce (hx : x.mantissa ≠ 0) : x.reduce.top = x.top := by
  obtain ⟨n, hmantissa, hexponent⟩ := exists_reduce hx
  have hne : x.reduce.mantissa ≠ 0 := by
    have := x.reduce_odd hx
    omega
  rw [top, top, hexponent, hmantissa, bitLength_mul_pow hne]
  push_cast
  omega

theorem top_whole (n : Nat) : top ⟨n, 0⟩ = bitLength n :=
  Int.zero_add _

theorem round_of_fits {sticky : Bool} (h : x.mantissa < 2 ^ precision) : round precision sticky x = x := by
  have hexcess : bitLength x.mantissa - precision = 0 := Nat.sub_eq_zero_of_le (bitLength_le_iff.mpr h)
  simp only [round, hexcess, if_true]

theorem round_mantissa_le (sticky : Bool) (x : Magnitude) : (round precision sticky x).mantissa ≤ 2 ^ precision := by
  rw [round]
  split
  next h => exact (bitLength_le_iff.mp (Nat.sub_eq_zero_iff_le.mp h)).le
  next h =>
      have hkept : x.mantissa / 2 ^ (bitLength x.mantissa - precision) < 2 ^ precision := by
        rw [Nat.div_lt_iff_lt_mul (Nat.two_pow_pos _), ← Nat.pow_add]
        exact bitLength_le_iff.mp (by omega)
      change (if _ then _ / 2 ^ _ + 1 else _ / 2 ^ _) ≤ _
      split
      next => exact hkept
      next => exact hkept.le

theorem nearest_multiple {m n unit : Nat} (hunit : 0 < unit) (hlower : 2 * n * unit ≤ 2 * m + unit)
    (hupper : 2 * m ≤ (2 * n + 1) * unit)
    (heven : 2 * n * unit = 2 * m + unit ∨ 2 * m = (2 * n + 1) * unit → n % 2 = 0) :
    (if unit < 2 * (m % unit) ∨ (2 * (m % unit) = unit ∧ m / unit % 2 = 1) then m / unit + 1 else m / unit) = n := by
  have hm : unit * (m / unit) + m % unit = m := Nat.div_add_mod m unit
  have hr : m % unit < unit := Nat.mod_lt m hunit
  generalize m / unit = k at *
  generalize m % unit = r at *
  subst hm
  have hle : k ≤ n := by
    by_contra hlt
    have := Nat.mul_le_mul_left unit (show n + 1 ≤ k by omega)
    nlinarith
  have hge : n ≤ k + 1 := by
    by_contra hlt
    have := Nat.mul_le_mul_left unit (show k + 2 ≤ n by omega)
    nlinarith
  -- The two candidates are the quotient and the number above it.
  obtain rfl | rfl : n = k ∨ n = k + 1 := by omega
  · have hdown : 2 * r ≤ unit := by nlinarith
    rw [if_neg]
    rintro (hup | ⟨htie, hodd⟩)
    · omega
    · have := heven (.inr (by rw [Nat.mul_add, htie]; ring))
      omega
  · have hup : unit ≤ 2 * r := by nlinarith
    rw [if_pos]
    rcases hup.lt_or_eq with hlt | htie
    · exact .inl hlt
    · have := heven (.inl (by nlinarith))
      exact .inr ⟨htie.symm, by omega⟩

/-- A number with `excess` bits too many is rounded to the `n` within half a unit of it, which is even if it is just
half a unit away. -/
theorem round_eq {m n excess : Nat} (e : Int) (hbits : bitLength m = precision + excess)
    (hlower : 2 * n * 2 ^ excess ≤ 2 * m + 2 ^ excess) (hupper : 2 * m ≤ (2 * n + 1) * 2 ^ excess)
    (heven : 2 * n * 2 ^ excess = 2 * m + 2 ^ excess ∨ 2 * m = (2 * n + 1) * 2 ^ excess → n % 2 = 0) :
    round precision false ⟨m, e⟩ = ⟨n, e + excess⟩ := by
  have hexcess : bitLength m - precision = excess := by omega
  rw [round, hexcess]
  dsimp only
  split
  next h =>
      subst h
      obtain rfl : m = n := by omega
      simp
  next h =>
      have hnearest := nearest_multiple (Nat.two_pow_pos excess) hlower hupper heven
      simpa using hnearest

/-- The form in which the sizes of numbers are held. -/
structure Sound (x : Magnitude) : Prop where
  odd : x.mantissa % 2 = 1
  fits : x.mantissa < 2 ^ Number.precision
  lowest : Number.minExponent ≤ x.top
  highest : x.top ≤ Number.maxExponent

end Magnitude

namespace Number

variable {negative sign sticky : Bool} {x y : Magnitude}

theorem ofMagnitude_finite (h : ofMagnitude negative y = .finite sign x) :
    y.mantissa ≠ 0 ∧ minExponent ≤ y.top ∧ y.top ≤ maxExponent ∧ x = y.reduce := by
  rw [ofMagnitude] at h
  split at h
  next => cases h
  next hsize =>
      simp only [Bool.or_eq_true, decide_eq_true_eq, not_or, Int.not_lt] at hsize
      split at h
      next => cases h
      next htop =>
          cases h
          exact ⟨hsize.1, hsize.2, Int.not_lt.mp htop, rfl⟩

theorem ofMagnitude_of_top (hne : y.mantissa ≠ 0) (hlow : minExponent ≤ y.top) (hhigh : y.top ≤ maxExponent) :
    ofMagnitude negative y = .finite negative y.reduce := by
  rw [ofMagnitude, if_neg, if_neg]
  · omega
  · simp only [Bool.or_eq_true, decide_eq_true_eq, not_or, Int.not_lt]
    exact ⟨hne, hlow⟩

theorem sound_of_round (h : ofMagnitude negative (Magnitude.round precision sticky y) = .finite sign x) : x.Sound := by
  obtain ⟨hne, hlow, hhigh, rfl⟩ := ofMagnitude_finite h
  have hodd := Magnitude.reduce_odd _ hne
  have htop := Magnitude.top_reduce hne
  obtain ⟨n, hmantissa, -⟩ := Magnitude.exists_reduce hne
  have hle : (Magnitude.round precision sticky y).mantissa ≤ 2 ^ precision := Magnitude.round_mantissa_le sticky y
  have hfits : (Magnitude.round precision sticky y).reduce.mantissa < 2 ^ precision := by
    refine lt_of_le_of_ne ?_ fun heq => ?_
    · rw [hmantissa] at hle
      exact (Nat.le_mul_of_pos_right _ (Nat.two_pow_pos n)).trans hle
    · have heven : 2 ∣ 2 ^ precision := dvd_pow_self 2 (by decide)
      rw [heq] at hodd
      omega
  rw [← htop] at hlow hhigh
  exact ⟨hodd, hfits, hlow, hhigh⟩

theorem scaleByFive_sound {power : Int} (h : scaleByFive negative y power = .finite sign x) : x.Sound := by
  rw [scaleByFive.eq_def] at h
  split at h
  next => exact sound_of_round h
  next =>
      split at h
      next =>
          rw [Magnitude.mul] at h
          exact sound_of_round h
      next => cases h
  next =>
      split at h
      next =>
          rw [Magnitude.div] at h
          exact sound_of_round h
      next => cases h

theorem parse?_sound {t : Text} (h : parse? t = some (.finite sign x)) : x.Sound := by
  rcases Option.or_eq_some_iff.mp h with h | ⟨-, h⟩
  · rw [infinity?] at h
    split at h
    next => cases h
    next =>
        split at h <;> cases h
  · obtain ⟨s, -, h⟩ := Option.bind_eq_some_iff.mp h
    rw [Spelling.value?] at h
    dsimp only at h
    split at h
    next => cases h
    next =>
        split at h
        next => exact scaleByFive_sound (Option.some.inj h)
        next => cases h

/-- The form in which numbers are held. -/
inductive Held : Number → Prop
  | zero (negative : Bool) : Held (.zero negative)
  | finite {negative : Bool} {x : Magnitude} (h : x.Sound) : Held (.finite negative x)
  | infinite (negative : Bool) : Held (.infinite negative)

theorem held_of_sound {n : Number} (h : ∀ negative x, n = .finite negative x → x.Sound) : n.Held := by
  cases n with
  | zero negative => exact .zero negative
  | finite negative x => exact .finite (h negative x rfl)
  | infinite negative => exact .infinite negative

theorem held_ofInt (i : Int) : (ofInt i).Held :=
  held_of_sound fun _ _ h => sound_of_round h

end Number

end Population

import Mathlib.Algebra.Group.Nat.Defs
import Mathlib.Data.List.TakeDrop
import Mathlib.Data.List.TakeWhile
import Population.Number.Reader
import Population.Proofs.Text.Ends

namespace Population

namespace Text

theorem isDigit_ne {b x : UInt8} (h : isDigit b = true) (hx : isDigit x = false) : b ≠ x := by
  rintro rfl
  rw [h] at hx
  cases hx

theorem isWord_of_isDigit {b : UInt8} (h : isDigit b = true) : isWord b = true := by
  simp [isWord, h]

theorem trim_of_digits {t : Text} (h : ∀ b ∈ t, isDigit b = true) : t.trim = t :=
  trim_of_isWord fun b hb => isWord_of_isDigit (h b hb)

theorem span_of_digits {t : Text} (h : ∀ b ∈ t, isDigit b = true) : t.span isDigit = (t, []) := by
  rw [List.span_eq_takeWhile_dropWhile, List.takeWhile_eq_self_iff.mpr h, List.dropWhile_eq_nil_iff.mpr h]

end Text

namespace Magnitude

theorem reduce_odd (x : Magnitude) (h : x.mantissa ≠ 0) : x.reduce.mantissa % 2 = 1 := by
  fun_induction reduce x with
  | case1 x hx ih => exact ih (by simp only; omega)
  | case2 x hx => omega

theorem reduce_shifted {m : Nat} (hm : m % 2 = 1) (n : Nat) (e : Int) :
    reduce ⟨m * 2 ^ n, e⟩ = ⟨m, e + n⟩ := by
  induction n generalizing e with
  | zero =>
      rw [reduce, if_neg (by simp only; omega)]
      simp
  | succ n ih =>
      have hpos : 0 < m * 2 ^ n := Nat.mul_pos (by omega) (Nat.two_pow_pos n)
      have hdouble : m * 2 ^ (n + 1) = 2 * (m * 2 ^ n) := by rw [Nat.pow_succ]; ac_rfl
      rw [reduce, if_pos (by simp only [hdouble]; omega)]
      simp only [hdouble, Nat.mul_div_cancel_left _ (Nat.zero_lt_two)]
      rw [ih]
      simp only [Magnitude.mk.injEq, true_and]
      omega

theorem toNat?_odd {x : Magnitude} (hx : x.mantissa % 2 = 1) {k : Nat} (h : x.toNat? = some k) :
    0 ≤ x.exponent ∧ k = x.mantissa * 2 ^ x.exponent.toNat := by
  rw [toNat?] at h
  split at h
  next he => exact ⟨he, (Option.some.inj h).symm⟩
  next he =>
      simp only at h
      split at h
      next hunit =>
          have hdvd : 2 ∣ Nat.pow 2 (-x.exponent).toNat := by
            refine Nat.dvd_trans ?_ (Nat.pow_dvd_pow 2 (show 1 ≤ (-x.exponent).toNat by omega))
            exact Nat.dvd_refl 2
          have heven := Nat.dvd_trans hdvd (Nat.dvd_of_mod_eq_zero hunit)
          omega
      next => cases h

end Magnitude

theorem bitLength_le {n k : Nat} (h : n < 2 ^ k) : bitLength n ≤ k := by
  rw [bitLength]
  split
  next => exact Nat.zero_le k
  next hn => exact (Nat.log2_lt hn).mpr h

namespace Number

theorem ofInt_shifted {x : Magnitude} (hodd : x.mantissa % 2 = 1) (he : 0 ≤ x.exponent)
    (hmax : ((x.mantissa * 2 ^ x.exponent.toNat : Nat) : Int) ≤ maxInt64) :
    ofInt (x.mantissa * 2 ^ x.exponent.toNat : Nat) = .finite false x := by
  obtain ⟨m, e⟩ := x
  obtain ⟨n, rfl⟩ := Int.eq_ofNat_of_zero_le he
  simp only [Int.toNat_natCast] at *
  have hpos : 0 < m * 2 ^ n := Nat.mul_pos (by omega) (Nat.two_pow_pos n)
  have hbits : bitLength (m * 2 ^ n) ≤ 63 := by
    refine bitLength_le ?_
    have : maxInt64 < (2 ^ 63 : Nat) := by decide
    omega
  have hround : Magnitude.round precision false ⟨m * 2 ^ n, 0⟩ = ⟨m * 2 ^ n, 0⟩ := by
    have : bitLength (m * 2 ^ n) - precision = 0 := by
      have : precision = 512 := rfl
      omega
    simp only [Magnitude.round, this, if_true]
  have htop : Magnitude.top ⟨m * 2 ^ n, 0⟩ = bitLength (m * 2 ^ n) := by simp [Magnitude.top]
  have hneg : ¬ ((m * 2 ^ n : Nat) : Int) < 0 := by omega
  rw [ofInt, Int.natAbs_natCast, hround, ofMagnitude, htop]
  rw [if_neg, if_neg, Magnitude.reduce_shifted hodd]
  · rw [decide_eq_false hneg, Int.zero_add]
  · have : maxExponent = 2147483647 := rfl
    omega
  · have : minExponent = -2147483648 := rfl
    simp only [Bool.or_eq_true, decide_eq_true_eq]
    omega

theorem toInt?_signed {negative : Bool} {x : Magnitude} {i : Int} (h : toInt? (.finite negative x) = some i) :
    ∃ k, x.toNat? = some k ∧ i = if negative then -(k : Int) else k := by
  rw [toInt?] at h
  cases hk : x.toNat? with
  | none => simp [hk] at h
  | some k => exact ⟨k, rfl, by simpa [hk, eq_comm] using h⟩

theorem natAbs_signed (negative : Bool) (k : Nat) : (if negative then -(k : Int) else k).natAbs = k := by
  cases negative <;> simp

theorem toInt?_finite {x : Magnitude} {i : Int} (h : toInt? (.finite false x) = some i) :
    ∃ k : Nat, x.toNat? = some k ∧ i = k := by
  simpa using toInt?_signed h

theorem ofInt_of_toInt64? {x : Magnitude} {i : Int} (h : (ofMagnitude false x).toInt64? = some i) :
    ofInt i = ofMagnitude false x := by
  obtain ⟨hi, hrange⟩ := Option.filter_eq_some_iff.mp h
  simp only [Bool.and_eq_true, decide_eq_true_eq] at hrange
  rw [ofMagnitude] at hi ⊢
  split at hi
  next hzero =>
      rw [if_pos hzero]
      cases hi
      rfl
  next hzero =>
      rw [if_neg hzero]
      split at hi
      next => cases hi
      next htop =>
          rw [if_neg htop]
          have hodd := Magnitude.reduce_odd x (fun h => hzero (by simp [h]))
          obtain ⟨k, hk, rfl⟩ := toInt?_finite hi
          obtain ⟨he, rfl⟩ := Magnitude.toNat?_odd hodd hk
          exact ofInt_shifted hodd he hrange.2

theorem infinity?_of_digit {b : UInt8} (hb : Text.isDigit b = true) (t : Text) : infinity? (b :: t) = none := by
  have hI : b ≠ 0x49 := Text.isDigit_ne hb (by decide)
  have hi : b ≠ 0x69 := Text.isDigit_ne hb (by decide)
  have hplus : b ≠ 0x2b := Text.isDigit_ne hb (by decide)
  have hminus : b ≠ 0x2d := Text.isDigit_ne hb (by decide)
  rw [infinity?, if_neg, if_neg]
  · simp [show Text.ofString "-Inf" = 0x2d :: "Inf" from rfl, show Text.ofString "-inf" = 0x2d :: "inf" from rfl,
      hminus]
  · simp [show Text.ofString "Inf" = 0x49 :: "nf" from rfl, show Text.ofString "inf" = 0x69 :: "nf" from rfl,
      show Text.ofString "+Inf" = 0x2b :: "Inf" from rfl, show Text.ofString "+inf" = 0x2b :: "inf" from rfl,
      hI, hi, hplus]

theorem takeSign_of_digit {b : UInt8} (hb : Text.isDigit b = true) (t : Text) :
    takeSign (b :: t) = (false, b :: t) := by
  have hplus : b ≠ 0x2b := Text.isDigit_ne hb (by decide)
  have hminus : b ≠ 0x2d := Text.isDigit_ne hb (by decide)
  rw [takeSign]
  · intro rest h
    exact hplus (List.cons.inj h).1
  · intro rest h
    exact hminus (List.cons.inj h).1

theorem spelling?_digits {t : Text} (hne : t ≠ []) (hd : ∀ b ∈ t, Text.isDigit b = true) :
    spelling? t = some ⟨false, t, 0, false, 0⟩ := by
  obtain ⟨b, rest, rfl⟩ := List.exists_cons_of_ne_nil hne
  have hmantissa : takeMantissa (b :: rest) = (b :: rest, [], []) := by
    simp only [takeMantissa, Text.span_of_digits hd]
  simp only [spelling?, takeSign_of_digit (hd b List.mem_cons_self), hmantissa]
  simp

/-- Digits write the whole number that they are read as, rounded if they are too many. -/
theorem parse?_digits {t : Text} (hne : t ≠ []) (hd : ∀ b ∈ t, Text.isDigit b = true) {n : Number}
    (h : parse? t = some n) :
    n = ofMagnitude false (Magnitude.round precision false ⟨Text.digitsToNat t, 0⟩) := by
  have hinf : infinity? t = none := by
    obtain ⟨b, rest, rfl⟩ := List.exists_cons_of_ne_nil hne
    exact infinity?_of_digit (hd b List.mem_cons_self) rest
  rw [parse?, hinf, spelling?_digits hne hd] at h
  have h : Spelling.value? ⟨false, t, 0, false, 0⟩ = some n := h
  simp only [Spelling.value?, Int.natCast_zero, Int.sub_zero, Bool.false_eq_true, if_false] at h
  split at h
  next hzero =>
      rw [hzero, ← Option.some.inj h]
      decide
  next =>
      split at h
      next => exact (Option.some.inj h).symm
      next => cases h

theorem parse?_digits_eq_ofInt {t : Text} (hne : t ≠ []) (hd : ∀ b ∈ t, Text.isDigit b = true) {n : Number} {i : Int}
    (h : parse? t = some n) (hi : n.toInt64? = some i) : n = ofInt i := by
  have hn := parse?_digits hne hd h
  rw [hn] at hi ⊢
  exact (ofInt_of_toInt64? hi).symm

end Number

end Population

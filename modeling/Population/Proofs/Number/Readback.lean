import Population.Proofs.Number.Shortest

/-!
A whole number that is written is read again as the same number, but for some powers of two: the number below such a
power is only half as far away as the one above it, and its text can be nearer to the one below.
-/
namespace Population.Number

variable {t : Text} {x : Magnitude} {n : Nat}

theorem infinity?_signed (hne : t ≠ []) (hd : ∀ b ∈ t, Text.isDigit b = true) (negative : Bool) :
    infinity? (sign negative ++ t) = none := by
  obtain ⟨b, rest, rfl⟩ := List.exists_cons_of_ne_nil hne
  have hb := hd b List.mem_cons_self
  cases negative with
  | false => exact infinity?_of_digit hb rest
  | true =>
      have hI : b ≠ 0x49 := Text.isDigit_ne hb (by decide)
      have hi : b ≠ 0x69 := Text.isDigit_ne hb (by decide)
      rw [show sign true ++ b :: rest = 0x2d :: b :: rest from rfl, infinity?, if_neg, if_neg]
      · simp [show Text.ofString "-Inf" = 0x2d :: 0x49 :: "nf" from rfl,
          show Text.ofString "-inf" = 0x2d :: 0x69 :: "nf" from rfl, hI, hi]
      · simp [show Text.ofString "Inf" = 0x49 :: "nf" from rfl, show Text.ofString "inf" = 0x69 :: "nf" from rfl,
          show Text.ofString "+Inf" = 0x2b :: "Inf" from rfl, show Text.ofString "+inf" = 0x2b :: "inf" from rfl]

theorem takeSign_signed (hne : t ≠ []) (hd : ∀ b ∈ t, Text.isDigit b = true) (negative : Bool) :
    takeSign (sign negative ++ t) = (negative, t) := by
  obtain ⟨b, rest, rfl⟩ := List.exists_cons_of_ne_nil hne
  cases negative with
  | false => exact takeSign_of_digit (hd b List.mem_cons_self) rest
  | true => rfl

theorem parse?_signed (hne : t ≠ []) (hd : ∀ b ∈ t, Text.isDigit b = true) (negative : Bool) :
    parse? (sign negative ++ t) = Spelling.value? ⟨negative, t, 0, false, 0⟩ := by
  have hmantissa : takeMantissa t = (t, [], []) := by simp only [takeMantissa, Text.span_of_digits hd]
  have hspelling : spelling? (sign negative ++ t) = some ⟨negative, t, 0, false, 0⟩ := by
    simp only [spelling?, takeSign_signed hne hd, hmantissa]
    simp [hne]
  rw [parse?, infinity?_signed hne hd, hspelling]
  rfl

theorem value?_zero (negative : Bool) (h : Text.digitsToNat t = 0) :
    Spelling.value? ⟨negative, t, 0, false, 0⟩ = some (.zero negative) := by
  simp [Spelling.value?, h]

theorem value?_digits (negative : Bool) (hne : Text.digitsToNat t ≠ 0)
    (htop : (bitLength (Text.digitsToNat t) : Int) ≤ maxExponent) :
    Spelling.value? ⟨negative, t, 0, false, 0⟩ =
      some (ofMagnitude negative (Magnitude.round precision false ⟨Text.digitsToNat t, 0⟩)) := by
  have hmin : minExponent = -2147483648 := rfl
  simp only [Spelling.value?, if_neg hne, Int.natCast_zero, Int.sub_zero, Bool.false_eq_true, if_false]
  rw [if_pos]
  · rfl
  · rw [Bool.and_eq_true, decide_eq_true_eq, decide_eq_true_eq, Magnitude.top_whole]
    omega

theorem holds_wide {s : Nat} (h : x.Sound) (htop : x.top = precision + (s + 1 : Nat))
    (hn : (interval x).holds n = true) :
    (2 * units x - 1) * 2 ^ s ≤ n ∧ n ≤ (2 * units x + 1) * 2 ^ s ∧
      (n = (2 * units x - 1) * 2 ^ s ∨ n = (2 * units x + 1) * 2 ^ s → units x % 2 = 0) := by
  rw [interval_wide h htop, Decimal.Interval.holds] at hn
  simp only [Nat.mul_one, Bool.or_eq_true, Bool.and_eq_true, decide_eq_true_eq, beq_iff_eq] at hn
  have hpos := units_pos h
  have hwidth : (2 * units x - 1) * 2 ^ s < (2 * units x + 1) * 2 ^ s :=
    Nat.mul_lt_mul_of_pos_right (by omega) (Nat.two_pow_pos s)
  omega

theorem lt_pow_wide {s : Nat} (h : x.Sound) (htop : x.top = precision + (s + 1 : Nat))
    (hn : (interval x).holds n = true) : n < 2 ^ (precision + s + 1) := by
  obtain ⟨-, hupper, -⟩ := holds_wide h htop hn
  have hunits := units_lt h
  have hmost : (2 * units x + 1) * 2 ^ s < 2 * 2 ^ precision * 2 ^ s :=
    Nat.mul_lt_mul_of_pos_right (by omega) (Nat.two_pow_pos s)
  have hbits : 2 * 2 ^ precision * 2 ^ s = 2 ^ (precision + s + 1) := by ring
  omega

theorem holds_narrow {d : Nat} (h : x.Sound) (he : 0 ≤ x.exponent) (htop : x.top + d = precision)
    (hn : (interval x).holds n = true) : n = whole x := by
  rw [interval_narrow h htop, Decimal.Interval.holds] at hn
  simp only [Bool.or_eq_true, Bool.and_eq_true, decide_eq_true_eq, beq_iff_eq] at hn
  have hunits := units_narrow he htop
  have heven : n * 2 ^ (d + 1) = 2 * (n * 2 ^ d) := by
    rw [Nat.pow_succ]
    ring
  have hsame : n * 2 ^ d = whole x * 2 ^ d := by omega
  exact Nat.eq_of_mul_eq_mul_right (Nat.two_pow_pos d) hsame

theorem reduce_units (h : x.Sound) {e : Int} (he : x.exponent = e + (precision - bitLength x.mantissa : Nat)) :
    Magnitude.reduce ⟨units x, e⟩ = x := by
  rw [units, Magnitude.reduce_shifted h.odd, ← he]

theorem exponent_wide {s : Nat} (h : x.Sound) (htop : x.top = precision + (s + 1 : Nat)) :
    x.exponent = 0 + ((s + 1 : Nat) : Int) + (precision - bitLength x.mantissa : Nat) := by
  have hfits := bitLength_le_iff.mpr h.fits
  rw [Magnitude.top] at htop
  omega

theorem mantissa_of_units (h : x.Sound) (hunits : units x = 2 ^ (precision - 1)) : x.mantissa = 1 := by
  have hreduce : Magnitude.reduce ⟨units x, 0⟩ = Magnitude.reduce ⟨1 * 2 ^ (precision - 1), 0⟩ := by
    rw [hunits, Nat.one_mul]
  rw [units, Magnitude.reduce_shifted h.odd, Magnitude.reduce_shifted (by decide)] at hreduce
  exact congrArg Magnitude.mantissa hreduce

theorem round_narrow {d : Nat} (h : x.Sound) (he : 0 ≤ x.exponent) (htop : x.top + d = precision) :
    (Magnitude.round precision false ⟨whole x, 0⟩).reduce = x := by
  have hle : whole x ≤ units x := by
    rw [units_narrow he htop]
    exact Nat.le_mul_of_pos_right _ (Nat.two_pow_pos d)
  rw [Magnitude.round_of_fits (hle.trans_lt (units_lt h)), whole, Magnitude.reduce_shifted h.odd, Int.zero_add,
    Int.toNat_of_nonneg he]

theorem round_wide {s : Nat} (h : x.Sound) (htop : x.top = precision + (s + 1 : Nat))
    (hn : (interval x).holds n = true) (hlow : 2 ^ (precision + s) ≤ n) :
    (Magnitude.round precision false ⟨n, 0⟩).reduce = x := by
  obtain ⟨hlower, hupper, heven⟩ := holds_wide h htop hn
  have hpos := units_pos h
  have hbits : bitLength n = precision + (s + 1) := bitLength_eq hlow (lt_pow_wide h htop hn)
  have hdouble : 2 ^ (s + 1) = 2 * 2 ^ s := by rw [Nat.pow_succ, Nat.mul_comm]
  have hbelow : 2 * ((2 * units x - 1) * 2 ^ s) + 2 * 2 ^ s = 2 * units x * (2 * 2 ^ s) := by
    obtain ⟨k, hk⟩ : ∃ k, 2 * units x = k + 1 := ⟨2 * units x - 1, by omega⟩
    rw [hk, Nat.add_sub_cancel]
    ring
  have habove : 2 * ((2 * units x + 1) * 2 ^ s) = (2 * units x + 1) * (2 * 2 ^ s) := by ring
  have hround : Magnitude.round precision false ⟨n, 0⟩ = ⟨units x, 0 + (s + 1 : Nat)⟩ := by
    refine Magnitude.round_eq 0 hbits ?_ ?_ fun htie => heven ?_
    · rw [hdouble]
      omega
    · rw [hdouble]
      omega
    · rw [hdouble] at htie
      omega
  rw [hround]
  exact reduce_units h (exponent_wide h htop)

theorem top_power (s : Nat) : Magnitude.top ⟨1, precision + s⟩ = precision + (s + 1 : Nat) := by
  change ((precision : Nat) : Int) + s + 1 = _
  omega

theorem units_power (k : Int) : 2 * units ⟨1, k⟩ = 2 ^ precision := by
  change 2 * (1 * 2 ^ (precision - 1)) = 2 ^ precision
  rw [Nat.one_mul, Nat.mul_comm, Nat.two_pow_pred_mul_two (by decide)]

/-- Below a power of two the numbers are half as far apart as above it. -/
theorem round_below {s : Nat} (h : Magnitude.Sound ⟨1, precision + s⟩)
    (hn : (interval ⟨1, precision + s⟩).holds n = true) (hlow : n < 2 ^ (precision + s)) :
    (Magnitude.round precision false ⟨n, 0⟩).reduce =
      if 2 * n + 2 ^ s < 2 ^ (precision + s + 1) then ⟨2 ^ precision - 1, s⟩ else ⟨1, precision + s⟩ := by
  obtain ⟨hlower, -, -⟩ := holds_wide h (top_power s) hn
  rw [units_power] at hlower
  have hunit : 0 < 2 ^ s := Nat.two_pow_pos s
  have hbig : 2 ^ (precision - 1) ≤ 2 ^ precision - 1 := by decide +kernel
  have hpower : 2 ^ precision * 2 ^ s = 2 ^ (precision + s) := (Nat.pow_add 2 precision s).symm
  have hdouble : 2 ^ (precision + s + 1) = 2 * 2 ^ (precision + s) := Nat.pow_succ'
  have hless : (2 ^ precision - 1) * 2 ^ s + 2 ^ s = 2 ^ (precision + s) := by
    rw [← Nat.succ_mul, Nat.succ_eq_add_one, Nat.sub_add_cancel Nat.one_le_two_pow, hpower]
  have hbits : bitLength n = precision + s := by
    have hhalf : 2 ^ (precision - 1 + s) ≤ n := by
      rw [Nat.pow_add]
      exact (Nat.mul_le_mul_right _ hbig).trans hlower
    have hlength : precision - 1 + s + 1 = precision + s := by
      have : precision = 512 := rfl
      omega
    exact hlength ▸ bitLength_eq hhalf (hlength ▸ hlow)
  -- With one bit less the digits are rounded to multiples of half the unit, the power being an even one.
  split
  next hfar =>
      have hround : Magnitude.round precision false ⟨n, 0⟩ = ⟨2 ^ precision - 1, 0 + s⟩ := by
        refine Magnitude.round_eq 0 hbits ?_ ?_ fun htie => ?_
        · rw [Nat.mul_assoc]
          omega
        · rw [Nat.add_mul, Nat.mul_assoc]
          omega
        · rw [Nat.add_mul, Nat.mul_assoc] at htie
          omega
      rw [hround, Int.zero_add]
      simpa using Magnitude.reduce_shifted (m := 2 ^ precision - 1) (by decide +kernel) 0 s
  next hnear =>
      have hround : Magnitude.round precision false ⟨n, 0⟩ = ⟨2 ^ precision, 0 + s⟩ := by
        refine Magnitude.round_eq 0 hbits ?_ ?_ fun _ => by decide +kernel
        · rw [Nat.mul_assoc, hpower]
          omega
        · rw [Nat.add_mul, Nat.mul_assoc, hpower]
          omega
      rw [hround, Int.zero_add]
      simpa [Int.add_comm] using Magnitude.reduce_shifted (m := 1) (by decide) precision s

theorem mantissa_ne_zero : 2 ^ precision - 1 ≠ 0 := by
  decide +kernel

theorem mantissa_ne_one : 2 ^ precision - 1 ≠ 1 := by
  decide +kernel

/-- A power of two whose text lies nearer to the number below it: more than half way between the two. -/
def Misread (x : Magnitude) : Prop :=
  ∃ s : Nat, x = ⟨1, precision + s⟩ ∧
    2 * Text.digitsToNat (toText (.finite false x)) + 2 ^ s < 2 ^ (precision + s + 1)

section

variable (h : x.Sound) (he : 0 ≤ x.exponent) (hn : (interval x).holds n = true)
include h hn

theorem eq_power {s : Nat} (htop : x.top = precision + (s + 1 : Nat)) (hlow : n < 2 ^ (precision + s)) :
    x = ⟨1, precision + s⟩ := by
  obtain ⟨hlower, -, -⟩ := holds_wide h htop hn
  have hunits : units x = 2 ^ (precision - 1) := by
    have hless : 2 * units x - 1 < 2 ^ precision := by
      rw [Nat.pow_add] at hlow
      exact Nat.lt_of_mul_lt_mul_right (hlower.trans_lt hlow)
    have hleast := le_units h
    have hhalf : 2 ^ (precision - 1) * 2 = 2 ^ precision := by rw [Nat.two_pow_pred_mul_two (by decide)]
    omega
  have hmantissa := mantissa_of_units h hunits
  have hexponent : x.exponent = precision + s := by
    rw [Magnitude.top, hmantissa, show bitLength 1 = 1 from rfl] at htop
    omega
  obtain ⟨m, e⟩ := x
  exact congrArg₂ Magnitude.mk hmantissa hexponent

include he

/-- Only at a power of two the digits can be rounded to another number. -/
theorem round_held :
    (Magnitude.round precision false ⟨n, 0⟩).reduce = x ∨
      ∃ s : Nat, x = ⟨1, precision + s⟩ ∧ 2 * n + 2 ^ s < 2 ^ (precision + s + 1) ∧
        (Magnitude.round precision false ⟨n, 0⟩).reduce = ⟨2 ^ precision - 1, s⟩ := by
  rcases top_cases x with ⟨s, htop⟩ | ⟨d, htop⟩
  · by_cases hlow : n < 2 ^ (precision + s)
    · obtain rfl := eq_power h hn htop hlow
      have hround := round_below h hn hlow
      split at hround
      next hfar => exact .inr ⟨s, rfl, hfar, hround⟩
      next => exact .inl hround
    · exact .inl (round_wide h htop hn (Nat.not_lt.mp hlow))
  · rw [holds_narrow h he htop hn]
    exact .inl (round_narrow h he htop)

theorem range_held :
    (Magnitude.round precision false ⟨n, 0⟩).mantissa ≠ 0 ∧
      0 ≤ (Magnitude.round precision false ⟨n, 0⟩).top ∧ (Magnitude.round precision false ⟨n, 0⟩).top ≤ x.top := by
  have hodd := h.odd
  have hne : (Magnitude.round precision false ⟨n, 0⟩).mantissa ≠ 0 := by
    intro hzero
    have hreduce : (Magnitude.round precision false ⟨n, 0⟩).reduce = Magnitude.round precision false ⟨n, 0⟩ := by
      rw [Magnitude.reduce, if_neg fun hcond => hcond.1 hzero]
    rcases round_held h he hn with hsame | ⟨s, -, -, hless⟩
    · rw [← hreduce, hsame] at hzero
      omega
    · rw [← hreduce, hless] at hzero
      exact mantissa_ne_zero hzero
  refine ⟨hne, ?_⟩
  rw [← Magnitude.top_reduce hne]
  rcases round_held h he hn with hsame | ⟨s, rfl, -, hless⟩
  · rw [hsame, Magnitude.top]
    omega
  · have hbits : bitLength (2 ^ precision - 1) ≤ precision :=
      bitLength_le_iff.mpr (Nat.sub_one_lt (Nat.two_pow_pos precision).ne')
    rw [hless, top_power, Magnitude.top]
    dsimp only
    omega

theorem bitLength_held : (bitLength n : Int) ≤ x.top := by
  rcases top_cases x with ⟨s, htop⟩ | ⟨d, htop⟩
  · have hbits := bitLength_le_iff.mpr (lt_pow_wide h htop hn)
    omega
  · have hodd := h.odd
    rw [holds_narrow h he htop hn, whole, bitLength_mul_pow (by omega), Magnitude.top]
    omega

theorem value?_held (hne : n ≠ 0) (negative : Bool) :
    Spelling.value? ⟨negative, Text.ofNat n, 0, false, 0⟩ =
      some (.finite negative (Magnitude.round precision false ⟨n, 0⟩).reduce) := by
  have hlength := bitLength_held h he hn
  have hhigh := h.highest
  have hvalue := value?_digits (t := Text.ofNat n) negative
  rw [Text.digitsToNat_ofNat] at hvalue
  rw [hvalue hne (hlength.trans hhigh)]
  obtain ⟨hmantissa, hlow, htop⟩ := range_held h he hn
  have hmin : minExponent ≤ 0 := by decide
  exact congrArg some (ofMagnitude_of_top hmantissa (hmin.trans hlow) (htop.trans hhigh))

end

theorem exists_read (h : x.Sound) (he : 0 ≤ x.exponent) :
    ∃ n, (interval x).holds n = true ∧ Text.digitsToNat (toText (.finite false x)) = n ∧
      ∀ negative, parse? (toText (.finite negative x)) =
        some (.finite negative (Magnitude.round precision false ⟨n, 0⟩).reduce) := by
  obtain ⟨n, hn, htext⟩ := exists_toText h he
  have hne : n ≠ 0 := by
    rintro rfl
    rw [(around h he).holds_zero] at hn
    cases hn
  refine ⟨n, hn, ?_, fun negative => ?_⟩
  · rw [htext]
    exact Text.digitsToNat_ofNat n
  · rw [htext, parse?_signed (Text.ofNat_ne_nil n) fun _ => Text.ofNat_digits, value?_held h he hn hne]

/-- A whole number is read from its text, and as itself if it is not misread. -/
theorem parse?_toText (h : x.Sound) (he : 0 ≤ x.exponent) (negative : Bool) :
    ∃ y, parse? (toText (.finite negative x)) = some (.finite negative y) ∧ (y = x ↔ ¬ Misread x) := by
  obtain ⟨n, hn, hdigits, hread⟩ := exists_read h he
  refine ⟨(Magnitude.round precision false ⟨n, 0⟩).reduce, hread negative, ?_⟩
  rw [Misread, hdigits]
  constructor
  · rintro heq ⟨s, rfl, hfar⟩
    have hunit : 0 < 2 ^ s := Nat.two_pow_pos s
    have hdouble : 2 ^ (precision + s + 1) = 2 * 2 ^ (precision + s) := Nat.pow_succ'
    rw [round_below h hn (by omega), if_pos hfar] at heq
    exact mantissa_ne_one (Magnitude.mk.inj heq).1
  · intro hfair
    rcases round_held h he hn with hsame | ⟨s, hpower, hfar, -⟩
    · exact hsame
    · exact absurd ⟨s, hpower, hfar⟩ hfair

/-- A power of two and the number below it, if they have the same text. -/
def Twins (n m : Number) : Prop :=
  ∃ negative, ∃ s : Nat, n = .finite negative ⟨1, precision + s⟩ ∧ m = .finite negative ⟨2 ^ precision - 1, s⟩ ∧
    n.toText = m.toText

/-- A number that has its text in common with another one. -/
def Blurred (n : Number) : Prop :=
  ∃ m, m.Held ∧ (Twins n m ∨ Twins m n)

theorem exponent_of_isWhole {negative : Bool} (h : x.Sound) (hwhole : isWhole (.finite negative x) = true) :
    0 ≤ x.exponent := by
  cases hk : x.toNat? with
  | none => simp [isWhole, toInt?, hk] at hwhole
  | some k => exact (Magnitude.toNat?_odd h.odd hk).1

/-- A whole number is read from its text as itself, or as the number below it if it is a power of two. -/
theorem read_whole {m : Number} (h : m.Held) (hwhole : m.isWhole = true) :
    ∃ p, parse? m.toText = some p ∧ (p = m ∨ ∃ negative, ∃ s : Nat, m = .finite negative ⟨1, precision + s⟩ ∧
      p = .finite negative ⟨2 ^ precision - 1, s⟩) := by
  cases h with
  | zero negative => exact ⟨.zero negative, by cases negative <;> decide, .inl rfl⟩
  | infinite negative => cases hwhole
  | @finite negative x h =>
      have he := exponent_of_isWhole h hwhole
      obtain ⟨n, hn, -, hread⟩ := exists_read h he
      refine ⟨_, hread negative, ?_⟩
      rcases round_held h he hn with hsame | ⟨s, rfl, -, hless⟩
      · exact .inl (congrArg _ hsame)
      · exact .inr ⟨negative, s, rfl, congrArg _ hless⟩

theorem eq_or_twins {m n : Number} (hm : m.Held) (hmwhole : m.isWhole = true) (hn : n.Held) (hnwhole : n.isWhole = true)
    (h : m.toText = n.toText) : m = n ∨ Twins m n ∨ Twins n m := by
  obtain ⟨p, hp, hm⟩ := read_whole hm hmwhole
  obtain ⟨q, hq, hn⟩ := read_whole hn hnwhole
  obtain rfl : p = q := Option.some.inj (hp.symm.trans (h ▸ hq))
  rcases hm with rfl | ⟨negative, s, hm, rfl⟩ <;> rcases hn with hn | ⟨negative', s', hn, hp⟩
  · exact .inl hn
  · exact .inr (.inr ⟨negative', s', hn, hp, h.symm⟩)
  · exact .inr (.inl ⟨negative, s, hm, hn.symm, h⟩)
  · -- What is below a power of two tells which one it is.
    obtain ⟨rfl, hbelow⟩ := Number.finite.inj hp
    obtain rfl : s = s' := Int.ofNat.inj (Magnitude.mk.inj hbelow).2
    exact .inl (hm.trans hn.symm)

theorem twins_power : Held (.finite false ⟨1, 513⟩) ∧ Held (.finite false ⟨2 ^ precision - 1, 1⟩) ∧
    Twins (.finite false ⟨1, 513⟩) (.finite false ⟨2 ^ precision - 1, 1⟩) := by
  have hpower : Magnitude.Sound ⟨1, 513⟩ := ⟨rfl, by decide +kernel, by decide, by decide⟩
  have hbelow : Magnitude.Sound ⟨2 ^ precision - 1, 1⟩ :=
    ⟨by decide +kernel, by decide +kernel, by decide +kernel, by decide +kernel⟩
  refine ⟨.finite hpower, .finite hbelow, false, 1, rfl, rfl, ?_⟩
  rw [toText_of_digits (k := 154) hpower (by decide) (by decide +kernel) (by decide +kernel),
    toText_of_digits (k := 154) hbelow (by decide) (by decide +kernel) (by decide +kernel)]
  decide +kernel

theorem Twins.same {m n : Number} (h : Twins m n) : m.toText = n.toText := by
  obtain ⟨-, -, -, -, h⟩ := h
  exact h

theorem Twins.ne {m n : Number} (h : Twins m n) : m ≠ n := by
  obtain ⟨negative, s, rfl, rfl, -⟩ := h
  intro heq
  exact mantissa_ne_one (Magnitude.mk.inj (Number.finite.inj heq).2).1.symm

theorem Twins.whole {m n : Number} (h : Twins m n) : m.isWhole = true ∧ n.isWhole = true := by
  obtain ⟨negative, s, rfl, rfl, -⟩ := h
  exact ⟨rfl, rfl⟩

end Population.Number

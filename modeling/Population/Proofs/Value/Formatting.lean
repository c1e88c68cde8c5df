import Population.Proofs.Value.Integer

namespace Population

namespace Decimal

theorem searchFrom_units (i : Interval) (places : Nat) (place : Int) : ∃ u p, searchFrom i places place = ofUnits u p := by
  induction places generalizing place with
  | zero => exact ⟨_, _, rfl⟩
  | succ places ih =>
      rw [searchFrom]
      split
      next u _ => exact ⟨u, place, rfl⟩
      next => exact ih (place - 1)

theorem ofUnits_digits {u : Nat} {p : Int} {b : UInt8} (hb : b ∈ (ofUnits u p).digits) : Text.isDigit b = true := by
  obtain ⟨e, -, hdigits⟩ := Text.exists_trimRight (· == 0x30) (Text.ofNat u)
  refine Text.ofNat_digits (n := u) ?_
  rw [hdigits]
  exact List.mem_append_left e hb

theorem mem_zeros {n : Nat} {b : UInt8} (hb : b ∈ zeros n) : b = 0x30 :=
  List.eq_of_mem_replicate hb

theorem mem_positional {d : Decimal} {b : UInt8} (hb : b ∈ d.positional) : b ∈ d.digits ∨ b = 0x30 ∨ b = 0x2e := by
  have hwhole : ∀ b ∈ (if d.point.toNat = 0 then "0" else
      d.digits.take d.point.toNat ++ zeros (d.point.toNat - d.digits.length) : Text), b ∈ d.digits ∨ b = 0x30 ∨ b = 0x2e := by
    intro b hb
    split at hb
    next => exact .inr (.inl (List.mem_singleton.mp hb))
    next =>
        rcases List.mem_append.mp hb with hb | hb
        · exact .inl (List.mem_of_mem_take hb)
        · exact .inr (.inl (mem_zeros hb))
  rw [positional] at hb
  split at hb
  next => exact hwhole b hb
  next =>
      simp only [List.mem_append] at hb
      rcases hb with ((hb | hb) | hb) | hb
      · exact hwhole b hb
      · exact .inr (.inr (List.mem_singleton.mp hb))
      · exact .inr (.inl (mem_zeros hb))
      · exact .inl (List.mem_of_mem_drop hb)

end Decimal

namespace Number

variable {n : Number} {x : Magnitude} {t : Text}

theorem toText_visible (n : Number) : ∀ b ∈ n.toText, Text.isVisible b = true := by
  have hsign (negative : Bool) : ∀ b ∈ sign negative, Text.isVisible b = true := by
    cases negative <;> decide +kernel
  intro b hb
  cases n with
  | zero negative =>
      revert b
      cases negative <;> decide +kernel
  | infinite negative =>
      revert b
      cases negative <;> decide +kernel
  | finite negative x =>
      rcases List.mem_append.mp hb with hb | hb
      · exact hsign negative b hb
      · obtain ⟨u, p, hunits⟩ := Decimal.searchFrom_units (interval x) (precision + 4)
          (Decimal.pointOf (interval x).value (interval x).denominator - 1)
        rw [Decimal.shortest, hunits] at hb
        rcases Decimal.mem_positional hb with hb | rfl | rfl
        · exact Text.isVisible_of_isWord (Text.isWord_of_isDigit (Decimal.ofUnits_digits hb))
        · rfl
        · rfl

theorem whole_lt_of_toInt64? {negative : Bool} {i : Int} (h : x.Sound)
    (hi : toInt64? (.finite negative x) = some i) : 0 ≤ x.exponent ∧ whole x < 2 ^ (precision - 1) := by
  obtain ⟨hint, hmin, hmax⟩ := toInt64?_eq_some_iff.mp hi
  obtain ⟨k, hk, hi⟩ := toInt?_signed hint
  have hsize : i.natAbs = k := hi ▸ natAbs_signed negative k
  obtain ⟨he, rfl⟩ := Magnitude.toNat?_odd h.odd hk
  have hleast : -minInt64 < (2 ^ (precision - 1) : Nat) := by decide +kernel
  have hgreatest := maxInt64_lt
  refine ⟨he, ?_⟩
  rw [whole]
  omega

theorem not_misread_of_toInt64? {negative : Bool} {i : Int} (h : x.Sound)
    (hi : toInt64? (.finite negative x) = some i) : ¬ Misread x := by
  obtain ⟨he, hsmall⟩ := whole_lt_of_toInt64? h hi
  -- What is misread has more bits than are kept.
  obtain ⟨d, htop⟩ := narrow_of_lt h he hsmall
  rintro ⟨s, rfl, -⟩
  rw [top_power] at htop
  omega

/-- An integer of 64 bits has its text for itself. -/
theorem not_blurred_of_toInt64? {i : Int} (h : n.Held) (hi : n.toInt64? = some i) : ¬ n.Blurred := by
  have hlarge {negative : Bool} {m e : Nat} (hn : n = .finite negative ⟨m, e⟩) : m * 2 ^ e < 2 ^ (precision - 1) := by
    subst hn
    cases h with
    | finite h => exact (whole_lt_of_toInt64? h hi).2
  have hhalf : 2 ^ (precision - 1) < 2 ^ precision - 1 := by decide +kernel
  rintro ⟨m, -, ⟨negative, s, hn, -, -⟩ | ⟨negative, s, -, hn, -⟩⟩
  · have hlow : 2 ^ (precision - 1) ≤ 2 ^ (precision + s) := Nat.pow_le_pow_right (by decide) (by omega)
    have := hlarge (e := precision + s) hn
    omega
  · have hlow : 2 ^ precision - 1 ≤ (2 ^ precision - 1) * 2 ^ s := Nat.le_mul_of_pos_right _ (Nat.two_pow_pos s)
    have := hlarge hn
    omega

/-- A number is read from its text, and as itself if it is not misread. -/
theorem parse?_toText_of_parse? (h : parse? t = some n)
    (hfraction : ∀ negative x, n = .finite negative x → x.toNat? = none → parse? n.toText = some n) :
    ∃ m, parse? n.toText = some m ∧ (m = n ↔ ∀ negative x, n = .finite negative x → ¬ Misread x) := by
  cases n with
  | zero negative => exact ⟨.zero negative, by cases negative <;> decide, by simp⟩
  | infinite negative => exact ⟨.infinite negative, by cases negative <;> decide, by simp⟩
  | finite negative x =>
      have hsound := parse?_sound h
      have hstrays : (∀ negative' x', finite negative x = .finite negative' x' → ¬ Misread x') ↔ ¬ Misread x := by
        simp
      rw [hstrays]
      cases hwhole : x.toNat? with
      | none =>
          refine ⟨.finite negative x, hfraction negative x rfl hwhole, iff_of_true rfl ?_⟩
          rintro ⟨s, rfl, -⟩
          cases hwhole
      | some k =>
          obtain ⟨he, -⟩ := Magnitude.toNat?_odd hsound.odd hwhole
          obtain ⟨y, hparse, heq⟩ := parse?_toText hsound he negative
          exact ⟨.finite negative y, hparse, by rw [← heq]; simp⟩

end Number

namespace UiType

variable {u : UiType} {t : Text} {v : Value}

theorem number_ok_iff {n : Number} : number t = .ok n ↔ Number.parse? t = some n := by
  rw [number]
  cases Number.parse? t <;> simp

theorem format_trimmed (ht : t.Trimmed) (h : u.read t = .ok v) : v.format.Trimmed := by
  cases u with
  | string =>
      cases h
      exact ht
  | bool =>
      obtain ⟨b, -, rfl⟩ := map_ok_iff.mp h
      exact Text.trimmed_of_visible (by cases b <;> decide +kernel)
  | float =>
      obtain ⟨n, -, rfl⟩ := map_ok_iff.mp h
      exact Text.trimmed_of_visible (Number.toText_visible n)
  | integer =>
      obtain ⟨n, i, -, -, rfl⟩ := read_integer h
      exact Text.trimmed_of_visible (Number.toText_visible n)

theorem read_format (h : u.read t = .ok v)
    (hfraction : ∀ negative x, v = .number (.finite negative x) → x.toNat? = none →
      Number.parse? v.format = some (.finite negative x)) :
    ∃ w, u.read v.format = .ok w ∧ (u ≠ .float → w = v) ∧
      (w = v ↔ ∀ negative x, v = .number (.finite negative x) → ¬ Number.Misread x) := by
  cases u with
  | string =>
      cases h
      exact ⟨_, rfl, fun _ => rfl, iff_of_true rfl nofun⟩
  | bool =>
      obtain ⟨b, -, rfl⟩ := map_ok_iff.mp h
      exact ⟨.bool b, by cases b <;> rfl, fun _ => rfl, iff_of_true rfl nofun⟩
  | float =>
      obtain ⟨n, hn, rfl⟩ := map_ok_iff.mp h
      obtain ⟨m, hparse, heq⟩ := Number.parse?_toText_of_parse? (number_ok_iff.mp hn) fun negative x hx hnone => by
        subst hx
        exact hfraction negative x rfl hnone
      refine ⟨.number m, map_ok_iff.mpr ⟨m, number_ok_iff.mpr hparse, rfl⟩, fun hne => absurd rfl hne, ?_⟩
      simpa using heq
  | integer =>
      obtain ⟨n, i, hn, hint, rfl⟩ := read_integer h
      obtain ⟨m, hparse, heq⟩ := Number.parse?_toText_of_parse? hn fun negative x hx hnone => by
        subst hx
        exact hfraction negative x rfl hnone
      -- a number of 64 bits is too small to be misread
      have hfair : ∀ negative x, n = .finite negative x → ¬ Number.Misread x := by
        rintro negative x rfl
        exact Number.not_misread_of_toInt64? (Number.parse?_sound hn) hint
      obtain rfl := heq.mpr hfair
      exact ⟨.number m, read_integer_iff.mpr ⟨m, i, hparse, hint, rfl⟩, fun _ => rfl,
        iff_of_true rfl (by simpa using hfair)⟩

end UiType

namespace AppType

variable {type : AppType} {raw : Text} {v : Value}

theorem convert_float (name : Text) {t : Text} {n : Number} (htrim : raw.trim = t) (h : Number.parse? t = some n) :
    convert ⟨name, .float⟩ raw = .ok (.number n) := by
  rw [convert, mapError_ok_iff, htrim]
  exact map_ok_iff.mpr ⟨n, UiType.number_ok_iff.mpr h, rfl⟩

/-- The text of a converted value is converted by the same type. It gives the same value with the same text just if the
value is not misread, as only numbers of a float type are, provided that numbers with binary places are read from their
texts. -/
theorem convert_format (h : type.convert raw = .ok v)
    (hfraction : ∀ negative x, v = .number (.finite negative x) → x.toNat? = none →
      Number.parse? v.format = some (.finite negative x)) :
    ∃ w, type.convert v.format = .ok w ∧ (type.ui ≠ .float → w = v) ∧
      (w = v ∧ w.format = v.format ↔ ∀ negative x, v = .number (.finite negative x) → ¬ Number.Misread x) := by
  have hread := mapError_ok_iff.mp h
  obtain ⟨w, hw, hother, heq⟩ := UiType.read_format hread hfraction
  have htrim := (UiType.format_trimmed (Text.trimmed_trim raw) hread).trim
  refine ⟨w, mapError_ok_iff.mpr (htrim.symm ▸ hw), hother, ?_⟩
  rw [← heq]
  exact ⟨And.left, fun hsame => ⟨hsame, hsame ▸ rfl⟩⟩

/-- Two and a half, with more digits than its text has. -/
theorem convert_format_half :
    ∃ v, convert ⟨"rate", .float⟩ " -02.50" = .ok v ∧ v.format = "-2.5" ∧ convert ⟨"rate", .float⟩ "-2.5" = .ok v := by
  have hread : Number.parse? "-02.50" = some (.finite true ⟨5, -1⟩) := by decide +kernel
  have hformat : Value.format (.number (.finite true ⟨5, -1⟩)) = "-2.5" := by decide +kernel
  have hagain : Number.parse? "-2.5" = some (.finite true ⟨5, -1⟩) := by decide +kernel
  have hconvert := convert_float "rate" (show Text.trim " -02.50" = "-02.50" by decide +kernel) hread
  obtain ⟨w, hw, -, hsame⟩ := convert_format hconvert fun negative x hx _ => by
    cases hx
    rw [hformat, hagain]
  obtain ⟨rfl, -⟩ := hsame.mpr fun negative x hx ⟨s, hpower, _⟩ => by
    cases hx
    cases congrArg Magnitude.mantissa hpower
  rw [hformat] at hw
  exact ⟨_, hconvert, hformat, hw⟩

/-- A power of two whose text is that of the number below it. -/
theorem convert_format_not_same :
    ∃ v w, convert ⟨"rate", .float⟩ "1p513" = .ok v ∧ convert ⟨"rate", .float⟩ v.format = .ok w ∧ w ≠ v := by
  obtain ⟨x, hread, hmisread⟩ : ∃ x, Number.parse? "1p513" = some (.finite false x) ∧ Number.Misread x :=
    ⟨⟨1, 513⟩, by decide +kernel, 1, rfl, by decide +kernel⟩
  have he : 0 ≤ x.exponent := by
    obtain ⟨s, rfl, -⟩ := hmisread
    exact Int.add_nonneg (Int.natCast_nonneg _) (Int.natCast_nonneg _)
  obtain ⟨y, hagain, hsame⟩ := Number.parse?_toText (Number.parse?_sound hread) he false
  refine ⟨_, _, convert_float "rate" (by decide +kernel) hread, convert_float "rate" ?_ hagain, ?_⟩
  · exact (Text.trimmed_of_visible (Number.toText_visible (.finite false x))).trim
  · rintro ⟨⟩
    exact hsame.mp rfl hmisread

end AppType

end Population

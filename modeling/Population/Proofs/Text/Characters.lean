import Population.Text.Symbol

/-!
A character that is decoded is written in the bytes that it was decoded from, so a text is its symbols one after
another; and a character is told from what is behind it.
-/
namespace Population

namespace Symbol

def bytes : Symbol → Text
  | .char c => Text.ofChar c
  | .stray b => [b]

/-- A stray byte is none of ASCII. -/
def Proper : Symbol → Prop
  | .char _ => True
  | .stray b => 0x80 ≤ b.toNat

end Symbol

namespace Text

variable {a b : UInt8} {c : Char} {n code : Nat} {rest r r' : Text}

theorem toNat_ofNat (h : n.isValidChar) : (Char.ofNat n).toNat = n := by
  have hchar : Char.ofNat n = Char.ofNatAux n h := dif_pos h
  exact (congrArg Char.toNat hchar).trans (BitVec.toNat_ofNatLT ..)

theorem eq_ofNat (h : a.toNat = n) : a = UInt8.ofNat n := by
  subst h
  exact UInt8.ofNat_toNat.symm

theorem continuation?_eq_some (h : continuation? b = some n) : b.toNat = n + 0x80 ∧ n < 0x40 := by
  rw [continuation?] at h
  split at h
  next hb =>
      simp only [UInt8.le_iff_toNat_le, UInt8.reduceToNat, Bool.and_eq_true, decide_eq_true_eq] at hb
      obtain rfl := Option.some.inj h
      omega
  next => cases h

theorem ofChar_one (h : a < 0x80) : ofChar (Char.ofNat a.toNat) = [a] := by
  have h : a.toNat < 0x80 := h
  have hcode : (Char.ofNat a.toNat).val.toNat = a.toNat := toNat_ofNat (.inl (by omega))
  rw [ofChar, String.utf8EncodeChar, hcode, if_pos (by omega), UInt8.ofNat_toNat]

theorem ofChar_two (h : two? a b = some code) : ofChar (Char.ofNat code) = [a, b] := by
  obtain ⟨y, hy, h⟩ := Option.bind_eq_some_iff.mp h
  obtain ⟨hb, hy⟩ := continuation?_eq_some hy
  split at h
  next ha =>
      simp only [UInt8.le_iff_toNat_le, UInt8.reduceToNat, Bool.and_eq_true, decide_eq_true_eq] at ha
      obtain rfl := Option.some.inj h
      have hcode : (Char.ofNat ((a.toNat - 0xc0) * 64 + y)).val.toNat = (a.toNat - 0xc0) * 64 + y :=
        toNat_ofNat (.inl (by omega))
      rw [ofChar, String.utf8EncodeChar, hcode]
      rw [if_neg (by omega), if_pos (by omega), ← eq_ofNat (a := a) (by omega), ← eq_ofNat (a := b) (by omega)]
  next => cases h

theorem ofChar_three {d : UInt8} (h : three? a b d = some code) : ofChar (Char.ofNat code) = [a, b, d] := by
  obtain ⟨y, hy, h⟩ := Option.bind_eq_some_iff.mp h
  obtain ⟨z, hz, h⟩ := Option.bind_eq_some_iff.mp h
  obtain ⟨hb, hy⟩ := continuation?_eq_some hy
  obtain ⟨hd, hz⟩ := continuation?_eq_some hz
  dsimp only at h
  split at h
  next ha =>
      simp only [UInt8.le_iff_toNat_le, UInt8.reduceToNat, Bool.not_and, Bool.and_eq_true, decide_eq_true_eq,
        Bool.or_eq_true, Bool.not_eq_eq_eq_not, Bool.not_true, decide_eq_false_iff_not, Nat.not_le] at ha
      obtain rfl := Option.some.inj h
      have hvalid : (((a.toNat - 0xe0) * 64 + y) * 64 + z).isValidChar := by
        rw [Nat.isValidChar]
        omega
      have hcode : (Char.ofNat (((a.toNat - 0xe0) * 64 + y) * 64 + z)).val.toNat = ((a.toNat - 0xe0) * 64 + y) * 64 + z :=
        toNat_ofNat hvalid
      rw [ofChar, String.utf8EncodeChar, hcode]
      rw [if_neg (by omega), if_neg (by omega), if_pos (by omega), ← eq_ofNat (a := a) (by omega),
        ← eq_ofNat (a := b) (by omega), ← eq_ofNat (a := d) (by omega)]
  next => cases h

theorem ofChar_four {d e : UInt8} (h : four? a b d e = some code) : ofChar (Char.ofNat code) = [a, b, d, e] := by
  obtain ⟨x, hx, h⟩ := Option.bind_eq_some_iff.mp h
  obtain ⟨y, hy, h⟩ := Option.bind_eq_some_iff.mp h
  obtain ⟨z, hz, h⟩ := Option.bind_eq_some_iff.mp h
  obtain ⟨hb, hx⟩ := continuation?_eq_some hx
  obtain ⟨hd, hy⟩ := continuation?_eq_some hy
  obtain ⟨he, hz⟩ := continuation?_eq_some hz
  dsimp only at h
  split at h
  next ha =>
      simp only [UInt8.le_iff_toNat_le, UInt8.reduceToNat, Bool.and_eq_true, decide_eq_true_eq] at ha
      obtain rfl := Option.some.inj h
      have hvalid : ((((a.toNat - 0xf0) * 64 + x) * 64 + y) * 64 + z).isValidChar := by
        rw [Nat.isValidChar]
        omega
      have hcode : (Char.ofNat ((((a.toNat - 0xf0) * 64 + x) * 64 + y) * 64 + z)).val.toNat =
          (((a.toNat - 0xf0) * 64 + x) * 64 + y) * 64 + z := toNat_ofNat hvalid
      rw [ofChar, String.utf8EncodeChar, hcode]
      rw [if_neg (by omega), if_neg (by omega), if_neg (by omega), ← eq_ofNat (a := a) (by omega),
        ← eq_ofNat (a := b) (by omega), ← eq_ofNat (a := d) (by omega), ← eq_ofNat (a := e) (by omega)]
  next => cases h

theorem decode?_eq_some (h : decode? (a :: rest) = some (c, n)) : a :: rest = ofChar c ++ rest.drop n := by
  -- by the number of bytes, as the decoder looks for one more only if there are too few
  rw [decode?.eq_def] at h
  dsimp only at h
  split at h
  next ha =>
      cases h
      rw [ofChar_one ha]
      rfl
  split at h
  next => cases h
  next b rest =>
      split at h
      next code htwo =>
          cases h
          rw [ofChar_two htwo]
          rfl
      split at h
      next => cases h
      next d rest =>
          split at h
          next code hthree =>
              cases h
              rw [ofChar_three hthree]
              rfl
          split at h
          next => cases h
          next e rest =>
              obtain ⟨code, hfour, h⟩ := Option.map_eq_some_iff.mp h
              cases h
              rw [ofChar_four hfour]
              rfl

theorem le_of_decode?_eq_none (h : decode? (a :: rest) = none) : 0x80 ≤ a.toNat := by
  rw [decode?.eq_def] at h
  dsimp only at h
  split at h
  next => cases h
  next ha => simpa [UInt8.lt_iff_toNat_lt] using ha

theorem symbolsFrom_bytes (seen : List Symbol) (t : Text) :
    (symbolsFrom seen t).flatMap Symbol.bytes = seen.reverse.flatMap Symbol.bytes ++ t := by
  fun_induction symbolsFrom seen t with
  | case1 seen => simp
  | case2 seen a rest c n hdecode ih => simp [ih, Symbol.bytes, decode?_eq_some hdecode]
  | case3 seen a rest hdecode ih => simp [ih, Symbol.bytes]

theorem symbols_bytes (t : Text) : t.symbols.flatMap Symbol.bytes = t :=
  symbolsFrom_bytes [] t

theorem symbols_injective {s t : Text} (h : s.symbols = t.symbols) : s = t := by
  rw [← symbols_bytes s, h, symbols_bytes]

theorem symbolsFrom_proper {seen : List Symbol} (h : ∀ s ∈ seen, s.Proper) (t : Text) :
    ∀ s ∈ symbolsFrom seen t, s.Proper := by
  fun_induction symbolsFrom seen t with
  | case1 seen => exact fun s hs => h s (List.mem_reverse.mp hs)
  | case2 seen a rest c n hdecode ih => exact ih (List.forall_mem_cons.mpr ⟨trivial, h⟩)
  | case3 seen a rest hdecode ih => exact ih (List.forall_mem_cons.mpr ⟨le_of_decode?_eq_none hdecode, h⟩)

theorem symbols_proper (t : Text) : ∀ s ∈ t.symbols, s.Proper :=
  symbolsFrom_proper (fun _ hs => absurd hs List.not_mem_nil) t

theorem ofChar_ne_nil (c : Char) : ofChar c ≠ [] :=
  String.utf8EncodeChar_ne_nil

/-- No character is written in the first bytes of another one. -/
theorem ofChar_cut {c' : Char} (h : ofChar c ++ r = ofChar c' ++ r') : c = c' ∧ r = r' := by
  have hdecode (c : Char) (r : Text) : (ofChar c ++ r).toByteArray.utf8DecodeChar? 0 = some c := by
    rw [List.toByteArray_append]
    exact ByteArray.utf8DecodeChar?_utf8EncodeChar_append
  obtain rfl : c = c' := Option.some.inj ((hdecode c r).symm.trans (h ▸ hdecode c' r'))
  exact ⟨rfl, List.append_cancel_left h⟩

theorem ofChar_ascii (hb : b ∈ ofChar c) (h : b.toNat < 0x80) : ofChar c = [b] ∧ c.toNat = b.toNat := by
  have hhigh {k : Nat} (hk : k < 256) (hb : b = UInt8.ofNat k) : k < 0x80 := by
    rw [hb, UInt8.toNat_ofNat_of_lt' hk] at h
    exact h
  rw [ofChar, String.utf8EncodeChar] at hb ⊢
  split at hb
  next hsmall =>
      obtain rfl := List.mem_singleton.mp hb
      exact ⟨by rw [if_pos hsmall], (UInt8.toNat_ofNat_of_lt' (show c.val.toNat < 256 by omega)).symm⟩
  next =>
      -- Every byte of a longer form has its highest bit.
      exfalso
      split at hb
      next =>
          simp only [List.mem_cons, List.not_mem_nil, or_false] at hb
          rcases hb with hb | hb <;> have := hhigh (by omega) hb <;> omega
      next =>
          split at hb <;> simp only [List.mem_cons, List.not_mem_nil, or_false] at hb
          · rcases hb with hb | hb | hb <;> have := hhigh (by omega) hb <;> omega
          · rcases hb with hb | hb | hb | hb <;> have := hhigh (by omega) hb <;> omega

end Text

end Population

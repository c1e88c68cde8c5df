import Mathlib.Algebra.Group.Nat.Defs
import Mathlib.Data.List.Induction
import Population.Text.Basic

namespace Population.Text

def digit (d : Nat) : UInt8 :=
  (0x30 + d).toUInt8

theorem toNat_digit {d : Nat} (h : d < 10) : (digit d).toNat = 0x30 + d := by
  rw [digit, Nat.toUInt8, UInt8.toNat_ofNat_of_lt']
  change 0x30 + d < 256
  omega

theorem ofNat_eq (n : Nat) : ofNat n = if n < 10 then [digit n] else ofNat (n / 10) ++ [digit (n % 10)] := by
  have hrepr (k : Nat) : ofNat k = (Nat.toDigits 10 k).flatMap String.utf8EncodeChar := by
    rw [ofNat, ofString, Nat.repr, String.toByteArray_ofList, List.utf8Encode, List.data_toByteArray]
  have hdigit : ∀ d < 10, String.utf8EncodeChar d.digitChar = [digit d] := by decide
  rw [hrepr]
  split
  next h => rw [Nat.toDigits_of_lt_base h, List.flatMap_singleton, hdigit n h]
  next h =>
      rw [Nat.toDigits_of_base_le (by decide) (Nat.le_of_not_lt h), List.flatMap_append, ← hrepr, List.flatMap_singleton,
        hdigit _ (Nat.mod_lt n (by decide))]

theorem ofNat_of_lt {n : Nat} (h : n < 10) : ofNat n = [digit n] := by
  rw [ofNat_eq, if_pos h]

theorem ofNat_snoc {n d : Nat} (hn : 0 < n) (hd : d < 10) : ofNat (10 * n + d) = ofNat n ++ [digit d] := by
  rw [ofNat_eq, if_neg (by omega), show (10 * n + d) / 10 = n by omega, show (10 * n + d) % 10 = d by omega]

theorem digitsToNat_snoc (t : Text) (b : UInt8) : digitsToNat (t ++ [b]) = 10 * digitsToNat t + (b.toNat - 0x30) := by
  rw [digitsToNat, List.foldl_append]
  rfl

theorem digitsToNat_ofNat (n : Nat) : digitsToNat (ofNat n) = n := by
  induction n using Nat.strongRecOn with
  | ind n ih =>
      rw [ofNat_eq]
      split
      next h =>
          change 10 * 0 + ((digit n).toNat - 0x30) = n
          rw [toNat_digit h]
          omega
      next h =>
          rw [digitsToNat_snoc, ih (n / 10) (by omega), toNat_digit (Nat.mod_lt n (by decide))]
          omega

theorem isDigit_iff {b : UInt8} : isDigit b = true ↔ 0x30 ≤ b.toNat ∧ b.toNat ≤ 0x39 := by
  rw [isDigit, Bool.and_eq_true, decide_eq_true_eq, decide_eq_true_eq, UInt8.le_iff_toNat_le, UInt8.le_iff_toNat_le]
  rfl

theorem isDigit_digit {d : Nat} (h : d < 10) : isDigit (digit d) = true := by
  rw [isDigit_iff, toNat_digit h]
  omega

theorem ofNat_digits {n : Nat} {b : UInt8} (hb : b ∈ ofNat n) : isDigit b = true := by
  induction n using Nat.strongRecOn with
  | ind n ih =>
      rw [ofNat_eq] at hb
      split at hb
      next h =>
          rw [List.mem_singleton.mp hb]
          exact isDigit_digit h
      next h =>
          rcases List.mem_append.mp hb with hb | hb
          · exact ih (n / 10) (by omega) hb
          · rw [List.mem_singleton.mp hb]
            exact isDigit_digit (Nat.mod_lt n (by decide))

theorem ofNat_ne_nil (n : Nat) : ofNat n ≠ [] := by
  rw [ofNat_eq]
  split <;> simp

theorem ofNat_mul_pow {n : Nat} (hn : 0 < n) (p : Nat) : ofNat (n * 10 ^ p) = ofNat n ++ List.replicate p 0x30 := by
  induction p with
  | zero => simp
  | succ p ih =>
      have hstep : n * 10 ^ (p + 1) = 10 * (n * 10 ^ p) + 0 := by
        rw [Nat.pow_succ, ← Nat.mul_assoc, Nat.mul_comm, Nat.add_zero]
      rw [hstep, ofNat_snoc (Nat.mul_pos hn (Nat.pow_pos (by decide))) (by decide), ih, List.replicate_succ',
        List.append_assoc]
      rfl

/-- Digits without the zeros in front, of which one stays if there is no other digit. -/
def trimZeros (t : Text) : Text :=
  let rest := t.dropWhile (· == 0x30)
  if rest.isEmpty then [0x30] else rest

theorem trimZeros_of_zeros {t : Text} (h : t.dropWhile (· == 0x30) = []) (b : UInt8) : trimZeros (t ++ [b]) = [b] := by
  rw [trimZeros, List.dropWhile_append, h, List.isEmpty_nil, if_pos rfl]
  by_cases hb : b = 0x30
  · rw [hb]
    rfl
  · rw [List.dropWhile_cons_of_neg (by simpa using hb)]
    rfl

theorem trimZeros_of_not_zeros {t : Text} (h : t.dropWhile (· == 0x30) ≠ []) :
    trimZeros t = t.dropWhile (· == 0x30) :=
  if_neg (by simpa using h)

theorem ofNat_digitsToNat {t : Text} (h : ∀ b ∈ t, isDigit b = true) : ofNat (digitsToNat t) = trimZeros t := by
  induction t using List.reverseRecOn with
  | nil => rfl
  | append_singleton t b ih =>
      obtain ⟨hlow, hhigh⟩ := isDigit_iff.mp (h b (by simp))
      have ih := ih fun c hc => h c (List.mem_append_left _ hc)
      have hdigit : digit (b.toNat - 0x30) = b := by
        apply UInt8.toNat_inj.mp
        rw [toNat_digit (by omega)]
        omega
      rw [digitsToNat_snoc]
      by_cases hzeros : t.dropWhile (· == 0x30) = []
      · have hzero : digitsToNat t = 0 := by
          rw [← digitsToNat_ofNat (digitsToNat t), ih, trimZeros, hzeros]
          rfl
        rw [hzero, Nat.mul_zero, Nat.zero_add, ofNat_of_lt (by omega), hdigit, trimZeros_of_zeros hzeros]
      · have hpos : 0 < digitsToNat t := by
          rw [Nat.pos_iff_ne_zero]
          intro hzero
          rw [hzero, trimZeros_of_not_zeros hzeros] at ih
          have hhead := List.head_dropWhile_not (· == 0x30) hzeros
          simp only [← ih] at hhead
          cases hhead
        have hrest : (t ++ [b]).dropWhile (· == 0x30) = t.dropWhile (· == 0x30) ++ [b] := by
          rw [List.dropWhile_append, if_neg (by simpa using hzeros)]
        rw [ofNat_snoc hpos (by omega), ih, hdigit, trimZeros_of_not_zeros hzeros, trimZeros_of_not_zeros (by simp [hrest]),
          hrest]

end Population.Text

import Mathlib.Algebra.Group.Nat.Defs
import Population.Proofs.Text.Characters
import Population.Text.Quoted

/-!
A symbol is written as itself or behind a backslash, as a letter and as many digits as the letter asks for; so it is
read back from what it is written as, and a quoted text ends at the first double quote that stands for no symbol.
-/
namespace Population.Text

variable {c : Char} {s s' : Symbol} {r r' : Text}

theorem hexDigit_injective : ∀ d < 16, ∀ d' < 16, hexDigit d = hexDigit d' → d = d' := by
  decide

theorem hexDigit_isWord : ∀ d < 16, isWord (hexDigit d) = true := by
  decide

theorem length_hex (width n : Nat) : (hex width n).length = width := by
  induction width generalizing n with
  | zero => rfl
  | succ width ih => rw [hex, List.length_append, ih, List.length_singleton]

theorem hex_isWord {b : UInt8} {width n : Nat} (h : b ∈ hex width n) : isWord b = true := by
  induction width generalizing n with
  | zero => cases h
  | succ width ih =>
      rcases List.mem_append.mp h with h | h
      · exact ih h
      · obtain rfl := List.mem_singleton.mp h
        exact hexDigit_isWord _ (Nat.mod_lt _ (by decide))

theorem hex_injective {width n m : Nat} (hn : n < 16 ^ width) (hm : m < 16 ^ width) (h : hex width n = hex width m) :
    n = m := by
  induction width generalizing n m with
  | zero => omega
  | succ width ih =>
      rw [Nat.pow_succ] at hn hm
      obtain ⟨hfront, hlast⟩ := List.append_inj h (by rw [length_hex, length_hex])
      have hdiv := ih (Nat.div_lt_of_lt_mul (by omega)) (Nat.div_lt_of_lt_mul (by omega)) hfront
      have hmod := hexDigit_injective _ (Nat.mod_lt n (by decide)) _ (Nat.mod_lt m (by decide)) (List.cons.inj hlast).1
      omega

def escapeWidth (letter : UInt8) : Nat :=
  if letter = 0x78 then 2 else if letter = 0x75 then 4 else if letter = 0x55 then 8 else 0

def unescape (letter : UInt8) (n : Nat) : Symbol :=
  match letter with
  | 0x61 => .char '\x07'
  | 0x62 => .char '\x08'
  | 0x66 => .char '\x0c'
  | 0x6e => .char '\x0a'
  | 0x72 => .char '\x0d'
  | 0x74 => .char '\x09'
  | 0x76 => .char '\x0b'
  | 0x78 => if n < 0x80 then .char (Char.ofNat n) else .stray (UInt8.ofNat n)
  | 0x75 => .char (Char.ofNat n)
  | 0x55 => .char (Char.ofNat n)
  | _ => .char (Char.ofNat letter.toNat)

/-- A symbol is written as a letter behind a backslash, with its number where the letter asks for one. -/
def Escapes (s : Symbol) : Prop :=
  ∃ letter n, escapeSymbol s = 0x5c :: letter :: hex (escapeWidth letter) n ∧ n < 16 ^ escapeWidth letter ∧
    letter ≠ 0x0a ∧ unescape letter n = s

theorem escapes_code (c : Char) (h : escapeChar c = codeEscape c) : Escapes (.char c) := by
  have hvalid : c.toNat < 0x110000 := by
    have := c.valid
    rw [UInt32.isValidChar, Nat.isValidChar] at this
    change c.val.toNat < _
    omega
  rw [Escapes, escapeSymbol, h, codeEscape]
  split
  next hsmall =>
      have hsmall : c.toNat < 0x80 := by
        rw [Bool.or_eq_true, decide_eq_true_eq, beq_iff_eq] at hsmall
        omega
      refine ⟨0x78, c.toNat, rfl, by change _ < 256; omega, by decide, ?_⟩
      rw [unescape, if_pos hsmall, Char.ofNat_toNat]
  next =>
      split
      next hshort =>
          refine ⟨0x75, c.toNat, rfl, hshort, by decide, ?_⟩
          rw [unescape, Char.ofNat_toNat]
      next =>
          refine ⟨0x55, c.toNat, rfl, by change _ < 4294967296; omega, by decide, ?_⟩
          rw [unescape, Char.ofNat_toNat]

theorem escapes_letter {letter : Char} (h : controlLetter? c = some letter) : Escapes (.char c) := by
  rw [controlLetter?.eq_def] at h
  split at h
  next => exact ⟨0x61, 0, by decide, by decide, by decide, rfl⟩
  next => exact ⟨0x62, 0, by decide, by decide, by decide, rfl⟩
  next => exact ⟨0x66, 0, by decide, by decide, by decide, rfl⟩
  next => exact ⟨0x6e, 0, by decide, by decide, by decide, rfl⟩
  next => exact ⟨0x72, 0, by decide, by decide, by decide, rfl⟩
  next => exact ⟨0x74, 0, by decide, by decide, by decide, rfl⟩
  next => exact ⟨0x76, 0, by decide, by decide, by decide, rfl⟩
  next => cases h

/-- A symbol is written as itself, or escaped if it is a quote, a backslash or nothing that can be shown. -/
theorem escapeSymbol_cases (h : s.Proper) :
    (∃ c, s = .char c ∧ escapeSymbol s = ofChar c ∧ c ≠ '"' ∧ c ≠ '\\' ∧ c ≠ '\n') ∨ Escapes s := by
  cases s with
  | stray b =>
      refine .inr ⟨0x78, b.toNat, rfl, b.toNat_lt, by decide, ?_⟩
      rw [unescape, if_neg (Nat.not_lt.mpr h), UInt8.ofNat_toNat]
  | char c =>
      by_cases hquote : c = '"'
      · subst hquote
        exact .inr ⟨0x22, 0, by decide, by decide, by decide, rfl⟩
      by_cases hslash : c = '\\'
      · subst hslash
        exact .inr ⟨0x5c, 0, by decide, by decide, by decide, rfl⟩
      cases hshown : isPrintable c with
      | true =>
          refine .inl ⟨c, rfl, by simp [escapeSymbol, escapeChar, hquote, hslash, hshown], hquote, hslash, ?_⟩
          rintro rfl
          exact absurd hshown (by decide)
      | false =>
          cases hletter : controlLetter? c with
          | some letter => exact .inr (escapes_letter hletter)
          | none => exact .inr (escapes_code c (by simp [escapeChar, hquote, hslash, hshown, hletter]))

theorem ofChar_ne_cons {b : UInt8} (hb : b.toNat < 0x80) (hc : c.toNat ≠ b.toNat) : ofChar c ++ r ≠ b :: r' := by
  intro h
  obtain ⟨first, rest, hchar⟩ := List.exists_cons_of_ne_nil (ofChar_ne_nil c)
  rw [hchar, List.cons_append] at h
  obtain rfl := (List.cons.inj h).1
  exact hc (ofChar_ascii (hchar ▸ List.mem_cons_self) hb).2

theorem toNat_ne {c c' : Char} (h : c ≠ c') : c.toNat ≠ c'.toNat :=
  fun heq => h (Char.toNat_inj.mp heq)

/-- What a symbol is written as is no part of what another one is written as. -/
theorem escapeSymbol_cut (hs : s.Proper) (hs' : s'.Proper) (h : escapeSymbol s ++ r = escapeSymbol s' ++ r') :
    s = s' ∧ r = r' := by
  rcases escapeSymbol_cases hs with ⟨c, rfl, hplain, -, hslash, -⟩ | ⟨letter, n, hescaped, hn, -, hread⟩ <;>
    rcases escapeSymbol_cases hs' with ⟨c', rfl, hplain', -, hslash', -⟩ | ⟨letter', n', hescaped', hn', -, hread'⟩
  · rw [hplain, hplain'] at h
    exact (ofChar_cut h).imp_left (congrArg Symbol.char)
  · rw [hplain, hescaped'] at h
    exact absurd h (ofChar_ne_cons (by decide) (toNat_ne hslash))
  · rw [hescaped, hplain'] at h
    exact absurd h.symm (ofChar_ne_cons (by decide) (toNat_ne hslash'))
  · rw [hescaped, hescaped', List.cons_append, List.cons_append, List.cons_append, List.cons_append] at h
    obtain ⟨rfl, h⟩ := List.cons.inj (List.cons.inj h).2
    obtain ⟨hdigits, hrest⟩ := List.append_inj h (by rw [length_hex, length_hex])
    obtain rfl := hex_injective hn hn' hdigits
    exact ⟨hread.symm.trans hread', hrest⟩

theorem escapeSymbol_ne_quote (hs : s.Proper) : escapeSymbol s ++ r ≠ 0x22 :: r' := by
  rcases escapeSymbol_cases hs with ⟨c, rfl, hplain, hquote, -, -⟩ | ⟨letter, n, hescaped, -, -, -⟩
  · rw [hplain]
    exact ofChar_ne_cons (by decide) (toNat_ne hquote)
  · rw [hescaped]
    exact fun h => absurd (List.cons.inj h).1 (by decide)

theorem escapes_cut {ss ss' : List Symbol} (hss : ∀ s ∈ ss, s.Proper) (hss' : ∀ s ∈ ss', s.Proper)
    (h : ss.flatMap escapeSymbol ++ 0x22 :: r = ss'.flatMap escapeSymbol ++ 0x22 :: r') : ss = ss' ∧ r = r' := by
  induction ss generalizing ss' with
  | nil =>
      cases ss' with
      | nil => exact ⟨rfl, (List.cons.inj h).2⟩
      | cons s' ss' =>
          rw [List.flatMap_cons, List.append_assoc] at h
          exact absurd h.symm (escapeSymbol_ne_quote (hss' s' List.mem_cons_self))
  | cons s ss ih =>
      obtain ⟨hs, hss⟩ := List.forall_mem_cons.mp hss
      cases ss' with
      | nil =>
          rw [List.flatMap_cons, List.append_assoc] at h
          exact absurd h (escapeSymbol_ne_quote hs)
      | cons s' ss' =>
          obtain ⟨hs', hall'⟩ := List.forall_mem_cons.mp hss'
          rw [List.flatMap_cons, List.flatMap_cons, List.append_assoc, List.append_assoc] at h
          obtain ⟨rfl, hrest⟩ := escapeSymbol_cut hs hs' h
          exact (ih hss hall' hrest).imp_left (congrArg (s :: ·))

theorem quoted_cut {t t' : Text} (h : t.quoted ++ r = t'.quoted ++ r') : t = t' ∧ r = r' := by
  have hquoted (t r : Text) : t.quoted ++ r = 0x22 :: (t.symbols.flatMap escapeSymbol ++ 0x22 :: r) := by
    rw [quoted, List.append_assoc, List.append_assoc]
    rfl
  rw [hquoted, hquoted] at h
  obtain ⟨hsymbols, hrest⟩ := escapes_cut (symbols_proper t) (symbols_proper t') (List.cons.inj h).2
  exact ⟨symbols_injective hsymbols, hrest⟩

theorem quoted_injective {t t' : Text} (h : t.quoted = t'.quoted) : t = t' :=
  (quoted_cut (congrArg (· ++ []) h)).1

theorem escapeSymbol_feedless (hs : s.Proper) : 0x0a ∉ escapeSymbol s := by
  rcases escapeSymbol_cases hs with ⟨c, rfl, hplain, -, -, hfeed⟩ | ⟨letter, n, hescaped, -, hfeed, -⟩
  · rw [hplain]
    exact fun hmem => toNat_ne hfeed (ofChar_ascii hmem (by decide)).2
  · rw [hescaped]
    intro hmem
    rcases List.mem_cons.mp hmem with h | hmem
    · exact absurd h (by decide)
    rcases List.mem_cons.mp hmem with h | hmem
    · exact hfeed h.symm
    · exact absurd (hex_isWord hmem) (by decide)

theorem quoted_feedless (t : Text) : 0x0a ∉ t.quoted := by
  rw [quoted]
  intro hmem
  rcases List.mem_append.mp hmem with hmem | hmem
  · rcases List.mem_append.mp hmem with hmem | hmem
    · exact absurd hmem (by decide)
    · obtain ⟨s, hs, hmem⟩ := List.mem_flatMap.mp hmem
      exact escapeSymbol_feedless (symbols_proper t s hs) hmem
  · exact absurd hmem (by decide)

end Population.Text

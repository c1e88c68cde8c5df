import Mathlib.Data.List.Basic
import Population.Text.Blank

namespace Population.Text

def AllSpace (t : Text) : Prop :=
  ∀ b ∈ t, isSpace b = true

/-- Whether a text starts and ends with a word byte. -/
structure Bounded (t : Text) : Prop where
  first : ∃ b ∈ t.head?, isWord b = true
  last : ∃ b ∈ t.getLast?, isWord b = true

theorem allSpace_nil : AllSpace [] :=
  fun _ hb => nomatch hb

theorem isSpace_cases {b : UInt8} (h : isSpace b = true) :
    b = 0x20 ∨ b = 0x09 ∨ b = 0x0a ∨ b = 0x0c ∨ b = 0x0d := by
  simpa [isSpace, or_assoc] using h

theorem isSpace_eq_false_of_isWord {b : UInt8} (h : isWord b = true) : isSpace b = false := by
  rw [Bool.eq_false_iff]
  intro hspace
  rcases isSpace_cases hspace with rfl | rfl | rfl | rfl | rfl <;> revert h <;> decide

theorem Bounded.first_not_space {t : Text} (h : t.Bounded) : ∀ b ∈ t.head?, isSpace b = false := by
  obtain ⟨b, hb, hword⟩ := h.first
  intro c hc
  rw [Option.mem_unique hc hb]
  exact isSpace_eq_false_of_isWord hword

theorem Bounded.last_not_space {t : Text} (h : t.Bounded) : ∀ b ∈ t.getLast?, isSpace b = false := by
  obtain ⟨b, hb, hword⟩ := h.last
  intro c hc
  rw [Option.mem_unique hc hb]
  exact isSpace_eq_false_of_isWord hword

theorem Bounded.ne_nil {t : Text} (h : t.Bounded) : t ≠ [] := by
  rintro rfl
  obtain ⟨b, hb, -⟩ := h.first
  cases hb

theorem Bounded.append {s t : Text} (hs : s.Bounded) (u : Text) (ht : t.Bounded) : (s ++ (u ++ t)).Bounded where
  first := by
    obtain ⟨b, hb, hword⟩ := hs.first
    exact ⟨b, List.mem_head?_append_of_mem_head? hb, hword⟩
  last := by
    rw [← List.append_assoc, List.getLast?_append_of_ne_nil _ ht.ne_nil]
    exact ht.last

/-- A text is cut at one byte of a kind only, if as many bytes of that kind are to follow. -/
theorem cut_of_countP_right {k : UInt8 → Bool} {u u' y y' : Text} {b b' : UInt8} (hb : k b = true)
    (hb' : k b' = true) (hcount : y.countP k = y'.countP k) (h : u ++ b :: y = u' ++ b' :: y') :
    u = u' ∧ b = b' ∧ y = y' := by
  rcases List.append_eq_append_iff.mp h with ⟨a, rfl, ha⟩ | ⟨a, rfl, ha⟩
  · cases a with
    | nil => simpa using ha
    | cons c a =>
        obtain ⟨rfl, rfl⟩ := List.cons.inj ha
        simp [hb'] at hcount
        omega
  · cases a with
    | nil => simpa [eq_comm] using ha
    | cons c a =>
        obtain ⟨rfl, rfl⟩ := List.cons.inj ha
        simp [hb] at hcount
        omega

theorem cut_of_countP_left {k : UInt8 → Bool} {u u' y y' : Text} {b b' : UInt8} (hb : k b = true)
    (hb' : k b' = true) (hcount : u.countP k = u'.countP k) (h : u ++ b :: y = u' ++ b' :: y') :
    u = u' ∧ b = b' ∧ y = y' := by
  refine cut_of_countP_right hb hb' ?_ h
  have htotal := congrArg (List.countP k) h
  simp only [List.countP_append, List.countP_cons, hb, hb', if_true] at htotal
  omega

/-- A run of bytes of a kind in front of a text ends where the text starts. -/
theorem cut_of_run {k : UInt8 → Bool} {s s' y y' : Text} (hs : ∀ b ∈ s, k b = true) (hs' : ∀ b ∈ s', k b = true)
    (hy : ∀ b ∈ y.head?, k b = false) (hy' : ∀ b ∈ y'.head?, k b = false) (h : s ++ y = s' ++ y') :
    s = s' ∧ y = y' := by
  rcases List.append_eq_append_iff.mp h with ⟨a, rfl, rfl⟩ | ⟨a, rfl, rfl⟩
  · cases a with
    | nil => simp
    | cons c a =>
        have hc := hs' c (by simp)
        rw [hy c (by simp)] at hc
        cases hc
  · cases a with
    | nil => simp
    | cons c a =>
        have hc := hs c (by simp)
        rw [hy' c (by simp)] at hc
        cases hc

theorem word_cut {s s' y y' : Text} {b : UInt8} (hs : ∀ b ∈ s, isWord b = true) (hs' : ∀ b ∈ s', isWord b = true)
    (hb : isWord b = false) (h : s ++ b :: y = s' ++ b :: y') : s = s' ∧ y = y' := by
  have hstop (y : Text) : ∀ d ∈ (b :: y : Text).head?, isWord d = false := fun d hd => Option.some.inj hd ▸ hb
  exact (cut_of_run hs hs' (hstop y) (hstop y') h).imp_right fun h => (List.cons.inj h).2

theorem AllSpace.dropWhile {s m : Text} (hs : s.AllSpace) (hm : ∀ b ∈ m.head?, isSpace b = false) :
    (s ++ m).dropWhile isSpace = m := by
  rw [List.dropWhile_append_of_pos hs]
  cases m with
  | nil => rfl
  | cons b m =>
      have hb : ¬ isSpace b = true := by simpa using hm b rfl
      rw [List.dropWhile_cons_of_neg hb]

/-- White space behind a text starts no earlier than where the text ends. -/
theorem eq_append_of_space {t t' s s' : Text} (ht : ∀ b ∈ t.getLast?, isSpace b = false) (hs : s.AllSpace)
    (h : t' ++ s = t ++ s') : ∃ a, t' = t ++ a ∧ s' = a ++ s := by
  rcases List.append_eq_append_iff.mp h with ⟨a, rfl, rfl⟩ | ⟨a, rfl, rfl⟩
  · rcases List.eq_nil_or_concat a with rfl | ⟨a, c, rfl⟩
    · exact ⟨[], by simp, by simp⟩
    · have hc := hs c (by simp)
      rw [ht c (by simp)] at hc
      cases hc
  · exact ⟨a, rfl, rfl⟩

theorem blankCodes_head : ∀ code ∈ blankCodes ++ blankCodesReversed, code.head?.any (!isWord ·) = true :=
  List.all_eq_true.mp rfl

theorem strip_of_isWord {codes : List Text} (hcodes : ∀ code ∈ codes, code.head?.any (!isWord ·) = true) {b : UInt8}
    (hb : isWord b = true) (t : Text) : strip codes (b :: t) = b :: t := by
  have hdrop : dropCode? codes (b :: t) = none := by
    refine List.findSome?_eq_none_iff.mpr fun code hcode => ?_
    have hany := hcodes code hcode
    cases code with
    | nil => cases hany
    | cons x rest =>
        have hne : x ≠ b := by
          rintro rfl
          simp [hb] at hany
        simp [hne]
  rw [strip, hdrop]

/-- The codes of the blanks of one byte, which come first and are the same from front to back and from back to front. -/
def asciiBlanks : List Text :=
  [[0x20], [0x09], [0x0a], [0x0b], [0x0c], [0x0d]]

theorem blankCodes_take : blankCodes.take 6 = asciiBlanks ∧ blankCodesReversed.take 6 = asciiBlanks :=
  ⟨rfl, rfl⟩

theorem dropCode?_of_isSpace {codes : List Text} (hcodes : codes.take 6 = asciiBlanks) {b : UInt8}
    (hb : isSpace b = true) (t : Text) : dropCode? codes (b :: t) = some t := by
  rw [dropCode?, ← List.take_append_drop 6 codes, hcodes, asciiBlanks]
  rcases isSpace_cases hb with rfl | rfl | rfl | rfl | rfl <;> simp

theorem strip_of_allSpace {codes : List Text} (hcodes : codes.take 6 = asciiBlanks) {s : Text} (hs : s.AllSpace)
    (t : Text) : strip codes (s ++ t) = strip codes t := by
  induction s with
  | nil => rfl
  | cons b s ih =>
      rw [List.cons_append, strip, dropCode?_of_isSpace hcodes (hs b List.mem_cons_self)]
      simp only [List.length_cons, Nat.lt_succ_self, if_true]
      exact ih fun c hc => hs c (List.mem_cons_of_mem b hc)

theorem Bounded.trim_between {t s s' : Text} (ht : t.Bounded) (hs : s.AllSpace) (hs' : s'.AllSpace) :
    (s ++ (t ++ s')).trim = t := by
  obtain ⟨b, hb, hword⟩ := ht.first
  obtain ⟨c, hc, hword'⟩ := ht.last
  obtain ⟨rest, rfl⟩ := List.head?_eq_some_iff.mp hb
  obtain ⟨front, hlast⟩ := List.getLast?_eq_some_iff.mp hc
  have hstart : trimStart (s ++ (b :: rest ++ s')) = b :: rest ++ s' := by
    rw [trimStart, strip_of_allSpace blankCodes_take.1 hs]
    exact strip_of_isWord (fun code hcode => blankCodes_head code (List.mem_append_left _ hcode)) hword _
  rw [trim, hstart, trimEnd, List.reverse_append,
    strip_of_allSpace blankCodes_take.2 (by simpa [AllSpace] using hs'), hlast, List.reverse_append]
  simp only [List.reverse_cons, List.reverse_nil, List.nil_append, List.cons_append]
  rw [strip_of_isWord (fun code hcode => blankCodes_head code (List.mem_append_right _ hcode)) hword']
  simp

theorem Bounded.trim_append {t s : Text} (ht : t.Bounded) (hs : s.AllSpace) : (t ++ s).trim = t :=
  ht.trim_between allSpace_nil hs

theorem Bounded.trim {t : Text} (ht : t.Bounded) : t.trim = t := by
  simpa using ht.trim_append allSpace_nil

theorem bounded_of_isWord {t : Text} (hne : t ≠ []) (h : ∀ b ∈ t, isWord b = true) : t.Bounded where
  first := ⟨t.head hne, List.head?_eq_some_head hne, h _ (List.head_mem hne)⟩
  last := ⟨t.getLast hne, List.getLast?_eq_some_getLast hne, h _ (List.getLast_mem hne)⟩

/-- The backslash and the arrow heads have no blank end either. -/
theorem trim_signs : ∀ t ∈ ([[], [0x5c], [0x3e], [0x3e, 0x3e], [0x3e, 0x30], [0x3e, 0x3e, 0x30]] : List Text),
    t.trim = t := by
  decide +kernel

theorem trim_of_isWord {t : Text} (h : ∀ b ∈ t, isWord b = true) : t.trim = t := by
  by_cases hne : t = []
  · subst hne
    exact trim_signs [] List.mem_cons_self
  · exact (bounded_of_isWord hne h).trim

theorem dropCode?_suffix {codes : List Text} {t rest : Text} (h : dropCode? codes t = some rest) : rest <:+ t := by
  obtain ⟨code, -, hcode⟩ := List.exists_of_findSome?_eq_some h
  split at hcode
  next =>
      cases hcode
      exact List.drop_suffix _ t
  next => cases hcode

theorem strip_suffix (codes : List Text) (t : Text) : strip codes t <:+ t := by
  fun_induction strip codes t with
  | case1 => exact List.suffix_refl _
  | case2 t rest hrest _ ih => exact ih.trans (dropCode?_suffix hrest)
  | case3 => exact List.suffix_refl _

theorem strip_head {codes : List Text} (hcodes : codes.take 6 = asciiBlanks) (t : Text) :
    ∀ b ∈ (strip codes t).head?, isSpace b = false := by
  have hnext {b : UInt8} {t : Text} (hb : b ∈ t.head?) (hspace : isSpace b = true) :
      ∃ rest, dropCode? codes t = some rest ∧ rest.length < t.length := by
    obtain ⟨rest, rfl⟩ := List.head?_eq_some_iff.mp hb
    exact ⟨rest, dropCode?_of_isSpace hcodes hspace rest, Nat.lt_succ_self _⟩
  fun_induction strip codes t with
  | case1 t hnone =>
      intro b hb
      rw [Bool.eq_false_iff]
      intro hspace
      obtain ⟨rest, hrest, -⟩ := hnext hb hspace
      rw [hnone] at hrest
      cases hrest
  | case2 _ _ _ _ ih => exact ih
  | case3 t rest hrest hlength =>
      intro b hb
      rw [Bool.eq_false_iff]
      intro hspace
      obtain ⟨rest', hrest', hlength'⟩ := hnext hb hspace
      rw [hrest] at hrest'
      cases hrest'
      exact hlength hlength'

theorem trim_last (t : Text) : ∀ b ∈ t.trim.getLast?, isSpace b = false := by
  rw [trim, trimEnd, List.getLast?_reverse]
  exact strip_head blankCodes_take.2 _

theorem trim_front (t : Text) : t.trim <+: t.trimStart := by
  rw [trim, trimEnd, ← List.reverse_suffix, List.reverse_reverse]
  exact strip_suffix _ _

theorem trim_first (t : Text) : ∀ b ∈ t.trim.head?, isSpace b = false := by
  intro b hb
  obtain ⟨rest, hrest⟩ := trim_front t
  refine strip_head blankCodes_take.1 t b ?_
  rw [← trimStart, ← hrest]
  exact List.mem_head?_append_of_mem_head? hb

theorem blankCodesReversed_foreign : ∀ code ∈ blankCodesReversed, ∀ b ∈ code, isWord b = false := by
  have hall : ∀ code ∈ blankCodesReversed, code.all (!isWord ·) = true := by decide +kernel
  intro code hcode b hb
  simpa using List.all_eq_true.mp (hall code hcode) b hb

/-- Codes without a word byte are never taken off beyond one. -/
theorem strip_concat {codes : List Text} (hcodes : ∀ code ∈ codes, ∀ b ∈ code, isWord b = false) {w : UInt8}
    (hw : isWord w = true) (u : Text) : ∃ v, strip codes (u ++ [w]) = v ++ [w] := by
  induction hn : u.length using Nat.strongRecOn generalizing u with
  | ind n ih =>
      rw [strip]
      split
      next => exact ⟨u, rfl⟩
      next rest hrest =>
          obtain ⟨code, hcode, hdrop⟩ := List.exists_of_findSome?_eq_some hrest
          split at hdrop
          next hprefix =>
              cases hdrop
              -- a code without word bytes does not reach the last byte
              have hfits : code <+: u := by
                rcases List.prefix_concat_iff.mp (List.isPrefixOf_iff_prefix.mp hprefix) with heq | hpre
                · have hword := hcodes code hcode w (by rw [heq]; simp)
                  rw [hw] at hword
                  cases hword
                · exact hpre
              obtain ⟨u', rfl⟩ := hfits
              rw [List.append_assoc, List.drop_left]
              split
              next hshort =>
                  refine ih u'.length ?_ u' rfl
                  rw [← hn]
                  simp only [List.length_append] at hshort ⊢
                  omega
              next => exact ⟨code ++ u', by simp⟩
          next => cases hdrop

theorem trim_cons_of_isWord {w : UInt8} (hw : isWord w = true) (t : Text) : ∃ t', trim (w :: t) = w :: t' := by
  obtain ⟨v, hv⟩ := strip_concat blankCodesReversed_foreign hw t.reverse
  refine ⟨v.reverse, ?_⟩
  have hcodes : ∀ code ∈ blankCodes, code.head?.any (!isWord ·) = true :=
    fun code hcode => blankCodes_head code (List.mem_append_left _ hcode)
  rw [trim, trimStart, strip_of_isWord hcodes hw, trimEnd, List.reverse_cons, hv]
  simp

theorem dropCode?_eq_none_iff {codes : List Text} {t : Text} : dropCode? codes t = none ↔ ∀ code ∈ codes, ¬ code <+: t := by
  simp [dropCode?]

theorem blankCodes_ne_nil : [] ∉ blankCodes ∧ [] ∉ blankCodesReversed := by
  decide +kernel

theorem strip_of_none {codes : List Text} {t : Text} (h : dropCode? codes t = none) : strip codes t = t := by
  rw [strip, h]

theorem strip_stops {codes : List Text} (hcodes : [] ∉ codes) (t : Text) : dropCode? codes (strip codes t) = none := by
  fun_induction strip codes t with
  | case1 t hnone => exact hnone
  | case2 _ _ _ _ ih => exact ih
  | case3 t rest hrest hlength =>
      obtain ⟨code, hcode, hdrop⟩ := List.exists_of_findSome?_eq_some hrest
      split at hdrop
      next hprefix =>
          cases hdrop
          have hle := (List.isPrefixOf_iff_prefix.mp hprefix).length_le
          have hpos : 0 < code.length := List.length_pos_iff.mpr (ne_of_mem_of_not_mem hcode hcodes)
          rw [List.length_drop] at hlength
          omega
      next => cases hdrop

structure Trimmed (t : Text) : Prop where
  start : dropCode? blankCodes t = none
  ending : dropCode? blankCodesReversed t.reverse = none

theorem trimmed_trim (t : Text) : t.trim.Trimmed where
  start := by
    have hstart := dropCode?_eq_none_iff.mp (strip_stops blankCodes_ne_nil.1 t)
    exact dropCode?_eq_none_iff.mpr fun code hcode hp => hstart code hcode (hp.trans (trim_front t))
  ending := by
    rw [trim, trimEnd, List.reverse_reverse]
    exact strip_stops blankCodes_ne_nil.2 _

theorem trim_within (t : Text) : t.trim <:+: t :=
  (trim_front t).isInfix.trans (strip_suffix _ t).isInfix

theorem Trimmed.trim {t : Text} (h : t.Trimmed) : t.trim = t := by
  rw [Text.trim, trimStart, strip_of_none h.start, trimEnd, strip_of_none h.ending, List.reverse_reverse]

theorem dropCode?_append_cons {codes : List Text} {b : UInt8} (hb : ∀ code ∈ codes, b ∉ code) {t : Text}
    (h : dropCode? codes t = none) (rest : Text) : dropCode? codes (t ++ b :: rest) = none := by
  rw [dropCode?_eq_none_iff] at h ⊢
  intro code hcode hp
  have hfront : t ++ [b] <+: t ++ b :: rest := ⟨rest, by simp⟩
  rcases List.prefix_or_prefix_of_prefix hp hfront with hp | ⟨more, rfl⟩
  · rcases List.prefix_concat_iff.mp hp with rfl | hp
    · exact hb _ hcode (by simp)
    · exact h code hcode hp
  · exact hb _ hcode (by simp)

/-- A text is trimmed if its two ends are, each up to a byte that is in no blank character. -/
theorem Trimmed.span {b c : UInt8} (hb : ∀ code ∈ blankCodes, b ∉ code) (hc : ∀ code ∈ blankCodes, c ∉ code)
    {s t u v : Text} (hs : s.Trimmed) (ht : t.Trimmed) (h : s ++ b :: u = v ++ c :: t) : (s ++ b :: u).Trimmed where
  start := dropCode?_append_cons hb hs.start u
  ending := by
    have hreversed : ∀ code ∈ blankCodesReversed, c ∉ code := by
      intro code hcode
      obtain ⟨front, hfront, rfl⟩ := List.mem_map.mp hcode
      rw [List.mem_reverse]
      exact hc front hfront
    rw [h, List.reverse_append, List.reverse_cons, List.append_assoc, List.singleton_append]
    exact dropCode?_append_cons hreversed ht.ending v.reverse

end Population.Text

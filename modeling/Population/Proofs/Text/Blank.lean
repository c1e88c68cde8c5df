import Mathlib.Data.List.TakeWhile
import Population.Proofs.Text.Ends

namespace Population.Text

variable {codes : List Text} {e t : Text}

def IsRun (codes : List Text) (t : Text) : Prop :=
  ∃ cs : List Text, (∀ c ∈ cs, c ∈ codes) ∧ t = cs.flatten

def IsBlank (t : Text) : Prop :=
  IsRun blankCodes t

theorem isRun_nil (codes : List Text) : IsRun codes [] :=
  ⟨[], by simp, rfl⟩

theorem IsRun.append {u v : Text} (hu : IsRun codes u) (hv : IsRun codes v) : IsRun codes (u ++ v) := by
  obtain ⟨cs, hcs, rfl⟩ := hu
  obtain ⟨ds, hds, rfl⟩ := hv
  refine ⟨cs ++ ds, fun c hc => ?_, List.flatten_append.symm⟩
  rcases List.mem_append.mp hc with hc | hc
  · exact hcs c hc
  · exact hds c hc

theorem IsRun.reverse (h : IsRun codes t) : IsRun (codes.map List.reverse) t.reverse := by
  obtain ⟨cs, hcs, rfl⟩ := h
  refine ⟨(cs.map List.reverse).reverse, fun c hc => ?_, List.reverse_flatten⟩
  obtain ⟨d, hd, rfl⟩ := List.mem_map.mp (List.mem_reverse.mp hc)
  exact List.mem_map_of_mem (hcs d hd)

/-- Of what codes must be like for a run of them to be read in one way only: none begins another one. -/
def Prefixless (codes : List Text) : Prop :=
  ∀ c ∈ codes, ∀ d ∈ codes, c <+: d → c = d

instance instDecidablePrefixless (codes : List Text) : Decidable (Prefixless codes) :=
  inferInstanceAs (Decidable (∀ c ∈ codes, ∀ d ∈ codes, c <+: d → c = d))

theorem blankCodes_prefixless : Prefixless blankCodes ∧ Prefixless blankCodesReversed := by
  decide +kernel

/-- The first byte of a white space character stands at the front of one only. -/
theorem blankCodes_first : ∀ c ∈ blankCodes, ∀ b ∈ c.tail, ∀ d ∈ blankCodes, d.head? ≠ some b := by
  have hall : ∀ c ∈ blankCodes, c.tail.all (fun b => decide (∀ d ∈ blankCodes, d.head? ≠ some b)) = true := by
    decide +kernel
  intro c hc b hb
  exact of_decide_eq_true (List.all_eq_true.mp (hall c hc) b hb)

theorem dropCode?_append (hcodes : Prefixless codes) {c : Text} (hc : c ∈ codes) (t : Text) :
    dropCode? codes (c ++ t) = some t := by
  cases hdrop : dropCode? codes (c ++ t) with
  | none => exact absurd (List.prefix_append c t) (dropCode?_eq_none_iff.mp hdrop c hc)
  | some rest =>
      obtain ⟨d, hd, hrest⟩ := List.exists_of_findSome?_eq_some hdrop
      split at hrest
      next hprefix =>
          have hdc : d = c := by
            rcases List.prefix_or_prefix_of_prefix (List.isPrefixOf_iff_prefix.mp hprefix) (List.prefix_append c t) with h | h
            · exact hcodes d hd c hc h
            · exact (hcodes c hc d hd h).symm
          rw [hdc, List.drop_left] at hrest
          exact hrest.symm
      next => cases hrest

theorem strip_append (hcodes : Prefixless codes) (hnil : [] ∉ codes) (he : IsRun codes e) (t : Text) :
    strip codes (e ++ t) = strip codes t := by
  obtain ⟨cs, hcs, rfl⟩ := he
  induction cs with
  | nil => rfl
  | cons c cs ih =>
      obtain ⟨hc, hrest⟩ := List.forall_mem_cons.mp hcs
      have hpos : 0 < c.length := List.length_pos_iff.mpr (ne_of_mem_of_not_mem hc hnil)
      rw [List.flatten_cons, List.append_assoc, strip, dropCode?_append hcodes hc]
      simp only [List.length_append, Nat.lt_add_left_iff_pos, hpos, if_true]
      rw [ih hrest]

theorem exists_run_strip (codes : List Text) (t : Text) : ∃ e, IsRun codes e ∧ t = e ++ strip codes t := by
  fun_induction strip codes t with
  | case1 => exact ⟨[], isRun_nil codes, rfl⟩
  | case2 t rest hrest _ ih =>
      obtain ⟨e, he, heq⟩ := ih
      obtain ⟨c, hc, hdrop⟩ := List.exists_of_findSome?_eq_some hrest
      split at hdrop
      next hprefix =>
          cases hdrop
          refine ⟨c ++ e, .append ⟨[c], by simpa using hc, by simp⟩ he, ?_⟩
          rw [List.append_assoc, ← heq]
          exact (List.prefix_iff_eq_append.mp (List.isPrefixOf_iff_prefix.mp hprefix)).symm
      next => cases hdrop
  | case3 => exact ⟨[], isRun_nil codes, rfl⟩

/-- A run behind a text does not make a code of what the text ends in. -/
theorem dropCode?_append_blank (hne : t ≠ []) (ht : dropCode? blankCodes t = none) (he : e.IsBlank) :
    dropCode? blankCodes (t ++ e) = none := by
  rw [dropCode?_eq_none_iff] at ht ⊢
  intro c hc hprefix
  rcases List.prefix_or_prefix_of_prefix hprefix (List.prefix_append t e) with h | ⟨p, rfl⟩
  · exact ht c hc h
  obtain ⟨cs, hcs, rfl⟩ := he
  cases p with
  | nil => exact ht _ hc (by simp)
  | cons b p =>
      -- The byte behind the text is inside a code, and yet the run begins with it.
      have hinside : b ∈ (t ++ b :: p).tail := by
        obtain ⟨a, u, rfl⟩ := List.exists_cons_of_ne_nil hne
        simp
      obtain ⟨q, hq⟩ := (List.prefix_append_right_inj t).mp hprefix
      cases cs with
      | nil => cases hq
      | cons d cs =>
          have hd : d ∈ blankCodes := hcs d List.mem_cons_self
          obtain ⟨a, u, rfl⟩ := List.exists_cons_of_ne_nil (ne_of_mem_of_not_mem hd blankCodes_ne_nil.1)
          obtain ⟨rfl, -⟩ := List.cons.inj hq
          exact blankCodes_first _ hc b hinside _ hd rfl

theorem trim_blank_append (he : e.IsBlank) (t : Text) : (e ++ t).trim = t.trim := by
  rw [trim, trimStart, strip_append blankCodes_prefixless.1 blankCodes_ne_nil.1 he]
  rfl

theorem IsBlank.trim (h : t.IsBlank) : t.trim = [] := by
  rw [← List.append_nil t, trim_blank_append h, trim_signs [] List.mem_cons_self]

theorem trim_append_blank (he : e.IsBlank) (t : Text) : (t ++ e).trim = t.trim := by
  obtain ⟨w, hw, ht⟩ := exists_run_strip blankCodes t
  have hstart : dropCode? blankCodes (strip blankCodes t) = none := strip_stops blankCodes_ne_nil.1 t
  by_cases hnil : strip blankCodes t = []
  · have hblank : t.IsBlank := by
      rw [ht, hnil, List.append_nil]
      exact hw
    rw [IsBlank.trim (hblank.append he), hblank.trim]
  · have hfront : trimStart (t ++ e) = trimStart t ++ e := by
      rw [trimStart, ht, List.append_assoc, strip_append blankCodes_prefixless.1 blankCodes_ne_nil.1 hw, ← ht, trimStart]
      exact strip_of_none (dropCode?_append_blank hnil hstart he)
    rw [Text.trim, hfront, trimEnd, List.reverse_append, strip_append blankCodes_prefixless.2 blankCodes_ne_nil.2 he.reverse]
    rfl

theorem Trimmed.trim_between (ht : t.Trimmed) {e' : Text} (he : e.IsBlank) (he' : e'.IsBlank) :
    (e ++ (t ++ e')).trim = t := by
  rw [trim_blank_append he, trim_append_blank he', ht.trim]

theorem exists_trim_eq (t : Text) : ∃ b e, IsBlank b ∧ IsBlank e ∧ t = b ++ (t.trim ++ e) := by
  obtain ⟨b, hb, ht⟩ := exists_run_strip blankCodes t
  obtain ⟨v, hv, hend⟩ := exists_run_strip blankCodesReversed (strip blankCodes t).reverse
  have hback : blankCodesReversed.map List.reverse = blankCodes := by
    rw [blankCodesReversed, List.map_map]
    simp
  have hblank : IsBlank v.reverse := by
    rw [IsBlank, ← hback]
    exact hv.reverse
  refine ⟨b, v.reverse, hb, hblank, ?_⟩
  rw [Text.trim, trimStart, trimEnd, ← List.reverse_append, ← hend, List.reverse_reverse]
  exact ht

theorem trim_eq_nil_iff : t.trim = [] ↔ t.IsBlank := by
  refine ⟨fun h => ?_, IsBlank.trim⟩
  obtain ⟨b, e, hb, he, ht⟩ := exists_trim_eq t
  rw [h, List.nil_append] at ht
  rw [ht]
  exact hb.append he

instance instDecidableIsBlank (t : Text) : Decidable t.IsBlank :=
  decidable_of_iff (t.trim = []) trim_eq_nil_iff

theorem trimmed_iff : t.Trimmed ↔ t.trim = t :=
  ⟨Trimmed.trim, fun h => h ▸ trimmed_trim t⟩

instance instDecidableTrimmed (t : Text) : Decidable t.Trimmed :=
  decidable_of_iff (t.trim = t) trimmed_iff.symm

theorem AllSpace.isBlank (h : t.AllSpace) : t.IsBlank := by
  refine ⟨t.map ([·]), fun c hc => ?_, by rw [← List.flatMap_def, List.flatMap_singleton']⟩
  obtain ⟨b, hb, rfl⟩ := List.mem_map.mp hc
  rcases isSpace_cases (h b hb) with rfl | rfl | rfl | rfl | rfl <;> decide

/-- The bytes of ASCII that show something. -/
def isVisible (b : UInt8) : Bool :=
  0x21 ≤ b && b ≤ 0x7e

theorem blankCodes_invisible : ∀ c ∈ blankCodes, ∀ b ∈ c, isVisible b = false := by
  have hall : ∀ c ∈ blankCodes, c.all (!isVisible ·) = true := by decide +kernel
  intro c hc b hb
  simpa using List.all_eq_true.mp (hall c hc) b hb

theorem not_mem_blankCodes {b : UInt8} (hb : isVisible b = true) : ∀ c ∈ blankCodes, b ∉ c := by
  intro c hc hmem
  rw [blankCodes_invisible c hc b hmem] at hb
  cases hb

theorem IsBlank.not_mem (h : t.IsBlank) {b : UInt8} (hb : isVisible b = true) : b ∉ t := by
  obtain ⟨cs, hcs, rfl⟩ := h
  intro hmem
  obtain ⟨c, hc, hbc⟩ := List.mem_flatten.mp hmem
  exact not_mem_blankCodes hb c (hcs c hc) hbc

theorem trimmed_nil : Trimmed [] :=
  trimmed_iff.mpr (trim_signs [] List.mem_cons_self)

theorem isVisible_of_isWord {b : UInt8} (h : isWord b = true) : isVisible b = true := by
  simp only [isWord, isDigit, isVisible, Bool.or_eq_true, Bool.and_eq_true, decide_eq_true_eq, beq_iff_eq] at h ⊢
  grind

/-- Whether a text starts and ends with a visible byte. -/
structure Shown (t : Text) : Prop where
  first : ∃ b ∈ t.head?, isVisible b = true
  last : ∃ b ∈ t.getLast?, isVisible b = true

theorem Bounded.shown (h : t.Bounded) : t.Shown where
  first := by
    obtain ⟨b, hb, hword⟩ := h.first
    exact ⟨b, hb, isVisible_of_isWord hword⟩
  last := by
    obtain ⟨b, hb, hword⟩ := h.last
    exact ⟨b, hb, isVisible_of_isWord hword⟩

theorem shown_singleton {b : UInt8} (hb : isVisible b = true) : Shown [b] :=
  ⟨⟨b, rfl, hb⟩, ⟨b, rfl, hb⟩⟩

theorem Shown.ne_nil (h : t.Shown) : t ≠ [] := by
  rintro rfl
  obtain ⟨b, hb, -⟩ := h.first
  cases hb

/-- What stands between two ends does not matter. -/
theorem Shown.append {s : Text} (hs : s.Shown) (u : Text) (ht : t.Shown) : (s ++ (u ++ t)).Shown where
  first := by
    obtain ⟨b, hb, hvisible⟩ := hs.first
    exact ⟨b, List.mem_head?_append_of_mem_head? hb, hvisible⟩
  last := by
    rw [← List.append_assoc, List.getLast?_append_of_ne_nil _ ht.ne_nil]
    exact ht.last

theorem Shown.trimmed (h : t.Shown) : t.Trimmed := by
  obtain ⟨b, hb, hfirst⟩ := h.first
  obtain ⟨c, hc, hlast⟩ := h.last
  obtain ⟨rest, rfl⟩ := List.head?_eq_some_iff.mp hb
  obtain ⟨front, hfront⟩ := List.getLast?_eq_some_iff.mp hc
  exact .span (s := []) (not_mem_blankCodes hfirst) (not_mem_blankCodes hlast) trimmed_nil trimmed_nil hfront

theorem trimmed_of_visible (h : ∀ b ∈ t, isVisible b = true) : t.Trimmed := by
  by_cases hne : t = []
  · exact hne ▸ trimmed_nil
  · refine Shown.trimmed ⟨⟨t.head hne, List.head?_eq_some_head hne, h _ (List.head_mem hne)⟩, ?_⟩
    exact ⟨t.getLast hne, List.getLast?_eq_some_getLast hne, h _ (List.getLast_mem hne)⟩

theorem mem_trim_of_visible {b : UInt8} (hb : isVisible b = true) (h : b ∈ t) : b ∈ t.trim := by
  obtain ⟨front, back, hfront, hback, ht⟩ := exists_trim_eq t
  rw [ht, List.mem_append, List.mem_append] at h
  rcases h with h | h | h
  · exact absurd h (hfront.not_mem hb)
  · exact h
  · exact absurd h (hback.not_mem hb)

theorem exists_trimRight (p : UInt8 → Bool) (t : Text) : ∃ e : Text, (∀ b ∈ e, p b = true) ∧ t = trimRight p t ++ e := by
  refine ⟨(t.reverse.takeWhile p).reverse, fun b hb => List.mem_takeWhile_imp (List.mem_reverse.mp hb), ?_⟩
  rw [trimRight, ← List.reverse_append, List.takeWhile_append_dropWhile, List.reverse_reverse]

theorem trimRight_append_of_last {p : UInt8 → Bool} (hne : t ≠ []) (hlast : ∀ b ∈ t.getLast?, p b = false) (e : Text) :
    trimRight p (t ++ e) = t ++ trimRight p e := by
  have hstop : t.reverse.dropWhile p = t.reverse := by
    rcases List.eq_nil_or_concat t with rfl | ⟨front, b, rfl⟩
    · rfl
    · have hb : ¬ p b = true := by simpa using hlast b (by simp)
      rw [List.concat_eq_append, List.reverse_concat, List.dropWhile_cons_of_neg hb]
  rw [trimRight, trimRight, List.reverse_append, List.dropWhile_append, hstop]
  split
  next h => simp [List.isEmpty_iff.mp h]
  next => rw [List.reverse_append, List.reverse_reverse]

theorem splitOn_append_left {c : UInt8} {b : Text} (hb : c ∉ b) (t : Text) :
    (b ++ t).splitOn c = (t.splitOn c).modifyHead (b ++ ·) := by
  induction b with
  | nil =>
      obtain ⟨first, rest, hsplit⟩ := List.exists_cons_of_ne_nil (List.splitOn_ne_nil c t)
      rw [List.nil_append, hsplit, List.modifyHead_cons, List.nil_append]
  | cons d b ih =>
      obtain ⟨hne, hb⟩ := List.ne_and_not_mem_of_not_mem_cons hb
      obtain ⟨first, rest, hsplit⟩ := List.exists_cons_of_ne_nil (List.splitOn_ne_nil c t)
      rw [List.cons_append, List.splitOn_cons_eq_if_modifyHead, if_neg (by simpa using Ne.symm hne), ih hb, hsplit]
      rfl

theorem exists_splitOn_append {c : UInt8} {e : Text} (he : c ∉ e) (t : Text) :
    ∃ front last, t.splitOn c = front ++ [last] ∧ (t ++ e).splitOn c = front ++ [last ++ e] := by
  induction t with
  | nil => exact ⟨[], [], List.splitOn_nil c, List.splitOn_eq_singleton he⟩
  | cons d t ih =>
      obtain ⟨front, last, hsplit, hsplit'⟩ := ih
      rw [List.cons_append, List.splitOn_cons_eq_if_modifyHead, List.splitOn_cons_eq_if_modifyHead, hsplit, hsplit']
      split
      next => exact ⟨[] :: front, last, rfl, rfl⟩
      next =>
          cases front with
          | nil => exact ⟨[], d :: last, rfl, rfl⟩
          | cons first front => exact ⟨(d :: first) :: front, last, rfl, rfl⟩

/-- Blanks around a text do not change what is left of its pieces. -/
theorem map_trim_splitOn {c : UInt8} (hc : isVisible c = true) {b : Text} (hb : b.IsBlank) (he : e.IsBlank) (t : Text) :
    ((b ++ (t ++ e)).splitOn c).map trim = (t.splitOn c).map trim := by
  obtain ⟨front, last, hsplit, hsplit'⟩ := exists_splitOn_append (he.not_mem hc) t
  rw [splitOn_append_left (hb.not_mem hc), hsplit, hsplit']
  cases front with
  | nil => simp [trim_blank_append hb, trim_append_blank he]
  | cons first front => simp [trim_blank_append hb, trim_append_blank he]

end Population.Text

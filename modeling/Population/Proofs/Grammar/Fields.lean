import Population.Proofs.Grammar.Parsing
import Population.Proofs.Number.Digits

namespace Population

namespace Text

/-- Word bytes and white space, with a word byte at each end. -/
structure IsName (t : Text) : Prop extends Bounded t where
  bytes : ∀ b ∈ t, isWord b = true ∨ isSpace b = true

structure IsDigits (t : Text) : Prop where
  ne_nil : t ≠ []
  digits : ∀ b ∈ t, isDigit b = true

def IsTag (t : Text) : Prop :=
  ∃ ds : Text, t = "I" ++ ds ∧ ∀ b ∈ ds, isDigit b = true

theorem IsDigits.bounded {t : Text} (h : t.IsDigits) : t.Bounded :=
  bounded_of_isWord h.ne_nil fun b hb => isWord_of_isDigit (h.digits b hb)

theorem IsTag.isWord {t : Text} (h : t.IsTag) : ∀ b ∈ t, isWord b = true := by
  obtain ⟨ds, rfl, hds⟩ := h
  have hletter : ∀ b ∈ ofString "I", Text.isWord b = true := List.all_eq_true.mp rfl
  intro b hb
  rcases List.mem_append.mp hb with hb | hb
  · exact hletter b hb
  · exact isWord_of_isDigit (hds b hb)

theorem IsTag.bounded {t : Text} (h : t.IsTag) : t.Bounded := by
  refine bounded_of_isWord ?_ h.isWord
  obtain ⟨ds, rfl, -⟩ := h
  exact List.cons_ne_nil _ _

end Text

namespace Statement

open Pattern

theorem holds_nameByte {b : UInt8} : nameByte.holds b = true ↔ Text.isWord b = true ∨ Text.isSpace b = true := by
  simp [nameByte, ByteClass.holds]

theorem spells_word_run {t : Text} (ht : ∃ b ∈ t.head?, Text.isWord b = true) {c : ByteClass}
    (hc : ∀ b ∈ t, c.holds b = true) (reluctant : Bool) :
    (Pattern.seq (.byte .word) (.run c reluctant)).Spells t [] := by
  obtain ⟨b, hb, hword⟩ := ht
  obtain ⟨rest, rfl⟩ := List.head?_eq_some_iff.mp hb
  exact ⟨[b], rest, [], [], rfl, rfl, ⟨⟨b, hword, rfl⟩, rfl⟩, fun x hx => hc x (List.mem_cons_of_mem b hx), rfl⟩

theorem spells_name {t : Text} (ht : t.IsName) (reluctant : Bool) :
    (Pattern.seq (.byte .word) (.run nameByte reluctant)).Spells t [] :=
  spells_word_run ht.first (fun b hb => holds_nameByte.mpr (ht.bytes b hb)) reluctant

theorem spells_name_append {t s : Text} (ht : t.IsName) (hs : s.AllSpace) : nameText.Spells (t ++ s) [] := by
  obtain ⟨b, hb, hword⟩ := ht.first
  refine spells_word_run ⟨b, List.mem_head?_append_of_mem_head? hb, hword⟩ (fun c hc => ?_) false
  rcases List.mem_append.mp hc with hc | hc
  · exact holds_nameByte.mpr (ht.bytes c hc)
  · exact holds_nameByte.mpr (.inr (hs c hc))

theorem spells_isDigits {k : Text} (hk : k.IsDigits) : digits.Spells k [] := by
  obtain ⟨b, rest, rfl⟩ := List.exists_cons_of_ne_nil hk.ne_nil
  exact ⟨[b], rest, [], [], rfl, rfl, ⟨⟨b, hk.digits b List.mem_cons_self, rfl⟩, rfl⟩,
    fun x hx => hk.digits x (List.mem_cons_of_mem b hx), rfl⟩

theorem holds_named (field : Text) {x : Text} (hx : x.IsName) : (named field).Holds x [⟨field, x⟩] :=
  .group rfl rfl hx.toBounded ⟨[], spells_name hx false⟩

theorem holds_digits (field : Text) {k : Text} (hk : k.IsDigits) : (group field digits).Holds k [⟨field, k⟩] :=
  .group rfl rfl hk.bounded ⟨[], spells_isDigits hk⟩

theorem spells_idTags {t : Text} {cs : List Capture} (h : idTags.Spells t cs) : t.IsTag := by
  obtain ⟨_, -, u, ds, _, _, rfl, -, hu, hds, -⟩ := h
  obtain ⟨rfl, -⟩ := spells_literal.mp hu
  exact ⟨ds, rfl, hds⟩

theorem holds_idTags {i : Text} (hi : i.IsTag) : idTags.Holds i [⟨"id", i⟩] := by
  refine .group (by rfl) (by rfl) hi.bounded ?_
  obtain ⟨ds, rfl, hds⟩ := hi
  exact ⟨[], "I", ds, [], [], rfl, rfl, spells_literal.mpr ⟨rfl, rfl⟩, hds, rfl⟩

theorem holds_relationshipNumber {k : Text} (hk : k.IsDigits) :
    relationshipNumber.Holds ("R" ++ k) [⟨"rnum", k⟩] where
  solid := rfl
  spelled := by
    obtain ⟨ds, hds⟩ := (holds_digits "rnum" hk).spelled
    exact ⟨ds, "R", k, [], ds, rfl, rfl, spells_literal.mpr ⟨rfl, rfl⟩, hds⟩
  last := by
    rw [List.getLast?_append_of_ne_nil _ hk.ne_nil]
    exact hk.bounded.last_not_space
  captures := by
    rintro s _ hs ⟨u, k', _, ds, hsplit, rfl, hu, hk'⟩
    obtain ⟨rfl, rfl⟩ := spells_literal.mp hu
    rw [List.append_assoc, List.append_cancel_left_eq] at hsplit
    subst hsplit
    exact (holds_digits "rnum" hk).captures s ds hs hk'

def constraint (c : Bool) : Text :=
  if c then "c" else []

def constraintFlag (c : Bool) : List Capture :=
  if c then [⟨"constrained", "c"⟩] else []

theorem spells_constrained {t : Text} {cs : List Capture} :
    constrained.Spells t cs ↔ ∃ c, t = constraint c ∧ cs = constraintFlag c := by
  constructor
  · rintro (⟨_, rfl, h⟩ | ⟨rfl, rfl⟩)
    · obtain ⟨rfl, rfl⟩ := spells_literal.mp h
      exact ⟨true, rfl, rfl⟩
    · exact ⟨false, rfl, rfl⟩
  · rintro ⟨c, rfl, rfl⟩
    cases c
    · exact .inr ⟨rfl, rfl⟩
    · exact .inl ⟨[], rfl, spells_literal.mpr ⟨rfl, rfl⟩⟩

theorem numbered_isWord {k : Text} (hk : k.IsDigits) (c : Bool) :
    ∀ b ∈ ("R" ++ (k ++ constraint c) : Text), Text.isWord b = true := by
  have hletter : ∀ b ∈ Text.ofString "R", Text.isWord b = true := List.all_eq_true.mp rfl
  have hconstraint : ∀ c, ∀ b ∈ constraint c, Text.isWord b = true := by
    intro c
    cases c <;> exact List.all_eq_true.mp rfl
  intro b hb
  simp only [List.mem_append] at hb
  rcases hb with hb | hb | hb
  · exact hletter b hb
  · exact Text.isWord_of_isDigit (hk.digits b hb)
  · exact hconstraint c b hb

theorem constraint_append_head (c : Bool) {s : Text} (hs : s.AllSpace) :
    ∀ b ∈ (constraint c ++ s).head?, Text.isDigit b = false := by
  cases c
  · intro b hb
    rw [Bool.eq_false_iff]
    intro hdigit
    have hspace := hs b (List.mem_of_mem_head? hb)
    rw [Text.isSpace_eq_false_of_isWord (Text.isWord_of_isDigit hdigit)] at hspace
    cases hspace
  · intro b hb
    obtain rfl := Option.some.inj hb
    decide

theorem constraint_inj {c c' : Bool} {s : Text} (hs : s.AllSpace) (h : constraint c' = constraint c ++ s) :
    c' = c := by
  cases c <;> cases c'
  · rfl
  · obtain rfl : Text.ofString "c" = s := h
    exact absurd (hs 0x63 (by decide)) (by decide)
  · cases h
  · rfl

theorem holds_numbered {k : Text} (hk : k.IsDigits) (c : Bool) :
    (Pattern.seq relationshipNumber constrained).Holds ("R" ++ (k ++ constraint c))
      (⟨"rnum", k⟩ :: constraintFlag c) where
  solid := rfl
  spelled := by
    obtain ⟨ds, hds⟩ := (holds_relationshipNumber hk).spelled
    exact ⟨_, "R" ++ k, constraint c, ds, constraintFlag c, by simp, rfl, hds, spells_constrained.mpr ⟨c, rfl, rfl⟩⟩
  last := (Text.bounded_of_isWord (List.cons_ne_nil _ _) (numbered_isWord hk c)).last_not_space
  captures := by
    rintro s _ hs ⟨_, u, _, _, hsplit, rfl, ⟨r, k', _, _, rfl, rfl, hr, _, rfl, hk'⟩, hu⟩
    obtain ⟨rfl, rfl⟩ := spells_literal.mp hr
    obtain ⟨c', rfl, rfl⟩ := spells_constrained.mp hu
    simp only [List.append_assoc, List.append_cancel_left_eq] at hsplit
    obtain ⟨rfl, hconstraint⟩ := Text.cut_of_run (k := Text.isDigit) hk.digits (spells_digits hk').2
      (constraint_append_head c hs) (by simpa using constraint_append_head c' Text.allSpace_nil) hsplit
    obtain rfl := constraint_inj hs hconstraint.symm
    rw [hk'.eq_nil rfl]
    cases c' <;> simp [Capture.trimmed, constraintFlag, hk.bounded.trim]
    exact Text.trim_of_isWord (List.all_eq_true.mp rfl)

def backslash (d : Bool) : Text :=
  if d then "\\" else []

def derivation (d : Bool) : Text :=
  if d then "\\ " else []

def derivationFlag (d : Bool) : List Capture :=
  if d then [⟨"derived", "\\"⟩] else []

theorem spells_attributeName {t : Text} {cs : List Capture} :
    attributeName.Spells t cs ↔ ∃ (d : Bool) (s x : Text), t = backslash d ++ (s ++ x) ∧ s.AllSpace ∧
      nameText.Spells x [] ∧ cs = derivationFlag d ++ [⟨"name", x⟩] := by
  constructor
  · rintro ⟨u, _, us, _, rfl, rfl, hu, s, _, _, _, rfl, rfl, ⟨hs, rfl⟩, x, _, _, _, rfl, rfl, ⟨_, rfl, hx⟩, rfl, rfl⟩
    obtain rfl := hx.eq_nil rfl
    rcases hu with ⟨_, rfl, hu⟩ | ⟨rfl, rfl⟩
    · obtain ⟨rfl, rfl⟩ := spells_literal.mp hu
      exact ⟨true, s, x, by simp [backslash], hs, hx, rfl⟩
    · exact ⟨false, s, x, by simp [backslash], hs, hx, rfl⟩
  · rintro ⟨d, s, x, rfl, hs, hx, rfl⟩
    refine ⟨backslash d, s ++ x, derivationFlag d, [⟨"name", x⟩], rfl, rfl, ?_, s, x, [], [⟨"name", x⟩], rfl, rfl,
      ⟨hs, rfl⟩, x, [], [⟨"name", x⟩], [], by simp, rfl, ⟨[], rfl, hx⟩, rfl, rfl⟩
    cases d
    · exact .inr ⟨rfl, rfl⟩
    · exact .inl ⟨[], rfl, spells_literal.mpr ⟨rfl, rfl⟩⟩

theorem spells_nameText_head {t : Text} {cs : List Capture} (h : nameText.Spells t cs) :
    ∃ b ∈ t.head?, Text.isWord b = true := by
  obtain ⟨_, rest, _, _, rfl, -, ⟨⟨b, hb, rfl⟩, -⟩, -⟩ := h
  exact ⟨b, rfl, hb⟩

/-- The backslash, the white space and the name of an attribute are told apart by their first bytes. -/
theorem backslash_inj {d d' : Bool} {s s' x x' : Text} (hs : s.AllSpace) (hs' : s'.AllSpace)
    (hx : ∃ b ∈ x.head?, Text.isWord b = true) (hx' : ∃ b ∈ x'.head?, Text.isWord b = true)
    (h : backslash d ++ (s ++ x) = backslash d' ++ (s' ++ x')) : d = d' ∧ x = x' := by
  have hmark : ∀ d, ∀ b ∈ backslash d, (b == 0x5c) = true := by
    intro d
    cases d <;> exact List.all_eq_true.mp rfl
  have hfirst {x : Text} (hx : ∃ b ∈ x.head?, Text.isWord b = true) : ∀ b ∈ x.head?, Text.isSpace b = false := by
    obtain ⟨b, hb, hword⟩ := hx
    intro c hc
    rw [Option.mem_unique hc hb]
    exact Text.isSpace_eq_false_of_isWord hword
  have hhead {s x : Text} (hs : s.AllSpace) (hx : ∃ b ∈ x.head?, Text.isWord b = true) :
      ∀ b ∈ (s ++ x).head?, (b == 0x5c) = false := by
    intro b hb
    rw [beq_eq_false_iff_ne]
    rintro rfl
    cases s with
    | nil =>
        obtain ⟨c, hc, hword⟩ := hx
        rw [Option.mem_unique hc hb] at hword
        exact absurd hword (by decide)
    | cons c s =>
        obtain rfl := Option.some.inj hb
        exact absurd (hs _ List.mem_cons_self) (by decide)
  -- the backslashes end where the white space or the name starts
  obtain ⟨hd, hrest⟩ := Text.cut_of_run (k := (· == 0x5c)) (hmark d) (hmark d') (hhead hs hx) (hhead hs' hx') h
  refine ⟨?_, (Text.cut_of_run (k := Text.isSpace) hs hs' (hfirst hx) (hfirst hx') hrest).2⟩
  revert hd
  cases d <;> cases d' <;> decide

theorem holds_attributeName {n : Text} (hn : n.IsName) (d : Bool) :
    attributeName.Holds (derivation d ++ n) (derivationFlag d ++ [⟨"name", n⟩]) := by
  have hspace (d : Bool) : Text.AllSpace (if d then [0x20] else []) := by
    cases d <;> exact List.all_eq_true.mp rfl
  have hderivation : derivation d = backslash d ++ if d then [0x20] else [] := by
    cases d <;> rfl
  rw [hderivation, List.append_assoc]
  refine ⟨rfl, ⟨_, spells_attributeName.mpr ⟨d, _, n, rfl, hspace d, spells_name hn false, rfl⟩⟩, ?_, ?_⟩
  · rw [← List.append_assoc, List.getLast?_append_of_ne_nil _ hn.ne_nil]
    exact hn.last_not_space
  · intro r ds hr h
    obtain ⟨d', s, x, hsplit, hs, hx, rfl⟩ := spells_attributeName.mp h
    simp only [List.append_assoc] at hsplit
    obtain ⟨b, hb, hword⟩ := hn.first
    obtain ⟨rfl, rfl⟩ := backslash_inj (hspace d) hs ⟨b, List.mem_head?_append_of_mem_head? hb, hword⟩
      (spells_nameText_head hx) hsplit
    cases d <;> simp [Capture.trimmed, derivationFlag, hn.trim_append hr]
    exact Text.trim_signs "\\" (List.mem_cons_of_mem _ List.mem_cons_self)

/-- A literal between white space is a gap, if only its first byte is among the bytes `ks`. -/
theorem gap_literal (s m s' ks : Text) (h : ((Pattern.literal m).solid && (Pattern.literal m).firm &&
      !(Pattern.literal m).canBeEmpty && ks.all (!Text.isSpace ·) && (Pattern.literal m).marks? ks == some 1 &&
      s.all Text.isSpace && s'.all Text.isSpace && m.head?.any (· ∈ ks)) = true) :
    Gap (.literal m) ks (s ++ (m ++ s')) := by
  simp only [Bool.and_eq_true, Bool.not_eq_true', beq_iff_eq, List.all_eq_true] at h
  obtain ⟨⟨⟨⟨⟨⟨⟨hsolid, hfirm⟩, hfilled⟩, hclear⟩, hmarks⟩, hs⟩, hs'⟩, hhead⟩ := h
  refine ⟨hsolid, hfirm, hfilled, hclear, hmarks, s, m, s', rfl, hs, hs', spells_literal.mpr ⟨rfl, rfl⟩, ?_⟩
  intro u cs hu
  obtain ⟨rfl, rfl⟩ := spells_literal.mp hu
  refine ⟨rfl, rfl, ?_⟩
  simpa [Option.any_eq_true] using hhead

theorem gap_slash : Gap (.literal "/") "/" " / " :=
  gap_literal " " "/" " " "/" (by rfl)

theorem gap_colon : Gap (.literal ":") ":" " : " :=
  gap_literal " " ":" " " ":" (by rfl)

theorem gap_arrow : Gap (.literal "->") "-" " -> " :=
  gap_literal " " "->" " " "-" (by rfl)

theorem gap_dash : Gap (.literal "-") "-" "-" :=
  gap_literal [] "-" [] "-" (by rfl)

theorem gap_comma : Gap (.byte (.oneOf ",/")) ",/" ", " where
  solid := rfl
  firm := rfl
  filled := rfl
  clear b hb := by
    have hclear : ((",/" : Text).all (!Text.isSpace ·)) = true := rfl
    simpa using List.all_eq_true.mp hclear b hb
  marks := rfl
  around := by
    refine ⟨[], ",", " ", rfl, Text.allSpace_nil, ?_, ⟨⟨0x2c, rfl, rfl⟩, rfl⟩, ?_⟩
    · exact List.all_eq_true.mp rfl
    · rintro _ _ ⟨⟨b, hb, rfl⟩, rfl⟩
      exact ⟨rfl, rfl, b, rfl, by simpa [ByteClass.holds] using hb⟩

end Statement

end Population

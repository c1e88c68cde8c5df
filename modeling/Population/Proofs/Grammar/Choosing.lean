import Population.Proofs.Grammar.Phrases

/-!
The patterns that are tried before a form need a sign that its lines do not have, or want another field at their end.
-/
namespace Population

namespace Pattern

/-- How many bytes of `ks` stand at least in every text that a pattern spells. -/
def least (ks : Text) : Pattern → Nat
  | .byte (.oneOf bytes) => if bytes.all (· ∈ ks) then 1 else 0
  | .empty | .byte _ | .run _ _ | .optional _ => 0
  | .seq p q => least ks p + least ks q
  | .alt p q => min (least ks p) (least ks q)
  | .many p | .group _ p => least ks p

theorem Spells.least_le {ks : Text} {p : Pattern} {t : Text} {cs : List Capture} (h : p.Spells t cs) :
    p.least ks ≤ t.countP (· ∈ ks) := by
  induction p generalizing t cs with
  | empty | run | optional => exact Nat.zero_le _
  | byte c =>
      obtain ⟨⟨b, hb, rfl⟩, -⟩ := h
      cases c with
      | word | space | digit | either => exact Nat.zero_le _
      | oneOf bytes =>
          rw [least]
          split
          next hall =>
            obtain ⟨x, hx, hxb⟩ := List.any_eq_true.mp hb
            obtain rfl : x = b := by simpa using hxb
            have hk : x ∈ ks := by simpa using List.all_eq_true.mp hall x hx
            simp [hk]
          next => exact Nat.zero_le _
  | seq p q ihp ihq =>
      obtain ⟨t₁, t₂, cs₁, cs₂, rfl, -, hs₁, hs₂⟩ := h
      rw [List.countP_append]
      exact Nat.add_le_add (ihp hs₁) (ihq hs₂)
  | alt p q ihp ihq =>
      rcases h with h | h
      · exact (Nat.min_le_left _ _).trans (ihp h)
      · exact (Nat.min_le_right _ _).trans (ihq h)
  | many p ih =>
      -- at least one turn is taken
      obtain ⟨parts, hne, rfl, -, hall⟩ := h
      obtain ⟨part, rest, rfl⟩ := List.exists_cons_of_ne_nil hne
      rw [List.flatMap_cons, List.countP_append]
      exact (ih (hall part List.mem_cons_self)).trans (Nat.le_add_right _ _)
  | group name p ih =>
      obtain ⟨inner, -, hs⟩ := h
      exact ih hs

/-- Whether a pattern needs a sign that another one has no place for. -/
def apart (p q : Pattern) : Bool :=
  [Text.ofString "/", Text.ofString ":", Text.ofString "-"].any fun ks => 0 < p.least ks && q.marks? ks == some 0

theorem not_spells_of_apart {p q : Pattern} (h : p.apart q = true) {t : Text} {ds : List Capture}
    (hq : q.Spells t ds) (cs : List Capture) : ¬ p.Spells t cs := by
  intro hp
  obtain ⟨ks, -, hks⟩ := List.any_eq_true.mp h
  simp only [Bool.and_eq_true, decide_eq_true_eq, beq_iff_eq] at hks
  have hleast : p.least ks ≤ _ := hp.least_le
  rw [hq.countP hks.2] at hleast
  omega

theorem not_spells_of_all_apart {ps : List Pattern} {q : Pattern} (h : ps.all (·.apart q) = true) {t : Text}
    {ds : List Capture} (hq : q.Reads t ds) : ∀ p ∈ ps, ∀ cs, ¬ p.Spells t cs := by
  intro p hp cs
  obtain ⟨es, hes⟩ := hq.spells
  exact not_spells_of_apart (List.all_eq_true.mp h p hp) hes cs

end Pattern

namespace Statement

open Pattern

/-- The bytes that tell a statement from a section header. -/
def signBytes : Text :=
  "/:-|"

theorem nameByte_of_header? {t word : Text} (h : Section.header? t = some word) : ∀ b ∈ t, nameByte.holds b = true := by
  simp only [Section.header?, List.span_eq_takeWhile_dropWhile] at h
  split at h
  next hword =>
    have hrest := (Bool.and_eq_true_iff.mp hword).2
    rw [List.all_eq_true] at hrest
    intro b hb
    rw [holds_nameByte]
    rw [← List.takeWhile_append_dropWhile (p := Text.isSpace) (l := t)] at hb
    rcases List.mem_append.mp hb with hb | hb
    · exact .inr (List.mem_takeWhile_imp hb)
    · rw [← List.takeWhile_append_dropWhile (p := Text.isWord) (l := t.dropWhile Text.isSpace)] at hb
      rcases List.mem_append.mp hb with hb | hb
      · exact .inl (List.mem_takeWhile_imp hb)
      · exact .inr (hrest b hb)
  next => cases h

theorem header?_eq_none {t : Text} (h : t.countP (· ∈ signBytes) ≠ 0) : Section.header? t = none := by
  have hsigns : nameByte.avoids signBytes = true := rfl
  cases hheader : Section.header? t with
  | none => rfl
  | some word => exact absurd (countP_of_avoids hsigns (nameByte_of_header? hheader)) h

theorem forms_least : ∀ f ∈ forms, ∀ p ∈ f.patterns, 0 < p.least signBytes := by
  decide +kernel

theorem header?_of_matchLine {home text : Text} {m : Matched} (h : matchLine home text = .ok m) :
    Section.header? text = none := by
  obtain ⟨-, p, hp, raw, hs, -⟩ := matchLine_spells h
  have hleast := forms_least _ (mem_forms_of_matchLine h).1 p hp
  exact header?_eq_none (Nat.ne_of_gt (hleast.trans_le hs.least_le))

theorem match?_eq_none {p : Pattern} {t : Text} (h : ∀ ds, ¬ p.Spells t ds) : p.match? t = none := by
  cases hmatch : p.match? t with
  | none => rfl
  | some spans => exact absurd (match?_spells hmatch) (h _)

/-- A line is taken by the first form with a pattern that reads it, if no pattern before spells it. -/
theorem matchLine_of_reads {home t : Text} (before : List Form) {after : List Form} {f : Form}
    (earlier : List Pattern) {later : List Pattern} {p : Pattern} {cs : List Capture}
    (hforms : formsOf home = before ++ f :: after) (hpatterns : f.patterns = earlier ++ p :: later)
    (hnone : ∀ q ∈ before.flatMap (·.patterns) ++ earlier, ∀ ds, ¬ q.Spells t ds) (h : p.Reads t cs) :
    matchLine home t = .ok ⟨f, cs⟩ := by
  have hbefore : ∀ g ∈ before, (g.captures? t).map (Matched.mk g) = none := by
    intro g hg
    rw [Form.captures?, List.findSome?_eq_none_iff.mpr]
    · rfl
    · intro q hq
      rw [match?_eq_none (hnone q (List.mem_append_left _ (List.mem_flatMap.mpr ⟨g, hg, hq⟩)))]
      rfl
  have hcaptures : f.captures? t = some cs := by
    refine List.findSome?_eq_some_iff.mpr ⟨earlier, p, later, hpatterns, h.match?, fun q hq => ?_⟩
    rw [match?_eq_none (hnone q (List.mem_append_right _ hq))]
    rfl
  have hmatch : Statement.match? home t = some ⟨f, cs⟩ :=
    List.findSome?_eq_some_iff.mpr ⟨before, f, after, hforms, by rw [hcaptures]; rfl, hbefore⟩
  rw [matchLine, hmatch]

/-- An attribute with a type and tags, with a type only and with tags only. -/
def typedTagged : Pattern :=
  .all [attributeName, colon, named "type", slash, idTags]

def typedOnly : Pattern :=
  .all [attributeName, colon, named "type"]

def taggedOnly : Pattern :=
  .all [attributeName, slash, idTags]

theorem attributeForm_patterns : attributeForm.patterns = [typedTagged, typedOnly, taggedOnly] := rfl

/-- A reference with tags before the relationship number, behind it and without tags. -/
def tagsFirst : Pattern :=
  .all [referenceTo, commaOrSlash, idTags, commaOrSlash, relationshipNumber, constrained]

def tagsLast : Pattern :=
  .all [referenceTo, commaOrSlash, relationshipNumber, constrained, commaOrSlash, idTags]

def untagged : Pattern :=
  .all [referenceTo, commaOrSlash, relationshipNumber, constrained]

theorem referenceForm_patterns : referenceForm.patterns = [tagsFirst, tagsLast, untagged] := rfl

theorem countP_eq_zero_of_isWord {ks t : Text} (hks : nameByte.avoids ks = true) (ht : ∀ b ∈ t, Text.isWord b = true) :
    t.countP (· ∈ ks) = 0 :=
  countP_of_avoids hks fun b hb => holds_nameByte.mpr (.inl (ht b hb))

/-- What stands behind the last slash of an attribute without a type is a tag. -/
theorem not_spells_taggedOnly {x y : Text} (hfirst : ∀ b ∈ y.head?, Text.isSpace b = false)
    (hbytes : ∀ b ∈ y, nameByte.holds b = true) (htag : ¬ y.IsTag) (ds : List Capture) :
    ¬ taggedOnly.Spells (x ++ (" / " ++ y)) ds := by
  rintro ⟨u, z, _, _, h, -, -, hz⟩
  obtain ⟨s, r, es, hs, hr, hfront, _, _, _, _, rfl, -, htags, rfl, rfl⟩ :=
    gap_slash.last (by rfl) (by rfl) hfirst (countP_of_avoids (by rfl) hbytes) hz h
  rw [List.append_nil] at htag
  exact htag (spells_idTags htags)

theorem not_spells_number {i : Text} (hi : i.IsTag) {q : Pattern} (ds : List Capture) :
    ¬ (Pattern.seq relationshipNumber q).Spells i ds := by
  obtain ⟨_, rfl, -⟩ := hi
  rintro ⟨_, _, _, _, h, -, ⟨_, _, _, _, rfl, -, hletter, -⟩, -⟩
  obtain ⟨rfl, -⟩ := spells_literal.mp hletter
  exact absurd (List.cons.inj h).1 (by decide)

theorem not_isTag_number (t : Text) : ¬ Text.IsTag ("R" ++ t) := by
  rintro ⟨ds, h, -⟩
  exact absurd (List.cons.inj h).1 (by decide)

theorem not_spells_tagsFirst {x i : Text} (hi : i.IsTag) (ds : List Capture) :
    ¬ tagsFirst.Spells (x ++ (", " ++ i)) ds := by
  rintro ⟨u, _, _, _, h, -, -, v, _, _, _, rfl, -, -, w, z, _, _, rfl, -, -, hz⟩
  have hend : x ++ (Text.ofString ", " ++ i) = (u ++ (v ++ w)) ++ z := by simpa using h
  obtain ⟨s, r, es, -, -, -, hnumber⟩ := gap_comma.last (by rfl) (by rfl)
    hi.bounded.first_not_space (countP_eq_zero_of_isWord (by rfl) hi.isWord) hz hend
  exact not_spells_number hi es hnumber

section Number

variable {k : Text} (hk : k.IsDigits) (c : Bool)

include hk

theorem not_spells_tagsLast (x : Text) (ds : List Capture) :
    ¬ tagsLast.Spells (x ++ (", " ++ ("R" ++ (k ++ constraint c)))) ds := by
  have hword := numbered_isWord hk c
  have hfirst := (Text.bounded_of_isWord (List.cons_ne_nil _ _) hword).first_not_space
  rintro ⟨u, _, _, _, h, -, -, v, _, _, _, rfl, -, -, w, _, _, _, rfl, -, -, w', z, _, _, rfl, -, -, hz⟩
  have hend : x ++ (Text.ofString ", " ++ (Text.ofString "R" ++ (k ++ constraint c))) =
      (u ++ (v ++ (w ++ w'))) ++ z := by
    simpa using h
  obtain ⟨s, r, es, -, -, -, i, _, _, _, hi, -, htags, rfl, -⟩ := gap_comma.last (by rfl) (by rfl)
    hfirst (countP_eq_zero_of_isWord (by rfl) hword) hz hend
  rw [List.append_nil] at hi
  refine not_isTag_number (k ++ constraint c) ?_
  rw [show (Text.ofString "R" ++ (k ++ constraint c)) = i from hi]
  exact spells_idTags htags

/-- What stands before the relationship number is the last part of a target, and that follows a point. -/
theorem not_spells_tagsFirst_of_target (x : Text) {a : Text} (ha : a.IsName) (ds : List Capture) :
    ¬ tagsFirst.Spells ((x ++ ("." ++ a)) ++ (", " ++ ("R" ++ (k ++ constraint c)))) ds := by
  have hword := numbered_isWord hk c
  have hfirst := (Text.bounded_of_isWord (List.cons_ne_nil _ _) hword).first_not_space
  rintro ⟨u, _, _, _, h, -, -, v, _, _, _, rfl, -, hv, i, z, _, _, rfl, -, hi, hz⟩
  have hend : (x ++ (Text.ofString "." ++ a)) ++ (Text.ofString ", " ++ (Text.ofString "R" ++ (k ++ constraint c))) =
      (u ++ (v ++ i)) ++ z := by
    simpa using h
  obtain ⟨s, r, es, hs, hr, hfront, -⟩ := gap_comma.last (by rfl) (by rfl)
    hfirst (countP_eq_zero_of_isWord (by rfl) hword) hz hend
  obtain ⟨p, _, q, rfl, hp, hq, ⟨b, hb, rfl⟩, rfl⟩ := spells_around.mp hv
  have hcut : (u ++ p) ++ b :: (q ++ (i ++ r)) = x ++ 0x2e :: (a ++ s) := by
    rw [show Text.ofString "." = [0x2e] from rfl] at hfront
    simpa using hfront
  have hzero {t s s' : Text} (hs : s.AllSpace) (ht : ∀ b ∈ t, nameByte.holds b = true) (hs' : s'.AllSpace) :
      (s ++ (t ++ s')).countP (· ∈ Text.ofString ",/.") = 0 := by
    refine countP_of_avoids (by rfl : nameByte.avoids ",/." = true) fun b hb => ?_
    simp only [List.mem_append] at hb
    rcases hb with hb | hb | hb
    · exact holds_nameByte.mpr (.inr (hs b hb))
    · exact ht b hb
    · exact holds_nameByte.mpr (.inr (hs' b hb))
  -- the sign before the last name is a comma or a slash in one reading and a point in the other
  have hseparator : b ∈ Text.ofString ",/" := by simpa [ByteClass.holds] using hb
  have hmark : decide (b ∈ Text.ofString ",/.") = true :=
    List.all_eq_true.mp (rfl : (Text.ofString ",/").all (decide <| · ∈ Text.ofString ",/.") = true) b hseparator
  obtain ⟨-, rfl, -⟩ := Text.cut_of_countP_right (k := (· ∈ Text.ofString ",/.")) hmark (by rfl)
    ((hzero hq (fun b hb => holds_nameByte.mpr (.inl ((spells_idTags hi).isWord b hb))) hr).trans
      (hzero Text.allSpace_nil (fun b hb => holds_nameByte.mpr (ha.bytes b hb)) hs).symm) hcut
  exact absurd hseparator (by decide)

end Number

end Statement

end Population

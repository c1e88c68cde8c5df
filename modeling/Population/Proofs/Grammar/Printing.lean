import Population.Model.Target
import Population.Proofs.Grammar.Choosing

namespace Population

abbrev Text.Name := {t : Text // t.IsName}

abbrev Text.Digits := {t : Text // t.IsDigits}

abbrev Text.Tag := {t : Text // t.IsTag}

structure Target.Named (t : Target) : Prop where
  subsystem : ∀ s ∈ t.subsystem, s.IsName
  cls : t.cls.IsName
  attr : t.attr.IsName

inductive DomainKind
  | modeled
  | realized
  deriving DecidableEq, Repr

def DomainKind.text : DomainKind → Text
  | .modeled => "modeled"
  | .realized => "realized"

inductive ArrowHead
  | one
  | many
  | oneConditional
  | manyConditional
  deriving DecidableEq, Repr

namespace ArrowHead

def text : ArrowHead → Text
  | .one => ">"
  | .many => ">>"
  | .oneConditional => ">0"
  | .manyConditional => ">>0"

def multiplicity : ArrowHead → Text
  | .one => "1"
  | .many => "M"
  | .oneConditional => "1c"
  | .manyConditional => "Mc"

end ArrowHead

/-- Where the tags of a reference stand: before the relationship number, behind it, or nowhere. -/
inductive TagPlace
  | before (tag : Text.Tag)
  | behind (tag : Text.Tag)
  | nowhere

/-- A statement in one of the forms in which it is written. -/
inductive Sentence
  | domain (name short : Text.Name) (kind : Option DomainKind)
  | typeDef (name base : Text.Name)
  | subsystem (name short : Text.Name) (floor ceiling : Text.Digits)
  /-- Without a number the alias must not be a tag. -/
  | classDef (name : Text.Name) (short : {a : Text.Name // ¬ a.1.IsTag})
  | numberedClass (name short : Text.Name) (number : Text.Digits)
  | typedAttribute (derived : Bool) (name type : Text.Name) (tag : Option Text.Tag)
  | identifier (derived : Bool) (name : Text.Name) (tag : Text.Tag)
  | reference (derived : Bool) (name : Text.Name) (first : {t : Target // t.Named})
      (more : List {t : Target // t.Named}) (tags : TagPlace) (number : Text.Digits) (constrained : Bool)
  | active (number : Text.Digits) (subject phrase : Text.Name) (arrow : ArrowHead) (object : Text.Name)
  | passive (subject phrase : Text.Name) (arrow : ArrowHead) (object : Text.Name)
  | superclass (number : Text.Digits) (name : Text.Name)
  | subclasses (first second : Text.Name) (more : List Text.Name)
  | bridge (client service : Text.Name)

namespace Sentence

def home : Sentence → Section
  | .domain .. => .domain
  | .typeDef .. => .types
  | .subsystem .. => .subsystem
  | .classDef .. | .numberedClass .. | .typedAttribute .. | .identifier .. | .reference .. => .classes
  | .active .. | .passive .. | .superclass .. | .subclasses .. => .relationships
  | .bridge .. => .bridges

def form : Sentence → Form
  | .domain .. => Statement.domainForm
  | .typeDef .. => Statement.typeForm
  | .subsystem .. => Statement.subsystemForm
  | .classDef .. | .numberedClass .. => Statement.classForm
  | .typedAttribute .. | .identifier .. => Statement.attributeForm
  | .reference .. => Statement.referenceForm
  | .active .. => Statement.activeForm
  | .passive .. => Statement.passiveForm
  | .superclass .. => Statement.superclassForm
  | .subclasses .. => Statement.subclassesForm
  | .bridge .. => Statement.bridgeForm

open Statement (derivation constraint)

def relationship (number : Text.Digits) (constrained : Bool) : Text :=
  "R" ++ number.1 ++ constraint constrained

def targets (first : {t : Target // t.Named}) (more : List {t : Target // t.Named}) : Text :=
  Text.join ", " ((first :: more).map (·.1.toText))

def text : Sentence → Text
  | .domain n a none => n.1 ++ " / " ++ a.1
  | .domain n a (some k) => n.1 ++ " / " ++ a.1 ++ " / " ++ k.text
  | .typeDef n b => n.1 ++ " : " ++ b.1
  | .subsystem n a f c => n.1 ++ " / " ++ a.1 ++ " " ++ f.1 ++ "-" ++ c.1
  | .classDef n a => n.1 ++ " / " ++ a.1.1
  | .numberedClass n a k => n.1 ++ " / " ++ a.1 ++ " / " ++ k.1
  | .typedAttribute d n t none => derivation d ++ n.1 ++ " : " ++ t.1
  | .typedAttribute d n t (some i) => derivation d ++ n.1 ++ " : " ++ t.1 ++ " / " ++ i.1
  | .identifier d n i => derivation d ++ n.1 ++ " / " ++ i.1
  | .reference d n t ts (.before i) k c =>
    derivation d ++ n.1 ++ " -> " ++ targets t ts ++ ", " ++ i.1 ++ ", " ++ relationship k c
  | .reference d n t ts (.behind i) k c =>
    derivation d ++ n.1 ++ " -> " ++ targets t ts ++ ", " ++ relationship k c ++ ", " ++ i.1
  | .reference d n t ts .nowhere k c => derivation d ++ n.1 ++ " -> " ++ targets t ts ++ ", " ++ relationship k c
  | .active k a p m b => "R" ++ k.1 ++ " : " ++ a.1 ++ " / " ++ p.1 ++ " " ++ m.text ++ " " ++ b.1
  | .passive a p m b => a.1 ++ " / " ++ p.1 ++ " " ++ m.text ++ " " ++ b.1
  | .superclass k s => "R" ++ k.1 ++ " : " ++ s.1 ++ " <"
  | .subclasses s t more => Text.join " | " ((s :: t :: more).map (·.1))
  | .bridge x y => x.1 ++ " -> " ++ y.1

def flag (name : Text) (present : Bool) : List Capture :=
  if present then [⟨name, "true"⟩] else []

/-- The components that are written, as the transform of the form leaves them. -/
def components : Sentence → List Capture
  | .domain n a k => [⟨"name", n.1⟩, ⟨"alias", a.1⟩] ++ (k.map fun k => ⟨"type", k.text⟩).toList
  | .typeDef n b => [⟨"name", n.1⟩, ⟨"base", b.1⟩]
  | .subsystem n a f c => [⟨"name", n.1⟩, ⟨"alias", a.1⟩, ⟨"floor", f.1⟩, ⟨"ceiling", c.1⟩]
  | .classDef n a => [⟨"name", n.1⟩, ⟨"alias", a.1.1⟩]
  | .numberedClass n a k => [⟨"name", n.1⟩, ⟨"alias", a.1⟩, ⟨"cnum", k.1⟩]
  | .typedAttribute d n t i => flag "derived" d ++ [⟨"name", n.1⟩, ⟨"type", t.1⟩] ++ (i.map fun i => ⟨"id", i.1⟩).toList
  | .identifier d n i => flag "derived" d ++ [⟨"name", n.1⟩, ⟨"id", i.1⟩]
  | .reference d n t ts tags k c =>
    flag "derived" d ++ [⟨"name", n.1⟩, ⟨"to_attrs", targets t ts⟩] ++
      match tags with
      | .before i => [⟨"id", i.1⟩, ⟨"rnum", k.1⟩] ++ flag "constrained" c
      | .behind i => [⟨"rnum", k.1⟩] ++ flag "constrained" c ++ [⟨"id", i.1⟩]
      | .nowhere => [⟨"rnum", k.1⟩] ++ flag "constrained" c
  | .active k a p m b =>
    [⟨"rnum", k.1⟩, ⟨"a_class", a.1⟩, ⟨"a_phrase", p.1⟩, ⟨"a_mult", m.multiplicity⟩, ⟨"p_class", b.1⟩]
  | .passive a p m b => [⟨"p_view", a.1⟩, ⟨"p_phrase", p.1⟩, ⟨"p_mult", m.multiplicity⟩, ⟨"a_view", b.1⟩]
  | .superclass k s => [⟨"rnum", k.1⟩, ⟨"superclass", s.1⟩]
  | .subclasses s t more => [⟨"subclasses", Text.join " | " ((s :: t :: more).map (·.1))⟩]
  | .bridge x y => [⟨"client", x.1⟩, ⟨"service", y.1⟩]

def lists : Sentence → List (Text × List Text)
  | .subclasses s t more => [("subclasses", (s :: t :: more).map (·.1))]
  | _ => []

open Pattern Statement

/-- The form of a sentence takes its line, with captures of which the transform makes the components. -/
def Taken (l : Sentence) : Prop :=
  ∃ raw, matchLine l.home.name l.text = .ok ⟨l.form, raw⟩ ∧
    Capture.transform l.form.transform raw = (l.components, none)

theorem formsOf_domain : formsOf Section.domain.name = [domainForm] := rfl

theorem formsOf_types : formsOf Section.types.name = [typeForm] := rfl

theorem formsOf_subsystem : formsOf Section.subsystem.name = [subsystemForm] := rfl

theorem formsOf_classes : formsOf Section.classes.name = [referenceForm, attributeForm, classForm] := rfl

theorem formsOf_relationships :
    formsOf Section.relationships.name = [activeForm, passiveForm, superclassForm, subclassesForm] := rfl

theorem formsOf_bridges : formsOf Section.bridges.name = [bridgeForm] := rfl

theorem reads_kind (k : DomainKind) :
    (group "type" (.alt (.literal "modeled") (.literal "realized"))).Reads k.text [⟨"type", k.text⟩] := by
  have hword : ∀ k : DomainKind, k.text ≠ [] ∧ ∀ b ∈ k.text, Text.isWord b = true := by
    intro k
    cases k <;> exact ⟨List.cons_ne_nil _ _, List.all_eq_true.mp rfl⟩
  refine (Holds.group (by rfl) (by rfl) (Text.bounded_of_isWord (hword k).1 (hword k).2) ⟨[], ?_⟩).reads
  cases k
  · exact .inl (spells_literal.mpr ⟨rfl, rfl⟩)
  · exact .inr (spells_literal.mpr ⟨rfl, rfl⟩)

theorem taken_of_reads {l : Sentence} (before : List Form) {after : List Form} (earlier : List Pattern)
    {later : List Pattern} {p : Pattern} {t : Text} {raw : List Capture}
    (hforms : formsOf l.home.name = before ++ l.form :: after) (hpatterns : l.form.patterns = earlier ++ p :: later)
    (htext : l.text = t) (hnone : ∀ q ∈ before.flatMap (·.patterns) ++ earlier, ∀ ds, ¬ q.Spells t ds)
    (h : p.Reads t raw) (htransform : Capture.transform l.form.transform raw = (l.components, none)) : l.Taken :=
  ⟨raw, htext ▸ matchLine_of_reads before earlier hforms hpatterns hnone h, htransform⟩

theorem named_slash (field : Text) : ((named field).marks? "/").isSome = true :=
  (by rfl : ((named []).marks? "/").isSome = true)

theorem taken_domain (n a : Text.Name) (kind : Option DomainKind) : (Sentence.domain n a kind).Taken := by
  have hname := holds_named "name" n.2
  cases kind with
  | none =>
      have hread := Reads.field hname gap_slash (.inl (named_slash _)) (by rfl) (by rfl)
        (reads_name_alone "alias" a.2 (q := group "type" (.alt (.literal "modeled") (.literal "realized")))
          (by rfl))
      exact taken_of_reads [] [] formsOf_domain rfl (by simp only [text, List.append_assoc]) (by simp) hread rfl
  | some k =>
      have hread := Reads.field hname gap_slash (.inl (named_slash _)) (by rfl) (by rfl)
        (reads_name_with "alias" a.2 (by rfl) (by rfl) (reads_kind k))
      exact taken_of_reads [] [] formsOf_domain rfl (by simp only [text, List.append_assoc]) (by simp) hread rfl

theorem taken_typeDef (n b : Text.Name) : (Sentence.typeDef n b).Taken := by
  have hread := Reads.field (holds_named "name" n.2) gap_colon (.inl (by rfl)) (by rfl)
    (by rfl) (.last (holds_named "base" b.2))
  exact taken_of_reads [] [] formsOf_types rfl (by simp only [text, List.append_assoc]) (by simp) hread rfl

theorem taken_subsystem (n a : Text.Name) (f c : Text.Digits) : (Sentence.subsystem n a f c).Taken := by
  have hread := Reads.field (holds_named "name" n.2) gap_slash (.inl (named_slash _)) (by rfl)
    (by rfl) (reads_alias a.2 f.2 c.2)
  exact taken_of_reads [] [] formsOf_subsystem rfl (by simp only [text, List.append_assoc]) (by simp) hread rfl

theorem taken_bridge (x y : Text.Name) : (Sentence.bridge x y).Taken := by
  have hread := Reads.field (holds_named "client" x.2) gap_arrow (.inl (by rfl)) (by rfl)
    (by rfl) (.last (holds_named "service" y.2))
  exact taken_of_reads [] [] formsOf_bridges rfl (by simp only [text, List.append_assoc]) (by simp) hread rfl

theorem taken_class {l : Sentence} (hhome : l.home = .classes) (hform : l.form = classForm) {n y : Text}
    (hn : n.IsName) {x z : Text} {cs : List Capture} (htext : l.text = n ++ (" / " ++ y))
    (hread : (nameWith "alias" (.group "cnum" digits)).Reads y cs) (hlast : n ++ (" / " ++ y) = x ++ (" / " ++ z))
    (hfirst : ∀ b ∈ z.head?, Text.isSpace b = false) (hbytes : ∀ b ∈ z, nameByte.holds b = true) (htag : ¬ z.IsTag)
    (hcomponents : l.components = ⟨"name", n⟩ :: cs) : l.Taken := by
  have hclass := Reads.field (holds_named "name" hn) gap_slash (.inl (named_slash _)) (by rfl)
    (by rfl) hread
  refine taken_of_reads [referenceForm, attributeForm] [] (by rw [hhome, hform]; exact formsOf_classes)
    (by rw [hform]; rfl) htext ?_ hclass (by rw [hform, hcomponents]; rfl)
  intro q hq ds
  have hq : q ∈ [tagsFirst, tagsLast, untagged, typedTagged, typedOnly] ++ [taggedOnly] := hq
  rcases List.mem_append.mp hq with hq | hq
  · exact not_spells_of_all_apart (by rfl) hclass q hq ds
  · rw [List.mem_singleton.mp hq, hlast]
    exact not_spells_taggedOnly hfirst hbytes htag ds

theorem taken_classDef (n : Text.Name) (a : {a : Text.Name // ¬ a.1.IsTag}) : (Sentence.classDef n a).Taken :=
  taken_class rfl rfl n.2 (by simp only [text, List.append_assoc]) (reads_name_alone "alias" a.1.2 (by rfl))
    rfl a.1.2.first_not_space (fun b hb => holds_nameByte.mpr (a.1.2.bytes b hb)) a.2 rfl

theorem taken_numberedClass (n a : Text.Name) (k : Text.Digits) : (Sentence.numberedClass n a k).Taken := by
  have hnumber := reads_name_with "alias" a.2 (by rfl) (by rfl) (holds_digits "cnum" k.2).reads
  refine taken_class rfl rfl n.2 (by simp only [text, List.append_assoc]) hnumber (x := n.1 ++ (" / " ++ a.1))
    (z := k.1) (by simp only [List.append_assoc]) k.2.bounded.first_not_space
    (fun b hb => holds_nameByte.mpr (.inl (Text.isWord_of_isDigit (k.2.digits b hb)))) ?_ rfl
  rintro ⟨ds, h, -⟩
  have hletter := k.2.digits 0x49 (h ▸ List.mem_cons_self)
  exact absurd hletter (by decide)

theorem taken_typedAttribute (d : Bool) (n t : Text.Name) (i : Option Text.Tag) :
    (Sentence.typedAttribute d n t i).Taken := by
  have hname := holds_attributeName n.2 d
  cases i with
  | none =>
      have hread := Reads.field hname gap_colon (.inl (by rfl)) (by rfl) (by rfl)
        (.last (holds_named "type" t.2))
      exact taken_of_reads [referenceForm] [typedTagged] formsOf_classes attributeForm_patterns
        (by simp only [text, List.append_assoc]) (not_spells_of_all_apart (by rfl) hread) hread (by cases d <;> rfl)
  | some i =>
      have htype := Reads.field (holds_named "type" t.2) gap_slash (.inl (named_slash _)) (by rfl)
        (by rfl) (.last (holds_idTags i.2))
      have hread := Reads.field hname gap_colon (.inl (by rfl)) (by rfl) (by rfl) htype
      exact taken_of_reads [referenceForm] [] formsOf_classes attributeForm_patterns
        (by simp only [text, List.append_assoc]) (not_spells_of_all_apart (by rfl) hread) hread (by cases d <;> rfl)

theorem taken_identifier (d : Bool) (n : Text.Name) (i : Text.Tag) : (Sentence.identifier d n i).Taken := by
  have hread := Reads.field (holds_attributeName n.2 d) gap_slash (.inl (by rfl)) (by rfl)
    (by rfl) (.last (holds_idTags i.2))
  exact taken_of_reads [referenceForm] [typedTagged, typedOnly] formsOf_classes attributeForm_patterns
    (by simp only [text, List.append_assoc]) (not_spells_of_all_apart (by rfl) hread) hread
    (by cases d <;> rfl)

theorem toText_bounded {t : Target} (h : t.Named) : t.toText.Bounded := by
  have hplace : (t.cls ++ Text.ofString "." ++ t.attr).Bounded := by
    rw [List.append_assoc]
    exact h.cls.toBounded.append _ h.attr.toBounded
  rw [Target.toText]
  cases hs : t.subsystem with
  | none => exact hplace
  | some s =>
      simp only [List.append_assoc] at hplace ⊢
      exact (h.subsystem s hs).toBounded.append _ hplace

theorem toText_bytes {t : Target} (h : t.Named) : ∀ b ∈ t.toText, targetByte.holds b = true := by
  have hname {x : Text} (hx : x.IsName) : ∀ b ∈ x, targetByte.holds b = true := by
    intro b hb
    simp only [targetByte, ByteClass.holds, Bool.or_eq_true]
    exact .inl (by simpa [nameByte, ByteClass.holds] using hx.bytes b hb)
  have hsigns : ∀ b ∈ (Text.ofString "." ++ Text.ofString "::"), targetByte.holds b = true :=
    List.all_eq_true.mp rfl
  intro b hb
  rw [Target.toText] at hb
  cases hs : t.subsystem with
  | none =>
      simp only [hs, List.mem_append] at hb
      rcases hb with (hb | hb) | hb
      · exact hname h.cls b hb
      · exact hsigns b (List.mem_append_left _ hb)
      · exact hname h.attr b hb
  | some s =>
      simp only [hs, List.mem_append] at hb
      rcases hb with (hb | hb) | (hb | hb) | hb
      · exact hname (h.subsystem s hs) b hb
      · exact hsigns b (List.mem_append_right _ hb)
      · exact hname h.cls b hb
      · exact hsigns b (List.mem_append_left _ hb)
      · exact hname h.attr b hb

theorem toText_end {t : Target} (h : t.Named) : ∃ x a : Text, t.toText = x ++ ("." ++ a) ∧ a.IsName := by
  rw [Target.toText]
  cases t.subsystem with
  | none => exact ⟨t.cls, t.attr, by simp, h.attr⟩
  | some s => exact ⟨s ++ "::" ++ t.cls, t.attr, by simp, h.attr⟩

theorem targets_end (t : {t : Target // t.Named}) (ts : List {t : Target // t.Named}) :
    ∃ x a : Text, targets t ts = x ++ ("." ++ a) ∧ a.IsName := by
  induction ts generalizing t with
  | nil => simpa [targets, Text.join, List.intercalate] using toText_end t.2
  | cons u us ih =>
      obtain ⟨x, a, hx, ha⟩ := ih u
      refine ⟨t.1.toText ++ (", " ++ x), a, ?_, ha⟩
      have hcons : targets t (u :: us) = t.1.toText ++ (", " ++ targets u us) := Text.join_cons_cons ..
      rw [hcons, hx]
      simp only [List.append_assoc]

theorem targets_bytes (t : {t : Target // t.Named}) (ts : List {t : Target // t.Named}) :
    ∀ b ∈ targets t ts, targetByte.holds b = true := by
  have hcomma : ∀ b ∈ Text.ofString ", ", targetByte.holds b = true := List.all_eq_true.mp rfl
  induction ts generalizing t with
  | nil => simpa [targets, Text.join, List.intercalate] using toText_bytes t.2
  | cons u us ih =>
      have hcons : targets t (u :: us) = t.1.toText ++ (", " ++ targets u us) := Text.join_cons_cons ..
      intro b hb
      simp only [hcons, List.mem_append] at hb
      rcases hb with hb | hb | hb
      · exact toText_bytes t.2 b hb
      · exact hcomma b hb
      · exact ih u b hb

theorem holds_targets (t : {t : Target // t.Named}) (ts : List {t : Target // t.Named}) :
    (group "to_attrs" targetsText).Holds (targets t ts) [⟨"to_attrs", targets t ts⟩] := by
  have hbounded : (targets t ts).Bounded := by
    refine bounded_join fun x hx => ?_
    obtain ⟨u, -, rfl⟩ := List.mem_map.mp (show x ∈ (t :: ts).map (·.1.toText) from hx)
    exact toText_bounded u.2
  exact .group rfl rfl hbounded ⟨[], spells_word_run hbounded.first (targets_bytes t ts) true⟩

/-- A reference is read up to the comma behind its targets, if it is fixed how many commas follow. -/
theorem reads_reference (d : Bool) (n : Text.Name) (t : {t : Target // t.Named}) (ts : List {t : Target // t.Named})
    {q : Pattern} {y : Text} {cs : List Capture} (hmarks : (q.marks? ",/").isSome = true) (hq : q.solid = true)
    (hfirm : q.firm = true) (h : q.Reads y cs) : (Pattern.seq referenceTo (.seq commaOrSlash q)).Reads
      ((derivation d ++ n.1) ++ (" -> " ++ (targets t ts ++ (", " ++ y))))
      ((derivationFlag d ++ [⟨"name", n.1⟩]) ++ ([⟨"to_attrs", targets t ts⟩] ++ cs)) := by
  have htargets := Reads.field (holds_targets t ts) gap_comma (.inr hmarks) hq hfirm h
  refine .congr (ways_all_seq _ _) (.field (holds_attributeName n.2 d) gap_arrow (.inl (by rfl)) ?_ ?_ htargets)
  · exact gap_comma.around_solid hq
  · rfl

theorem reads_number (k : Text.Digits) (c : Bool) : (Pattern.all [relationshipNumber, constrained]).Reads
    ("R" ++ (k.1 ++ constraint c)) (⟨"rnum", k.1⟩ :: constraintFlag c) :=
  .congr (fun pos t => (ways_seq_assoc relationshipNumber constrained .empty pos t).symm) (.last (holds_numbered k.2 c))

theorem taken_reference (d : Bool) (n : Text.Name) (t : {t : Target // t.Named})
    (ts : List {t : Target // t.Named}) (tags : TagPlace) (k : Text.Digits) (c : Bool) :
    (Sentence.reference d n t ts tags k c).Taken := by
  have hnumber := reads_number k c
  cases tags with
  | before i =>
      have htail := Reads.field (holds_idTags i.2) gap_comma (.inl (by rfl)) (by rfl)
        (by rfl) hnumber
      have hread := reads_reference d n t ts (by rfl) (by rfl) (by rfl) htail
      refine taken_of_reads [] [] formsOf_classes referenceForm_patterns
        (by simp only [text, relationship, List.append_assoc]) (by simp) hread (by cases d <;> cases c <;> rfl)
  | behind i =>
      have htail := Reads.field (holds_numbered k.2 c) gap_comma (.inl (by rfl)) (by rfl)
        (by rfl) (.last (holds_idTags i.2))
      have hread := reads_reference d n t ts (q := .all [relationshipNumber, constrained, commaOrSlash, idTags])
        (by rfl) (by rfl) (by rfl)
        (.congr (fun pos t => (ways_seq_assoc relationshipNumber constrained _ pos t).symm) htail)
      refine taken_of_reads [] [tagsFirst] formsOf_classes referenceForm_patterns
        (by simp only [text, relationship, List.append_assoc]) ?_ hread (by cases d <;> cases c <;> rfl)
      intro q hq ds
      rw [List.mem_singleton.mp hq]
      -- the pattern before does not take the line, for the line ends with a tag
      have hspells := not_spells_tagsFirst
        (x := (derivation d ++ n.1) ++ (" -> " ++ (targets t ts ++ (", " ++ ("R" ++ (k.1 ++ constraint c)))))) i.2 ds
      simpa only [List.append_assoc] using hspells
  | nowhere =>
      have hread := reads_reference d n t ts (by rfl) (by rfl) (by rfl) hnumber
      refine taken_of_reads [] [tagsFirst, tagsLast] formsOf_classes referenceForm_patterns
        (by simp only [text, relationship, List.append_assoc]) ?_ hread (by cases d <;> cases c <;> rfl)
      intro q hq ds
      have hq : q ∈ [tagsFirst, tagsLast] := hq
      rcases List.mem_pair.mp hq with rfl | rfl
      · obtain ⟨x, a, hx, ha⟩ := targets_end t ts
        have hspells := not_spells_tagsFirst_of_target k.2 c ((derivation d ++ n.1) ++ (" -> " ++ x)) ha ds
        rw [hx]
        simpa only [List.append_assoc] using hspells
      · have hspells := not_spells_tagsLast k.2 c ((derivation d ++ n.1) ++ (" -> " ++ targets t ts)) ds
        simpa only [List.append_assoc] using hspells

theorem arrowHead_mem (m : ArrowHead) : m.text ∈ Capture.multiplicities.map (·.1) := by
  cases m <;> decide

theorem reads_perspective (subject phrase mult object : Text) (a p : Text.Name) (m : ArrowHead) (b : Text.Name) :
    (perspective subject phrase mult object).Reads (a.1 ++ (" / " ++ (p.1 ++ (" " ++ (m.text ++ (" " ++ b.1))))))
      [⟨subject, a.1⟩, ⟨phrase, p.1⟩, ⟨mult, m.text⟩, ⟨object, b.1⟩] :=
  .field (holds_named subject a.2) gap_slash (.inl (named_slash _)) rfl rfl
    (reads_phrase phrase mult object p.2 (arrowHead_mem m) b.2)

theorem reads_relationship (k : Text.Digits) {q : Pattern} {y : Text} {cs : List Capture} (hq : q.solid = true)
    (hfirm : q.firm = true) (h : q.Reads y cs) :
    (Pattern.seq Statement.relationship q).Reads (("R" ++ k.1) ++ (" : " ++ y)) (⟨"rnum", k.1⟩ :: cs) :=
  .congr (ways_seq_assoc relationshipNumber colon q)
    (.field (holds_relationshipNumber k.2) gap_colon (.inl (by rfl)) hq hfirm h)

theorem taken_active (k : Text.Digits) (a p : Text.Name) (m : ArrowHead) (b : Text.Name) :
    (Sentence.active k a p m b).Taken := by
  have hread := reads_relationship k (by rfl) (by rfl)
    (reads_perspective "a_class" "a_phrase" "a_mult" "p_class" a p m b)
  exact taken_of_reads [] [] formsOf_relationships rfl (by simp only [text, List.append_assoc]) (by simp) hread
    (by cases m <;> rfl)

theorem taken_passive (a p : Text.Name) (m : ArrowHead) (b : Text.Name) : (Sentence.passive a p m b).Taken := by
  have hread := reads_perspective "p_view" "p_phrase" "p_mult" "a_view" a p m b
  exact taken_of_reads [activeForm] [] formsOf_relationships rfl (by simp only [text, List.append_assoc])
    (not_spells_of_all_apart (by rfl) hread) hread (by cases m <;> rfl)

theorem taken_superclass (k : Text.Digits) (s : Text.Name) : (Sentence.superclass k s).Taken := by
  have hread := reads_relationship k (by rfl) (by rfl) (reads_superclass s.2)
  exact taken_of_reads [activeForm, passiveForm] [] formsOf_relationships rfl (by simp only [text, List.append_assoc])
    (not_spells_of_all_apart (by rfl) hread) hread rfl

theorem names_of_map (xs : List Text.Name) : ∀ x ∈ xs.map (·.1), x.IsName := by
  intro x hx
  obtain ⟨n, -, rfl⟩ := List.mem_map.mp hx
  exact n.2

theorem taken_subclasses (s t : Text.Name) (more : List Text.Name) : (Sentence.subclasses s t more).Taken := by
  have hread := reads_subclasses (names_of_map (s :: t :: more))
  exact taken_of_reads [activeForm, passiveForm, superclassForm] [] formsOf_relationships rfl rfl
    (not_spells_of_all_apart (by rfl) hread) hread rfl

theorem taken (l : Sentence) : l.Taken := by
  cases l with
  | domain n a kind => exact taken_domain n a kind
  | typeDef n b => exact taken_typeDef n b
  | subsystem n a f c => exact taken_subsystem n a f c
  | classDef n a => exact taken_classDef n a
  | numberedClass n a k => exact taken_numberedClass n a k
  | typedAttribute d n t i => exact taken_typedAttribute d n t i
  | identifier d n i => exact taken_identifier d n i
  | reference d n t ts tags k c => exact taken_reference d n t ts tags k c
  | active k a p m b => exact taken_active k a p m b
  | passive a p m b => exact taken_passive a p m b
  | superclass k s => exact taken_superclass k s
  | subclasses s t more => exact taken_subclasses s t more
  | bridge x y => exact taken_bridge x y

theorem split_lists (l : Sentence) : ∀ list ∈ l.lists, ∃ c ∈ l.components, c.name = list.1 ∧
    l.form.split c.name c.text = list.2 := by
  intro list hlist
  cases l with
  | subclasses s t more =>
      rw [List.mem_singleton.mp hlist]
      refine ⟨_, List.mem_singleton.mpr rfl, rfl, ?_⟩
      exact split_join (names_of_map (s :: t :: more))
  | _ => cases hlist

/-- A statement that is written is read back: it is no section header, its own form takes it in its section, and the
transform leaves exactly the components that were written, the lists among them with exactly their items. -/
theorem read_back (l : Sentence) : Section.header? l.text = none ∧
    ∃ m, matchLine l.home.name l.text = .ok m ∧ m.form = l.form ∧
      Capture.transform m.form.transform m.captures = (l.components, none) ∧
      ∀ list ∈ l.lists, ∃ c ∈ l.components, c.name = list.1 ∧ m.form.split c.name c.text = list.2 := by
  obtain ⟨raw, hmatch, htransform⟩ := l.taken
  exact ⟨header?_of_matchLine hmatch, _, hmatch, rfl, htransform, l.split_lists⟩

end Sentence

end Population

import Population.Proofs.Compile.Lines
import Population.Proofs.Model.Identifier
import Population.Proofs.Script.Integrity

/-!
While a domain is read the model mirrors the block of its commands, so what the model checks holds of the commands:
each of them fits when it is added.
-/
namespace Population

open Identifier

/-- The model of a domain has the subsystems, classes and relationships that the block of the domain makes; its
references come from such classes, and an attribute of an identifier is made by the block or is a reference. -/
structure Mirrors (a : Analyzer) (block : List Command) : Prop where
  subsystems : subsystemsOf block = a.subsystems.map fun s => some (.text s.name)
  classes : classesOf block = a.classes.map fun c => some (.text c.name)
  numbers : numbersOf block = a.declared.map fun r => some (.ofInt r.rnum)
  wholes : ∀ r ∈ a.declared, (Number.ofInt r.rnum).toInt64? = some r.rnum
  references : ∀ r ∈ a.references, some (.text r.fromClass) ∈ classesOf block
  attributes : ∀ c ∈ a.classes, ∀ index attr, Holds c.identifiers index attr →
    (∃ d ∈ block, Attributed c.name attr d) ∨ ∃ r ∈ a.references, r.fromClass = c.name ∧ r.fromAttr = attr

namespace Mirrors

variable {a : Analyzer} {block : List Command} {c : Command} (h : Mirrors a block)
include h

theorem references_snoc (c : Command) : ∀ r ∈ a.references, some (.text r.fromClass) ∈ classesOf (block ++ [c]) :=
  fun r hr => valuesOf_mono [c] (h.references r hr)

theorem attributes_snoc (c : Command) : ∀ cls ∈ a.classes, ∀ index attr, Holds cls.identifiers index attr →
    (∃ d ∈ block ++ [c], Attributed cls.name attr d) ∨
      ∃ r ∈ a.references, r.fromClass = cls.name ∧ r.fromAttr = attr := by
  intro cls hcls index attr hholds
  rcases h.attributes cls hcls index attr hholds with ⟨d, hd, hda⟩ | href
  · exact .inl ⟨d, List.mem_append_left _ hd, hda⟩
  · exact .inr href

theorem other (hc : c.call.name ∉ makingCalls) : Mirrors a (block ++ [c]) where
  subsystems := by
    rw [subsystemsOf_snoc, if_neg (by rintro hs; rw [hs] at hc; exact hc (by decide)), List.append_nil, h.subsystems]
  classes := by
    rw [classesOf_snoc, if_neg (by rintro hs; rw [hs] at hc; exact hc (by decide)), List.append_nil, h.classes]
  numbers := by
    rw [numbersOf_snoc, if_neg fun hs => hc (List.mem_cons_of_mem _ (List.mem_cons_of_mem _ hs)), List.append_nil,
      h.numbers]
  wholes := h.wholes
  references := h.references_snoc c
  attributes := h.attributes_snoc c

theorem append_other {cs : List Command} (hcs : ∀ c ∈ cs, c.call.name ∉ makingCalls) : Mirrors a (block ++ cs) := by
  induction cs generalizing block with
  | nil => rwa [List.append_nil]
  | cons c rest ih =>
      obtain ⟨hc, hrest⟩ := List.forall_mem_cons.mp hcs
      rw [← List.singleton_append, ← List.append_assoc]
      exact ih (h.other hc) hrest

theorem subsystem {name : Text} {floor ceiling : Int} {graph : Graph} (hc : c.call.name = ("new_subsystem" : Text))
    (hn : c.value? "name" = some (.text name)) :
    Mirrors { a with subsystems := a.subsystems ++ [⟨name, floor, ceiling⟩], graph } (block ++ [c]) where
  subsystems := by
    rw [subsystemsOf_snoc, if_pos hc, h.subsystems, hn, List.map_append]
    rfl
  classes := by
    rw [classesOf_snoc, hc, if_neg (by decide), List.append_nil, h.classes]
  numbers := by
    rw [numbersOf_snoc, hc, if_neg (by decide), List.append_nil, h.numbers]
  wholes := h.wholes
  references := h.references_snoc c
  attributes := h.attributes_snoc c

theorem classDef {name subsystem : Text} {number : Int} {o : Origin} (hc : c.call.name = ("new_class" : Text))
    (hn : c.value? "name" = some (.text name)) :
    Mirrors { a with classes := a.classes ++ [⟨name, subsystem, number, [], o⟩] } (block ++ [c]) where
  subsystems := by
    rw [subsystemsOf_snoc, hc, if_neg (by decide), List.append_nil, h.subsystems]
  classes := by
    rw [classesOf_snoc, if_pos hc, h.classes, hn, List.map_append]
    rfl
  numbers := by
    rw [numbersOf_snoc, hc, if_neg (by decide), List.append_nil, h.numbers]
  wholes := h.wholes
  references := h.references_snoc c
  attributes := by
    intro cls hcls index attr hholds
    rcases List.mem_append.mp hcls with hcls | hcls
    · exact h.attributes_snoc c cls hcls index attr hholds
    · rw [List.mem_singleton.mp hcls] at hholds
      exact absurd hholds (holds_nil index attr)

theorem relationship {r : Relationship} (hc : c.call.name ∈ relationshipCalls)
    (hn : c.value? "rnum" = some (.ofInt r.rnum)) (hint : (Number.ofInt r.rnum).toInt64? = some r.rnum) :
    Mirrors { a with declared := a.declared ++ [r], last := some r } (block ++ [c]) where
  subsystems := by
    rw [subsystemsOf_snoc, if_neg (by rintro hs; rw [hs] at hc; exact absurd hc (by decide)), List.append_nil,
      h.subsystems]
  classes := by
    rw [classesOf_snoc, if_neg (by rintro hs; rw [hs] at hc; exact absurd hc (by decide)), List.append_nil,
      h.classes]
  numbers := by
    rw [numbersOf_snoc, if_pos hc, h.numbers, hn, List.map_append]
    rfl
  wholes := List.forall_mem_append.mpr ⟨h.wholes, List.forall_mem_singleton.mpr hint⟩
  references := h.references_snoc c
  attributes := h.attributes_snoc c

theorem tagged {cls : ModelClass} {attr tag : Text} {group : Group} (hcls : a.class? cls.name = some cls)
    (hg : Analyzer.tagged cls attr tag = .ok group)
    (hattr : (∃ d ∈ block, Attributed cls.name attr d) ∨ ∃ r ∈ a.references, r.fromClass = cls.name ∧ r.fromAttr = attr) :
    Mirrors (a.setIdentifiers cls.name group) block where
  subsystems := h.subsystems
  classes := by
    rw [h.classes, Analyzer.setIdentifiers, List.map_map]
    refine List.map_congr_left fun c _ => ?_
    by_cases hc : c.name = cls.name <;> simp [hc]
  numbers := h.numbers
  wholes := h.wholes
  references := h.references
  attributes := by
    intro c hc index x hholds
    obtain ⟨c₀, hc₀, rfl⟩ := List.mem_map.mp hc
    by_cases hname : c₀.name = cls.name
    · rw [if_pos hname] at hholds ⊢
      simp only [hname] at hholds ⊢
      rcases ((Analyzer.tagged_ok hg).1 index x).mp hholds with hold | ⟨-, rfl⟩
      · exact h.attributes cls (List.mem_of_find?_eq_some hcls) index x hold
      · exact hattr
    · rw [if_neg hname] at hholds ⊢
      exact h.attributes c₀ hc₀ index x hholds

theorem addReferences {refs : List PendingReference} {deps : List Dependency}
    (hrefs : ∀ r ∈ refs, some (.text r.fromClass) ∈ classesOf block) :
    Mirrors { a with references := a.references ++ refs, dependencies := deps } block where
  subsystems := h.subsystems
  classes := h.classes
  numbers := h.numbers
  wholes := h.wholes
  references := List.forall_mem_append.mpr ⟨h.references, hrefs⟩
  attributes := by
    intro c hc index attr hholds
    rcases h.attributes c hc index attr hholds with hd | ⟨r, hr, hr'⟩
    · exact .inl hd
    · exact .inr ⟨r, List.mem_append_left _ hr, hr'⟩

theorem class_mem {cls : ModelClass} (hcls : a.class? cls.name = some cls) : some (.text cls.name) ∈ classesOf block := by
  rw [h.classes]
  exact List.mem_map.mpr ⟨cls, List.mem_of_find?_eq_some hcls, rfl⟩

end Mirrors

structure Sound (a : Analyzer) (block : List Command) : Prop where
  integrity : Integrity block
  mirrors : Mirrors a block

namespace Sound

variable {a : Analyzer} {block : List Command} {c : Command} (h : Sound a block)
include h

theorem other (hm : c.call.name ∉ makingCalls) (hd : c.call.name ∉ derivedCalls) : Sound a (block ++ [c]) :=
  ⟨h.integrity.snoc (fits_of_other hm hd), h.mirrors.other hm⟩

theorem subsystem {name : Text} {floor ceiling : Int} {graph : Graph} (hc : c.call.name = ("new_subsystem" : Text))
    (hn : c.value? "name" = some (.text name)) (hnew : a.subsystem? name = none) :
    Sound { a with subsystems := a.subsystems ++ [⟨name, floor, ceiling⟩], graph } (block ++ [c]) := by
  refine ⟨h.integrity.snoc ⟨fun _ => ?_, ?_, ?_, ?_, ?_, ?_⟩, h.mirrors.subsystem hc hn⟩
  · rw [hn, h.mirrors.subsystems]
    intro hmem
    obtain ⟨s, hs, hname⟩ := List.mem_map.mp hmem
    cases hname
    simpa using List.find?_eq_none.mp hnew s hs
  all_goals
    rw [hc]
    intro hcall
    exact absurd hcall (by decide)

theorem classDef {name subsystem : Text} {number : Int} {o : Origin} (hc : c.call.name = ("new_class" : Text))
    (hn : c.value? "name" = some (.text name)) (hnew : a.class? name = none) :
    Sound { a with classes := a.classes ++ [⟨name, subsystem, number, [], o⟩] } (block ++ [c]) := by
  refine ⟨h.integrity.snoc ⟨?_, fun _ => ?_, ?_, ?_, ?_, ?_⟩, h.mirrors.classDef hc hn⟩
  case refine_2 =>
    rw [hn, h.mirrors.classes]
    intro hmem
    obtain ⟨cls, hcls, hname⟩ := List.mem_map.mp hmem
    cases hname
    simpa using List.find?_eq_none.mp hnew cls hcls
  all_goals
    rw [hc]
    intro hcall
    exact absurd hcall (by decide)

theorem relationship {r : Relationship} (hc : c.call.name ∈ relationshipCalls)
    (hn : c.value? "rnum" = some (.ofInt r.rnum)) (hint : (Number.ofInt r.rnum).toInt64? = some r.rnum)
    (hnew : a.relationship? r.rnum = none) :
    Sound { a with declared := a.declared ++ [r], last := some r } (block ++ [c]) := by
  refine ⟨h.integrity.snoc ⟨?_, ?_, fun _ => ?_, ?_, ?_, ?_⟩, h.mirrors.relationship hc hn hint⟩
  case refine_3 =>
    rw [hn, h.mirrors.numbers]
    intro hmem
    obtain ⟨r', hr', hnumber⟩ := List.mem_map.mp hmem
    -- numbers of 64 bits are told apart by their integers
    have hrnum : Number.ofInt r'.rnum = Number.ofInt r.rnum := by simpa [Value.ofInt] using hnumber
    have hint' := h.mirrors.wholes r' hr'
    rw [hrnum, hint] at hint'
    simpa using List.find?_eq_none.mp hnew r' hr' (by simpa using (Option.some.inj hint').symm)
  all_goals
    intro hcall
    rw [hcall] at hc
    exact absurd hc (by decide)

theorem ownAttribute {cls : ModelClass} {attr tag : Text} {group : Group} (hc : c.call.name = ("new_ind_attr" : Text))
    (hn : c.value? "name" = some (.text attr)) (hcc : c.value? "class" = some (.text cls.name))
    (hcls : a.class? cls.name = some cls) (hg : Analyzer.tagged cls attr tag = .ok group) :
    Sound (a.setIdentifiers cls.name group) (block ++ [c]) := by
  have hother := h.other (c := c) (by rw [hc]; decide) (by rw [hc]; decide)
  refine ⟨hother.integrity, hother.mirrors.tagged hcls hg (.inl ⟨c, ?_, .own hc hcc hn⟩)⟩
  exact List.mem_append_right _ (List.mem_singleton.mpr rfl)

theorem reference {cls : ModelClass} {attr tag : Text} {rnum : Int} {targets : List Target} {group : Group}
    {refs : List PendingReference} {deps : List Dependency} (hcls : a.class? cls.name = some cls)
    (hne : targets ≠ []) (hg : Analyzer.tagged cls attr tag = .ok group)
    (hrefs : refs.map (fun r => (r.rnum, r.fromClass, r.fromAttr, r.target)) =
      targets.map fun t => (rnum, cls.name, attr, t)) :
    Sound (Analyzer.setIdentifiers { a with references := a.references ++ refs, dependencies := deps } cls.name group)
      block := by
  have hfrom : ∀ r ∈ refs, r.fromClass = cls.name ∧ r.fromAttr = attr := by
    intro r hr
    have hmem := List.mem_map_of_mem (f := fun r : PendingReference => (r.rnum, r.fromClass, r.fromAttr, r.target)) hr
    rw [hrefs] at hmem
    obtain ⟨target, -, htarget⟩ := List.mem_map.mp hmem
    simp only [Prod.mk.injEq] at htarget
    exact ⟨htarget.2.1.symm, htarget.2.2.1.symm⟩
  have hclass := h.mirrors.class_mem hcls
  have hadded : Mirrors { a with references := a.references ++ refs, dependencies := deps } block :=
    h.mirrors.addReferences fun r hr => by
      rw [(hfrom r hr).1]
      exact hclass
  refine ⟨h.integrity, hadded.tagged hcls hg (.inr ?_)⟩
  cases refs with
  | nil => exact absurd (List.map_eq_nil_iff.mp hrefs.symm) hne
  | cons r rest => exact ⟨r, List.mem_append_right _ List.mem_cons_self, hfrom r List.mem_cons_self⟩

theorem formalized {rnum : Int} {e : Emission} (he : a.Formalizes rnum e) (hc : Emitted e c) :
    c.call.name = Analyzer.formalizeCall ∧ Formalized block c := by
  obtain ⟨first, rfl⟩ := he.emission
  obtain ⟨hrnum, hrc, hra, htc, hta, -⟩ := Analyzer.formalization_values a rnum first (a.referencesOf rnum)
  refine ⟨hc.call, ?_, (a.referencesOf rnum).map (·.fromClass), (a.referencesOf rnum).map (·.fromAttr),
    (a.referencesOf rnum).map (·.target.cls), (a.referencesOf rnum).map (·.target.attr), (hc.value _).trans hrc,
    (hc.value _).trans hra, (hc.value _).trans htc, (hc.value _).trans hta, ?_, ?_, ?_, ?_, fun cls hcls => ?_⟩
  · obtain ⟨r, hr⟩ := Option.isSome_iff_exists.mp he.declared
    refine ⟨rnum, (hc.value _).trans hrnum, ?_⟩
    rw [h.mirrors.numbers]
    refine List.mem_map.mpr ⟨r, List.mem_of_find?_eq_some hr, ?_⟩
    rw [show r.rnum = rnum by simpa using List.find?_some hr]
  · rw [List.length_map]
    exact fun hlength => he.nonempty (List.length_eq_zero_iff.mp hlength)
  · simp
  · simp
  · simp
  · rcases List.mem_append.mp hcls with hcls | hcls
    · obtain ⟨r, hr, rfl⟩ := List.mem_map.mp hcls
      exact h.mirrors.references r (List.mem_filter.mp hr).1
    · obtain ⟨r, hr, rfl⟩ := List.mem_map.mp hcls
      obtain ⟨k, hk⟩ := Option.isSome_iff_exists.mp (he.targets r hr)
      rw [h.mirrors.classes]
      refine List.mem_map.mpr ⟨k, List.mem_of_find?_eq_some hk, ?_⟩
      rw [show k.name = r.target.cls by simpa using List.find?_some hk]

theorem attributed {rels : List Emission} {cs : List Command} (hrels : List.Forall₂ a.Formalizes a.pendingNumbers rels)
    (hcs : List.Forall₂ Emitted rels cs) {k : ModelClass} (hk : k ∈ a.classes) {index : Nat} {attr : Text}
    (hholds : Holds k.identifiers index attr) : ∃ d ∈ block ++ cs, Attributed k.name attr d := by
  rcases h.mirrors.attributes k hk index attr hholds with ⟨d, hd, hda⟩ | ⟨r, hr, hclass, hattr⟩
  · exact ⟨d, List.mem_append_left _ hd, hda⟩
  · obtain ⟨e, he, hform⟩ := partner_of_left hrels (Analyzer.mem_pendingNumbers.mpr ⟨r, hr, rfl⟩)
    obtain ⟨d, hd, hemitted⟩ := partner_of_left hcs he
    obtain ⟨first, rfl⟩ := hform.emission
    obtain ⟨-, hrc, hra, -⟩ := Analyzer.formalization_values a r.rnum first (a.referencesOf r.rnum)
    have hmem : r ∈ a.referencesOf r.rnum := List.mem_filter.mpr ⟨hr, decide_eq_true rfl⟩
    obtain ⟨i, hi⟩ := List.mem_iff_getElem?.mp hmem
    refine ⟨d, List.mem_append_right _ hd, .reference (i := i) hemitted.call ((hemitted.value _).trans hrc)
      ((hemitted.value _).trans hra) ?_ ?_⟩
    · rw [List.getElem?_map, hi, Option.map_some, hclass]
    · rw [List.getElem?_map, hi, Option.map_some, hattr]

theorem identified {rels : List Emission} {cs : List Command} (hrels : List.Forall₂ a.Formalizes a.pendingNumbers rels)
    (hcs : List.Forall₂ Emitted rels cs) {k : ModelClass} (hk : k ∈ a.classes) {e : Emission}
    (he : e ∈ a.identification k) (hc : Emitted e c) : Fits (block ++ cs) c := by
  have hclass : some (.text k.name) ∈ classesOf (block ++ cs) := by
    refine valuesOf_mono cs ?_
    rw [show valuesOf "new_class" "name" block = _ from h.mirrors.classes]
    exact List.mem_map.mpr ⟨k, hk, rfl⟩
  have hcall := hc.call
  rcases List.mem_append.mp he with he | he
  · obtain ⟨⟨attrs, i⟩, hattrs, he⟩ := List.mem_flatMap.mp he
    obtain ⟨attr, hattr, rfl⟩ := List.mem_map.mp he
    obtain ⟨hcc, -, hca, -⟩ := Analyzer.idCommand_values Analyzer.addIdCall a k (i + 1) attr
    have hholds : Holds k.identifiers i attr := ⟨attrs, List.mk_mem_zipIdx_iff_getElem?.mp hattrs, hattr⟩
    exact fits_of_added hcall ((hc.value _).trans hcc) ((hc.value _).trans hca) hclass (h.attributed hrels hcs hk hholds)
  · rw [List.mem_singleton.mp he] at hc hcall
    obtain ⟨hcc, -⟩ := Analyzer.idCommand_values Analyzer.removeIdCall a k 1 placeholder
    exact fits_of_removed hcall ((hc.value _).trans hcc) hclass

theorem close {graph : Graph} {rels : List Emission} {cs : List Command}
    (hrels : List.Forall₂ a.Formalizes a.pendingNumbers rels)
    (hcs : List.Forall₂ Emitted (rels ++ a.classes.flatMap a.identification) cs) :
    Sound { a with active := false, graph } (block ++ cs) := by
  have hderived := emitted_derived hrels hcs
  have hmirrors := h.mirrors.append_other fun c hc => not_making_of_derived (hderived c hc)
  obtain ⟨cs₁, cs₂, rfl, hcs₁, hcs₂⟩ := partner_append hcs
  obtain ⟨hderived₁, hderived₂⟩ := List.forall_mem_append.mp hderived
  have hfirst : ∀ c ∈ cs₁, c.call.name ∈ derivedCalls ∧ Fits block c := by
    intro c hc
    obtain ⟨e, he, hemitted⟩ := partner_of_right hcs₁ hc
    obtain ⟨rnum, -, hform⟩ := partner_of_right hrels he
    obtain ⟨hcall, hformalized⟩ := h.formalized hform hemitted
    exact ⟨hderived₁ c hc, fits_of_formalized hcall hformalized⟩
  have hsecond : ∀ c ∈ cs₂, c.call.name ∈ derivedCalls ∧ Fits (block ++ cs₁) c := by
    intro c hc
    obtain ⟨e, he, hemitted⟩ := partner_of_right hcs₂ hc
    obtain ⟨k, hk, he⟩ := List.mem_flatMap.mp he
    exact ⟨hderived₂ c hc, h.identified hrels hcs₁ hk he hemitted⟩
  refine ⟨?_, hmirrors.subsystems, hmirrors.classes, hmirrors.numbers, hmirrors.wholes, hmirrors.references,
    hmirrors.attributes⟩
  rw [← List.append_assoc]
  exact (h.integrity.append_derived hfirst).append_derived hsecond

end Sound

theorem Attributed.call {cls attr : Text} {c : Command} (h : Attributed cls attr c) :
    c.call.name ∉ relationshipCalls := by
  cases h with
  | own hc | reference hc =>
      rw [hc]
      decide

theorem Sound.continued {a : Analyzer} {block : List Command} {tail c : Command} (h : Sound a (block ++ [tail]))
    (hcall : c.call = tail.call) (hname : tail.call.name ∈ relationshipCalls)
    (hrnum : c.value? "rnum" = tail.value? "rnum") : Sound a (block ++ [c]) := by
  obtain ⟨hsubsystems, hclasses, hnumbers⟩ := made_continued block hcall hname hrnum
  refine ⟨h.integrity.continued hcall hname hrnum, hsubsystems.trans h.mirrors.subsystems,
    hclasses.trans h.mirrors.classes, hnumbers.trans h.mirrors.numbers, h.mirrors.wholes, ?_, ?_⟩
  · rw [hclasses]
    exact h.mirrors.references
  · intro k hk index attr hholds
    rcases h.mirrors.attributes k hk index attr hholds with ⟨d, hd, hda⟩ | href
    · refine .inl ⟨d, List.mem_append_left _ ?_, hda⟩
      rcases List.mem_append.mp hd with hd | hd
      · exact hd
      · rw [List.mem_singleton.mp hd] at hda
        exact absurd hname hda.call
    · exact .inr href

end Population

import Population.Proofs.Compile.Following
import Population.Proofs.Compile.Phases

namespace Population

open Account

/-- The derived commands are those of all that is declared: every class that is made loses its placeholder, every
tagged attribute is identified and every reference is formalized. -/
structure Conserved (ds : List DomainSurvey) (cs : List Command) : Prop where
  classes : (told evicted cs).Perm (told made cs)
  tags : List.Forall₂ (fun d block => ∀ cls number attr, .tagged cls number attr ∈ d.declared →
    Identified block d.name cls number attr) ds (blocks cs)
  references : (told formalized cs).Perm (ds.flatMap fun d => toldReferences d.name d.declared)

/-- What is declared after the end of a domain are tags that the domain had before. -/
def DomainSurvey.Timely (d : DomainSurvey) : Prop :=
  ∀ x ∈ d.lapsed, x.isTag = true ∧ x ∈ d.kept

instance : DecidablePred DomainSurvey.Timely := fun d =>
  inferInstanceAs (Decidable (∀ x ∈ d.lapsed, x.isTag = true ∧ x ∈ d.kept))

namespace DomainSurvey.Timely

variable {d : DomainSurvey} (h : d.Timely) {x : Declared}
include h

theorem class?_eq (hx : x ∈ d.lapsed) : x.class? = none := by
  have htag := (h x hx).1
  cases x with
  | cls => cases htag
  | tagged | reference => rfl

theorem reference?_eq (hx : x ∈ d.lapsed) : x.reference? = none := by
  have htag := (h x hx).1
  cases x with
  | reference => cases htag
  | cls | tagged => rfl

end DomainSurvey.Timely

theorem toldReferences_append (domain : Text) (ds es : List Declared) :
    toldReferences domain (ds ++ es) = toldReferences domain ds ++ toldReferences domain es := by
  rw [toldReferences, referencesIn_append, List.map_append]
  rfl

namespace Told

variable {ds : List DomainSurvey} {cs : List Command} (h : Told ds cs)
include h

/-- What the preamble does not tell is told by the blocks. -/
theorem told_eq {α : Type} (account : Account α) (hnone : ∀ c : Command, c.Neutral → c.tells account = []) :
    told account cs = (blocks cs).flatMap (told account) := by
  have hpreamble : told account (preamble cs) = [] :=
    List.flatMap_eq_nil_iff.mpr fun c hc => hnone c (h.neutral c hc)
  conv_lhs => rw [← preamble_append_blocks cs]
  rw [told_append, hpreamble, List.nil_append, told_flatten]

theorem made_eq : told made cs = ds.flatMap fun d => toldClasses d.name d.declared := by
  rw [h.told_eq made fun c hc => hc.made]
  exact flatMap_partner h.accounted fun d block hd => hd.made

theorem evicted_eq : told evicted cs = ds.flatMap fun d => toldClasses d.name d.kept := by
  rw [h.told_eq evicted fun c hc => hc.tells_nil evicted_ofDerived]
  refine flatMap_partner h.accounted fun d block hd => ?_
  rw [← told_derivedOf evicted_ofDerived]
  exact hd.settled.classes

theorem formalized_perm : (told formalized cs).Perm (ds.flatMap fun d => toldReferences d.name d.kept) := by
  rw [h.told_eq formalized fun c hc => hc.tells_nil formalized_ofDerived]
  refine flatMap_partner_perm h.accounted fun d block hd => ?_
  rw [← told_derivedOf formalized_ofDerived]
  exact hd.settled.references

theorem timely_of_conserved (hc : Conserved ds cs) : ∀ d ∈ ds, d.Timely := by
  have hclasses := hc.classes
  rw [h.made_eq, h.evicted_eq] at hclasses
  simp only [DomainSurvey.declared, toldClasses_append] at hclasses
  have hreferences := h.formalized_perm.symm.trans hc.references
  simp only [DomainSurvey.declared, toldReferences_append] at hreferences
  intro d hd x hx
  have hclass := List.filterMap_eq_nil_iff.mp (List.map_eq_nil_iff.mp (nil_of_flatMap_perm hclasses d hd)) x hx
  have hreference := List.filterMap_eq_nil_iff.mp (List.map_eq_nil_iff.mp (nil_of_flatMap_perm hreferences d hd)) x hx
  cases x with
  | cls => cases hclass
  | reference => cases hreference
  | tagged cls number attr =>
      obtain ⟨block, haccounted, htags⟩ := common_partner h.accounted hc.tags hd
      have hidentified := htags cls number attr (List.mem_append_right _ hx)
      have hmem := List.one_le_count_iff.mp hidentified.once.ge
      rw [← told_derivedOf identified_ofDerived] at hmem
      exact ⟨rfl, haccounted.settled.tagged cls number attr hmem⟩

theorem conserved_of_timely (ht : ∀ d ∈ ds, d.Timely) : Conserved ds cs := by
  have hclasses : ∀ d ∈ ds, toldClasses d.name d.declared = toldClasses d.name d.kept := fun d hd => by
    rw [toldClasses, DomainSurvey.declared, classesIn_append_of_none d.kept fun x hx => (ht d hd).class?_eq hx]
    rfl
  have hreferences : ∀ d ∈ ds, toldReferences d.name d.declared = toldReferences d.name d.kept := fun d hd => by
    rw [toldReferences, DomainSurvey.declared,
      referencesIn_append_of_none d.kept fun x hx => (ht d hd).reference?_eq hx]
    rfl
  refine ⟨?_, ?_, ?_⟩
  · rw [h.made_eq, h.evicted_eq, List.flatMap_congr hclasses]
  · refine ((List.forall₂_and_left _ _).mpr ⟨ht, h.accounted⟩).imp fun d block hd cls number attr htag => ?_
    obtain ⟨htimely, haccounted⟩ := hd
    have hkept : .tagged cls number attr ∈ d.kept := by
      rcases List.mem_append.mp htag with hkept | hlapsed
      · exact hkept
      · exact (htimely _ hlapsed).2
    exact identified_of_derivedOf (haccounted.settled.tags cls number attr hkept)
  · rw [List.flatMap_congr hreferences]
    exact h.formalized_perm

end Told

namespace Compiled

/-- The derived commands of a complete compilation are those of all that is declared if, and only if, nothing but
repeated tags is declared after the end of a domain. -/
theorem compile_conserved_iff {s : Schema} {fs : List SourceFile} (hs : Schema.default = .ok s)
    (hc : (compile s fs).ending = .complete) :
    Conserved (survey fs) (compile s fs).script.commands ↔ ∀ d ∈ survey fs, d.Timely := by
  rw [Schema.default_eq_standard] at hs
  cases hs
  obtain ⟨out, hout, hscript⟩ := compile_complete hc
  have hstart : Output.Surveyed [] .empty := ⟨rfl, .nil, nofun⟩
  have htold := (hstart.ofFiles hout).told
  rw [List.nil_append] at htold
  rw [hscript]
  exact ⟨htold.timely_of_conserved, htold.conserved_of_timely⟩

/-- A domain with a reference in an identifier, one tag of which is repeated after the bridges. -/
def repeatedTag : SourceFile :=
  .ofBytes "repeated_tag.mi" ("domain\nAir Traffic / ATC\nsubsystem\nAir Field / AF 1-50\nclasses\n" ++
    "Rank / RK\nTitle : name / I\nPilot / P\nName : name / I\nRank -> Rank.Title, R1, I2\n" ++
    "relationships\nR1: Pilot / holds > Rank\nRank / is held by >> Pilot\n" ++
    "bridges\nAir Traffic -> User Interface\ndomain\nsubsystem\nclasses\nName : name / I\n")

theorem compile_conserved_repeatedTag : Schema.default = .ok Schema.standard ∧
    (compile Schema.standard [repeatedTag]).ending = .complete ∧
    Conserved (survey [repeatedTag]) (compile Schema.standard [repeatedTag]).script.commands := by
  have hc : (compile Schema.standard [repeatedTag]).ending = .complete := by decide +kernel
  have htimely : ∀ d ∈ survey [repeatedTag], d.Timely := by decide +kernel
  exact ⟨Schema.default_eq_standard, hc, (compile_conserved_iff Schema.default_eq_standard hc).mpr htimely⟩

/-- A domain that a header ends before its last class. -/
def lateClass : SourceFile :=
  .ofBytes "late_class.mi" ("domain\nAir Traffic / ATC\nsubsystem\nAir Field / AF 1-50\nclasses\nPilot / P\n" ++
    "Name : name / I\ndomain\nsubsystem\nRunways / RW 51-99\nclasses\nRunway / R\nCode : name / I\n")

/-- The last class is made, but it keeps its placeholder. -/
theorem compile_not_conserved : Schema.default = .ok Schema.standard ∧
    (compile Schema.standard [lateClass]).ending = .complete ∧
    told made (compile Schema.standard [lateClass]).script.commands =
      toldClasses "Air Traffic" [.cls "Pilot", .cls "Runway"] ∧
    told evicted (compile Schema.standard [lateClass]).script.commands = toldClasses "Air Traffic" [.cls "Pilot"] ∧
    ¬ Conserved (survey [lateClass]) (compile Schema.standard [lateClass]).script.commands := by
  obtain ⟨hc, hmade, hevicted⟩ : (compile Schema.standard [lateClass]).ending = .complete ∧
      told made (compile Schema.standard [lateClass]).script.commands =
        toldClasses "Air Traffic" [.cls "Pilot", .cls "Runway"] ∧
      told evicted (compile Schema.standard [lateClass]).script.commands =
        toldClasses "Air Traffic" [.cls "Pilot"] := by
    decide +kernel
  refine ⟨Schema.default_eq_standard, hc, hmade, hevicted, fun h => ?_⟩
  have hlength := h.classes.length_eq
  rw [hmade, hevicted] at hlength
  cases hlength

end Compiled

end Population

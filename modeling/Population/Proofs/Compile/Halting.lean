import Population.Proofs.Compile.Phases
import Population.Proofs.Compile.Trace
import Population.Proofs.Script.Batches

/-!
The stop at which a build halts adds nothing to the script: a line hands its fields over last, and the commands that
are derived from a domain all fit their calls, so that none of them is refused after others were added.
-/
namespace Population

open Schema Building

/-- An emission gives parameters of its call only, and each of them once. -/
def Emission.Proper (e : Emission) : Prop :=
  ∃ k, standard.call? e.call = some k ∧ (∀ f ∈ e.fields, k.hasParam f.name) ∧ (e.fields.map (·.name)).Nodup

theorem Emission.proper_of_names {e : Emission} {k : Call} {names : List Text} (hk : standard.call? e.call = some k)
    (hnames : (e.fields.map (·.name)).Sublist names) (hparams : ∀ n ∈ names, k.hasParam n) (hnodup : names.Nodup) :
    e.Proper :=
  ⟨k, hk, fun _ hf => hparams _ (hnames.subset (List.mem_map_of_mem hf)), hnodup.sublist hnames⟩

theorem Script.exists_add {schema : Schema} {s : Script} {call : Text} {k : Call} {fields : List Field}
    (hopen : s.lastOpen = none) (hk : schema.call? call = some k) (scope : Option Scope) (o : Origin)
    (hparams : ∀ f ∈ fields, k.hasParam f.name) (hnodup : (fields.map (·.name)).Nodup) :
    ∃ c, add schema s (some call) scope fields o = .ok (s.append c, c) := by
  have htakes : (Command.fromScope k scope o).Takes fields := Command.takes_fromScope.mpr ⟨hparams, hnodup⟩
  have hbegin := Command.begin_ok_iff.mpr ⟨htakes, rfl⟩
  simp only [add, hopen, hk]
  exact ⟨_, bind_ok_iff.mpr ⟨_, mapError_ok_iff.mpr hbegin, rfl⟩⟩

namespace Analyzer

theorem idCommand_proper {call : Text} (hcall : call = addIdCall ∨ call = removeIdCall) (a : Analyzer) (c : ModelClass)
    (number : Nat) (attr : Text) : (idCommand call a c number attr).Proper := by
  have hall : ∀ call ∈ [addIdCall, removeIdCall], ∃ k ∈ standard.calls, standard.call? call = some k ∧
      ∀ n ∈ [("class" : Text), "id_num", "attr", "domain"], k.hasParam n := by
    decide +kernel
  obtain ⟨k, -, hk, hparams⟩ := hall call (by simpa using hcall)
  have hnodup : [("class" : Text), "id_num", "attr", "domain"].Nodup := by decide
  exact Emission.proper_of_names hk (.refl _) hparams hnodup

theorem formalization_proper (a : Analyzer) (rnum : Int) (first : PendingReference) (refs : List PendingReference) :
    (a.formalization rnum first refs).Proper := by
  have hall : ∃ k ∈ standard.calls, standard.call? formalizeCall = some k ∧ ∀ n ∈ formalizeParams, k.hasParam n := by
    decide +kernel
  obtain ⟨k, -, hk, hparams⟩ := hall
  exact Emission.proper_of_names hk (formalization_params a rnum first refs) hparams (by decide)

theorem emission_proper {a : Analyzer} {rels : List Emission} {e : Emission}
    (hrels : List.Forall₂ a.Formalizes a.pendingNumbers rels)
    (he : e ∈ rels ++ a.classes.flatMap a.identification) : e.Proper := by
  rcases derived_cases hrels he with ⟨rnum, first, -, rfl⟩ | ⟨call, c, number, attr, hcall, rfl⟩
  · exact formalization_proper ..
  · exact idCommand_proper hcall ..

end Analyzer

namespace Building

variable {b : Building} {h : Halt}

theorem addEmission_succeeds {e : Emission} (he : e.Proper) (hopen : b.out.script.lastOpen = none) :
    ∃ b', b.addEmission standard e = .ok b' := by
  obtain ⟨k, hk, hparams, hnodup⟩ := he
  obtain ⟨c, hadd⟩ := Script.exists_add hopen hk none e.origin hparams hnodup
  refine ⟨_, mapError_ok_iff.mpr (bind_ok_iff.mpr ⟨_, attempt_ok_iff.mpr (mapError_ok_iff.mpr hadd), rfl⟩)⟩

theorem addEmissions_succeed {es : List Emission} (he : ∀ e ∈ es, e.Full ∧ e.Proper)
    (hopen : b.out.script.lastOpen = none) : ∃ b', es.foldlM (addEmission standard) b = .ok b' := by
  induction es generalizing b with
  | nil => exact ⟨b, rfl⟩
  | cons e rest ih =>
      obtain ⟨⟨hfull, hproper⟩, hrest⟩ := List.forall_mem_cons.mp he
      obtain ⟨b₁, hb₁⟩ := addEmission_succeeds hproper hopen
      obtain ⟨-, -, -, hopen₁⟩ := addEmission_emitted hfull hopen hb₁
      obtain ⟨b', hb'⟩ := ih hrest hopen₁
      exact ⟨b', bind_ok_iff.mpr ⟨b₁, hb₁, hb'⟩⟩

theorem closeDomain_error_out (he : b.closeDomain standard = .error h) : h.out = b.out := by
  cases closeDomain_fails he with
  | waiting | faulty => rfl
  | refused hclose hactive hes hrefused =>
      -- the domain can be closed, and then all its commands are taken
      obtain ⟨-, rels, rfl, hrels⟩ := Analyzer.finalize_ok hactive hes
      obtain ⟨c, hc⟩ := addEmissions_succeed (b := { b with analyzer := b.analyzer.finalize.1 })
        (fun e he => ⟨(Analyzer.emission_derived hrels he).1, Analyzer.emission_proper hrels he⟩)
        (Script.close_ok_iff.mp hclose)
      cases hc.symm.trans hrefused

theorem header_error_out {l : Line} {word : Text} (he : b.header standard l word = .error h) : h.out = b.out := by
  rcases header_fails he with ⟨e, -, rfl⟩ | ⟨walker, he⟩
  · rfl
  · have hout := closeDomain_error_out he
    exact hout

theorem line_error_out {l : Line} (he : b.line standard l = .error h) : h.out = b.out := by
  obtain ⟨h', hbuilt, rfl⟩ := mapError_error_iff.mp he
  split at hbuilt
  next =>
      have hout := header_error_out hbuilt
      exact hout
  next =>
      have hout := statement_error_out hbuilt
      exact hout

theorem visit_error_out {p : Stop} (he : b.visit standard p = .error h) : h.out = b.out := by
  cases p with
  | opening f => cases he
  | line l => exact line_error_out he
  | ending => exact closeDomain_error_out he

end Building

namespace Compiled

variable {s : Schema} {fs before : List SourceFile} {file : SourceFile} {ls : List Line} {p : Stop} {h : Halt} {f : Fault}

/-- The build of files halts at a line of one of them, or at its end, after the lines before it were built. -/
structure HaltsAt (s : Schema) (fs before : List SourceFile) (file : SourceFile) (ls : List Line) (p : Stop) (h : Halt) :
    Prop where
  files : ∃ after, fs = before ++ file :: after
  follows : p.Follows file ls
  halts : ∃ b, travel s (stopsBefore before file ls) = .ok b ∧ b.visit s p = .error h

theorem exists_haltsAt (hf : (build s fs).ending = .faulty f) :
    ∃ before file ls p h, HaltsAt s fs before file ls p h ∧ h.fault = some f := by
  rw [build, ← travel_stops] at hf
  cases hstops : travel s (stops fs) with
  | ok b =>
      rw [hstops] at hf
      cases hf
  | error h =>
      rw [hstops] at hf
      have hending : (ofHalt h).ending = .faulty f := hf
      have hfault : h.fault = some f := by
        rcases ending_ofHalt h with ⟨-, hend⟩ | ⟨f', hf', hend⟩
        · rw [hend] at hending
          cases hending
        · rw [hend] at hending
          cases hending
          exact hf'
      obtain ⟨done, p, rest, b, hsplit, hdone, hhalt⟩ := foldlM_error hstops
      obtain ⟨before, file, after, rfl, ⟨rfl, rfl⟩ | ⟨ls, rfl, hp⟩⟩ := stops_split hsplit
      · cases hhalt
      · exact ⟨before, file, ls, p, h, ⟨⟨after, rfl⟩, hp, b, hdone, hhalt⟩, hfault⟩

/-- A build that halts leaves what was handed over by the step that halts, and that is what was there before it. -/
theorem HaltsAt.script (hh : HaltsAt standard fs before file ls p h) :
    (build standard fs).script = written standard (stopsBefore before file ls) := by
  obtain ⟨⟨after, rfl⟩, hp, b, hbefore, hhalt⟩ := hh
  obtain ⟨rest, hstops⟩ := hp.stops before after
  have htravel : travel standard (stopsBefore before file ls ++ p :: rest) = .error h := by
    rw [travel_append, hbefore]
    change (p :: rest).foldlM (visit standard) b = .error h
    rw [List.foldlM_cons]
    exact bind_error_iff.mpr (.inl hhalt)
  rw [← written_stops, hstops, written, htravel, written, hbefore]
  exact congrArg Output.script (visit_error_out hhalt)

/-- A line that fails adds nothing to the script, and neither does the end of a file that fails. -/
theorem build_fault_adds_nothing (hs : Schema.default = .ok s) (hf : (build s fs).ending = .faulty f) :
    (∃ before file ls p h, HaltsAt s fs before file ls p h ∧ h.fault = some f) ∧
    ∀ before file ls p h, HaltsAt s fs before file ls p h →
      (build s fs).script = written s (stopsBefore before file ls) := by
  cases hs.symm.trans Schema.default_eq_standard
  exact ⟨exists_haltsAt hf, fun before file ls p h hh => hh.script⟩

/-- A domain that cannot be closed: it has a reference of a relationship that is not declared. -/
def undeclaredBase : SourceFile :=
  .ofBytes "undeclared_base.mi" ("domain\nAir Traffic / ATC\nsubsystem\nAir Field / AF 1-50\nclasses\n" ++
    "Rank / RK\nTitle : name / I\nPilot / P\nRank -> Rank.Title, R2, I\n" ++
    "relationships\nR1: Pilot / holds > Rank\nRank / is held by >> Pilot\n")

theorem build_fault_adds_nothing_undeclared : Schema.default = .ok standard ∧
    ∃ f before file ls p h, (build standard [undeclaredBase]).ending = .faulty f ∧
      HaltsAt standard [undeclaredBase] before file ls p h ∧ h.fault = some f ∧
      (build standard [undeclaredBase]).script = written standard (stopsBefore before file ls) ∧
      (build standard [undeclaredBase]).script.commands.map (·.call.name) =
        ["new_domain", "new_subsystem", "new_class", "new_ind_attr", "new_class", "new_bin_rel"] := by
  have hbuilt : (build standard [undeclaredBase]).script.commands.map (·.call.name) =
        ["new_domain", "new_subsystem", "new_class", "new_ind_attr", "new_class", "new_bin_rel"] ∧
      (build standard [undeclaredBase]).ending ≠ .complete ∧ (build standard [undeclaredBase]).ending ≠ .abandoned := by
    decide +kernel
  obtain ⟨hcalls, hcomplete, habandoned⟩ := hbuilt
  cases hf : (build standard [undeclaredBase]).ending with
  | complete => exact absurd hf hcomplete
  | abandoned => exact absurd hf habandoned
  | faulty f =>
      obtain ⟨⟨before, file, ls, p, h, hh, hfault⟩, hscript⟩ := build_fault_adds_nothing Schema.default_eq_standard hf
      exact ⟨Schema.default_eq_standard, f, before, file, ls, p, h, rfl, hh, hfault, hscript _ _ _ _ _ hh, hcalls⟩

end Compiled

end Population

import Population.Proofs.Compile.Phases
import Population.Proofs.Compile.Placement
import Population.Proofs.Model.Analysis

/-!
The commands before the last one are always complete, for an open command takes no other after it. The last one is
looked at when a domain is closed, before the derived commands are added; so the last derived command, which takes the
placeholder from a class, is the only one that can stay open in the end.
-/
namespace Population

open Statement

/-- Every command is complete, so that an execution replays them all. -/
structure Script.Finished (script : Script) : Prop where
  complete : ∀ c ∈ script.commands, c.completed = true
  closed : script.lastOpen = none
  replayed : script.completed = script.commands

namespace Script

variable {script : Script}

theorem finished_iff (h : script.Tailed) : script.Finished ↔ script.lastOpen = none := by
  refine ⟨fun hf => hf.closed, fun hopen => ?_⟩
  have hall := h.all_complete hopen
  exact ⟨hall, hopen, List.filter_eq_self.mpr hall⟩

end Script

/-- What the command that takes the placeholder from a class is given. -/
def evictionNames : List Text :=
  ["class", "id_num", "attr", "domain"]

/-- The command that takes the placeholder needs no more than it is given. -/
def Schema.Evicts (s : Schema) : Prop :=
  ∀ k, s.call? Analyzer.removeIdCall = some k → ∀ r ∈ k.required, r ∈ evictionNames

theorem Schema.standard_evicts : Schema.standard.Evicts := by
  intro k hk
  rw [show Schema.standard.call? Analyzer.removeIdCall = some Schema.Standard.evictionCall by decide +kernel] at hk
  cases hk
  decide +kernel

def Script.EndsEvicting (script : Script) : Prop :=
  ∃ c, script.commands.getLast? = some c ∧ c.call.name = Analyzer.removeIdCall

/-- The command that an emission begins, complete or not. -/
structure Issued (s : Schema) (e : Emission) (c : Command) : Prop where
  call : s.call? e.call = some c.call
  explicit : c.explicit = e.fields.map (·.name)
  value : ∀ n, c.value? n = valueOf e.fields n

theorem Issued.name {s : Schema} {e : Emission} {c : Command} (h : Issued s e c) : c.call.name = e.call := by
  simpa using List.find?_some h.call

namespace Analyzer

variable {a : Analyzer} {e : Emission}

theorem derived_names {rels : List Emission} (hrels : List.Forall₂ a.Formalizes a.pendingNumbers rels)
    (h : e ∈ rels ++ a.classes.flatMap a.identification) : ("domain" : Text) ∈ e.fields.map (·.name) ∧
      (e.call = removeIdCall → e.fields.map (·.name) = evictionNames) := by
  have hdomain : ("domain" : Text) ∈ evictionNames := by decide
  rcases derived_cases hrels h with ⟨rnum, first, -, rfl⟩ | ⟨call, c, number, attr, -, rfl⟩
  · have hcall : formalizeCall ≠ removeIdCall := by decide
    exact ⟨by simp [formalization], fun hname => absurd hname hcall⟩
  · have hnames : (idCommand call a c number attr).fields.map (·.name) = evictionNames := rfl
    rw [hnames]
    exact ⟨hdomain, fun _ => rfl⟩

theorem exists_last_eviction {rels : List Emission} (hrels : List.Forall₂ a.Formalizes a.pendingNumbers rels)
    (hne : rels ++ a.classes.flatMap a.identification ≠ []) :
    ∃ es c, rels ++ a.classes.flatMap a.identification = es ++ [idCommand removeIdCall a c 1 Identifier.placeholder] := by
  rcases List.eq_nil_or_concat a.classes with hnil | ⟨before, c, hlast⟩
  · -- a relationship is formalized only if the classes it refers to are there
    refine absurd ?_ hne
    rw [hnil, List.flatMap_nil, List.append_nil]
    refine List.eq_nil_iff_forall_not_mem.mpr fun e he => ?_
    obtain ⟨rnum, -, hrel⟩ := partner_of_right hrels he
    obtain ⟨r, hr⟩ := List.exists_mem_of_ne_nil _ hrel.nonempty
    have hcls := hrel.targets r hr
    rw [class?, hnil] at hcls
    cases hcls
  · rw [hlast, List.concat_eq_append, List.flatMap_append, List.flatMap_singleton, identification, ← List.append_assoc,
      ← List.append_assoc]
    exact ⟨_, c, rfl⟩

end Analyzer

/-- A command that takes a placeholder is as the end of a domain has made it. -/
def Script.Evicting (s : Schema) (script : Script) : Prop :=
  ∀ c ∈ script.commands, c.call.name = Analyzer.removeIdCall →
    s.call? Analyzer.removeIdCall = some c.call ∧ ∀ n, (c.value? n).isSome ↔ n ∈ evictionNames

theorem Issued.evicting {s : Schema} {e : Emission} {c : Command} (h : Issued s e c)
    (he : e.call = Analyzer.removeIdCall → e.fields.map (·.name) = evictionNames)
    (hc : c.call.name = Analyzer.removeIdCall) :
    s.call? Analyzer.removeIdCall = some c.call ∧ ∀ n, (c.value? n).isSome ↔ n ∈ evictionNames := by
  rw [h.name] at hc
  refine ⟨hc ▸ h.call, fun n => ?_⟩
  rw [h.value, ← he hc, isSome_valueOf_iff]

structure Script.Kept (s : Schema) (script : Script) : Prop where
  tailed : script.Tailed
  evicting : script.Evicting s

namespace Script.Kept

variable {s : Schema} {script : Script} {c : Command} (h : script.Kept s)
include h

theorem append (hopen : script.lastOpen = none) (hc : c.call.name = Analyzer.removeIdCall →
    s.call? Analyzer.removeIdCall = some c.call ∧ ∀ n, (c.value? n).isSome ↔ n ∈ evictionNames) :
    (script.append c).Kept s := by
  refine ⟨h.tailed.append hopen c, fun d hd hname => ?_⟩
  rcases List.mem_append.mp hd with hd | hd
  · exact h.evicting d hd hname
  · cases List.mem_singleton.mp hd
    exact hc hname

theorem replaceLast (hc : c.call.name ≠ Analyzer.removeIdCall) : (script.replaceLast c).Kept s := by
  refine ⟨h.tailed.replaceLast c, fun d hd hname => ?_⟩
  rcases List.mem_append.mp hd with hd | hd
  · exact h.evicting d (List.dropLast_subset _ hd) hname
  · cases List.mem_singleton.mp hd
    exact absurd hname hc

/-- A script whose last command takes a placeholder is open if, and only if, the schema asks for more than is given. -/
theorem finished_iff (hlast : script.lastOpen = none ∨ script.EndsEvicting) :
    script.Finished ↔ s.Evicts ∨ ¬ script.EndsEvicting := by
  rw [Script.finished_iff h.tailed]
  constructor
  · intro hopen
    by_cases hends : script.EndsEvicting
    · obtain ⟨c, hc, hname⟩ := hends
      obtain ⟨hcall, hvalue⟩ := h.evicting c (List.mem_of_getLast? hc) hname
      refine .inl fun k hk r hr => ?_
      obtain rfl : c.call = k := Option.some.inj (hcall.symm.trans hk)
      have hcompleted := h.tailed.all_complete hopen c (List.mem_of_getLast? hc)
      exact (hvalue r).mp (Command.completed_iff.mp hcompleted r hr)
    · exact .inr hends
  · rintro (hs | hends)
    · rcases hlast with hopen | ⟨c, hc, hname⟩
      · exact hopen
      · obtain ⟨hcall, hvalue⟩ := h.evicting c (List.mem_of_getLast? hc) hname
        have hcompleted : c.completed = true :=
          Command.completed_iff.mpr fun r hr => (hvalue r).mpr (hs _ hcall r hr)
        simp [lastOpen, hc, hcompleted]
    · exact hlast.resolve_right hends

end Script.Kept

theorem Statement.forms_target : ∀ f ∈ forms, f.target ≠ some Analyzer.removeIdCall := by
  decide +kernel

namespace Building

variable {s : Schema} {b b' : Building}

theorem statement_kept {l : Line} (h : b.statement s l = .ok b') (hk : b.out.script.Kept s) : b'.out.script.Kept s := by
  obtain ⟨home, walker, m, cs, x, scope, analyzer, -, hm, -, -, -, -, hasm⟩ := statement_ok h
  have hform := (mem_forms_of_matchLine hm).1
  have hp := (assemble_placed hasm).1
  generalize b'.out.script = script' at hp
  cases hp with
  | silent => exact hk
  | begun hopen hcall =>
      refine hk.append hopen fun hname => ?_
      exact absurd (by rw [Form.target, hcall, hname]; rfl) (forms_target _ hform)
  | continued hopen ht hcall =>
      refine hk.replaceLast fun hname => ?_
      exact forms_target _ hform (by rw [ht, ← hcall, hname])

/-- An emission begins a command: one that is open already has what every emission gives. -/
theorem addEmission_issued {e : Emission} {n : Text} (hn : n ∈ e.fields.map (·.name))
    (htail : ∀ tail, b.out.script.lastOpen = some tail → n ∈ tail.explicit) (h : b.addEmission s e = .ok b') :
    b.out.script.lastOpen = none ∧ ∃ c, Issued s e c ∧ b'.out.script = b.out.script.append c := by
  obtain ⟨script, c, log, hadd, rfl⟩ := add_ok (addEmission_ok h)
  rcases Script.add_ok hadd with ⟨tail, hopen, -, hc, -⟩ | ⟨hopen, name, k, hname, hk, hc, rfl⟩
  · obtain ⟨f, hf, rfl⟩ := List.mem_map.mp hn
    exact absurd (htail tail hopen) ((Command.contribute_ok hc).2.2.1 f hf)
  · cases hname
    obtain ⟨rfl, hexplicit, hvalue⟩ := Command.begin_ok hc
    refine ⟨hopen, c, ⟨hk, hexplicit, fun n => ?_⟩, rfl⟩
    rw [hvalue]
    split <;> exact Option.or_none

theorem addEmissions_kept {es : List Emission} {n : Text} (hn : ∀ e ∈ es, n ∈ e.fields.map (·.name))
    (hevict : ∀ e ∈ es, e.call = Analyzer.removeIdCall → e.fields.map (·.name) = evictionNames)
    (htail : ∀ tail, b.out.script.lastOpen = some tail → n ∈ tail.explicit) (hk : b.out.script.Kept s)
    (h : es.foldlM (addEmission s) b = .ok b') :
    b'.out.script.Kept s ∧ ∀ e, es.getLast? = some e → ∃ c, b'.out.script.commands.getLast? = some c ∧ Issued s e c := by
  induction es generalizing b with
  | nil =>
      cases pure_ok_iff.mp h
      exact ⟨hk, nofun⟩
  | cons e rest ih =>
      rw [List.foldlM_cons] at h
      obtain ⟨b₁, hb₁, h⟩ := bind_ok_iff.mp h
      obtain ⟨hne, hnrest⟩ := List.forall_mem_cons.mp hn
      obtain ⟨he, hrest⟩ := List.forall_mem_cons.mp hevict
      obtain ⟨hopen, c, hc, hscript⟩ := addEmission_issued hne htail hb₁
      have hk₁ : b₁.out.script.Kept s := by
        rw [hscript]
        exact hk.append hopen (hc.evicting he)
      -- the command that is begun has what every emission gives, whether it stays open or not
      have htail₁ : ∀ tail, b₁.out.script.lastOpen = some tail → n ∈ tail.explicit := by
        intro tail htail
        rw [hscript] at htail
        rw [Script.lastOpen_append_eq htail, hc.explicit]
        exact hne
      obtain ⟨hk', hlast⟩ := ih hnrest hrest htail₁ hk₁ h
      refine ⟨hk', fun e' he' => ?_⟩
      cases rest with
      | nil =>
          cases he'
          cases pure_ok_iff.mp h
          exact ⟨c, by simp [hscript, Script.append], hc⟩
      | cons e₁ rest => exact hlast e' (by simpa using he')

/-- After the end of a domain nothing is open, unless the last command is one that has just taken a placeholder. -/
theorem closeDomain_kept (h : b.closeDomain s = .ok b') (hk : b.out.script.Kept s) :
    b'.out.script.Kept s ∧ (b'.out.script.lastOpen = none ∨ b'.out.script.EndsEvicting) := by
  obtain ⟨hclose, ⟨-, rfl⟩ | ⟨hactive, es, c, log, hes, hc, rfl⟩⟩ := closeDomain_ok h
  · exact ⟨hk, .inl (Script.close_ok_iff.mp hclose)⟩
  · have hopen := Script.close_ok_iff.mp hclose
    obtain ⟨⟨graph, hfinal⟩, rels, rfl, hrels⟩ := Analyzer.finalize_ok hactive hes
    rw [hfinal] at hc
    obtain ⟨hk', hlast⟩ := addEmissions_kept (b := { b with analyzer := { b.analyzer with active := false, graph } })
      (fun _ he => (Analyzer.derived_names hrels he).1) (fun _ he => (Analyzer.derived_names hrels he).2)
      (fun tail htail => by rw [hopen] at htail; cases htail) hk hc
    refine ⟨hk', ?_⟩
    by_cases hne : rels ++ b.analyzer.classes.flatMap b.analyzer.identification = []
    · rw [hne] at hc
      cases pure_ok_iff.mp hc
      exact .inl hopen
    · obtain ⟨es, cls, hends⟩ := Analyzer.exists_last_eviction hrels hne
      obtain ⟨c', hc', hissued⟩ := hlast (Analyzer.idCommand Analyzer.removeIdCall b.analyzer cls 1 Identifier.placeholder)
        (by rw [hends, List.getLast?_concat])
      exact .inr ⟨c', hc', hissued.name⟩

theorem line_kept {l : Line} (h : b.line s l = .ok b') (hk : b.out.script.Kept s) : b'.out.script.Kept s := by
  rcases line_ok h with ⟨word, -, h⟩ | ⟨-, h⟩
  · obtain ⟨home, walker, c, -, hc, rfl⟩ := header_ok h
    rcases hc with ⟨-, hc⟩ | ⟨-, rfl⟩
    · exact (closeDomain_kept hc hk).1
    · exact hk
  · exact statement_kept h hk

theorem run_kept {ls : List Line} (h : b.run s ls = .ok b') (hk : b.out.script.Kept s) :
    b'.out.script.Kept s ∧ (b'.out.script.lastOpen = none ∨ b'.out.script.EndsEvicting) := by
  obtain ⟨c, hc, hclose⟩ := run_ok h
  exact closeDomain_kept hclose (foldlM_keeps (·.out.script.Kept s) hc hk fun _ _ _ hb hline => line_kept hline hb)

end Building

theorem Output.ofFiles_kept {s : Schema} {fs : List SourceFile} {out : Output} (h : Output.ofFiles s fs = .ok out) :
    out.script.Kept s ∧ (out.script.lastOpen = none ∨ out.script.EndsEvicting) := by
  refine foldlM_keeps (fun out => out.script.Kept s ∧ (out.script.lastOpen = none ∨ out.script.EndsEvicting)) h
    ⟨⟨nofun, nofun⟩, .inl rfl⟩ fun out f out' hout hadd => ?_
  obtain ⟨b', hrun, rfl⟩ := map_ok_iff.mp hadd
  exact Building.run_kept (b := .start f.name out) hrun hout.1

namespace Compiled

/-- A build without a fault leaves nothing open if, and only if, the command that takes a placeholder needs no more
than it is given or is not the last one. -/
theorem build_finished_iff {s : Schema} {fs : List SourceFile} (hc : (build s fs).ending = .complete) :
    (build s fs).script.Finished ↔ s.Evicts ∨ ¬ (build s fs).script.EndsEvicting := by
  obtain ⟨out, hout, hscript⟩ := build_complete hc
  obtain ⟨hkept, hlast⟩ := Output.ofFiles_kept hout
  rw [hscript]
  exact hkept.finished_iff hlast

def lastClass : SourceFile :=
  .ofBytes "last_class.mi"
    "domain\nAir Traffic / ATC\nsubsystem\nAir Field / AF 1-50\nclasses\nPilot / P\nName : name / I\n"

theorem build_finished_lastClass : (build Schema.standard [lastClass]).ending = .complete ∧ Schema.standard.Evicts ∧
    (build Schema.standard [lastClass]).script.commands.length = 6 ∧
    (build Schema.standard [lastClass]).script.Finished := by
  obtain ⟨hc, hlength⟩ : (build Schema.standard [lastClass]).ending = .complete ∧
      (build Schema.standard [lastClass]).script.commands.length = 6 := by
    decide +kernel
  exact ⟨hc, Schema.standard_evicts, hlength, (build_finished_iff hc).mpr (.inl Schema.standard_evicts)⟩

/-- The lines of the default schema, but for a reason that has to be given when a placeholder is taken. -/
def demandingLines : List String :=
  Schema.defaultLines.take 52 ++ "reason:phrase," :: Schema.defaultLines.drop 52

def demanding : Schema where
  types := Schema.standard.types
  calls := Schema.standard.calls.map fun k =>
    if k.name = Analyzer.removeIdCall then
      { k with params := Schema.Standard.one "reason" Schema.Standard.phrase :: k.params }
    else k

theorem ofBytes_demanding :
    (Schema.ofBytes "demanding.mi" (Text.lines (demandingLines.map Text.ofString))).toOption = some demanding := by
  decide +kernel

theorem checkSchema_demanding : (checkSchema demanding).toOption = some () := by
  decide +kernel

/-- The build has no fault, but nothing gives the reason: the last command stays open and is not executed. -/
theorem build_not_finished :
    (Schema.ofBytes "demanding.mi" (Text.lines (demandingLines.map Text.ofString))).toOption = some demanding ∧
    (checkSchema demanding).toOption = some () ∧ (build demanding [lastClass]).ending = .complete ∧
    (build demanding [lastClass]).script.lastOpen.map (·.missing) = some [("reason" : Text)] ∧
    (build demanding [lastClass]).script.commands.length = 6 ∧
    (build demanding [lastClass]).script.completed.length = 5 ∧ ¬ (build demanding [lastClass]).script.Finished := by
  obtain ⟨hc, hopen, hlength, hcompleted⟩ : (build demanding [lastClass]).ending = .complete ∧
      (build demanding [lastClass]).script.lastOpen.map (·.missing) = some [("reason" : Text)] ∧
      (build demanding [lastClass]).script.commands.length = 6 ∧
      (build demanding [lastClass]).script.completed.length = 5 := by
    decide +kernel
  refine ⟨ofBytes_demanding, checkSchema_demanding, hc, hopen, hlength, hcompleted, ?_⟩
  intro h
  rw [h.closed] at hopen
  cases hopen

end Compiled

end Population

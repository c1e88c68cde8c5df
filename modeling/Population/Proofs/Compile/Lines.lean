import Population.Proofs.Compile.Effect
import Population.Proofs.Model.Closing
import Population.Proofs.Pairing

namespace Population

open Schema Statement

namespace Emission

def Full (e : Emission) : Prop :=
  ∃ k, standard.call? e.call = some k ∧ ∀ r ∈ k.required, r ∈ e.fields.map (·.name)

end Emission

namespace Analyzer

theorem idCommand_full {call : Text} (hcall : call = addIdCall ∨ call = removeIdCall) (a : Analyzer) (c : ModelClass)
    (number : Nat) (attr : Text) : (idCommand call a c number attr).Full := by
  have hall : ∀ call ∈ [addIdCall, removeIdCall], ∃ k ∈ standard.calls, standard.call? call = some k ∧
      ∀ r ∈ k.required, r ∈ [("class" : Text), "id_num", "attr", "domain"] := by
    decide +kernel
  obtain ⟨k, -, hk, hrequired⟩ := hall call (by simpa using hcall)
  exact ⟨k, hk, hrequired⟩

theorem formalization_full (a : Analyzer) (rnum : Int) (first : PendingReference) (refs : List PendingReference) :
    (a.formalization rnum first refs).Full := by
  have hall : ∃ k ∈ standard.calls, standard.call? formalizeCall = some k ∧ ∀ r ∈ k.required,
      r ∈ [("rnum" : Text), "ref_classes", "ref_attrs", "to_classes", "to_attrs", "domain"] := by
    decide +kernel
  obtain ⟨k, -, hk, hrequired⟩ := hall
  refine ⟨k, hk, fun r hr => ?_⟩
  have hmem := hrequired r hr
  simp only [formalization, List.map_append, List.map_cons, List.map_nil, List.mem_append, List.mem_cons,
    List.not_mem_nil, or_false] at hmem ⊢
  tauto

theorem idCommand_values (call : Text) (a : Analyzer) (c : ModelClass) (number : Nat) (attr : Text) :
    valueOf (idCommand call a c number attr).fields "class" = some (.text c.name) ∧
    valueOf (idCommand call a c number attr).fields "id_num" = some (.ofInt number) ∧
    valueOf (idCommand call a c number attr).fields "attr" = some (.text attr) ∧
    valueOf (idCommand call a c number attr).fields "domain" = some (.text a.domain) :=
  ⟨rfl, rfl, rfl, rfl⟩

/-- A command that the end of a domain derives has all that it requires, and the name of the domain. -/
theorem emission_derived {a : Analyzer} {rels : List Emission} {e : Emission}
    (hrels : List.Forall₂ a.Formalizes a.pendingNumbers rels)
    (he : e ∈ rels ++ a.classes.flatMap a.identification) :
    e.Full ∧ e.call ∈ derivedCalls ∧ valueOf e.fields "domain" = some (.text a.domain) := by
  rcases derived_cases hrels he with ⟨rnum, first, -, rfl⟩ | ⟨call, c, number, attr, hcall, rfl⟩
  · obtain ⟨-, -, -, -, -, hdomain⟩ := formalization_values a rnum first (a.referencesOf rnum)
    exact ⟨formalization_full .., List.mem_cons_self, hdomain⟩
  · obtain ⟨-, -, -, hdomain⟩ := idCommand_values call a c number attr
    refine ⟨idCommand_full hcall .., ?_, hdomain⟩
    rcases hcall with rfl | rfl <;> simp [derivedCalls, idCommand]

end Analyzer

structure Emitted (e : Emission) (c : Command) : Prop where
  call : c.call.name = e.call
  value : ∀ n, c.value? n = valueOf e.fields n
  completed : c.completed = true

theorem emitted_derived {a : Analyzer} {rels : List Emission} {cs : List Command}
    (hrels : List.Forall₂ a.Formalizes a.pendingNumbers rels)
    (hcs : List.Forall₂ Emitted (rels ++ a.classes.flatMap a.identification) cs) :
    ∀ c ∈ cs, c.call.name ∈ derivedCalls := by
  intro c hc
  obtain ⟨e, he, hemitted⟩ := partner_of_right hcs hc
  rw [hemitted.call]
  exact (Analyzer.emission_derived hrels he).2.1

namespace Building

variable {b b' : Building}

structure Extends (b b' : Building) (cs : List Command) : Prop where
  walker : b'.walker = b.walker
  scope : b'.scope = b.scope
  analyzer : b'.analyzer = b.analyzer
  commands : b'.out.script.commands = b.out.script.commands ++ cs

theorem addEmission_emitted {e : Emission} (he : e.Full) (hopen : b.out.script.lastOpen = none)
    (h : b.addEmission standard e = .ok b') :
    ∃ c, Emitted e c ∧ b.Extends b' [c] ∧ b'.out.script.lastOpen = none := by
  obtain ⟨script, c, log, hadd, rfl⟩ := add_ok (addEmission_ok h)
  rcases Script.add_ok hadd with ⟨tail, htail, -⟩ | ⟨-, name, k, hname, hk, hc, rfl⟩
  · rw [hopen] at htail
    cases htail
  · cases hname
    obtain ⟨rfl, -, hvalue⟩ := Command.begin_ok hc
    have hvalue (n : Text) : c.value? n = valueOf e.fields n := by
      rw [hvalue]
      split <;> exact Option.or_none
    obtain ⟨k', hk', hrequired⟩ := he
    rw [hk] at hk'
    obtain rfl := Option.some.inj hk'
    have hdone : c.completed = true := by
      refine Command.completed_iff.mpr fun n hn => ?_
      rw [hvalue]
      exact isSome_valueOf_iff.mpr (hrequired n hn)
    refine ⟨c, ⟨by simpa using List.find?_some hk, hvalue, hdone⟩, ⟨rfl, rfl, rfl, rfl⟩, ?_⟩
    rw [Script.lastOpen_append, if_pos hdone]

theorem addEmissions_emitted {es : List Emission} (he : ∀ e ∈ es, e.Full) (hopen : b.out.script.lastOpen = none)
    (h : es.foldlM (addEmission standard) b = .ok b') :
    ∃ cs, List.Forall₂ Emitted es cs ∧ b.Extends b' cs ∧ b'.out.script.lastOpen = none := by
  induction es generalizing b with
  | nil =>
      cases pure_ok_iff.mp h
      exact ⟨[], .nil, ⟨rfl, rfl, rfl, by simp⟩, hopen⟩
  | cons e rest ih =>
      rw [List.foldlM_cons] at h
      obtain ⟨b₁, hb₁, h⟩ := bind_ok_iff.mp h
      obtain ⟨hhead, hrest⟩ := List.forall_mem_cons.mp he
      obtain ⟨c, hc, hext, hopen₁⟩ := addEmission_emitted hhead hopen hb₁
      obtain ⟨cs, hcs, hext', hopen'⟩ := ih hrest hopen₁ h
      refine ⟨c :: cs, .cons hc hcs, ⟨?_, ?_, ?_, ?_⟩, hopen'⟩
      · rw [hext'.walker, hext.walker]
      · rw [hext'.scope, hext.scope]
      · rw [hext'.analyzer, hext.analyzer]
      · rw [hext'.commands, hext.commands, List.append_assoc, List.singleton_append]

/-- What the end of a domain does to a build: nothing if the domain is closed already, else it adds the commands
that are derived from the domain. -/
inductive Closes (b b' : Building) : Prop
  | idle (hactive : b.analyzer.active = false) (hext : b.Extends b' [])
  | emits {graph : Graph} {rels : List Emission} {cs : List Command} (hactive : b.analyzer.active = true)
      (hrels : List.Forall₂ b.analyzer.Formalizes b.analyzer.pendingNumbers rels)
      (hcs : List.Forall₂ Emitted (rels ++ b.analyzer.classes.flatMap b.analyzer.identification) cs)
      (hext : { b with analyzer := { b.analyzer with active := false, graph } }.Extends b' cs)

theorem closeDomain_closes (h : b.closeDomain standard = .ok b') :
    b.out.script.lastOpen = none ∧ b'.out.script.lastOpen = none ∧ b.Closes b' := by
  obtain ⟨hclose, ⟨hactive, rfl⟩ | ⟨hactive, es, c, log, hes, hc, rfl⟩⟩ := closeDomain_ok h
  · have hopen := Script.close_ok_iff.mp hclose
    exact ⟨hopen, hopen, .idle hactive ⟨rfl, rfl, rfl, by simp⟩⟩
  · have hopen := Script.close_ok_iff.mp hclose
    obtain ⟨⟨graph, hfinal⟩, rels, rfl, hrels⟩ := Analyzer.finalize_ok hactive hes
    rw [hfinal] at hc
    obtain ⟨cs, hcs, hext, hopen'⟩ := addEmissions_emitted
      (b := { b with analyzer := { b.analyzer with active := false, graph } })
      (fun e he => (Analyzer.emission_derived hrels he).1) hopen hc
    exact ⟨hopen, hopen', .emits hactive hrels hcs ⟨hext.walker, hext.scope, hext.analyzer, hext.commands⟩⟩

theorem Closes.walker (h : b.Closes b') : b'.walker = b.walker := by
  cases h with
  | idle _ hext => exact hext.walker
  | emits _ _ _ hext => exact hext.walker

theorem Closes.note (h : b.Closes b') (level : LogLevel) (message : Text) (attrs : List (Text × LogValue)) :
    b.Closes (b'.note level message attrs) := by
  cases h with
  | idle hactive hext => exact .idle hactive ⟨hext.walker, hext.scope, hext.analyzer, hext.commands⟩
  | emits hactive hrels hcs hext =>
      exact .emits hactive hrels hcs ⟨hext.walker, hext.scope, hext.analyzer, hext.commands⟩

inductive LineEffect (b b' : Building) (l : Line) : Prop
  | header {word : Text} {home : Section} (hword : Section.header? l.trimmed = some word)
      (hw : b.walker.enter word = .ok (home, b'.walker)) (hclose : closesDomain home = false)
      (hext : { b with walker := b'.walker }.Extends b' [])
  | closing {word : Text} {home : Section} (hword : Section.header? l.trimmed = some word)
      (hw : b.walker.enter word = .ok (home, b'.walker)) (hclose : closesDomain home = true)
      (hopen : b.out.script.lastOpen = none) (hcloses : Closes { b with walker := b'.walker } b')
  | statement {home : Section} {m : Matched} (hword : Section.header? l.trimmed = none)
      (hw : b.walker.statement = .ok (home, b'.walker)) (hm : matchLine home.name l.trimmed = .ok m)
      (heffect : Effect b b' m)

variable {l : Line}

theorem header_effect {word : Text} (hs : b.out.script.Steady) (hword : Section.header? l.trimmed = some word)
    (h : b.header standard l word = .ok b') : b'.out.script.Steady ∧ LineEffect b b' l := by
  obtain ⟨home, walker, c, hw, hc, rfl⟩ := header_ok h
  rcases hc with ⟨hclose, hc⟩ | ⟨hclose, rfl⟩
  · obtain ⟨hopen, hopen', hcloses⟩ := closeDomain_closes hc
    obtain rfl : c.walker = walker := hcloses.walker
    exact ⟨Script.steady_of_closed hopen', .closing hword hw hclose hopen (hcloses.note _ _ _)⟩
  · exact ⟨hs, .header hword hw hclose ⟨rfl, rfl, rfl, by simp [note]⟩⟩

theorem line_effect (hs : b.out.script.Steady) (h : b.line standard l = .ok b') (hd : ¬ b'.out.script.Doomed) :
    b'.out.script.Steady ∧ LineEffect b b' l := by
  rcases line_ok h with ⟨word, hword, h⟩ | ⟨hword, h⟩
  · exact header_effect hs hword h
  · obtain ⟨hs', home, m, hw, hm, heffect⟩ := statement_effect hs h hd
    exact ⟨hs', .statement hword hw hm heffect⟩

theorem line_doomed (hd : b.out.script.Doomed) (h : b.line standard l = .ok b') : b'.out.script.Doomed := by
  rcases line_ok h with ⟨word, hword, h⟩ | ⟨hword, h⟩
  · obtain ⟨home, walker, c, hw, hc, rfl⟩ := header_ok h
    rcases hc with ⟨-, hc⟩ | ⟨-, rfl⟩
    · obtain ⟨tail, htail, -⟩ := hd
      rw [(closeDomain_closes hc).1] at htail
      cases htail
    · exact hd
  · exact statement_doomed hd h

/-- What every line keeps is kept by all of them, while something else follows the lines on its own. -/
theorem foldlM_line_keeps {σ : Type} (step : σ → Line → σ) (Kept : σ → Building → Prop)
    (hstep : ∀ r b l b', Kept r b → b.out.script.Steady → LineEffect b b' l → Kept (step r l) b') {ls : List Line}
    {r : σ} (hkept : Kept r b) (hs : b.out.script.Steady) (h : ls.foldlM (line standard) b = .ok b')
    (hd : ¬ b'.out.script.Doomed) : b'.out.script.Steady ∧ Kept (ls.foldl step r) b' := by
  induction ls generalizing b r with
  | nil =>
      cases pure_ok_iff.mp h
      exact ⟨hs, hkept⟩
  | cons l rest ih =>
      rw [List.foldlM_cons] at h
      obtain ⟨b₁, hb₁, h⟩ := bind_ok_iff.mp h
      by_cases hd₁ : b₁.out.script.Doomed
      · exact absurd (foldlM_keeps (·.out.script.Doomed) h hd₁ fun _ _ _ => line_doomed) hd
      · obtain ⟨hs₁, heffect⟩ := line_effect hs hb₁ hd₁
        exact ih (hstep r b l b₁ hkept hs heffect) hs₁ h

theorem run_keeps {σ : Type} (step : σ → Line → σ) (Kept : σ → Building → Prop)
    (hstep : ∀ r b l b', Kept r b → b.out.script.Steady → LineEffect b b' l → Kept (step r l) b') {ls : List Line}
    {r : σ} (hkept : Kept r b) (hs : b.out.script.Steady) (h : b.run standard ls = .ok b') :
    ∃ c, Kept (ls.foldl step r) c ∧ c.out.script.lastOpen = none ∧ b'.out.script.lastOpen = none ∧ c.Closes b' := by
  obtain ⟨c, hc, hclose⟩ := run_ok h
  obtain ⟨hopen, hopen', hcloses⟩ := closeDomain_closes hclose
  have hd : ¬ c.out.script.Doomed := by
    rintro ⟨tail, htail, -⟩
    rw [hopen] at htail
    cases htail
  exact ⟨c, (foldlM_line_keeps step Kept hstep hkept hs hc hd).2, hopen, hopen', hcloses⟩

end Building

/-- Nothing is open between files. -/
theorem Output.ofFiles_closed {fs : List SourceFile} {out : Output} (h : Output.ofFiles standard fs = .ok out) :
    out.script.lastOpen = none := by
  refine foldlM_keeps (fun out : Output => out.script.lastOpen = none) h rfl fun out f out' _ hadd => ?_
  obtain ⟨b', hrun, rfl⟩ := map_ok_iff.mp hadd
  obtain ⟨c, -, hclose⟩ := Building.run_ok hrun
  exact (Building.closeDomain_closes hclose).2.1

end Population

import Population.Proofs.Compile.Closing
import Population.Proofs.Compile.Standing

/-!
The survey of files is followed beside their build. While a domain is read its model has what the survey has kept;
after its end the derived commands of its block tell what the survey had kept by then.
-/
namespace Population

open Account

/-- A block makes all classes that are declared in its domain, and its derived commands tell what was declared before
the end of the domain. -/
structure Accounted (d : DomainSurvey) (block : List Command) : Prop where
  made : told made block = toldClasses d.name d.declared
  settled : Settled d.name d.kept (derivedOf block)

/-- A command that says nothing of classes or references. -/
structure Command.Neutral (c : Command) : Prop where
  made : c.tells made = []
  underived : c.isDerived = false

theorem Command.Neutral.tells_nil {α : Type} {account : Account α} {c : Command} (h : c.Neutral)
    (ha : account.OfDerived) : c.tells account = [] :=
  ha _ _ (of_decide_eq_false h.underived)

theorem neutral_of_relationship {c : Command} (h : c.call.name ∈ relationshipCalls) : c.Neutral := by
  have hall : ∀ name ∈ relationshipCalls, name ≠ ("new_class" : Text) ∧ name ∉ derivedCalls := by decide
  obtain ⟨hclass, hderived⟩ := hall _ h
  exact ⟨if_neg hclass, decide_eq_false hderived⟩

theorem derivedOf_append (cs ds : List Command) : derivedOf (cs ++ ds) = derivedOf cs ++ derivedOf ds :=
  List.filter_append ..

theorem derivedOf_of_not {cs : List Command} (h : ∀ c ∈ cs, c.isDerived = false) : derivedOf cs = [] :=
  List.filter_eq_nil_iff.mpr fun c hc => by simp [h c hc]

theorem derivedOf_of_all {cs : List Command} (h : ∀ c ∈ cs, c.isDerived = true) : derivedOf cs = cs :=
  List.filter_eq_self.mpr h

theorem derivedOf_snoc (block : List Command) {c : Command} (hc : c.isDerived = false) :
    derivedOf (block ++ [c]) = derivedOf block := by
  rw [derivedOf_append, derivedOf_of_not (List.forall_mem_singleton.mpr hc), List.append_nil]

theorem told_made_snoc (block : List Command) (c : Command) : told made (block ++ [c]) = told made block ++ c.tells made := by
  rw [told_append, told_singleton]

theorem told_made_of_derived {cs : List Command} (h : ∀ c ∈ cs, c.call.name ∈ derivedCalls) : told made cs = [] := by
  refine List.flatMap_eq_nil_iff.mpr fun c hc => if_neg fun hname => ?_
  have hderived := h c hc
  rw [hname] at hderived
  exact absurd hderived (by decide)

theorem Accounted.snoc {d : DomainSurvey} {block : List Command} {c : Command} (h : Accounted d block) (hc : c.Neutral) :
    Accounted d (block ++ [c]) := by
  refine ⟨?_, ?_⟩
  · rw [told_made_snoc, hc.made, List.append_nil]
    exact h.made
  · rw [derivedOf_snoc block hc.underived]
    exact h.settled

/-- The blocks of commands account for domains, and what stands before the blocks says nothing. -/
structure Told (ds : List DomainSurvey) (cs : List Command) : Prop where
  accounted : List.Forall₂ Accounted ds (blocks cs)
  neutral : ∀ c ∈ preamble cs, c.Neutral

theorem Told.snoc {ds : List DomainSurvey} {cs : List Command} {c : Command} (h : Told ds cs) (hc : c.Neutral)
    (hopens : c.opensDomain = false) : Told ds (cs ++ [c]) := by
  refine ⟨?_, fun x hx => ?_⟩
  · have hblocks := h.accounted
    rcases blocks_snoc cs hopens with ⟨hold, hnew⟩ | ⟨bs, b, hold, hnew⟩
    · rwa [hnew, ← hold]
    · rw [hold] at hblocks
      rw [hnew]
      exact partner_last hblocks fun d hd => hd.snoc hc
  · rcases mem_preamble_snoc hx with hx | rfl
    · exact h.neutral x hx
    · exact hc

namespace Building

variable {b b' : Building} {m : Matched} {c : Command} {before block : List Command} {d : DomainSurvey}
  {earlier : List DomainSurvey} {r : Surveyor} {l : Line}

theorem Begins.underived (h : Begins b b' m c) : c.isDerived = false :=
  decide_eq_false (StatementKind.begins_calls h.call).2.2

theorem Begins.tells_made (h : Begins b b' m c) (hk : m.form.kind ≠ .classDef) : c.tells made = [] :=
  if_neg fun hname => hk ((StatementKind.begins_calls h.call).2.1.mp hname)

theorem Begins.neutral (h : Begins b b' m c) (hk : m.form.kind ≠ .classDef) : c.Neutral :=
  ⟨h.tells_made hk, h.underived⟩

theorem Effect.told_made {name : Text} (he : Effect b b' m) (hk : m.form.kind ≠ .domain) (hs : b.out.script.Steady)
    (hin : b.Inside before block) (hdomain : b.scope.domain = some (.text name)) (cls : Option Text) :
    ∃ block', b'.Inside before block' ∧ told made block' = told made block ++ toldClasses name (m.declares cls) ∧
      derivedOf block' = derivedOf block := by
  have hnone (hp : m.form.kind ≠ .classDef) : toldClasses name (m.declares cls) = [] := by
    rw [toldClasses, Matched.classesIn_declares hp]
    rfl
  have hbegun {c : Command} (hc : Begins b b' m c) (hp : m.form.kind ≠ .classDef) : ∃ block', b'.Inside before block' ∧
      told made block' = told made block ++ toldClasses name (m.declares cls) ∧ derivedOf block' = derivedOf block := by
    refine ⟨block ++ [c], hin.begins hc hk, ?_, derivedOf_snoc block hc.underived⟩
    rw [told_made_snoc, hc.tells_made hp, hnone hp]
  cases he with
  | domain hp => exact absurd hp hk
  | plain hp hc => exact hbegun hc (by rcases hp with hp | hp <;> simp [hp])
  | subsystem hp hc => exact hbegun hc (by simp [hp])
  | ownAttribute hp hc => exact hbegun hc (by simp [hp])
  | relationship hp hc => exact hbegun hc (by rcases hp with hp | hp <;> simp [hp])
  | @classDef c _ _ _ hp hc _ _ _ _ hn hcd =>
      refine ⟨block ++ [c], hin.begins hc hk, ?_, derivedOf_snoc block hc.underived⟩
      have htells : c.tells made = [(some name, some (m.text "name"))] := by
        rw [Command.tells, made, if_pos ((StatementKind.begins_calls hc.call).2.1.mpr hp), hcd, hdomain, hn]
        rfl
      rw [told_made_snoc, htells, Matched.declares_classDef hp]
      rfl
  | reference hp hscript =>
      refine ⟨block, ⟨?_, hin.block⟩, ?_, rfl⟩
      · rw [hscript]
        exact hin.commands
      · rw [hnone (by simp [hp]), List.append_nil]
  | @continued tail c hp hopen hscript _ _ hcall _ =>
      -- the second line of a relationship replaces its command, and neither tells of a class
      obtain ⟨hname, -⟩ := hs _ hopen
      obtain ⟨block₀, rfl, hin'⟩ := hin.continued hopen hscript hcall (Command.opensDomain_of_relationship hname)
      have htail : tail.Neutral := neutral_of_relationship hname
      have hc : c.Neutral := neutral_of_relationship (by rw [hcall]; exact hname)
      refine ⟨block₀ ++ [c], hin', ?_, ?_⟩
      · rw [told_made_snoc, told_made_snoc, hc.made, htail.made, hnone (by rcases hp with hp | hp <;> simp [hp]),
          List.append_nil, List.append_nil]
      · rw [derivedOf_snoc _ hc.underived, derivedOf_snoc _ htail.underived]

theorem Inside.told {ds : List DomainSurvey} (hin : b.Inside before block) (h : Told ds before)
    (hd : Accounted d block) : Told (ds ++ [d]) b.out.script.commands := by
  refine ⟨?_, ?_⟩
  · rw [hin.blocks_eq]
    exact List.rel_append h.accounted (.cons hd .nil)
  · obtain ⟨c, cur, rfl, hc, -⟩ := hin.block
    rw [hin.commands, preamble_append before hc]
    exact h.neutral

/-- How far a domain is read: its model has what the survey has kept, or its derived commands tell it. -/
inductive Progress (a : Analyzer) (d : DomainSurvey) (block : List Command) : Bool → Prop
  | reading (hactive : a.active = true) (hmodels : Models a d.name d.kept) (hlapsed : d.lapsed = [])
      (hnone : derivedOf block = []) : Progress a d block false
  | ended (hactive : a.active = false) (hsettled : Settled d.name d.kept (derivedOf block)) : Progress a d block true

structure Abreast (r : Surveyor) (b : Building) (d : DomainSurvey) (block : List Command) : Prop where
  current : r.current = some d
  domain : b.scope.domain = some (.text d.name)
  cls : b.scope.innerClass = r.cls.map .text
  made : told made block = toldClasses d.name d.declared
  progress : Progress b.analyzer d block r.ended
  fresh : b.walker.current = some .domain → b.walker.statements = 0 → r.ended = true

inductive Follows (earlier : List DomainSurvey) (r : Surveyor) (b : Building) : Prop
  | outside (hhome : r.home = b.walker.current) (hout : b.Outside) (hcurrent : r.current = none)
      (htold : Told (earlier ++ r.done) b.out.script.commands)
  | inside {d : DomainSurvey} {before block : List Command} (hhome : r.home = b.walker.current)
      (hin : b.Inside before block) (habreast : Abreast r b d block) (htold : Told (earlier ++ r.done) before)

theorem Abreast.accounted (h : Abreast r b d block) (hended : r.ended = true) : Accounted d block := by
  have hprogress := h.progress
  rw [hended] at hprogress
  cases hprogress with
  | ended _ hsettled => exact ⟨h.made, hsettled⟩

theorem Progress.add {a : Analyzer} {a' : Analyzer} {ended : Bool} {block' : List Command} {ds : List Declared}
    (h : Progress a d block ended) (hactive : a'.active = a.active)
    (hmodels : Models a d.name d.kept → Models a' d.name (d.kept ++ ds)) (hderived : derivedOf block' = derivedOf block) :
    Progress a' (d.add ended ds) block' ended ∧ (d.add ended ds).declared = d.declared ++ ds := by
  cases h with
  | reading hopen hm hlapsed hnone =>
      refine ⟨.reading (hactive.trans hopen) (hmodels hm) hlapsed (hderived.trans hnone), ?_⟩
      simp [DomainSurvey.add, DomainSurvey.declared, hlapsed]
  | ended hclosed hsettled =>
      refine ⟨.ended (hactive.trans hclosed) (by rw [hderived]; exact hsettled), ?_⟩
      simp [DomainSurvey.add, DomainSurvey.declared]

theorem home_of_domain {home : Section} {line : Text} (hm : Statement.matchLine home.name line = .ok m)
    (hk : m.form.kind = .domain) : home = .domain := by
  obtain ⟨hmem, hhome⟩ := Statement.mem_forms_of_matchLine hm
  have hforms : ∀ f ∈ Statement.forms, f.kind = .domain → f.home = .domain := by decide
  rw [hforms _ hmem hk] at hhome
  cases home <;> first | rfl | exact absurd hhome (by decide)

theorem Progress.active_eq {a : Analyzer} {ended : Bool} (h : Progress a d block ended) : a.active = !ended := by
  cases h with
  | reading hactive | ended hactive => exact hactive

theorem Abreast.moved (h : Abreast r b d block) (home : Option Section) {walker : Walker}
    (hext : { b with walker }.Extends b' []) (hfresh : b'.walker.current = some .domain → r.ended = true) :
    Abreast { r with home } b' d block := by
  have hscope : b'.scope = b.scope := hext.scope
  have hanalyzer : b'.analyzer = b.analyzer := hext.analyzer
  refine ⟨h.current, ?_, ?_, h.made, ?_, fun hdomain _ => hfresh hdomain⟩
  · rw [hscope]
    exact h.domain
  · rw [hscope]
    exact h.cls
  · rw [hanalyzer]
    exact h.progress

theorem Inside.extends_nil {walker : Walker} (h : b.Inside before block) (hext : { b with walker }.Extends b' []) :
    b'.Inside before block := by
  have hin : b'.Inside before (block ++ []) := h.append nofun hext.commands
  rwa [List.append_nil] at hin

/-- The end of a domain settles what has been declared in it. -/
theorem Abreast.settled {walker : Walker} {graph : Graph} {rels : List Emission} {cs : List Command}
    (h : Abreast r b d block) (hactive : b.analyzer.active = true)
    (hrels : List.Forall₂ b.analyzer.Formalizes b.analyzer.pendingNumbers rels)
    (hcs : List.Forall₂ Emitted (rels ++ b.analyzer.classes.flatMap b.analyzer.identification) cs)
    (hext : { b with walker, analyzer := { b.analyzer with active := false, graph } }.Extends b' cs)
    (home : Option Section) : Abreast { r with home, ended := true } b' d (block ++ cs) := by
  have hall : ∀ c ∈ cs, c.isDerived = true := fun c hc => decide_eq_true (emitted_derived hrels hcs c hc)
  have hscope : b'.scope = b.scope := hext.scope
  have hanalyzer : b'.analyzer = { b.analyzer with active := false, graph } := hext.analyzer
  refine ⟨h.current, ?_, ?_, ?_, ?_, fun _ _ => rfl⟩
  · rw [hscope]
    exact h.domain
  · rw [hscope]
    exact h.cls
  · rw [told_append, told_made_of_derived (emitted_derived hrels hcs), List.append_nil]
    exact h.made
  · have hprogress := h.progress
    generalize r.ended = ended at hprogress
    cases hprogress with
    | ended hclosed =>
        rw [hactive] at hclosed
        cases hclosed
    | reading _ hmodels _ hnone =>
        refine .ended (by rw [hanalyzer]) ?_
        rw [derivedOf_append, hnone, derivedOf_of_all hall, List.nil_append]
        exact hmodels.settled hrels hcs

theorem Abreast.closes {walker : Walker} (h : Abreast r b d block) (hin : b.Inside before block)
    (hcloses : Closes { b with walker } b') (home : Option Section) :
    ∃ block', b'.Inside before block' ∧ Abreast { r with home, ended := true } b' d block' := by
  cases hcloses with
  | idle hactive hext =>
      have hended : r.ended = true := by
        have heq := h.progress.active_eq.symm.trans hactive
        simpa using heq
      rw [← hended]
      exact ⟨block, hin.extends_nil hext, h.moved home hext fun _ => hended⟩
  | emits hactive hrels hcs hext =>
      have hcommand := fun c hc => Command.opensDomain_of_derived (emitted_derived hrels hcs c hc)
      exact ⟨_, hin.append hcommand hext.commands, h.settled hactive hrels hcs hext home⟩

namespace Follows

variable (h : Follows earlier r b)
include h

theorem home_eq : r.home = b.walker.current := by
  cases h with
  | outside hhome | inside hhome => exact hhome

theorem header {word : Text} {home : Section} (hword : Section.header? l.trimmed = some word)
    (hw : b.walker.enter word = .ok (home, b'.walker)) (hclose : closesDomain home = false)
    (hext : { b with walker := b'.walker }.Extends b' []) : Follows earlier (r.line l) b' := by
  obtain ⟨hname, hwalker⟩ := Walker.enter_ok hw
  rw [Surveyor.line_header hword hname, hclose, Bool.or_false]
  have hhome : some home = b'.walker.current := by rw [hwalker]
  cases h with
  | outside _ hout hcurrent htold =>
      obtain ⟨hout', hcommands⟩ := hout.extends_nil hext
      refine .outside hhome hout' hcurrent ?_
      rw [hcommands]
      exact htold
  | inside _ hin ha htold =>
      refine .inside hhome (hin.extends_nil hext) (ha.moved _ hext fun hdomain => ?_) htold
      rw [← hhome] at hdomain
      cases hdomain
      cases hclose

theorem closing {word : Text} {home : Section} (hword : Section.header? l.trimmed = some word)
    (hw : b.walker.enter word = .ok (home, b'.walker)) (hclose : closesDomain home = true)
    (hcloses : Closes { b with walker := b'.walker } b') : Follows earlier (r.line l) b' := by
  obtain ⟨hname, hwalker⟩ := Walker.enter_ok hw
  rw [Surveyor.line_header hword hname, hclose, Bool.or_true]
  have hhome : some home = b'.walker.current := by rw [hwalker]
  cases h with
  | outside _ hout hcurrent htold =>
      obtain ⟨hout', hcommands⟩ := hout.closes hcloses
      refine .outside hhome hout' hcurrent ?_
      rw [hcommands]
      exact htold
  | inside _ hin ha htold =>
      obtain ⟨block', hin', ha'⟩ := ha.closes hin hcloses (some home)
      exact .inside hhome hin' ha' htold

theorem domain {home : Section} (hw : b.walker.statement = .ok (home, b'.walker))
    (hm : Statement.matchLine home.name l.trimmed = .ok m) (hk : m.form.kind = .domain) (he : Effect b b' m) :
    Follows earlier (r.statement m) b' := by
  obtain ⟨hcurrent, hcurrent', hcount, hsingle⟩ := Walker.statement_ok hw
  obtain rfl := home_of_domain hm hk
  obtain ⟨c, hc, hscope, hanalyzer, -⟩ := he.of_domain hk
  have hneutral : c.Neutral := hc.neutral (by rw [hk]; decide)
  have hhome := h.home_eq.trans (hcurrent.trans hcurrent'.symm)
  -- the domain before has ended, so its block is told in full
  have htold : Told (earlier ++ r.domains) b.out.script.commands := by
    cases h with
    | outside _ _ hnone htold =>
        rwa [Surveyor.domains, hnone, Option.toList_none, List.append_nil]
    | inside _ hin ha htold =>
        have hended := ha.fresh hcurrent (hsingle rfl)
        rw [Surveyor.domains, ha.current, Option.toList_some, ← List.append_assoc]
        exact hin.told htold (ha.accounted hended)
  rw [Surveyor.statement, if_pos hk]
  refine .inside hhome (inside_of_domain hc hk) ⟨rfl, ?_, ?_, ?_, ?_, fun _ hzero => ?_⟩ htold
  · rw [hscope]
  · rw [hscope]
    rfl
  · rw [told_singleton, hneutral.made]
    rfl
  · refine .reading ?_ ?_ rfl (derivedOf_of_not (List.forall_mem_singleton.mpr hneutral.underived))
    · rw [hanalyzer]
      rfl
    · rw [hanalyzer]
      exact models_opened _
  · rw [hcount] at hzero
    cases hzero

theorem statement {home : Section} (hw : b.walker.statement = .ok (home, b'.walker))
    (hm : Statement.matchLine home.name l.trimmed = .ok m) (hs : b.out.script.Steady) (he : Effect b b' m) :
    Follows earlier (r.statement m) b' := by
  obtain ⟨hcurrent, hcurrent', hcount, -⟩ := Walker.statement_ok hw
  have hhome := h.home_eq.trans (hcurrent.trans hcurrent'.symm)
  by_cases hk : m.form.kind = .domain
  · exact h.domain hw hm hk he
  · rw [Surveyor.statement, if_neg hk]
    cases h with
    | outside _ hout hnone htold =>
        obtain ⟨hplain, hout', c, hc⟩ := (hout.statement he).resolve_left hk
        have hneutral : c.Neutral := hc.neutral (by rcases hplain with hp | hp <;> rw [hp] <;> decide)
        refine .outside hhome hout' (by rw [hnone]; rfl) ?_
        rw [hc.script]
        exact htold.snoc hneutral (by rw [hc.opensDomain, decide_eq_false hk])
    | inside _ hin ha htold =>
        obtain ⟨block', hin', hmade, hderived⟩ := he.told_made hk hs hin ha.domain r.cls
        obtain ⟨hdomain, hcls⟩ := he.entered hk ha.cls
        obtain ⟨hprogress, hdeclared⟩ := ha.progress.add (he.active hk) (fun hmodels => he.models hk hmodels ha.cls) hderived
        refine .inside hhome hin' ⟨?_, ?_, hcls, ?_, hprogress, fun _ hzero => ?_⟩ htold
        · rw [ha.current]
          rfl
        · rw [DomainSurvey.name_add, hdomain]
          exact ha.domain
        · rw [hmade, ha.made, DomainSurvey.name_add, hdeclared, toldClasses_append]
        · rw [hcount] at hzero
          cases hzero

theorem line (hs : b.out.script.Steady) (he : LineEffect b b' l) : Follows earlier (r.line l) b' := by
  cases he with
  | header hword hw hclose hext => exact h.header hword hw hclose hext
  | closing hword hw hclose _ hcloses => exact h.closing hword hw hclose hcloses
  | statement hword hw hm heffect =>
      have hhome := h.home_eq.trans (Walker.statement_ok hw).1
      rw [Surveyor.line_statement hword hhome hm]
      exact h.statement hw hm hs heffect

/-- When the last domain of a file is closed, its block tells of it too. -/
theorem told_domains (hcloses : b.Closes b') : Told (earlier ++ r.domains) b'.out.script.commands := by
  have hcloses' : Closes { b with walker := b.walker } b' := hcloses
  cases h with
  | outside _ hout hnone htold =>
      obtain ⟨-, hcommands⟩ := hout.closes hcloses'
      rw [hcommands, Surveyor.domains, hnone, Option.toList_none, List.append_nil]
      exact htold
  | inside _ hin ha htold =>
      obtain ⟨block', hin', ha'⟩ := ha.closes hin hcloses' r.home
      rw [Surveyor.domains, ha.current, Option.toList_some, ← List.append_assoc]
      exact hin'.told htold (ha'.accounted rfl)

end Follows

end Building

structure Output.Surveyed (ds : List DomainSurvey) (out : Output) : Prop where
  closed : out.script.lastOpen = none
  told : Told ds out.script.commands

namespace Output.Surveyed

theorem addFile {ds : List DomainSurvey} {out out' : Output} {f : SourceFile} (h : Surveyed ds out)
    (hadd : Output.addFile Schema.standard out f = .ok out') : Surveyed (ds ++ f.survey) out' := by
  obtain ⟨b', hrun, rfl⟩ := map_ok_iff.mp hadd
  have hstart : Building.Follows ds .start (.start f.name out) :=
    .outside rfl ⟨rfl, rfl, h.closed⟩ rfl (by rw [show Surveyor.start.done = [] from rfl, List.append_nil]; exact h.told)
  obtain ⟨c, hc, -, hopen', hcloses⟩ := Building.run_keeps Surveyor.line (Building.Follows ds)
    (fun _ _ _ _ hb hs he => hb.line hs he) hstart (Script.steady_of_closed h.closed) hrun
  exact ⟨hopen', hc.told_domains hcloses⟩

theorem ofFiles {fs : List SourceFile} {ds : List DomainSurvey} {out out' : Output} (h : Surveyed ds out)
    (hadd : fs.foldlM (Output.addFile Schema.standard) out = .ok out') : Surveyed (ds ++ survey fs) out' := by
  induction fs generalizing ds out with
  | nil =>
      cases pure_ok_iff.mp hadd
      rwa [survey, List.flatMap_nil, List.append_nil]
  | cons f rest ih =>
      rw [List.foldlM_cons] at hadd
      obtain ⟨out₁, hf, hrest⟩ := bind_ok_iff.mp hadd
      have hrest' := ih (h.addFile hf) hrest
      rwa [List.append_assoc, show f.survey ++ survey rest = survey (f :: rest) from rfl] at hrest'

end Output.Surveyed

end Population

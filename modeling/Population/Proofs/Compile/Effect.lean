import Population.Proofs.Compile.Placement
import Population.Proofs.Model.Analysis

namespace Population

open Schema Extraction Statement

/-- The call that statements of a kind begin. -/
def StatementKind.begins : StatementKind → Option Text
  | .domain => some "new_domain"
  | .typeDef => some "new_type"
  | .subsystem => some "new_subsystem"
  | .classDef => some "new_class"
  | .ownAttribute => some "new_ind_attr"
  | .activePerspective => some "new_bin_rel"
  | .superclass => some "new_gen"
  | .bridge => some "new_bridge"
  | .none | .reference | .passivePerspective | .subclasses => Option.none

theorem Statement.forms_begins : ∀ f ∈ forms, f.kind ≠ .none ∧ f.call = f.kind.begins ∧
    (f.kind = .reference → f.target = none ∧ isNumeric standard f "rnum") ∧
    (f.kind = .passivePerspective ∨ f.kind = .subclasses →
      f.target.isSome ∧ ∀ ns ∈ f.captureNames, ("rnum" : Text) ∉ ns) := by
  decide +kernel

/-- Kinds of statements are told apart by their calls, and none begins a derived command. -/
theorem StatementKind.begins_calls {k : StatementKind} {call : Text} (h : k.begins = some call) :
    (call = ("new_domain" : Text) ↔ k = .domain) ∧ (call = ("new_class" : Text) ↔ k = .classDef) ∧
      call ∉ derivedCalls := by
  have hall : ∀ k ∈ StatementKind.all, ∀ call ∈ k.begins.toList, (call = ("new_domain" : Text) ↔ k = .domain) ∧
      (call = ("new_class" : Text) ↔ k = .classDef) ∧ call ∉ derivedCalls := by
    decide +kernel
  refine hall k ?_ call (by rw [h]; exact List.mem_singleton.mpr rfl)
  cases k <;> decide

theorem StatementKind.begins_inj {k k' : StatementKind} {call : Text} (h : k.begins = some call)
    (h' : k'.begins = some call) : k = k' := by
  have hall : ∀ k ∈ StatementKind.all, ∀ k' ∈ StatementKind.all, k.begins.isSome → k.begins = k'.begins → k = k' := by
    decide +kernel
  refine hall k ?_ k' ?_ (by rw [h]; rfl) (h.trans h'.symm)
  · cases k <;> decide
  · cases k' <;> decide

theorem StatementKind.begins_required (k : StatementKind) (call : Call) (h : k.begins.bind standard.call? = some call) :
    (k ≠ .domain → k ≠ .bridge → ("domain" : Text) ∈ call.required) ∧
    (k = .ownAttribute → ("class" : Text) ∈ call.required) := by
  have hall : ∀ k ∈ StatementKind.all, ∀ call ∈ (k.begins.bind standard.call?).toList,
      (k ≠ .domain → k ≠ .bridge → ("domain" : Text) ∈ call.required) ∧
      (k = .ownAttribute → ("class" : Text) ∈ call.required) := by
    decide +kernel
  refine hall k ?_ call (by rw [h]; exact List.mem_singleton.mpr rfl)
  cases k <;> decide

namespace Building

structure Begins (b b' : Building) (m : Matched) (c : Command) : Prop where
  closed : b.out.script.lastOpen = none
  script : b'.out.script = b.out.script.append c
  call : m.form.kind.begins = some c.call.name
  completed : ¬ Opening m.form → c.completed = true

theorem Begins.call_eq {b b' : Building} {m : Matched} {c : Command} {k : StatementKind} {call : Text}
    (h : Begins b b' m c) (hk : m.form.kind = k) (hcall : k.begins = some call) : c.call.name = call := by
  rw [← hk, h.call] at hcall
  exact Option.some.inj hcall

inductive Effect (b b' : Building) (m : Matched) : Prop
  | domain {c : Command} (hk : m.form.kind = .domain) (hc : Begins b b' m c)
      (hs : b'.scope = ⟨some (.text (m.text "name")), none, none⟩) (ha : b'.analyzer = .opened (m.text "name"))
      (hn : c.value? "name" = some (.text (m.text "name")))
  | plain {c : Command} (hk : m.form.kind = .typeDef ∨ m.form.kind = .bridge) (hc : Begins b b' m c)
      (hs : b'.scope = b.scope) (ha : b'.analyzer = b.analyzer)
  | subsystem {c : Command} {floor ceiling : Int} {graph : Graph} (hk : m.form.kind = .subsystem) (hc : Begins b b' m c)
      (hd : b.scope.domain.isSome) (hs : b'.scope = ⟨b.scope.domain, some (.text (m.text "name")), none⟩)
      (hnew : b.analyzer.subsystem? (m.text "name") = none)
      (ha : b'.analyzer = { b.analyzer with
        subsystems := b.analyzer.subsystems ++ [⟨m.text "name", floor, ceiling⟩], graph })
      (hn : c.value? "name" = some (.text (m.text "name")))
  | classDef {c : Command} {subsystem : Text} {number : Int} {o : Origin} (hk : m.form.kind = .classDef)
      (hc : Begins b b' m c) (hd : b.scope.domain.isSome)
      (hs : b'.scope = ⟨b.scope.domain, b.scope.subsystem, some (.text (m.text "name"))⟩)
      (hnew : b.analyzer.class? (m.text "name") = none)
      (ha : b'.analyzer = { b.analyzer with
        classes := b.analyzer.classes ++ [⟨m.text "name", subsystem, number, [], o⟩] })
      (hn : c.value? "name" = some (.text (m.text "name"))) (hcd : c.value? "domain" = b.scope.domain)
  | ownAttribute {c : Command} {cls : ModelClass} {group : Identifier.Group} (hk : m.form.kind = .ownAttribute)
      (hc : Begins b b' m c) (hs : b'.scope = b.scope) (hi : b.scope.innerClass = some (.text cls.name))
      (hcls : b.analyzer.class? cls.name = some cls)
      (hg : Analyzer.tagged cls (m.text "name") (m.text "id") = .ok group)
      (ha : b'.analyzer = b.analyzer.setIdentifiers cls.name group)
      (hn : c.value? "name" = some (.text (m.text "name"))) (hcc : c.value? "class" = some (.text cls.name))
  | reference {cls : ModelClass} {group : Identifier.Group} {rnum : Int} {targets : List Target}
      {refs : List PendingReference} {deps : List Dependency} (hk : m.form.kind = .reference)
      (hscript : b'.out.script = b.out.script) (hs : b'.scope = b.scope)
      (hi : b.scope.innerClass = some (.text cls.name)) (hcls : b.analyzer.class? cls.name = some cls)
      (hr : m.int? "rnum" = some rnum) (hint : (Number.ofInt rnum).toInt64? = some rnum)
      (ht : Target.parseList (m.text "to_attrs") = .ok targets)
      (hg : Analyzer.tagged cls (m.text "name") (m.text "id") = .ok group)
      (hrefs : refs.map (fun r => (r.rnum, r.fromClass, r.fromAttr, r.target)) =
        targets.map fun t => (rnum, cls.name, m.text "name", t))
      (ha : b'.analyzer = Analyzer.setIdentifiers { b.analyzer with
        references := b.analyzer.references ++ refs, dependencies := deps } cls.name group)
  | relationship {c : Command} {r : Relationship} (hk : Opening m.form) (hc : Begins b b' m c)
      (hd : b.scope.domain.isSome) (hs : b'.scope = b.scope) (hnew : b.analyzer.relationship? r.rnum = none)
      (hint : (Number.ofInt r.rnum).toInt64? = some r.rnum)
      (ha : b'.analyzer = { b.analyzer with declared := b.analyzer.declared ++ [r], last := some r })
      (hn : c.value? "rnum" = some (.ofInt r.rnum))
  | continued {tail c : Command} (hk : m.form.kind = .passivePerspective ∨ m.form.kind = .subclasses)
      (hopen : b.out.script.lastOpen = some tail) (hscript : b'.out.script = b.out.script.replaceLast c)
      (hs : b'.scope = b.scope) (ha : b'.analyzer = b.analyzer) (hcall : c.call = tail.call)
      (hn : c.value? "rnum" = tail.value? "rnum")

theorem Effect.of_domain {b b' : Building} {m : Matched} (h : Effect b b' m) (hk : m.form.kind = .domain) :
    ∃ c, Begins b b' m c ∧ b'.scope = ⟨some (.text (m.text "name")), none, none⟩ ∧
      b'.analyzer = .opened (m.text "name") ∧ c.value? "name" = some (.text (m.text "name")) := by
  cases h with
  | domain _ hc hs ha hn => exact ⟨_, hc, hs, ha, hn⟩
  | plain hp | relationship hp | continued hp => rcases hp with hp | hp <;> rw [hk] at hp <;> cases hp
  | subsystem hp | classDef hp | ownAttribute hp | reference hp =>
      rw [hk] at hp
      cases hp

theorem get?_domain (s : Scope) : s.get? "domain" = s.domain := by
  rw [Scope.get?, show Level.ofName? "domain" = some .domain by decide]
  rfl

theorem get?_class (s : Scope) : s.get? "class" = s.innerClass := by
  rw [Scope.get?, show Level.ofName? "class" = some .innerClass by decide]
  rfl

theorem read_of_captures {home line : Text} {m : Matched} {cs : List Capture} {x : Extraction}
    (hm : matchLine home line = .ok m) (hcs : transformed m = .ok cs) (hx : ofCaptures standard m.form cs = .ok x) :
    Read home line m x := by
  refine ⟨hm, ?_⟩
  rw [transformed] at hcs
  split at hcs
  next hsame =>
      cases hcs
      rw [hsame]
      exact ofCaptures_ok hx
  next => cases hcs

theorem innerClass_of_text {scope : Scope} {name : Text} (h : scope.text .innerClass = name) (hne : name ≠ []) :
    scope.innerClass = some (.text name) := by
  rw [Scope.text, Scope.entry] at h
  cases hv : scope.innerClass with
  | none =>
      rw [hv] at h
      exact absurd h.symm hne
  | some v =>
      rw [hv] at h
      cases v with
      | text t => exact congrArg some (congrArg Value.text h)
      | number | bool | list | null => exact absurd h.symm hne

/-- A statement that is built and does not doom the script. -/
structure Stated (b b' : Building) (home line : Text) (o : Origin) (m : Matched) (x : Extraction) : Prop where
  read : Read home line m x
  placed : Placed standard m.form x.params b'.scope b.out.script b'.out.script
  steady : b.out.script.Steady
  undoomed : ¬ b'.out.script.Doomed
  scope : x.applyScope b.scope = .ok b'.scope
  handled : b.analyzer.handle ⟨some m.form.kind, x.fields, b'.scope, o⟩ = (b'.analyzer, none)

namespace Stated

variable {b b' : Building} {home line : Text} {o : Origin} {m : Matched} {x : Extraction}
  (h : Stated b b' home line o m x)
include h

/-- A statement of a kind that begins a command does so, out of its own parameters and the scope. -/
theorem begun (hb : m.form.kind.begins.isSome) :
    ∃ c, b.out.script.lastOpen = none ∧ b'.out.script = b.out.script.append c ∧
      m.form.kind.begins = some c.call.name ∧ standard.call? c.call.name = some c.call ∧
      c.explicit = x.params.map (·.name) ∧
      ∀ n, c.value? n = (valueOf x.params n).or (if c.call.hasParam n then b'.scope.get? n else none) := by
  have hcall := (forms_begins _ h.read.form_mem).2.1
  rw [← hcall] at hb ⊢
  have hp := h.placed
  generalize b'.out.script = script' at hp
  cases hp with
  | silent ht =>
      obtain ⟨name, hname⟩ := Option.isSome_iff_exists.mp hb
      rw [Form.target, hname] at ht
      cases ht
  | continued hopen ht _ _ hnew =>
      rw [h.read.continues_of_open h.steady hopen ht hnew] at hb
      cases hb
  | @begun c hopen hname hk hexplicit hvalue => exact ⟨c, hopen, rfl, hname, hk, hexplicit, hvalue⟩

theorem begins (hb : m.form.kind.begins.isSome) :
    ∃ c, Begins b b' m c ∧ m.form.kind.begins.bind standard.call? = some c.call ∧
      (∀ n, c.value? n = (valueOf x.params n).or (if c.call.hasParam n then b'.scope.get? n else none)) ∧
      ∀ n ∈ Level.names, n ∈ c.call.required → c.value? n = b'.scope.get? n ∧ (b'.scope.get? n).isSome := by
  obtain ⟨c, hopen, hscript, hname, hk, -, hvalue⟩ := h.begun hb
  have hcall := (forms_begins _ h.read.form_mem).2.1
  have hmissing : ∀ n ∈ Level.names, n ∉ c.missing := fun n hn hm =>
    h.undoomed (Script.doomed_of_missing (by rw [hscript, Script.lastOpen_append]) hn hm)
  have hcompleted (hf : ¬ Opening m.form) : c.completed = true :=
    h.read.completed_of_begun hf (hcall.trans hname) hk hvalue hmissing
  refine ⟨c, ⟨hopen, hscript, hname, hcompleted⟩, by rw [hname]; exact hk, hvalue, fun n hn hrequired => ?_⟩
  have hsome : c.value? n ≠ none := fun hnone => hmissing n hn (Command.mem_missing_iff.mpr ⟨hrequired, hnone⟩)
  have hscope : c.value? n = b'.scope.get? n := by
    rw [hvalue, h.read.params_no_level hn, Option.none_or, Call.hasParam, if_pos (Call.hasParam_of_required hrequired)]
  rw [hscope] at hsome
  exact ⟨hscope, Option.ne_none_iff_isSome.mp hsome⟩

theorem name_value (hn : ("name" : Text) ∈ textNames m.form.kind) (hb : m.form.kind.begins.isSome) (v : Option Value) :
    (valueOf x.params "name").or v = some (.text (m.text "name")) := by
  have hcall := (forms_begins _ h.read.form_mem).2.1
  have ht : m.form.target.isSome := by
    obtain ⟨name, hname⟩ := Option.isSome_iff_exists.mp hb
    rw [Form.target, hcall, hname]
    rfl
  rw [h.read.typed.value_params, if_pos ((forms_named _ h.read.form_mem hn).2 ht), h.read.value_name hn]
  rfl

theorem scope_eq : b'.scope = match m.form.kind with
    | .domain => ⟨some (.text (m.text "name")), none, none⟩
    | .subsystem => ⟨b.scope.domain, some (.text (m.text "name")), none⟩
    | .classDef => ⟨b.scope.domain, b.scope.subsystem, some (.text (m.text "name"))⟩
    | _ => b.scope :=
  h.read.scope_eq h.scope

theorem silent (ht : m.form.target = none) : b'.out.script = b.out.script := by
  have hp := h.placed
  generalize hscript : b'.out.script = script' at hp
  cases hp with
  | silent => rfl
  | begun _ hname =>
      rw [Form.target, hname] at ht
      cases ht
  | continued _ htail =>
      rw [htail] at ht
      cases ht

theorem domain (hk : m.form.kind = .domain) : Effect b b' m := by
  obtain ⟨c, hc, -, hvalue, -⟩ := h.begins (by rw [hk]; rfl)
  have hname : ("name" : Text) ∈ textNames m.form.kind := by
    rw [hk]
    decide
  have hs := h.scope_eq
  have ha := h.handled
  rw [hk] at hs ha
  simp only [Analyzer.handle, h.read.text_eq hname] at ha
  refine .domain hk hc hs (Prod.mk.inj ha).1.symm ?_
  rw [hvalue]
  exact h.name_value hname (by rw [hk]; rfl) _

theorem plain (hk : m.form.kind = .typeDef ∨ m.form.kind = .bridge) : Effect b b' m := by
  obtain ⟨c, hc, -⟩ := h.begins (by rcases hk with hk | hk <;> rw [hk] <;> rfl)
  have hs := h.scope_eq
  have ha := h.handled
  refine .plain hk hc ?_ ?_
  · rcases hk with hk | hk <;> rw [hk] at hs <;> exact hs
  · rcases hk with hk | hk <;> rw [hk] at ha <;> exact (Prod.mk.inj ha).1.symm

theorem subsystem (hk : m.form.kind = .subsystem) : Effect b b' m := by
  obtain ⟨c, hc, hcall, hvalue, hlevel⟩ := h.begins (by rw [hk]; rfl)
  have hname : ("name" : Text) ∈ textNames m.form.kind := by
    rw [hk]
    decide
  have hdomain := (StatementKind.begins_required _ _ hcall).1
  have hs := h.scope_eq
  have ha := h.handled
  rw [hk] at hs ha hdomain
  obtain ⟨hnew, floor, ceiling, -, ha⟩ := Analyzer.addSubsystem_ok (Analyzer.orKeep_ok ha)
  rw [h.read.text_eq hname] at hnew ha
  have hd := (hlevel "domain" (by decide) (hdomain nofun nofun)).2
  rw [get?_domain, hs] at hd
  refine .subsystem hk hc hd hs hnew ha ?_
  rw [hvalue]
  exact h.name_value hname (by rw [hk]; rfl) _

theorem classDef (hk : m.form.kind = .classDef) : Effect b b' m := by
  obtain ⟨c, hc, hcall, hvalue, hlevel⟩ := h.begins (by rw [hk]; rfl)
  have hname : ("name" : Text) ∈ textNames m.form.kind := by
    rw [hk]
    decide
  have hdomain := (StatementKind.begins_required _ _ hcall).1
  have hs := h.scope_eq
  have ha := h.handled
  rw [hk] at hs ha hdomain
  obtain ⟨hnew, number, ha⟩ := Analyzer.addClass_ok (Analyzer.orKeep_ok ha)
  have htext : b'.scope.text .innerClass = m.text "name" := by
    rw [hs]
    rfl
  rw [htext] at hnew ha
  obtain ⟨hcd, hd⟩ := hlevel "domain" (by decide) (hdomain nofun nofun)
  rw [get?_domain, hs] at hd hcd
  refine .classDef hk hc hd hs hnew ha ?_ hcd
  rw [hvalue]
  exact h.name_value hname (by rw [hk]; rfl) _

theorem ownAttribute (hk : m.form.kind = .ownAttribute) : Effect b b' m := by
  obtain ⟨c, hc, hcall, hvalue, hlevel⟩ := h.begins (by rw [hk]; rfl)
  have hname : ("name" : Text) ∈ textNames m.form.kind := by
    rw [hk]
    decide
  have hid : ("id" : Text) ∈ textNames m.form.kind := by
    rw [hk]
    decide
  have hclass := (StatementKind.begins_required _ _ hcall).2 hk
  have hs := h.scope_eq
  have ha := h.handled
  rw [hk] at hs ha
  obtain ⟨cls, group, hcls, hg, ha⟩ := Analyzer.addAttribute_ok (Analyzer.orKeep_ok ha)
  rw [h.read.text_eq hname, h.read.text_eq hid] at hg
  obtain ⟨hmem, htext, hne⟩ := Analyzer.currentClass_ok hcls
  have hi := innerClass_of_text htext hne
  have hcc := (hlevel "class" (by decide) hclass).1
  rw [get?_class, hi] at hcc
  rw [hs] at hi
  refine .ownAttribute hk hc hs hi hmem hg ha ?_ hcc
  rw [hvalue]
  exact h.name_value hname (by rw [hk]; rfl) _

theorem reference (hk : m.form.kind = .reference) : Effect b b' m := by
  have htext : ∀ n ∈ [("name" : Text), "id", "to_attrs"], n ∈ textNames m.form.kind := by
    rw [hk]
    decide
  have hs := h.scope_eq
  have ha := h.handled
  rw [hk] at hs ha
  obtain ⟨cls, rnum, targets, group, hcls, hr, ht, hg, ha⟩ := Analyzer.addReference_ok ha
  rw [h.read.text_eq (htext _ (by decide))] at ht
  rw [h.read.text_eq (htext _ (by decide)), h.read.text_eq (htext _ (by decide))] at hg
  obtain ⟨hmem, hinner, hne⟩ := Analyzer.currentClass_ok hcls
  have hi := innerClass_of_text hinner hne
  rw [hs] at hi
  obtain ⟨htarget, hnumeric⟩ := (forms_begins _ h.read.form_mem).2.2.1 hk
  obtain ⟨hrnum, -, hint⟩ := h.read.rnum_eq hnumeric hr
  refine .reference hk (h.silent htarget) hs hi hmem hrnum hint ht hg ?_ ha
  simp only [Analyzer.pending, List.map_map]
  refine List.map_congr_left fun target _ => ?_
  simp [h.read.text_eq (htext "name" (by decide))]

theorem relationship (hk : Opening m.form) : Effect b b' m := by
  have hbegins : m.form.kind.begins.isSome := by rcases hk with hk | hk <;> rw [hk] <;> rfl
  obtain ⟨c, hc, hcall, hvalue, hlevel⟩ := h.begins hbegins
  have hs : b'.scope = b.scope := by
    have hs := h.scope_eq
    rcases hk with hk | hk <;> rw [hk] at hs <;> exact hs
  obtain ⟨ends, ha⟩ : ∃ ends, b.analyzer.declare ⟨some m.form.kind, x.fields, b'.scope, o⟩ ends = .ok b'.analyzer := by
    have ha := h.handled
    rcases hk with hk | hk <;> rw [hk] at ha ⊢ <;> exact ⟨_, Analyzer.orKeep_ok ha⟩
  obtain ⟨rnum, hr, hnew, ha⟩ := Analyzer.declare_ok ha
  obtain ⟨hparam, hnumeric, -⟩ := (forms_opening _ h.read.form_mem).2 hk
  have hdomain : ("domain" : Text) ∈ c.call.required :=
    (StatementKind.begins_required _ _ hcall).1 (by rcases hk with hk | hk <;> rw [hk] <;> nofun)
      (by rcases hk with hk | hk <;> rw [hk] <;> nofun)
  have hd := (hlevel "domain" (by decide) hdomain).2
  rw [get?_domain, hs] at hd
  obtain ⟨-, hv, hint⟩ := h.read.rnum_eq hnumeric hr
  refine .relationship (r := ⟨rnum, ends, b'.scope.text .subsystem, o⟩) hk hc hd hs hnew hint ha ?_
  rw [hvalue, h.read.typed.value_params, if_pos hparam, hv]
  rfl

/-- The second line of a relationship adds its parameters to the open command. -/
theorem extended (hk : m.form.kind = .passivePerspective ∨ m.form.kind = .subclasses) :
    ∃ tail c, b.out.script.lastOpen = some tail ∧ m.form.target = some tail.call.name ∧
      b'.out.script = b.out.script.replaceLast c ∧ c.call = tail.call ∧
      c.explicit = tail.explicit ++ x.params.map (·.name) ∧ (∀ p ∈ x.params, p.name ∉ tail.explicit) ∧
      ∀ n, c.value? n = (valueOf x.params n).or (tail.value? n) := by
  obtain ⟨htarget, -⟩ := (forms_begins _ h.read.form_mem).2.2.2 hk
  have hcall := (forms_begins _ h.read.form_mem).2.1
  have hp := h.placed
  generalize b'.out.script = script' at hp
  cases hp with
  | silent ht =>
      rw [ht] at htarget
      cases htarget
  | begun _ hname =>
      rw [hcall] at hname
      rcases hk with hk | hk <;> rw [hk] at hname <;> cases hname
  | @continued tail c hopen ht htail hexplicit hnew hvalue => exact ⟨tail, c, hopen, ht, rfl, htail, hexplicit, hnew, hvalue⟩

theorem continued (hk : m.form.kind = .passivePerspective ∨ m.form.kind = .subclasses) : Effect b b' m := by
  obtain ⟨-, hrnum⟩ := (forms_begins _ h.read.form_mem).2.2.2 hk
  have hs : b'.scope = b.scope := by
    have hs := h.scope_eq
    rcases hk with hk | hk <;> rw [hk] at hs <;> exact hs
  have ha : b'.analyzer = b.analyzer := by
    have ha := h.handled
    rcases hk with hk | hk <;> rw [hk] at ha <;>
      obtain ⟨_, -, ha⟩ := map_ok_iff.mp (Analyzer.orKeep_ok ha) <;> exact ha.symm
  obtain ⟨tail, c, hopen, -, hscript, htail, -, -, hvalue⟩ := h.extended hk
  refine .continued hk hopen hscript hs ha htail ?_
  have hnone : valueOf x.fields "rnum" = none := valueOf_eq_none_iff.mpr (hrnum _ h.read.names_mem)
  rw [hvalue, h.read.typed.value_params, hnone]
  split <;> rfl

theorem effect : Effect b b' m := by
  cases hk : m.form.kind with
  | none => exact absurd hk (forms_begins _ h.read.form_mem).1
  | domain => exact h.domain hk
  | typeDef => exact h.plain (.inl hk)
  | subsystem => exact h.subsystem hk
  | classDef => exact h.classDef hk
  | ownAttribute => exact h.ownAttribute hk
  | reference => exact h.reference hk
  | activePerspective => exact h.relationship (.inl hk)
  | passivePerspective => exact h.continued (.inl hk)
  | superclass => exact h.relationship (.inr hk)
  | subclasses => exact h.continued (.inr hk)
  | bridge => exact h.plain (.inr hk)

end Stated

variable {b b' : Building} {l : Line}

theorem statement_stated (hs : b.out.script.Steady) (h : b.statement standard l = .ok b')
    (hd : ¬ b'.out.script.Doomed) : ∃ home m x, b.walker.statement = .ok (home, b'.walker) ∧
      Stated b b' home.name l.trimmed ⟨b.file, l.number, l.trimmed⟩ m x := by
  obtain ⟨home, walker, m, cs, x, scope, analyzer, hw, hm, hcs, hx, hscope, ha, hasm⟩ := statement_ok h
  obtain ⟨hp, rfl, rfl, rfl, -⟩ := assemble_placed hasm
  exact ⟨home, m, x, hw, read_of_captures hm hcs hx, hp, hs, hd, hscope, ha⟩

theorem statement_effect (hs : b.out.script.Steady) (h : b.statement standard l = .ok b')
    (hd : ¬ b'.out.script.Doomed) : b'.out.script.Steady ∧ ∃ home m, b.walker.statement = .ok (home, b'.walker) ∧
      matchLine home.name l.trimmed = .ok m ∧ Effect b b' m := by
  obtain ⟨home, m, x, hw, hstated⟩ := statement_stated hs h hd
  exact ⟨(hstated.read.steady hstated.placed hs).resolve_right hd, home, m, hw, hstated.read.matched, hstated.effect⟩

theorem statement_doomed (hd : b.out.script.Doomed) (h : b.statement standard l = .ok b') :
    b'.out.script.Doomed := by
  obtain ⟨home, walker, m, cs, x, scope, analyzer, -, hm, hcs, hx, -, -, hasm⟩ := statement_ok h
  obtain ⟨hp, -⟩ := assemble_placed hasm
  exact (read_of_captures hm hcs hx).doomed hp hd

end Building

end Population

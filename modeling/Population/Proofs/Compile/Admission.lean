import Population.Proofs.Compile.Phases
import Population.Proofs.Compile.Trace
import Population.Proofs.Script.Scope

namespace Population

open Extraction Statement

namespace Pattern

theorem mem_groups_of_inners {p q : Pattern} {name : Text} (h : (name, q) ∈ p.inners) : name ∈ p.groups := by
  induction p with
  | empty | byte | run => cases h
  | seq p₁ p₂ ih₁ ih₂ | alt p₁ p₂ ih₁ ih₂ =>
      rw [groups]
      rcases List.mem_append.mp h with h | h
      · exact List.mem_append_left _ (ih₁ h)
      · exact List.mem_append_right _ (ih₂ h)
  | optional p ih | many p ih => exact ih h
  | group name' p ih =>
      rw [groups]
      rcases List.mem_append.mp h with h | h
      · exact List.mem_cons_of_mem _ (ih h)
      · cases List.mem_singleton.mp h
        exact List.mem_cons_self

end Pattern

structure Form.Fits (s : Schema) (f : Form) : Prop where
  target : ∀ target, f.target = some target → (s.call? target).isSome
  hints : ∀ hint ∈ f.fieldTypes, (s.type? hint.2).isSome
  captures : ∀ p ∈ f.patterns, ∀ n ∈ p.groups,
    (f.fieldTypes.lookup n).isSome ∨ (paramOf (f.target.bind s.call?) n).isSome

namespace Statement

variable {s : Schema} {f : Form}

theorem fits_of_formFaults (h : formFaults s f = []) : f.Fits s := by
  rw [formFaults] at h
  simp only at h
  split at h
  next => cases h
  next hknown =>
      obtain ⟨htypes, huntyped⟩ := List.append_eq_nil_iff.mp h
      refine ⟨fun target ht => ?_, fun hint hhint => ?_, fun p hp n hn => ?_⟩
      · rw [Option.isSome_iff_ne_none]
        intro hnone
        exact hknown target ht (by rw [ht]; exact hnone)
      · by_contra hnot
        have hnone := List.filterMap_eq_nil_iff.mp htypes hint hhint
        simp [hnot] at hnone
      · by_contra hnot
        rw [not_or] at hnot
        have hnone := List.filter_eq_nil_iff.mp (List.map_eq_nil_iff.mp huntyped) n (List.mem_flatMap.mpr ⟨p, hp, hn⟩)
        have hhint : f.fieldTypes.lookup n = none := Option.not_isSome_iff_eq_none.mp hnot.1
        have hparam := Option.not_isSome_iff_eq_none.mp hnot.2
        refine hnone ?_
        rw [hhint]
        cases hcall : f.target.bind s.call? with
        | none => rfl
        | some k =>
            rw [hcall] at hparam
            simp [Call.hasParam, show k.param? n = none from hparam]

theorem fits_of_checkFit (h : checkFit s = .ok ()) : ∀ f ∈ forms, f.Fits s := by
  have hfaults : faults s = [] := by
    rw [checkFit] at h
    split at h
    next hnil => exact hnil
    next => cases h
  intro f hf
  have hhome : f.home ∈ Section.all := by cases f.home <;> decide
  have hmem : f ∈ formsOf f.home.name := List.mem_filter.mpr ⟨hf, by simp⟩
  have hnil := List.flatMap_eq_nil_iff.mp hfaults f.home hhome
  exact fits_of_formFaults (List.flatMap_eq_nil_iff.mp hnil f hmem)

end Statement

theorem Schema.scope_mem {s : Schema} {known : List Text} (h : s.checkScopes known = .ok ()) {k : Call} (hk : k ∈ s.calls)
    {p : Param} (hp : p ∈ k.params) {scope : Text} (hscope : p.scope = some scope) : scope ∈ known := by
  have hfaults : s.scopeFaults known = [] := by
    rw [checkScopes] at h
    split at h
    next hnil => exact hnil
    next => cases h
  by_contra hnot
  have hnone := List.filterMap_eq_nil_iff.mp (List.flatMap_eq_nil_iff.mp hfaults k hk) p hp
  simp [hscope, hnot] at hnone

structure Schema.Admitted (s : Schema) : Prop where
  forms : ∀ f ∈ Statement.forms, f.Fits s
  scopes : ∀ k ∈ s.calls, ∀ p ∈ k.params, ∀ scope, p.scope = some scope → scope ∈ Level.names

theorem Compiled.admitted_of_checkSchema {s : Schema} (h : checkSchema s = .ok ()) : s.Admitted := by
  obtain ⟨⟨⟩, hfit, hscopes⟩ := bind_ok_iff.mp h
  exact ⟨fits_of_checkFit hfit, fun k hk p hp scope hscope => Schema.scope_mem hscopes hk hp hscope⟩

namespace Extraction

variable {s : Schema} {f : Form} {call : Option Call} {cs : List Capture} {e : ExtractError}

theorem targetCall_of_fits (h : f.Fits s) : targetCall s f = .ok (f.target.bind s.call?) := by
  rw [targetCall]
  cases ht : f.target with
  | none => rfl
  | some target =>
      obtain ⟨k, hk⟩ := Option.isSome_iff_exists.mp (h.target target ht)
      simp [hk]

theorem captureType_of_fits (h : f.Fits s) {p : Pattern} (hp : p ∈ f.patterns) {n : Text} (hn : n ∈ p.groups) :
    ∃ type, captureType s f n (paramOf (f.target.bind s.call?) n) = .ok type := by
  unfold captureType
  cases hhint : f.fieldTypes.lookup n with
  | some hint =>
      obtain ⟨before, after, hsplit, -⟩ := List.lookup_eq_some_iff.mp hhint
      obtain ⟨type, htype⟩ := Option.isSome_iff_exists.mp (h.hints (n, hint) (by rw [hsplit]; simp))
      exact ⟨type, by simp only [htype]⟩
  | none =>
      rcases h.captures p hp n hn with hsome | hsome
      · rw [hhint] at hsome
        cases hsome
      · obtain ⟨param, hparam⟩ := Option.isSome_iff_exists.mp hsome
        exact ⟨param.type, by rw [hparam]⟩

theorem addCapture_error {x : Extraction} {c : Capture} (h : addCapture s f call x c = .error e)
    (ht : ∃ type, captureType s f c.name (paramOf call c.name) = .ok type) :
    ∃ type cause, captureType s f c.name (paramOf call c.name) = .ok type ∧
      captureValue f type (paramOf call c.name) c = .error e ∧ e = .badValue c.name cause := by
  obtain ⟨type, htype⟩ := ht
  rcases bind_error_iff.mp h with h | ⟨type', htype', h⟩
  · cases h.symm.trans htype
  cases htype'.symm.trans htype
  rcases bind_error_iff.mp h with h | ⟨value, -, h⟩
  · obtain ⟨cause, -, hcause⟩ := mapError_error_iff.mp h
    exact ⟨type, cause, htype, h, hcause.symm⟩
  · exact absurd h pure_ne_error

end Extraction

namespace Building

variable {home text : Text} {m : Matched} {cs : List Capture}

theorem transformed_captureNames (hm : matchLine home text = .ok m) (hcs : transformed m = .ok cs) :
    cs.map (·.name) ∈ m.form.captureNames := by
  cases (transformed_ok hm).symm.trans hcs
  rw [Capture.map_name_transform]
  exact matchLine_names hm

theorem transformed_mem_groups (hm : matchLine home text = .ok m) (hcs : transformed m = .ok cs) {c : Capture}
    (hc : c ∈ cs) : ∃ p ∈ m.form.patterns, c.name ∈ p.groups := by
  have hname : c.name ∈ m.captures.map (·.name) := by
    rw [← Capture.map_name_transform m.form.transform]
    cases (transformed_ok hm).symm.trans hcs
    exact List.mem_map_of_mem hc
  obtain ⟨c', hc', hname⟩ := List.mem_map.mp hname
  obtain ⟨p, hp, q, hq, -⟩ := matchLine_inner hm hc'
  rw [← hname]
  exact ⟨p, hp, Pattern.mem_groups_of_inners hq⟩

end Building

namespace Schema.Admitted

variable {s : Schema} {home text : Text} {m : Matched} {cs : List Capture} (hs : s.Admitted)
  (hm : matchLine home text = .ok m)
include hs hm

theorem form_fits : m.form.Fits s :=
  hs.forms m.form (mem_forms_of_matchLine hm).1

theorem ofCaptures_error (hcs : Building.transformed m = .ok cs) {e : ExtractError}
    (h : ofCaptures s m.form cs = .error e) :
    ∃ c ∈ cs, ∃ type cause, captureType s m.form c.name (paramOf (m.form.target.bind s.call?) c.name) = .ok type ∧
      captureValue m.form type (paramOf (m.form.target.bind s.call?) c.name) c = .error e ∧
      e = .badValue c.name cause := by
  have hfits := hs.form_fits hm
  rw [ofCaptures, targetCall_of_fits hfits] at h
  obtain ⟨before, c, after, x, rfl, -, herror⟩ := foldlM_error h
  obtain ⟨p, hp, hgroup⟩ := Building.transformed_mem_groups hm hcs (c := c) (by simp)
  obtain ⟨type, cause, htype, hvalue, he⟩ := addCapture_error herror (captureType_of_fits hfits hp hgroup)
  exact ⟨c, by simp, type, cause, htype, hvalue, he⟩

end Schema.Admitted

namespace Extraction.Typed

variable {s : Schema} {f : Form} {cs : List Capture} {x : Extraction}

theorem applyScope_ok (h : Typed s f (f.target.bind s.call?) cs x) (hs : s.Admitted) (scope : Scope) :
    ∃ scope', x.applyScope scope = .ok scope' := by
  have hknown : ∀ entry ∈ x.entries, entry.1 ∈ Level.names := by
    intro entry hentry
    rw [h.entries] at hentry
    obtain ⟨field, -, hentry⟩ := List.mem_filterMap.mp hentry
    obtain ⟨name, hname, rfl⟩ := Option.map_eq_some_iff.mp hentry
    obtain ⟨p, hp, hscope⟩ := Option.bind_eq_some_iff.mp hname
    obtain ⟨k, hk, hparam⟩ := Option.bind_eq_some_iff.mp hp
    obtain ⟨target, -, hcall⟩ := Option.bind_eq_some_iff.mp hk
    exact hs.scopes k (List.mem_of_find?_eq_some hcall) p (List.mem_of_find?_eq_some hparam) name hscope
  rw [applyScope]
  generalize x.entries = entries at hknown
  induction entries generalizing scope with
  | nil => exact ⟨scope, rfl⟩
  | cons entry rest ih =>
      obtain ⟨hentry, hrest⟩ := List.forall_mem_cons.mp hknown
      obtain ⟨scope₁, hset⟩ := scope.set_of_mem hentry entry.2
      obtain ⟨scope', hscope⟩ := ih scope₁ hrest
      refine ⟨scope', ?_⟩
      rw [List.foldlM_cons]
      exact bind_ok_iff.mpr ⟨scope₁, hset, hscope⟩

theorem params_nodup (h : Typed s f (f.target.bind s.call?) cs x) (hcs : (cs.map (·.name)).Nodup) :
    (x.params.map (·.name)).Nodup := by
  rw [← h.names] at hcs
  rw [h.params]
  exact hcs.sublist (List.filter_sublist.map _)

theorem hasParam (h : Typed s f (f.target.bind s.call?) cs x) {p : Field} (hp : p ∈ x.params) :
    ∃ target k, f.target = some target ∧ s.call? target = some k ∧ k.hasParam p.name := by
  rw [h.params] at hp
  obtain ⟨param, hparam⟩ := Option.isSome_iff_exists.mp (List.mem_filter.mp hp).2
  obtain ⟨k, hk, hparam⟩ := Option.bind_eq_some_iff.mp hparam
  obtain ⟨target, ht, hcall⟩ := Option.bind_eq_some_iff.mp hk
  exact ⟨target, k, ht, hcall, by rw [Call.hasParam, hparam]; rfl⟩

end Extraction.Typed

def Script.Called (s : Schema) (script : Script) : Prop :=
  ∀ c ∈ script.commands, s.call? c.call.name = some c.call

namespace Script.Called

variable {s : Schema} {script script' : Script} {call : Option Text} {scope : Option Scope} {fields : List Field}
  {o : Origin}

theorem last (h : script.Called s) {tail : Command} (htail : script.lastOpen = some tail) :
    s.call? tail.call.name = some tail.call := by
  obtain ⟨before, hbefore, -⟩ := lastOpen_some htail
  exact h tail (by rw [hbefore]; simp)

theorem add (h : script.Called s) {c : Command} (hadd : Script.add s script call scope fields o = .ok (script', c)) :
    script'.Called s := by
  intro d hd
  rcases add_ok hadd with ⟨tail, htail, -, hc, rfl⟩ | ⟨-, name, k, -, hk, hc, rfl⟩
  · rcases List.mem_append.mp hd with hd | hd
    · exact h d (List.dropLast_subset _ hd)
    · cases List.mem_singleton.mp hd
      rw [(Command.contribute_ok hc).1]
      exact h.last htail
  · rcases List.mem_append.mp hd with hd | hd
    · exact h d hd
    · cases List.mem_singleton.mp hd
      have hname : k.name = name := by simpa using List.find?_some hk
      rw [(Command.begin_ok hc).1, hname]
      exact hk

end Script.Called

theorem Command.checkFields_error {call : Call} {given : List Text} {fields : List Field} {e : CommandError}
    (hparams : ∀ f ∈ fields, call.hasParam f.name) (hnodup : (fields.map (·.name)).Nodup)
    (h : checkFields call given fields = .error e) :
    ∃ f ∈ fields, f.name ∈ given ∧ e = .suppliedTwice call.name f.name := by
  induction fields generalizing given with
  | nil => cases h
  | cons f rest ih =>
      obtain ⟨hf, hrest⟩ := List.forall_mem_cons.mp hparams
      obtain ⟨hnew, hnodup⟩ := List.nodup_cons.mp hnodup
      simp only [checkFields, hf, Bool.not_true, Bool.false_eq_true, if_false] at h
      split at h
      next hgiven =>
          cases h
          exact ⟨f, List.mem_cons_self, hgiven, rfl⟩
      next =>
          obtain ⟨g, hg, hgiven, he⟩ := ih hrest hnodup h
          refine ⟨g, List.mem_cons_of_mem _ hg, (List.mem_cons.mp hgiven).resolve_left fun hname => ?_, he⟩
          exact hnew (List.mem_map.mpr ⟨g, hg, hname⟩)

inductive Script.Refuses (script : Script) (params : List Field) : ScriptError → Prop
  | stillMissing {tail : Command} (hopen : script.lastOpen = some tail) :
      Refuses script params (.stillMissing tail.call.name tail.missing)
  | suppliedTwice {tail : Command} {p : Field} (hopen : script.lastOpen = some tail) (hp : p ∈ params)
      (hgiven : p.name ∈ tail.explicit) : Refuses script params (.command (.suppliedTwice tail.call.name p.name))

/-- Parameters of the call that a statement is for are refused only if a command of another call is open, or one that
was given such a parameter before. -/
theorem Script.Called.add_refused {s : Schema} {script : Script} (h : script.Called s) {f : Form} {target : Text} {k : Call}
    {scope : Option Scope} {params : List Field} {o : Origin} {e : ScriptError} (ht : f.target = some target)
    (hk : s.call? target = some k) (hparams : ∀ p ∈ params, k.hasParam p.name) (hnodup : (params.map (·.name)).Nodup)
    (hopen : f.call = none → ∃ tail, script.lastOpen = some tail ∧ tail.call.name = target)
    (he : Script.add s script f.call scope params o = .error e) : script.Refuses params e := by
  cases hlast : script.lastOpen with
  | some tail =>
      simp only [Script.add, hlast] at he
      split at he
      next =>
          cases throw_error_iff.mp he
          exact .stillMissing hlast
      next hsame =>
          -- the open command is of the call that the statement is for, by name or because it continues it
          have hname : tail.call.name = target := by
            cases hcall : f.call with
            | some name =>
                rw [Form.target, hcall, Option.some_or] at ht
                cases ht
                have hsame : target = tail.call.name := by simpa [hcall] using hsame
                exact hsame.symm
            | none =>
                obtain ⟨tail', htail', hname⟩ := hopen hcall
                cases hlast.symm.trans htail'
                exact hname
          obtain rfl : tail.call = k := Option.some.inj ((h.last hlast).symm.trans (hname ▸ hk))
          rcases bind_error_iff.mp he with he | ⟨_, -, he⟩
          · obtain ⟨e', he', rfl⟩ := mapError_error_iff.mp he
            rw [Command.contribute] at he'
            split at he'
            next hcompleted =>
                obtain ⟨-, -, hnot⟩ := lastOpen_some hlast
                rw [hnot] at hcompleted
                cases hcompleted
            next =>
                rcases bind_error_iff.mp he' with he' | ⟨_, -, he'⟩
                · obtain ⟨p, hp, hgiven, rfl⟩ := Command.checkFields_error hparams hnodup he'
                  exact .suppliedTwice hlast hp hgiven
                · exact absurd he' pure_ne_error
          · exact absurd he pure_ne_error
  | none =>
      cases hcall : f.call with
      | none =>
          obtain ⟨tail, htail, -⟩ := hopen hcall
          cases hlast.symm.trans htail
      | some name =>
          rw [Form.target, hcall, Option.some_or] at ht
          cases ht
          simp only [Script.add, hlast, hcall, hk] at he
          rcases bind_error_iff.mp he with he | ⟨_, -, he⟩
          · obtain ⟨e', he', rfl⟩ := mapError_error_iff.mp he
            rcases bind_error_iff.mp he' with he' | ⟨_, -, he'⟩
            -- a command that has just been begun was given nothing before
            · obtain ⟨p, -, hgiven, -⟩ := Command.checkFields_error hparams hnodup he'
              cases hgiven
            · exact absurd he' pure_ne_error
          · exact absurd he pure_ne_error

namespace Building

variable {s : Schema} {b b' : Building}

theorem add_called {call : Option Text} {scope : Option Scope} {fields : List Field} {o : Origin}
    (h : b.add s call scope fields o = .ok b') (hb : b.out.script.Called s) : b'.out.script.Called s := by
  obtain ⟨script, c, log, hadd, rfl⟩ := add_ok h
  exact hb.add hadd

theorem closeDomain_called (h : b.closeDomain s = .ok b') (hb : b.out.script.Called s) : b'.out.script.Called s := by
  obtain ⟨-, ⟨-, rfl⟩ | ⟨-, es, c, log, -, hc, rfl⟩⟩ := closeDomain_ok h
  · exact hb
  · have hkept : c.out.script.Called s :=
      foldlM_keeps (·.out.script.Called s) hc hb fun _ _ _ hx hy => add_called (addEmission_ok hy) hx
    exact hkept

theorem line_called {l : Line} (h : b.line s l = .ok b') (hb : b.out.script.Called s) : b'.out.script.Called s := by
  rcases line_ok h with ⟨word, -, h⟩ | ⟨-, h⟩
  · obtain ⟨home, walker, c, -, hc, rfl⟩ := header_ok h
    have hkept : c.out.script.Called s := by
      rcases hc with ⟨-, hc⟩ | ⟨-, rfl⟩
      · exact closeDomain_called hc hb
      · exact hb
    exact hkept
  · obtain ⟨home, walker, m, cs, x, scope, analyzer, -, -, -, -, -, -, hasm⟩ := statement_ok h
    rcases assemble_ok hasm with ⟨-, rfl⟩ | ⟨hadd, -⟩
    · exact hb
    · exact add_called hadd hb

theorem visit_called {p : Stop} (h : b.visit s p = .ok b') (hb : b.out.script.Called s) : b'.out.script.Called s := by
  cases p with
  | opening f =>
      cases h
      exact hb
  | line l => exact line_called h hb
  | ending => exact closeDomain_called h hb

theorem travel_called {ps : List Stop} (h : travel s ps = .ok b) : b.out.script.Called s :=
  foldlM_keeps (·.out.script.Called s) h nofun fun _ _ _ hb hvisit => visit_called hvisit hb

end Building

namespace Compiled

/-- An accepted schema rules out all that would be wrong with the schema and not with a line. A line that is matched
fails to be typed only where a text does not convert; the scope takes its entries; it hands over parameters of its call,
each once; and no build that has come to the line has its script refuse them as unknown. -/
theorem checkSchema_sound {s : Schema} {home text : Text} {m : Matched} (hs : checkSchema s = .ok ())
    (hm : matchLine home text = .ok m) :
    ∃ cs, Building.transformed m = .ok cs ∧
      (∀ e, ofCaptures s m.form cs = .error e → ∃ c ∈ cs, ∃ type cause,
        captureType s m.form c.name (paramOf (m.form.target.bind s.call?) c.name) = .ok type ∧
        captureValue m.form type (paramOf (m.form.target.bind s.call?) c.name) c = .error e ∧
        e = .badValue c.name cause) ∧
      ∀ x, ofCaptures s m.form cs = .ok x →
        (∀ scope, ∃ scope', x.applyScope scope = .ok scope') ∧ (x.params.map (·.name)).Nodup ∧
        (∀ p ∈ x.params, ∃ target k, m.form.target = some target ∧ s.call? target = some k ∧ k.hasParam p.name) ∧
        ∀ (ps : List Stop) (b c : Building) (o : Origin) (h : Halt), Building.travel s ps = .ok b → c.out = b.out →
          c.assemble s m.form x.params o = .error h →
          (∃ extended, m.form.continues = some extended ∧
            ∀ tail, c.out.script.lastOpen = some tail → tail.call.name ≠ extended) ∨
          ∃ e, Script.add s c.out.script m.form.call (some c.scope) x.params o = .error e ∧ h = c.halt e.fault ∧
            c.out.script.Refuses x.params e := by
  have hadmitted := admitted_of_checkSchema hs
  have hcs := Building.transformed_ok hm
  refine ⟨_, hcs, fun e he => hadmitted.ofCaptures_error hm hcs he, fun x hx => ?_⟩
  have htyped := ofCaptures_ok hx
  have hnodup := htyped.params_nodup
    (forms_nodup _ (mem_forms_of_matchLine hm).1 _ (Building.transformed_captureNames hm hcs))
  refine ⟨htyped.applyScope_ok hadmitted, hnodup, fun p hp => htyped.hasParam hp, fun ps b c o h hb hout he => ?_⟩
  rcases Building.assemble_error he with ⟨extended, hextended, hnone, -⟩ | ⟨target, e, ht, hadd, hhalt, hopen⟩
  · exact .inl ⟨extended, hextended, hnone⟩
  -- what the build has open is of a call of the schema
  · have hcalled : c.out.script.Called s := hout ▸ Building.travel_called hb
    obtain ⟨k, hk⟩ := Option.isSome_iff_exists.mp ((hadmitted.form_fits hm).target target ht)
    refine .inr ⟨e, hadd, hhalt, hcalled.add_refused ht hk (fun p hp => ?_) hnodup hopen hadd⟩
    obtain ⟨target', k', ht', hk', hparam⟩ := htyped.hasParam hp
    cases ht.symm.trans ht'
    cases hk.symm.trans hk'
    exact hparam

theorem checkSchema_sound_wideRange : checkSchema Schema.standard = .ok () ∧
    ∃ m cs e, matchLine "subsystem" "Air Field / AF 1-9999999999999999999" = .ok m ∧
      Building.transformed m = .ok cs ∧ ofCaptures Schema.standard m.form cs = .error e ∧
      ∃ c ∈ cs, ∃ cause, e = .badValue c.name cause := by
  have hs : checkSchema Schema.standard = .ok () := by decide +kernel
  have hrefused : (matchLine "subsystem" "Air Field / AF 1-9999999999999999999").toOption.any (fun m =>
      (ofCaptures Schema.standard m.form (Capture.transform m.form.transform m.captures).1).toOption.isNone) = true := by
    decide +kernel
  cases hm : matchLine "subsystem" "Air Field / AF 1-9999999999999999999" with
  | error e =>
      rw [hm] at hrefused
      cases hrefused
  | ok m =>
      rw [hm] at hrefused
      obtain ⟨cs, hcs, hextract, -⟩ := checkSchema_sound hs hm
      cases (Building.transformed_ok hm).symm.trans hcs
      cases hx : ofCaptures Schema.standard m.form (Capture.transform m.form.transform m.captures).1 with
      | error e =>
          obtain ⟨c, hc, type, cause, -, -, he⟩ := hextract e hx
          exact ⟨hs, m, _, e, rfl, hcs, hx, c, hc, cause, he⟩
      | ok x =>
          simp [Except.toOption, hx] at hrefused

end Compiled

end Population

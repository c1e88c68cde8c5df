import Population.Proofs.Pairing
import Population.Proofs.Script.Scope
import Population.Script.Basic

namespace Population

def valueOf (fs : List Field) (name : Text) : Option Value :=
  (fs.find? (·.name = name)).map (·.value)

@[simp] theorem valueOf_nil (name : Text) : valueOf [] name = none :=
  rfl

@[simp] theorem valueOf_cons (f : Field) (fs : List Field) (name : Text) :
    valueOf (f :: fs) name = if f.name = name then some f.value else valueOf fs name := by
  by_cases h : f.name = name <;> simp [valueOf, h]

theorem valueOf_eq_none_iff {fs : List Field} {name : Text} :
    valueOf fs name = none ↔ name ∉ fs.map (·.name) := by
  simp [valueOf]

theorem isSome_valueOf_iff {fs : List Field} {name : Text} : (valueOf fs name).isSome ↔ name ∈ fs.map (·.name) := by
  simp [valueOf]

theorem valueOf_filter (p : Text → Bool) (fs : List Field) (name : Text) :
    valueOf (fs.filter fun f => p f.name) name = if p name then valueOf fs name else none := by
  induction fs with
  | nil => simp
  | cons f rest ih =>
      by_cases hn : f.name = name
      · subst hn
        by_cases hf : p f.name = true
        · simp [hf]
        · simpa [hf] using ih
      · by_cases hf : p f.name = true <;> simp [hf, hn, ih]

theorem valueOf_scopeFields (s : Scope) (name : Text) : valueOf s.fields name = s.get? name := by
  refine Option.ext fun v => ?_
  rw [valueOf, Option.map_eq_some_iff]
  constructor
  · rintro ⟨f, hfind, rfl⟩
    obtain ⟨hf, rfl⟩ := (find?_key_iff s.names_nodup).mp hfind
    exact Scope.mem_fields_iff_get?.mp hf
  · intro hv
    have hf : (⟨name, v⟩ : Field) ∈ s.fields := Scope.mem_fields_iff_get?.mpr hv
    exact ⟨_, (find?_key_iff s.names_nodup).mpr ⟨hf, rfl⟩, rfl⟩

theorem Call.hasParam_of_required {c : Call} {n : Text} (h : n ∈ c.required) : (c.param? n).isSome := by
  obtain ⟨p, hp, hname⟩ := List.mem_map.mp h
  rw [Call.param?, List.find?_isSome]
  exact ⟨p, (List.mem_filter.mp hp).1, by simpa using hname⟩

namespace Command

theorem valueOf_setField (f : Field) (fs : List Field) (name : Text) :
    valueOf (setField f fs) name = if f.name = name then some f.value else valueOf fs name := by
  induction fs with
  | nil => simp [setField]
  | cons g rest ih =>
      by_cases hg : g.name = f.name
      · by_cases hn : f.name = name
        · simp [setField, hg, hn]
        · simp [setField, hg, hn]
      · by_cases hn : f.name = name
        · subst hn
          simp [setField, hg, ih]
        · simp [setField, hg, hn, ih]

theorem valueOf_setFields {fields : List Field} (h : (fields.map (·.name)).Nodup) (base : List Field) (name : Text) :
    valueOf (fields.foldl (fun values f => setField f values) base) name =
      (valueOf fields name).or (valueOf base name) := by
  induction fields generalizing base with
  | nil => simp
  | cons f rest ih =>
      rw [List.map_cons, List.nodup_cons] at h
      rw [List.foldl_cons, ih h.2, valueOf_setField, valueOf_cons]
      by_cases hn : f.name = name
      · have hrest : valueOf rest name = none := valueOf_eq_none_iff.mpr (hn ▸ h.1)
        simp [hn, hrest]
      · simp [hn]

theorem checkFields_ok {call : Call} {given : List Text} {fields : List Field}
    (h : checkFields call given fields = .ok ()) :
    (fields.map (·.name)).Nodup ∧ (∀ f ∈ fields, call.hasParam f.name) ∧ ∀ f ∈ fields, f.name ∉ given := by
  induction fields generalizing given with
  | nil => exact ⟨List.nodup_nil, nofun, nofun⟩
  | cons f rest ih =>
      rw [checkFields] at h
      split at h
      next => cases h
      next hparam =>
          split at h
          next => cases h
          next hgiven =>
              obtain ⟨hnodup, hparams, hnew⟩ := ih h
              refine ⟨?_, ?_, ?_⟩
              · rw [List.map_cons, List.nodup_cons]
                refine ⟨fun hmem => ?_, hnodup⟩
                obtain ⟨g, hg, hname⟩ := List.mem_map.mp hmem
                exact hnew g hg (by rw [hname]; exact List.mem_cons_self)
              · exact List.forall_mem_cons.mpr ⟨by simpa using hparam, hparams⟩
              · refine List.forall_mem_cons.mpr ⟨hgiven, fun g hg hmem => ?_⟩
                exact hnew g hg (List.mem_cons_of_mem _ hmem)

theorem missing_eq (c : Command) : c.missing = c.call.required.filter fun name => (c.value? name).isNone := by
  refine List.filter_congr fun name _ => Bool.eq_iff_iff.mpr ?_
  rw [Option.isNone_iff_eq_none, show c.value? name = valueOf c.values name from rfl, valueOf_eq_none_iff]
  simp

theorem mem_missing_iff {c : Command} {name : Text} :
    name ∈ c.missing ↔ name ∈ c.call.required ∧ c.value? name = none := by
  rw [missing_eq, List.mem_filter, Option.isNone_iff_eq_none]

theorem missing_congr {c c' : Command} (hcall : c.call = c'.call) (hvalue : ∀ name, c.value? name = c'.value? name) :
    c.missing = c'.missing := by
  rw [missing_eq, missing_eq, hcall]
  exact List.filter_congr fun name _ => by rw [hvalue]

theorem completed_iff {c : Command} : c.completed = true ↔ ∀ name ∈ c.call.required, (c.value? name).isSome := by
  rw [completed, List.isEmpty_iff, List.eq_nil_iff_forall_not_mem]
  simp only [mem_missing_iff, not_and, ← Option.isSome_iff_ne_none]

theorem value?_fromScope (call : Call) (scope : Option Scope) (o : Origin) (name : Text) :
    (fromScope call scope o).value? name = if call.hasParam name then scope.bind (·.get? name) else none := by
  have hscope : valueOf ((scope.map Scope.fields).getD []) name = scope.bind (·.get? name) := by
    cases scope with
    | none => rfl
    | some s => exact valueOf_scopeFields s name
  rw [show value? _ name = valueOf _ name from rfl, fromScope, valueOf_filter, hscope]

/-- A command that is begun takes a parameter from its line, or else from the scope. -/
theorem begin_ok {call : Call} {scope : Option Scope} {fields : List Field} {o : Origin} {c : Command}
    (h : Command.begin call scope fields o = .ok c) :
    c.call = call ∧ c.explicit = fields.map (·.name) ∧ ∀ name, c.value? name =
      (valueOf fields name).or (if call.hasParam name then scope.bind (·.get? name) else none) := by
  obtain ⟨⟨⟩, hcheck, h⟩ := bind_ok_iff.mp h
  obtain ⟨hnodup, -⟩ := checkFields_ok hcheck
  cases pure_ok_iff.mp h
  refine ⟨rfl, rfl, fun name => ?_⟩
  rw [← value?_fromScope call scope o]
  exact valueOf_setFields hnodup _ _

theorem contribute_ok {tail c : Command} {fields : List Field} (h : tail.contribute fields = .ok c) :
    c.call = tail.call ∧ c.explicit = tail.explicit ++ fields.map (·.name) ∧
      (∀ f ∈ fields, f.name ∉ tail.explicit) ∧
      ∀ name, c.value? name = (valueOf fields name).or (tail.value? name) := by
  rw [contribute] at h
  split at h
  next => exact absurd h throw_ne_ok
  next =>
      obtain ⟨⟨⟩, hcheck, h⟩ := bind_ok_iff.mp h
      obtain ⟨hnodup, -, hnew⟩ := checkFields_ok hcheck
      cases pure_ok_iff.mp h
      exact ⟨rfl, rfl, hnew, fun name => valueOf_setFields hnodup _ _⟩

end Command

namespace Script

theorem lastOpen_append (s : Script) (c : Command) :
    (s.append c).lastOpen = if c.completed then none else some c := by
  cases h : c.completed <;> simp [lastOpen, append, h]

theorem lastOpen_replaceLast (s : Script) (c : Command) :
    (s.replaceLast c).lastOpen = if c.completed then none else some c := by
  cases h : c.completed <;> simp [lastOpen, replaceLast, h]

theorem lastOpen_append_eq {s : Script} {c tail : Command} (h : (s.append c).lastOpen = some tail) : tail = c := by
  rw [lastOpen_append, Option.ite_none_left_eq_some] at h
  exact (Option.some.inj h.2).symm

theorem lastOpen_replaceLast_eq {s : Script} {c tail : Command} (h : (s.replaceLast c).lastOpen = some tail) :
    tail = c := by
  rw [lastOpen_replaceLast, Option.ite_none_left_eq_some] at h
  exact (Option.some.inj h.2).symm

theorem lastOpen_some {s : Script} {tail : Command} (h : s.lastOpen = some tail) :
    ∃ before, s.commands = before ++ [tail] ∧ tail.completed = false := by
  obtain ⟨hlast, hopen⟩ := Option.filter_eq_some_iff.mp h
  obtain ⟨before, hbefore⟩ := List.getLast?_eq_some_iff.mp hlast
  exact ⟨before, hbefore, by simpa using hopen⟩

theorem close_ok_iff {s : Script} : s.close = .ok () ↔ s.lastOpen = none := by
  rw [close]
  cases s.lastOpen with
  | none => exact ⟨fun _ => rfl, fun _ => rfl⟩
  | some tail => exact ⟨nofun, nofun⟩

def Tailed (s : Script) : Prop :=
  ∀ c ∈ s.commands.dropLast, c.completed = true

theorem Tailed.all_complete {s : Script} (h : s.Tailed) (hopen : s.lastOpen = none) :
    ∀ c ∈ s.commands, c.completed = true := by
  intro c hc
  rcases List.eq_nil_or_concat s.commands with hnil | ⟨before, last, hlast⟩
  · rw [hnil] at hc
    cases hc
  · rw [List.concat_eq_append] at hlast
    rw [Tailed, hlast, List.dropLast_concat] at h
    rw [hlast] at hc
    rcases List.mem_append.mp hc with hc | hc
    · exact h c hc
    · cases List.mem_singleton.mp hc
      simpa [lastOpen, hlast, Option.filter_eq_none_iff] using hopen

theorem Tailed.append {s : Script} (h : s.Tailed) (hopen : s.lastOpen = none) (c : Command) : (s.append c).Tailed := by
  rw [Tailed, Script.append, List.dropLast_concat]
  exact h.all_complete hopen

theorem Tailed.replaceLast {s : Script} (h : s.Tailed) (c : Command) : (s.replaceLast c).Tailed := by
  rw [Tailed, Script.replaceLast, List.dropLast_concat]
  exact h

theorem add_ok {schema : Schema} {s s' : Script} {call : Option Text} {scope : Option Scope} {fields : List Field}
    {o : Origin} {c : Command} (h : add schema s call scope fields o = .ok (s', c)) :
    (∃ tail, s.lastOpen = some tail ∧ (∀ name, call = some name → name = tail.call.name) ∧
      tail.contribute fields = .ok c ∧ s' = s.replaceLast c) ∨
    (s.lastOpen = none ∧ ∃ name k, call = some name ∧ schema.call? name = some k ∧
      Command.begin k scope fields o = .ok c ∧ s' = s.append c) := by
  cases hopen : s.lastOpen with
  | some tail =>
      simp only [add, hopen] at h
      split at h
      next => exact absurd h throw_ne_ok
      next hcall =>
          obtain ⟨c', hc, h⟩ := bind_ok_iff.mp h
          cases pure_ok_iff.mp h
          refine .inl ⟨tail, rfl, fun name hname => ?_, mapError_ok_iff.mp hc, rfl⟩
          simpa [hname] using hcall
  | none =>
      cases call with
      | none =>
          simp only [add, hopen] at h
          cases h
      | some name =>
          simp only [add, hopen] at h
          split at h
          next => cases h
          next k hk =>
              obtain ⟨c', hc, h⟩ := bind_ok_iff.mp h
              cases pure_ok_iff.mp h
              exact .inr ⟨rfl, name, k, rfl, hk, mapError_ok_iff.mp hc, rfl⟩

end Script

end Population

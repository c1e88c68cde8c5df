import Population.Proofs.Compile.Reading
import Population.Proofs.Compile.Step

/-!
A command that waits for an entry of the scope waits for ever, for no line gives one; so in a build that succeeds every
open command is a relationship between its lines.
-/
namespace Population

open Schema Extraction Statement

inductive Placed (s : Schema) (f : Form) (params : List Field) (scope : Scope) (script : Script) : Script → Prop
  | silent (ht : f.target = none) : Placed s f params scope script script
  | begun {c : Command} (hopen : script.lastOpen = none) (hcall : f.call = some c.call.name)
      (hk : s.call? c.call.name = some c.call) (hexplicit : c.explicit = params.map (·.name))
      (hvalue : ∀ n, c.value? n = (valueOf params n).or (if c.call.hasParam n then scope.get? n else none)) :
      Placed s f params scope script (script.append c)
  | continued {tail c : Command} (hopen : script.lastOpen = some tail) (ht : f.target = some tail.call.name)
      (hcall : c.call = tail.call) (hexplicit : c.explicit = tail.explicit ++ params.map (·.name))
      (hnew : ∀ p ∈ params, p.name ∉ tail.explicit)
      (hvalue : ∀ n, c.value? n = (valueOf params n).or (tail.value? n)) :
      Placed s f params scope script (script.replaceLast c)

namespace Building

variable {s : Schema} {b b' : Building} {f : Form} {params : List Field} {o : Origin}

theorem add_placed {script : Script} {c : Command} {scope : Scope}
    (htail : ∀ tail, b.out.script.lastOpen = some tail → f.call = none → f.continues = some tail.call.name)
    (h : Script.add s b.out.script f.call (some scope) params o = .ok (script, c)) :
    Placed s f params scope b.out.script script := by
  rcases Script.add_ok h with ⟨tail, hopen, hname, hc, rfl⟩ | ⟨hopen, name, k, hcall, hk, hc, rfl⟩
  · obtain ⟨hcall, hexplicit, hnew, hvalue⟩ := Command.contribute_ok hc
    refine .continued hopen ?_ hcall hexplicit hnew hvalue
    rw [Form.target]
    cases hf : f.call with
    | none => exact htail tail hopen hf
    | some name => rw [hname name hf, Option.some_or]
  · obtain ⟨rfl, hexplicit, hvalue⟩ := Command.begin_ok hc
    have hkname : c.call.name = name := by simpa using List.find?_some hk
    rw [← hkname] at hcall hk
    exact .begun hopen hcall hk hexplicit hvalue

theorem assemble_placed (h : b.assemble s f params o = .ok b') :
    Placed s f params b.scope b.out.script b'.out.script ∧ b'.walker = b.walker ∧ b'.scope = b.scope ∧
      b'.analyzer = b.analyzer ∧ b'.file = b.file := by
  rcases assemble_ok h with ⟨ht, rfl⟩ | ⟨hadd, htail⟩
  · exact ⟨.silent ht, rfl, rfl, rfl, rfl⟩
  · obtain ⟨script, c, log, hc, rfl⟩ := add_ok hadd
    exact ⟨add_placed htail hc, rfl, rfl, rfl, rfl⟩

end Building

/-- The open command waits for an entry of the scope. -/
def Script.Doomed (script : Script) : Prop :=
  ∃ tail, script.lastOpen = some tail ∧ ∃ n ∈ Level.names, n ∈ tail.missing

/-- The open command is a relationship whose number is known. -/
def Script.Steady (script : Script) : Prop :=
  ∀ tail, script.lastOpen = some tail → tail.call.name ∈ relationshipCalls ∧ ("rnum" : Text) ∈ tail.explicit

theorem Script.steady_of_closed {script : Script} (h : script.lastOpen = none) : script.Steady := by
  intro tail htail
  rw [h] at htail
  cases htail

theorem Script.doomed_of_missing {script : Script} {c : Command} {n : Text}
    (h : script.lastOpen = if c.completed then none else some c) (hn : n ∈ Level.names) (hm : n ∈ c.missing) :
    script.Doomed := by
  have hopen : c.completed = false := by
    rw [Command.completed, List.isEmpty_eq_false_iff]
    exact List.ne_nil_of_mem hm
  rw [hopen] at h
  exact ⟨c, h, n, hn, hm⟩

theorem Statement.callOf_of_call {f : Form} {name : Text} (h : f.call = some name) : callOf f = standard.call? name := by
  rw [callOf, Form.target, h]
  rfl

namespace Read

variable {home line : Text} {m : Matched} {x : Extraction} {scope : Scope} {script script' : Script}

theorem params_no_level (h : Read home line m x) {n : Text} (hn : n ∈ Level.names) : valueOf x.params n = none := by
  rw [h.typed.value_params, h.no_level hn]
  split <;> rfl

/-- No line gives an entry of the scope to the command that waits for it. -/
theorem doomed (h : Read home line m x) (hp : Placed standard m.form x.params scope script script')
    (hd : script.Doomed) : script'.Doomed := by
  obtain ⟨tail, htail, n, hn, hm⟩ := hd
  cases hp with
  | silent => exact ⟨tail, htail, n, hn, hm⟩
  | begun hopen =>
      rw [htail] at hopen
      cases hopen
  | @continued tail' c hopen ht hcall hexplicit hnew hvalue =>
      rw [htail] at hopen
      cases hopen
      obtain ⟨hrequired, hnone⟩ := Command.mem_missing_iff.mp hm
      refine Script.doomed_of_missing (Script.lastOpen_replaceLast _ _) hn (Command.mem_missing_iff.mpr ⟨?_, ?_⟩)
      · rw [hcall]
        exact hrequired
      · rw [hvalue, h.params_no_level hn, hnone]
        rfl

theorem rnum_mem_params (h : Read home line m x) (hf : Opening m.form) :
    ("rnum" : Text) ∈ x.params.map (·.name) := by
  obtain ⟨hparam, -, hnames⟩ := (forms_opening _ h.form_mem).2 hf
  obtain ⟨field, hfield, hname⟩ := List.mem_map.mp (hnames _ h.names_mem)
  rw [h.typed.params]
  refine List.mem_map.mpr ⟨field, List.mem_filter.mpr ⟨hfield, ?_⟩, hname⟩
  rw [hname]
  exact hparam

/-- A command that is begun is complete, unless it waits for the scope or is a relationship. -/
theorem completed_of_begun (h : Read home line m x) {c : Command} (hf : ¬ Opening m.form)
    (hcall : m.form.call = some c.call.name) (hk : standard.call? c.call.name = some c.call)
    (hvalue : ∀ n, c.value? n = (valueOf x.params n).or (if c.call.hasParam n then scope.get? n else none))
    (hdoom : ∀ n ∈ Level.names, n ∉ c.missing) : c.completed = true := by
  refine Command.completed_iff.mpr fun n hrequired => ?_
  have hmem : c.call ∈ (m.form.call.bind standard.call?).toList := by
    rw [hcall, Option.bind_some, hk]
    exact List.mem_singleton.mpr rfl
  rcases forms_complete _ h.form_mem hf _ hmem _ h.names_mem n hrequired with hgiven | hlevel
  · have hparam : (paramOf (some c.call) n).isSome := Call.hasParam_of_required hrequired
    rw [hvalue, h.typed.value_params, callOf_of_call hcall, hk, if_pos hparam]
    simp [isSome_valueOf_iff.mpr hgiven]
  · rw [Option.isSome_iff_ne_none]
    exact fun hnone => hdoom n hlevel (Command.mem_missing_iff.mpr ⟨hrequired, hnone⟩)

theorem steady (h : Read home line m x) (hp : Placed standard m.form x.params scope script script')
    (hs : script.Steady) : script'.Steady ∨ script'.Doomed := by
  cases hp with
  | silent => exact .inl hs
  | @begun c hopen hcall hk hexplicit hvalue =>
      by_cases hf : Opening m.form
      · refine .inl fun tail htail => ?_
        obtain rfl := Script.lastOpen_append_eq htail
        obtain ⟨name, hname, hform⟩ := (forms_opening _ h.form_mem).1.mp hf
        rw [hcall] at hform
        rw [Option.some.inj hform, hexplicit]
        exact ⟨hname, h.rnum_mem_params hf⟩
      -- what is missing comes from the scope, or nothing is
      · by_cases hd : ∃ n ∈ Level.names, n ∈ c.missing
        · obtain ⟨n, hn, hm⟩ := hd
          exact .inr (Script.doomed_of_missing (Script.lastOpen_append _ _) hn hm)
        · have hc := h.completed_of_begun hf hcall hk hvalue fun n hn hm => hd ⟨n, hn, hm⟩
          refine .inl (Script.steady_of_closed ?_)
          rw [Script.lastOpen_append, if_pos hc]
  | @continued tail c hopen ht hcall hexplicit hnew hvalue =>
      refine .inl fun tail' htail => ?_
      obtain ⟨hname, hrnum⟩ := hs tail hopen
      rw [Script.lastOpen_replaceLast_eq htail, hcall, hexplicit]
      exact ⟨hname, List.mem_append_left _ hrnum⟩

/-- A steady script with an open command takes no new one: a line either continues it or leaves it alone. -/
theorem continues_of_open (h : Read home line m x) (hs : script.Steady) {tail : Command}
    (hopen : script.lastOpen = some tail) (ht : m.form.target = some tail.call.name)
    (hnew : ∀ p ∈ x.params, p.name ∉ tail.explicit) : m.form.call = none := by
  obtain ⟨hname, hrnum⟩ := hs tail hopen
  cases hcall : m.form.call with
  | none => rfl
  | some name =>
      rw [Form.target, hcall, Option.some_or] at ht
      have hf : Opening m.form := (forms_opening _ h.form_mem).1.mpr ⟨tail.call.name, hname, hcall.trans ht⟩
      obtain ⟨p, hp, hpname⟩ := List.mem_map.mp (h.rnum_mem_params hf)
      rw [← hpname] at hrnum
      exact absurd hrnum (hnew p hp)

end Read

end Population

import Population.Proofs.Compile.Trace
import Population.Proofs.Script.Scope
import Population.Proofs.Value.Native

/-!
Values come from captured texts, from the scope, which such values are put into, and from the lists of names and the
numbers that a domain is closed with; so all of them are well formed.
-/
namespace Population

def Valued (fs : List Field) : Prop :=
  ∀ f ∈ fs, f.value.WellFormed

@[simp] theorem valued_nil : Valued [] :=
  nofun

@[simp] theorem valued_cons {f : Field} {fs : List Field} : Valued (f :: fs) ↔ f.value.WellFormed ∧ Valued fs :=
  List.forall_mem_cons

theorem Value.wellFormed_ofInt (i : Int) : (ofInt i).WellFormed := by
  have hsingle : (ofInt i).Single .number := single_number_iff.mpr ⟨.ofInt i, rfl, Number.held_ofInt i⟩
  exact .single (u := .integer) hsingle

theorem Value.wellFormed_texts (ts : List Text) : (texts ts).WellFormed := by
  refine .list (u := .string) fun v hv => ?_
  obtain ⟨t, -, rfl⟩ := List.mem_map.mp hv
  exact rfl

theorem Value.wellFormed_text (t : Text) : (text t).WellFormed :=
  .single (u := .string) rfl

theorem Value.wellFormed_bool (b : Bool) : (bool b).WellFormed :=
  .single (u := .bool) rfl

namespace Command

variable {c tail : Command} {call : Call} {scope : Option Scope} {fields base : List Field} {o : Origin}

theorem mem_setField {f g : Field} {fs : List Field} (h : g ∈ setField f fs) : g = f ∨ g ∈ fs := by
  induction fs with
  | nil => exact .inl (List.mem_singleton.mp h)
  | cons k rest ih =>
      rw [setField] at h
      split at h
      next =>
          rcases List.mem_cons.mp h with rfl | h
          · exact .inl rfl
          · exact .inr (List.mem_cons_of_mem k h)
      next =>
          rcases List.mem_cons.mp h with rfl | h
          · exact .inr List.mem_cons_self
          · exact (ih h).imp_right (List.mem_cons_of_mem k)

theorem valued_setFields (hfields : Valued fields) (hbase : Valued base) :
    Valued (fields.foldl (fun values f => setField f values) base) := by
  induction fields generalizing base with
  | nil => exact hbase
  | cons f rest ih =>
      obtain ⟨hf, hrest⟩ := valued_cons.mp hfields
      refine ih hrest fun g hg => ?_
      rcases mem_setField hg with rfl | hg
      · exact hf
      · exact hbase g hg

theorem valued_contribute (h : tail.contribute fields = .ok c) (htail : Valued tail.values) (hfields : Valued fields) :
    Valued c.values := by
  rw [contribute] at h
  split at h
  next => exact absurd h throw_ne_ok
  next =>
      obtain ⟨⟨⟩, -, h⟩ := bind_ok_iff.mp h
      cases pure_ok_iff.mp h
      exact valued_setFields hfields htail

theorem valued_begin (h : Command.begin call scope fields o = .ok c) (hscope : ∀ s, scope = some s → Valued s.fields)
    (hfields : Valued fields) : Valued c.values := by
  obtain ⟨⟨⟩, -, h⟩ := bind_ok_iff.mp h
  cases pure_ok_iff.mp h
  refine valued_setFields hfields fun f hf => ?_
  have hf := (List.mem_filter.mp hf).1
  cases scope with
  | none => cases hf
  | some s => exact hscope s rfl f hf

end Command

namespace Scope

variable {s s' : Scope} {v : Value}

theorem valued_set {name : Text} (h : s.set name v = .ok s') (hs : Valued s.fields) (hv : v.WellFormed) :
    Valued s'.fields := by
  rw [set] at h
  split at h
  next level _ =>
      cases h
      intro f hf
      obtain ⟨inner, hentry, -⟩ := mem_fields_iff.mp hf
      rcases entry_put_iff.mp hentry with ⟨-, hvalue⟩ | ⟨-, -, hold⟩
      · exact hvalue ▸ hv
      · exact hs ⟨inner.name, f.value⟩ (mem_fields_iff.mpr ⟨inner, hold, rfl⟩)
  next => cases h

end Scope

namespace Extraction

variable {s : Schema} {f : Form} {cs : List Capture} {x : Extraction}

theorem valued_fields (h : ofCaptures s f cs = .ok x) : Valued x.fields := by
  have htyped := ofCaptures_ok h
  intro field hfield
  obtain ⟨c, -, hc⟩ := partner_of_right htyped.fields hfield
  obtain ⟨type, -, hvalue⟩ := hc.value
  have hvalue := mapError_ok_iff.mp hvalue
  split at hvalue
  next => exact AppType.convertList_wellFormed hvalue
  next => exact AppType.convert_wellFormed hvalue

theorem valued_params (h : ofCaptures s f cs = .ok x) : Valued x.params := by
  have htyped := ofCaptures_ok h
  rw [htyped.params]
  exact fun field hfield => valued_fields h field (List.mem_filter.mp hfield).1

theorem valued_scope {scope scope' : Scope} (h : ofCaptures s f cs = .ok x) (hscope : x.applyScope scope = .ok scope')
    (hvalued : Valued scope.fields) : Valued scope'.fields := by
  have htyped := ofCaptures_ok h
  refine foldlM_keeps_of_mem (fun scope => Valued scope.fields) hscope hvalued fun scope entry hentry scope' hkept hset => ?_
  rw [htyped.entries] at hentry
  obtain ⟨field, hfield, hmap⟩ := List.mem_filterMap.mp hentry
  obtain ⟨level, -, rfl⟩ := Option.map_eq_some_iff.mp hmap
  exact Scope.valued_set hset hkept (valued_fields h field hfield)

end Extraction

theorem Analyzer.valued_emission {a : Analyzer} {rels : List Emission} {e : Emission}
    (hrels : List.Forall₂ a.Formalizes a.pendingNumbers rels)
    (he : e ∈ rels ++ a.classes.flatMap a.identification) : Valued e.fields := by
  have hint := Value.wellFormed_ofInt
  have htext := Value.wellFormed_text
  rcases derived_cases hrels he with ⟨rnum, first, -, rfl⟩ | ⟨call, c, number, attr, -, rfl⟩
  · have htexts := Value.wellFormed_texts
    have hbool := Value.wellFormed_bool true
    simp only [formalization]
    split <;> simp [hint, htext, htexts, hbool]
  · simp [idCommand, hint, htext]

theorem Script.valued_add {schema : Schema} {s s' : Script} {call : Option Text} {scope : Option Scope}
    {fields : List Field} {o : Origin} {c : Command} (h : add schema s call scope fields o = .ok (s', c))
    (hs : ∀ c ∈ s.commands, Valued c.values) (hscope : ∀ s, scope = some s → Valued s.fields) (hfields : Valued fields) :
    ∀ c ∈ s'.commands, Valued c.values := by
  rcases add_ok h with ⟨tail, htail, -, hc, rfl⟩ | ⟨-, name, k, -, -, hc, rfl⟩
  · obtain ⟨before, hbefore, -⟩ := lastOpen_some htail
    rw [replaceLast, hbefore, List.dropLast_concat, List.forall_mem_append, List.forall_mem_singleton]
    rw [hbefore, List.forall_mem_append, List.forall_mem_singleton] at hs
    exact ⟨hs.1, Command.valued_contribute hc hs.2 hfields⟩
  · rw [append, List.forall_mem_append, List.forall_mem_singleton]
    exact ⟨hs, Command.valued_begin hc hscope hfields⟩

namespace Building

variable {s : Schema} {b b' : Building} {h : Halt} {ps : List Stop}

structure WellValued (b : Building) : Prop where
  commands : ∀ c ∈ b.out.script.commands, Valued c.values
  scope : Valued b.scope.fields

inductive Leads : Except Halt Building → Prop
  | on {b : Building} (h : b.WellValued) : Leads (.ok b)
  | halted {h : Halt} (hc : ∀ c ∈ h.out.script.commands, Valued c.values) : Leads (.error h)

theorem Leads.bind {r : Except Halt Building} {next : Building → Except Halt Building} (hr : Leads r)
    (hnext : ∀ b, b.WellValued → Leads (next b)) : Leads (r >>= next) := by
  cases hr with
  | on hb => exact hnext _ hb
  | halted hc => exact .halted hc

theorem Leads.attempt {α : Type} {r : Except Fault α} {next : α → Except Halt Building} (hb : b.WellValued)
    (hnext : ∀ x, r = .ok x → Leads (next x)) : Leads (b.attempt r >>= next) := by
  cases r with
  | ok x => exact hnext x rfl
  | error e => exact .halted hb.commands

theorem Leads.mapError {r : Except Halt Building} {g : Halt → Halt} (hr : Leads r) (hg : ∀ h, (g h).out = h.out) :
    Leads (r.mapError g) := by
  cases hr with
  | on hb => exact .on hb
  | halted hc =>
      refine .halted ?_
      rw [hg]
      exact hc

theorem Leads.foldlM {α : Type} {step : Building → α → Except Halt Building} {items : List α} (hb : b.WellValued)
    (hstep : ∀ a ∈ items, ∀ b, b.WellValued → Leads (step b a)) : Leads (items.foldlM step b) := by
  induction items generalizing b with
  | nil => exact .on hb
  | cons a rest ih =>
      obtain ⟨hhead, hrest⟩ := List.forall_mem_cons.mp hstep
      rw [List.foldlM_cons]
      exact (hhead b hb).bind fun _ hb => ih hb hrest

theorem Leads.commands {r : Except Halt Building} (hr : Leads r) : ∀ c ∈ (reached r).commands, Valued c.values := by
  cases hr with
  | on hb => exact hb.commands
  | halted hc => exact hc

theorem add_leads {call : Option Text} {scope : Option Scope} {fields : List Field} {o : Origin} (hb : b.WellValued)
    (hscope : ∀ s, scope = some s → Valued s.fields) (hfields : Valued fields) : Leads (b.add s call scope fields o) := by
  cases hadd : b.add s call scope fields o with
  | error h =>
      refine .halted ?_
      rw [add_error_out hadd]
      exact hb.commands
  | ok b' =>
      obtain ⟨script, c, log, hscript, rfl⟩ := add_ok hadd
      exact .on ⟨Script.valued_add hscript hb.commands hscope hfields, hb.scope⟩

theorem closeDomain_leads (hb : b.WellValued) : Leads (b.closeDomain s) := by
  rw [closeDomain_eq]
  refine .attempt hb fun _ _ => ?_
  split
  next hactive =>
      refine .attempt hb fun es hes => ?_
      obtain ⟨-, rels, rfl, hrels⟩ := Analyzer.finalize_ok hactive hes
      refine Leads.bind (.foldlM (b := { b with analyzer := b.analyzer.finalize.1 }) ⟨hb.commands, hb.scope⟩ ?_) ?_
      · intro e he b hb
        exact (add_leads hb nofun (Analyzer.valued_emission hrels he)).mapError fun _ => rfl
      · intro c hc
        obtain ⟨log, hlog⟩ := noteDomain_cases c b.analyzer.finalize.1.domain
          (rels ++ b.analyzer.classes.flatMap b.analyzer.identification).length
        rw [hlog]
        exact .on ⟨hc.commands, hc.scope⟩
  next => exact .on hb

theorem header_leads (hb : b.WellValued) (l : Line) (word : Text) : Leads (b.header s l word) := by
  rw [header_eq]
  refine .attempt hb fun moved _ => Leads.bind ?_ fun c hc => .on ⟨hc.commands, hc.scope⟩
  split
  next => exact closeDomain_leads ⟨hb.commands, hb.scope⟩
  next => exact .on ⟨hb.commands, hb.scope⟩

theorem assemble_leads {f : Form} {params : List Field} {o : Origin} (hb : b.WellValued) (hparams : Valued params) :
    Leads (b.assemble s f params o) := by
  have hadd : Leads (b.add s f.call (some b.scope) params o) :=
    add_leads hb (fun _ hs => Option.some.inj hs ▸ hb.scope) hparams
  rw [assemble]
  split
  next => exact .on hb
  next => exact hadd
  next =>
      split
      next => exact hadd
      next => exact .halted hb.commands

theorem statement_leads (hb : b.WellValued) (l : Line) : Leads (b.statement s l) := by
  rw [statement_eq]
  refine .attempt hb fun moved _ => .attempt hb fun m _ => .attempt hb fun cs _ => .attempt hb fun x hx => ?_
  refine .attempt hb fun scope hscope => ?_
  have hx := mapError_ok_iff.mp hx
  split
  next => exact .halted hb.commands
  next analyzer _ =>
      refine assemble_leads ⟨hb.commands, ?_⟩ (Extraction.valued_params hx)
      exact Extraction.valued_scope hx (mapError_ok_iff.mp hscope) hb.scope

theorem visit_leads (hb : b.WellValued) (p : Stop) : Leads (b.visit s p) := by
  cases p with
  | opening f => exact .on ⟨hb.commands, nofun⟩
  | ending => exact closeDomain_leads hb
  | line l =>
      refine Leads.mapError ?_ fun _ => rfl
      split
      next word _ => exact header_leads hb l word
      next => exact statement_leads hb l

end Building

/-- The values of a script that is compiled, as far as it got, are well formed. -/
theorem Compiled.compile_valued (s : Schema) (fs : List SourceFile) :
    ∀ c ∈ (compile s fs).script.commands, Valued c.values := by
  rw [compile]
  split
  next => exact nofun
  next =>
      rw [← written_stops]
      refine (Building.Leads.foldlM (b := .start [] .empty) ?_ fun p _ b hb => Building.visit_leads hb p).commands
      exact ⟨nofun, nofun⟩

end Population

import Mathlib.Logic.Function.Basic
import Population.Proofs.Script.Batches
import Population.Proofs.Script.Scope

/-!
A command computes its parameters and its completion from the values it has. A gathering keeps all of this apart and
settles it once, when nothing is missing; it is in step with the command that is offered the same.
-/
namespace Population

namespace Command

variable {c c' : Command} {fields : List Field}

def offer (c : Command) (fields : List Field) : Command × Option CommandError :=
  match c.contribute fields with
  | .ok c' => (c', none)
  | .error e => (c, some e)

def after (c : Command) (batches : List (List Field)) : Command :=
  batches.foldl (fun c fields => (c.offer fields).1) c

def order (c : Command) : List Text :=
  c.values.map (·.name)

structure Sound (c : Command) : Prop where
  order_nodup : c.order.Nodup
  mem_order_iff : ∀ name, name ∈ c.order ↔ (c.value? name).isSome
  hasParam : ∀ name ∈ c.order, c.call.hasParam name
  completed_iff_values : c.completed = true ↔ ∀ name ∈ c.call.required, (c.value? name).isSome
  completed_iff_missing : c.completed = true ↔ c.missing = []
  empty_while_open : c.completed = false → c.params = [] ∧ c.arguments = []
  params_eq : c.completed = true → c.params = c.order
  arguments_eq : c.completed = true → c.arguments.map (fun f => some f.value) = c.params.map c.value?
  refuses : c.completed = true → ∀ fields, c.contribute fields = .error (.complete c.call.name)
  stays : c.completed = true → ∀ batches, c.after batches = c
  unchanged : ∀ fields e, (c.offer fields).2 = some e → (c.offer fields).1 = c

structure Tabled (c : Command) : Prop where
  nodup : c.order.Nodup
  params : ∀ name ∈ c.order, c.call.hasParam name

theorem names_setField (f : Field) (values : List Field) :
    (setField f values).map (·.name) =
      if f.name ∈ values.map (·.name) then values.map (·.name) else values.map (·.name) ++ [f.name] := by
  induction values with
  | nil => rfl
  | cons g rest ih =>
      by_cases hg : g.name = f.name
      · simp [setField, hg]
      · rw [setField, if_neg hg, List.map_cons, ih, List.map_cons]
        by_cases hf : f.name ∈ rest.map (·.name)
        · rw [if_pos hf, if_pos (List.mem_cons_of_mem _ hf)]
        · rw [if_neg hf, if_neg (List.not_mem_cons_of_ne_of_not_mem (Ne.symm hg) hf), List.cons_append]

theorem order_given_single (c : Command) (f : Field) :
    (c.given [f]).order = if f.name ∈ c.order then c.order else c.order ++ [f.name] :=
  names_setField f c.values

theorem Tabled.given (h : c.Tabled) (hparams : ∀ f ∈ fields, c.call.hasParam f.name) : (c.given fields).Tabled := by
  induction fields generalizing c with
  | nil => rwa [given_nil]
  | cons f rest ih =>
      obtain ⟨hparam, hrest⟩ := List.forall_mem_cons.mp hparams
      rw [← List.singleton_append, given_append]
      refine ih ⟨?_, ?_⟩ hrest
      · rw [order_given_single]
        split
        next => exact h.nodup
        next hnew => exact List.concat_eq_append ▸ h.nodup.concat hnew
      · intro name hname
        rw [order_given_single] at hname
        split at hname
        next => exact h.params name hname
        next =>
            rcases List.mem_append.mp hname with hname | hname
            · exact h.params name hname
            · exact List.mem_singleton.mp hname ▸ hparam

theorem scopeNames_nodup (scope : Option Scope) : (((scope.map Scope.fields).getD []).map (·.name)).Nodup := by
  cases scope with
  | none => exact .nil
  | some s => exact s.names_nodup

theorem tabled_fromScope (call : Call) (scope : Option Scope) (o : Origin) : (fromScope call scope o).Tabled := by
  refine ⟨(scopeNames_nodup scope).sublist (List.filter_sublist.map _), fun name hname => ?_⟩
  obtain ⟨f, hf, rfl⟩ := List.mem_map.mp hname
  exact (List.mem_filter.mp hf).2

theorem begin_tabled {call : Call} {scope : Option Scope} {o : Origin} (h : begin call scope fields o = .ok c) :
    c.Tabled := by
  obtain ⟨htakes, rfl⟩ := begin_ok_iff.mp h
  exact (tabled_fromScope call scope o).given htakes.params

theorem offer_cases (c : Command) (fields : List Field) :
    (c.offer fields = (c.given fields, none) ∧ c.completed = false ∧ c.Takes fields) ∨
    ∃ e, c.contribute fields = .error e ∧ c.offer fields = (c, some e) := by
  cases h : c.contribute fields with
  | error e => exact .inr ⟨e, rfl, by rw [offer, h]⟩
  | ok c' =>
      obtain ⟨hopen, htakes, rfl⟩ := contribute_ok_iff.mp h
      exact .inl ⟨by rw [offer, h], hopen, htakes⟩

theorem Tabled.offer (h : c.Tabled) (fields : List Field) : (c.offer fields).1.Tabled := by
  rcases offer_cases c fields with ⟨hoffer, -, htakes⟩ | ⟨e, -, hoffer⟩
  · rw [hoffer]
    exact h.given htakes.params
  · rwa [hoffer]

theorem Tabled.after (h : c.Tabled) (batches : List (List Field)) : (c.after batches).Tabled := by
  induction batches generalizing c with
  | nil => exact h
  | cons fields rest ih => exact ih (h.offer fields)

theorem after_call (c : Command) (batches : List (List Field)) : (c.after batches).call = c.call := by
  induction batches generalizing c with
  | nil => rfl
  | cons fields rest ih =>
      refine (ih (c.offer fields).1).trans ?_
      rcases offer_cases c fields with ⟨hoffer, -⟩ | ⟨e, -, hoffer⟩ <;> rw [hoffer]
      rfl

theorem after_complete (h : c.completed = true) (batches : List (List Field)) : c.after batches = c := by
  induction batches with
  | nil => rfl
  | cons fields rest ih =>
      have hoffer : (c.offer fields).1 = c := by rw [offer, contribute_complete h]
      rw [after, List.foldl_cons, hoffer]
      exact ih

theorem Tabled.values_in_order (h : c.Tabled) : c.order.map c.value? = c.values.map fun f => some f.value := by
  rw [order, List.map_map]
  refine List.map_congr_left fun f hf => ?_
  have hfind : c.values.find? (·.name = f.name) = some f := (find?_key_iff h.nodup).mpr ⟨hf, rfl⟩
  rw [Function.comp_apply, value?, hfind]
  rfl

theorem Tabled.sound (h : c.Tabled) : c.Sound where
  order_nodup := h.nodup
  mem_order_iff _ := isSome_valueOf_iff.symm
  hasParam := h.params
  completed_iff_values := completed_iff
  completed_iff_missing := List.isEmpty_iff
  empty_while_open hopen := ⟨by rw [Command.params, hopen]; rfl, by rw [arguments, hopen]; rfl⟩
  params_eq hc := by rw [Command.params, if_pos hc, order]
  arguments_eq hc := by
    rw [arguments, if_pos hc, Command.params, if_pos hc]
    exact h.values_in_order.symm
  refuses := contribute_complete
  stays := after_complete
  unchanged fields e he := by
    rcases offer_cases c fields with ⟨hoffer, -⟩ | ⟨_, -, hoffer⟩ <;> rw [hoffer] at he ⊢
    cases he

end Command

/-- A command with its parts apart: the values by name, the order in which they came, and the lists that are settled
when nothing is missing. -/
@[ext]
structure Gathering where
  call : Call
  value : Text → Option Value
  explicit : Text → Bool
  order : List Text
  completed : Bool
  params : List Text
  arguments : List (Option Value)

namespace Gathering

def start (call : Call) : Gathering where
  call
  value _ := none
  explicit _ := false
  order := []
  completed := false
  params := []
  arguments := []

def set (g : Gathering) (f : Field) : Gathering :=
  { g with
    value := Function.update g.value f.name (some f.value)
    order := if (g.value f.name).isSome then g.order else g.order ++ [f.name] }

def fill (g : Gathering) (f : Field) : Gathering :=
  if g.call.hasParam f.name then g.set f else g

def supply (g : Gathering) (f : Field) : Gathering :=
  { g.set f with explicit := Function.update g.explicit f.name true }

def missing (g : Gathering) : List Text :=
  g.call.required.filter fun name => (g.value name).isNone

-- the lists are copied here once, so values that came later would not show in them
def settle (g : Gathering) : Gathering :=
  if g.missing.isEmpty then
    { g with completed := true, params := g.order, arguments := g.order.map g.value }
  else g

def check (g : Gathering) : (seen : List Text) → List Field → Except CommandError Unit
  | _, [] => .ok ()
  | seen, f :: rest =>
    if !g.call.hasParam f.name then .error (.noParam g.call.name f.name)
    else if g.explicit f.name || decide (f.name ∈ seen) then .error (.suppliedTwice g.call.name f.name)
    else g.check (f.name :: seen) rest

def contribute (g : Gathering) (fields : List Field) : Gathering × Option CommandError :=
  if g.completed then (g, some (.complete g.call.name))
  else match g.check [] fields with
    | .error e => (g, some e)
    | .ok () => ((fields.foldl supply g).settle, none)

def begin (call : Call) (scope : Option Scope) (fields : List Field) : Except CommandError Gathering :=
  match (((scope.map Scope.fields).getD []).foldl fill (start call)).contribute fields with
  | (g, none) => .ok g
  | (_, some e) => .error e

def after (g : Gathering) (batches : List (List Field)) : Gathering :=
  batches.foldl (fun g fields => (g.contribute fields).1) g

end Gathering

namespace Command

variable {c : Command} {fields : List Field}

def opened (c : Command) : Gathering where
  call := c.call
  value := c.value?
  explicit name := decide (name ∈ c.explicit)
  order := c.order
  completed := false
  params := []
  arguments := []

def gathered (c : Command) : Gathering :=
  { c.opened with
    completed := c.completed
    params := c.params
    arguments := c.arguments.map fun f => some f.value }

theorem gathered_of_open (h : c.completed = false) : c.gathered = c.opened := by
  rw [gathered, params, arguments, h]
  rfl

theorem settle_opened (h : c.Tabled) : c.opened.settle = c.gathered := by
  -- the same names are missing, and they decide both whether it is settled and whether the command is complete
  have hmissing : c.opened.missing = c.missing := (missing_eq c).symm
  rw [Gathering.settle, hmissing]
  cases hc : c.completed with
  | false => rw [gathered_of_open hc, show c.missing.isEmpty = false from hc, if_neg Bool.false_ne_true]
  | true =>
      rw [show c.missing.isEmpty = true from hc, if_pos rfl, gathered, params, arguments, hc, if_pos rfl, if_pos rfl,
        ← h.values_in_order]
      rfl

theorem set_opened (c : Command) (f : Field) :
    c.opened.set f = { c with values := setField f c.values : Command }.opened := by
  refine Gathering.ext rfl (funext fun name => ?_) rfl ?_ rfl rfl rfl
  · refine (Function.update_apply _ _ _ _).trans (Eq.trans ?_ (valueOf_setField f c.values name).symm)
    exact if_congr eq_comm rfl rfl
  · refine Eq.trans ?_ (names_setField f c.values).symm
    exact if_congr isSome_valueOf_iff rfl rfl

theorem supply_opened (c : Command) (f : Field) : c.opened.supply f = (c.given [f]).opened := by
  rw [Gathering.supply, set_opened]
  refine Gathering.ext rfl rfl (funext fun name => (Function.update_apply _ _ _ _).trans ?_) rfl rfl rfl rfl
  by_cases hname : name = f.name
  · rw [if_pos hname]
    exact (decide_eq_true (List.mem_append_right _ (List.mem_singleton.mpr hname))).symm
  · rw [if_neg hname]
    exact decide_eq_decide.mpr (by simp [given, hname])

theorem foldl_supply_opened (c : Command) (fields : List Field) :
    fields.foldl Gathering.supply c.opened = (c.given fields).opened := by
  induction fields generalizing c with
  | nil => rw [List.foldl_nil, given_nil]
  | cons f rest ih => rw [List.foldl_cons, supply_opened, ih, ← given_append, List.singleton_append]

theorem check_opened (c : Command) (seen : List Text) (fields : List Field) :
    c.opened.check seen fields = checkFields c.call (seen ++ c.explicit) fields := by
  induction fields generalizing seen with
  | nil => rfl
  | cons f rest ih =>
      have hgiven : (c.opened.explicit f.name || decide (f.name ∈ seen)) = true ↔ f.name ∈ seen ++ c.explicit := by
        simp [opened, or_comm]
      rw [Gathering.check, checkFields, ih, List.cons_append]
      exact if_congr Iff.rfl rfl (if_congr hgiven rfl rfl)

theorem contribute_opened (h : c.Tabled) (fields : List Field) :
    c.opened.contribute fields = match checkFields c.call c.explicit fields with
      | .error e => (c.opened, some e)
      | .ok () => ((c.given fields).gathered, none) := by
  have hopened : c.opened.completed = false := rfl
  rw [Gathering.contribute, hopened, if_neg Bool.false_ne_true, check_opened, List.nil_append]
  cases hcheck : checkFields c.call c.explicit fields with
  | error e => rfl
  | ok _ =>
      have htakes : c.Takes fields := checkFields_ok_iff.mp hcheck
      rw [foldl_supply_opened, settle_opened (h.given htakes.params)]

theorem contribute_gathered (h : c.Tabled) (fields : List Field) :
    c.gathered.contribute fields = ((c.offer fields).1.gathered, (c.offer fields).2) := by
  cases hc : c.completed with
  | true =>
      have hgathered : c.gathered.completed = true := hc
      rw [offer, contribute_complete hc, Gathering.contribute, if_pos hgathered]
      rfl
  | false =>
      rw [offer, contribute_of_open hc, gathered_of_open hc, contribute_opened h]
      cases checkFields c.call c.explicit fields with
      | error e => rw [Except.map, gathered_of_open hc]
      | ok _ => rfl

theorem after_gathered (h : c.Tabled) (batches : List (List Field)) :
    c.gathered.after batches = (c.after batches).gathered := by
  induction batches generalizing c with
  | nil => rfl
  | cons fields rest ih =>
      rw [Gathering.after, List.foldl_cons, contribute_gathered h]
      exact ih (h.offer fields)

theorem setField_of_new {f : Field} {values : List Field} (h : f.name ∉ values.map (·.name)) :
    setField f values = values ++ [f] := by
  induction values with
  | nil => rfl
  | cons g rest ih =>
      rw [List.map_cons, List.mem_cons, not_or] at h
      rw [setField, if_neg (Ne.symm h.1), ih h.2, List.cons_append]

def filled (c : Command) (entries : List Field) : Command :=
  { c with values := c.values ++ entries.filter fun f => c.call.hasParam f.name }

theorem filled_cons (c : Command) (f : Field) (rest : List Field) : c.filled (f :: rest) = (c.filled [f]).filled rest := by
  rw [filled, ← List.singleton_append, List.filter_append, ← List.append_assoc]
  rfl

theorem mem_order_filled {f : Field} {name : Text} (h : name ∈ (c.filled [f]).order) : name ∈ c.order ∨ name = f.name := by
  rw [order, filled, List.map_append] at h
  refine (List.mem_append.mp h).imp_right fun hname => ?_
  obtain ⟨g, hg, rfl⟩ := List.mem_map.mp hname
  exact congrArg Field.name (List.mem_singleton.mp (List.mem_filter.mp hg).1)

theorem fill_opened {f : Field} (h : f.name ∉ c.order) : c.opened.fill f = (c.filled [f]).opened := by
  rw [Gathering.fill, filled]
  split
  next hparam =>
      rw [set_opened, setField_of_new h, List.filter_cons_of_pos (by exact hparam)]
      rfl
  next hparam =>
      rw [List.filter_cons_of_neg (by exact hparam), List.filter_nil, List.append_nil]

theorem foldl_fill_opened {entries : List Field} (hnodup : (entries.map (·.name)).Nodup)
    (hnew : ∀ f ∈ entries, f.name ∉ c.order) : entries.foldl Gathering.fill c.opened = (c.filled entries).opened := by
  induction entries generalizing c with
  | nil => rw [List.foldl_nil, filled, List.filter_nil, List.append_nil]
  | cons f rest ih =>
      obtain ⟨hf, hrest⟩ := List.forall_mem_cons.mp hnew
      rw [List.map_cons, List.nodup_cons] at hnodup
      rw [List.foldl_cons, fill_opened hf, ih hnodup.2, ← filled_cons]
      intro g hg hmem
      rcases mem_order_filled hmem with hmem | hname
      · exact hrest g hg hmem
      · exact hnodup.1 (hname ▸ List.mem_map_of_mem hg)

theorem begin_gathered (call : Call) (scope : Option Scope) (fields : List Field) (o : Origin) :
    Gathering.begin call scope fields = (begin call scope fields o).map gathered := by
  -- a scope has each of its entries once, so none is filled in over another
  have hstart : ((scope.map Scope.fields).getD []).foldl Gathering.fill (Gathering.start call) =
      (fromScope call scope o).opened :=
    foldl_fill_opened (c := ⟨call, o, [], []⟩) (scopeNames_nodup scope) fun _ _ => List.not_mem_nil
  have hexplicit : (fromScope call scope o).explicit = [] := rfl
  rw [Gathering.begin, begin_eq, hstart, contribute_opened (tabled_fromScope call scope o), hexplicit]
  have hcall : (fromScope call scope o).call = call := rfl
  rw [hcall]
  cases checkFields call [] fields <;> rfl

/-- A command is sound whatever was offered to it since it was begun, and its parts are those of the gathering that was
offered the same. -/
theorem after_sound {call : Call} {scope : Option Scope} {o : Origin} (h : begin call scope fields o = .ok c)
    (batches : List (List Field)) : (c.after batches).call = call ∧ (c.after batches).Sound ∧
    (Gathering.begin call scope fields).map (·.after batches) = .ok (c.after batches).gathered ∧
    ∀ more, ((c.after batches).gathered.contribute more).2 = ((c.after batches).offer more).2 := by
  have htabled : (c.after batches).Tabled := (begin_tabled h).after batches
  refine ⟨(after_call c batches).trans (begin_ok h).1, htabled.sound, ?_, fun more => ?_⟩
  · rw [begin_gathered call scope fields o, h]
    exact congrArg Except.ok (after_gathered (begin_tabled h) batches)
  · rw [contribute_gathered htabled]

/-- The line of a class that gives its alias alone. -/
def aliasOnly : Command :=
  (fromScope Schema.Standard.classCall airField pilotOrigin).given [pilotAlias]

/-- Two lines that are refused before the class is complete, and one after. -/
def pilotOffers : List (List Field) :=
  [[pilotAlias], [pilotNumber], [pilotName, ⟨"wings", .ofInt 2⟩], [pilotName], []]

theorem after_sound_pilot : begin Schema.Standard.classCall airField [pilotAlias] pilotOrigin = .ok aliasOnly ∧
    (aliasOnly.after pilotOffers).Sound ∧ (aliasOnly.after pilotOffers).completed = true ∧
    (aliasOnly.after pilotOffers).params = ["domain", "subsystem", "alias", "cnum", "name"] := by
  have hbegin : begin Schema.Standard.classCall airField [pilotAlias] pilotOrigin = .ok aliasOnly :=
    begin_ok_iff.mpr ⟨takes_fromScope.mpr (by decide), rfl⟩
  obtain ⟨-, hsound, -⟩ := after_sound hbegin pilotOffers
  exact ⟨hbegin, hsound, by decide, by decide⟩

end Command

end Population

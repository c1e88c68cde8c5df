import Mathlib.Data.List.Forall2
import Population.Compile.Extract
import Population.Proofs.Outcome
import Population.Proofs.Script.Values

namespace Population

namespace Capture

theorem get?_cons (c : Capture) (cs : List Capture) (name : Text) :
    get? (c :: cs) name = if c.name = name then some c.text else get? cs name := by
  by_cases h : c.name = name <;> simp [get?, h]

theorem get?_map_writeFlag {name : Text} (h : name ∉ flagNames) (cs : List Capture) :
    get? (cs.map writeFlag) name = get? cs name := by
  induction cs with
  | nil => rfl
  | cons c rest ih =>
      rw [List.map_cons, get?_cons, get?_cons, ih, writeFlag]
      by_cases hc : c.name ∈ flagNames
      · have hne : c.name ≠ name := fun he => h (he ▸ hc)
        simp [hc, hne]
      · simp [hc]

theorem get?_writeMultiplicities {name : Text} (h : name ∉ multiplicityNames) (cs : List Capture) :
    get? (writeMultiplicities cs).1 name = get? cs name := by
  induction cs with
  | nil => rfl
  | cons c rest ih =>
      by_cases hc : c.name ∈ multiplicityNames
      · have hne : c.name ≠ name := fun he => h (he ▸ hc)
        cases hm : multiplicity? c.text <;> simp [writeMultiplicities, hc, hm, get?_cons, hne, ih]
      · simp [writeMultiplicities, hc, get?_cons, ih]

/-- A transform leaves the captures alone that are neither marks nor multiplicities. -/
theorem get?_transform {name : Text} (hf : name ∉ flagNames) (hm : name ∉ multiplicityNames) (t : Transform)
    (cs : List Capture) : get? (transform t cs).1 name = get? cs name := by
  cases t with
  | none => rfl
  | multiplicity => exact get?_writeMultiplicities hm cs
  | flags => exact get?_map_writeFlag hf cs

theorem map_name_writeMultiplicities (cs : List Capture) :
    (writeMultiplicities cs).1.map (·.name) = cs.map (·.name) := by
  induction cs with
  | nil => rfl
  | cons c rest ih =>
      by_cases hc : c.name ∈ multiplicityNames
      · cases hm : multiplicity? c.text <;> simp [writeMultiplicities, hc, hm, ih]
      · simp [writeMultiplicities, hc, ih]

theorem map_name_transform (t : Transform) (cs : List Capture) :
    (transform t cs).1.map (·.name) = cs.map (·.name) := by
  cases t with
  | none => rfl
  | multiplicity => exact map_name_writeMultiplicities cs
  | flags =>
      simp only [transform, List.map_map]
      refine List.map_congr_left fun c _ => ?_
      by_cases hc : c.name ∈ flagNames <;> simp [writeFlag, hc]

end Capture

theorem UiType.read_integer {t : Text} {v : Value} (h : UiType.integer.read t = .ok v) :
    ∃ n i, Number.parse? t = some n ∧ n.toInt64? = some i ∧ v = .number n := by
  obtain ⟨n, hn, h⟩ := bind_ok_iff.mp h
  have hparse : Number.parse? t = some n := by
    rw [number] at hn
    split at hn
    next hp =>
        cases hn
        exact hp
    next => cases hn
  cases hw : n.isWhole with
  | false => simp [hw] at h
  | true =>
      cases hi : n.toInt64? with
      | none =>
          simp only [hw, hi] at h
          cases h
      | some i =>
          simp only [hw, hi] at h
          exact ⟨n, i, hparse, hi, (pure_ok_iff.mp h).symm⟩

theorem AppType.convert_ok {type : AppType} {raw : Text} {v : Value} (h : type.convert raw = .ok v) :
    (type.ui = .string ∧ ∃ t, v = .text t) ∨ (type.ui ≠ .string ∧ ((∃ n, v = .number n) ∨ ∃ b, v = .bool b)) := by
  have hread := mapError_ok_iff.mp h
  cases hui : type.ui with
  | string =>
      rw [hui] at hread
      cases hread
      exact .inl ⟨rfl, _, rfl⟩
  | integer =>
      rw [hui] at hread
      obtain ⟨n, i, -, -, rfl⟩ := UiType.read_integer hread
      exact .inr ⟨nofun, .inl ⟨n, rfl⟩⟩
  | float =>
      rw [hui] at hread
      obtain ⟨n, -, rfl⟩ := map_ok_iff.mp hread
      exact .inr ⟨nofun, .inl ⟨n, rfl⟩⟩
  | bool =>
      rw [hui] at hread
      obtain ⟨b, -, rfl⟩ := map_ok_iff.mp hread
      exact .inr ⟨nofun, .inr ⟨b, rfl⟩⟩

theorem AppType.convert_text_iff {type : AppType} {raw : Text} {v : Value} (h : type.convert raw = .ok v) :
    (∃ t, v = .text t) ↔ type.ui = .string := by
  rcases convert_ok h with ⟨hui, htext⟩ | ⟨hui, ⟨n, rfl⟩ | ⟨b, rfl⟩⟩
  · exact ⟨fun _ => hui, fun _ => htext⟩
  · exact ⟨nofun, fun h => absurd h hui⟩
  · exact ⟨nofun, fun h => absurd h hui⟩

theorem AppType.convert_ne_list {type : AppType} {raw : Text} {element : ValueType} {items : List Value} :
    type.convert raw ≠ .ok (.list element items) := by
  intro h
  rcases convert_ok h with ⟨-, t, ht⟩ | ⟨-, ⟨n, hn⟩ | ⟨b, hb⟩⟩
  · cases ht
  · cases hn
  · cases hb

namespace Extraction

variable {s : Schema} {f : Form} {call : Option Call} {cs : List Capture} {fields : List Field} {x : Extraction}

def paramOf (call : Option Call) (name : Text) : Option Param :=
  call.bind (·.param? name)

structure TypedAs (s : Schema) (f : Form) (call : Option Call) (c : Capture) (field : Field) : Prop where
  name : field.name = c.name
  value : ∃ type, captureType s f c.name (paramOf call c.name) = .ok type ∧
    captureValue f type (paramOf call c.name) c = .ok field.value

theorem foldlM_addCapture {x₀ : Extraction} (h : cs.foldlM (addCapture s f call) x₀ = .ok x) :
    ∃ fields, List.Forall₂ (TypedAs s f call) cs fields ∧ x.fields = x₀.fields ++ fields ∧
      x.params = x₀.params ++ fields.filter (fun field => (paramOf call field.name).isSome) ∧
      x.entries = x₀.entries ++ fields.filterMap fun field =>
        ((paramOf call field.name).bind (·.scope)).map (·, field.value) := by
  induction cs generalizing x₀ with
  | nil =>
      cases pure_ok_iff.mp h
      exact ⟨[], .nil, by simp, by simp, by simp⟩
  | cons c rest ih =>
      rw [List.foldlM_cons] at h
      obtain ⟨x₁, hadd, h⟩ := bind_ok_iff.mp h
      obtain ⟨type, htype, hadd⟩ := bind_ok_iff.mp hadd
      obtain ⟨value, hvalue, hadd⟩ := bind_ok_iff.mp hadd
      cases pure_ok_iff.mp hadd
      obtain ⟨fields, htyped, hfields, hparams, hentries⟩ := ih h
      refine ⟨⟨c.name, value⟩ :: fields, .cons ⟨rfl, type, htype, hvalue⟩ htyped, ?_, ?_, ?_⟩
      · rw [hfields]
        cases call.bind (·.param? c.name) <;> simp [add]
      · rw [hparams]
        cases hp : call.bind (·.param? c.name) <;> simp [add, paramOf, hp]
      · rw [hentries]
        cases hp : call.bind (·.param? c.name) with
        | none => simp [add, paramOf, hp]
        | some p => cases hs : p.scope <;> simp [add, paramOf, hp, hs]

/-- The parts of an extraction, all of them read off its fields. -/
structure Typed (s : Schema) (f : Form) (call : Option Call) (cs : List Capture) (x : Extraction) : Prop where
  target : targetCall s f = .ok call
  fields : List.Forall₂ (TypedAs s f call) cs x.fields
  params : x.params = x.fields.filter fun field => (paramOf call field.name).isSome
  entries : x.entries = x.fields.filterMap fun field =>
    ((paramOf call field.name).bind (·.scope)).map (·, field.value)

theorem targetCall_ok (h : targetCall s f = .ok call) : call = f.target.bind s.call? := by
  rw [targetCall] at h
  split at h
  next ht =>
      cases h
      rw [ht]
      rfl
  next target ht =>
      rw [ht]
      split at h
      next c hc =>
          cases h
          exact hc.symm
      next => cases h

theorem ofCaptures_ok (h : ofCaptures s f cs = .ok x) : Typed s f (f.target.bind s.call?) cs x := by
  obtain ⟨call, hcall, h⟩ := bind_ok_iff.mp h
  obtain rfl := targetCall_ok hcall
  obtain ⟨fields, htyped, hfields, hparams, hentries⟩ := foldlM_addCapture h
  have hfields : x.fields = fields := hfields
  subst hfields
  exact ⟨hcall, htyped, hparams, hentries⟩

theorem typedAs_names (h : List.Forall₂ (TypedAs s f call) cs fields) :
    fields.map (·.name) = cs.map (·.name) := by
  induction h with
  | nil => rfl
  | cons hc _ ih => simp [hc.name, ih]

theorem typedAs_value (h : List.Forall₂ (TypedAs s f call) cs fields) {name t : Text}
    (ht : Capture.get? cs name = some t) :
    ∃ v type, valueOf fields name = some v ∧ captureType s f name (paramOf call name) = .ok type ∧
      captureValue f type (paramOf call name) ⟨name, t⟩ = .ok v := by
  induction h with
  | nil => cases ht
  | @cons c field cs fields hc _ ih =>
      rw [Capture.get?_cons] at ht
      rw [valueOf_cons, hc.name]
      by_cases hn : c.name = name
      · rw [if_pos hn] at ht ⊢
        cases ht
        subst hn
        obtain ⟨type, htype, hvalue⟩ := hc.value
        exact ⟨field.value, type, rfl, htype, hvalue⟩
      · rw [if_neg hn] at ht ⊢
        exact ih ht

def isTextual (s : Schema) (f : Form) (name : Text) : Bool :=
  let param := paramOf (f.target.bind s.call?) name
  match captureType s f name param with
  | .ok type => type.ui = .string && !param.any (·.multiple)
  | .error _ => false

def isNumeric (s : Schema) (f : Form) (name : Text) : Bool :=
  let param := paramOf (f.target.bind s.call?) name
  match captureType s f name param with
  | .ok type => type.ui = .integer && !param.any (·.multiple)
  | .error _ => false

namespace Typed

theorem names (h : Typed s f call cs x) : x.fields.map (·.name) = cs.map (·.name) :=
  typedAs_names h.fields

theorem value_none (h : Typed s f call cs x) {name : Text} (hn : Capture.get? cs name = none) :
    valueOf x.fields name = none := by
  rw [valueOf_eq_none_iff, h.names]
  simpa [Capture.get?] using hn

theorem value_params (h : Typed s f call cs x) (name : Text) :
    valueOf x.params name = if (paramOf call name).isSome then valueOf x.fields name else none := by
  rw [h.params]
  exact valueOf_filter (fun name => (paramOf call name).isSome) x.fields name

theorem value_text (h : Typed s f call cs x) {name : Text} (hn : isTextual s f name = true) :
    valueOf x.fields name = (Capture.get? cs name).map (.text ·.trim) := by
  cases ht : Capture.get? cs name with
  | none => exact h.value_none ht
  | some t =>
      obtain ⟨v, type, hv, htype, hvalue⟩ := typedAs_value h.fields ht
      rw [isTextual, ← targetCall_ok h.target] at hn
      simp only [htype, Bool.and_eq_true, decide_eq_true_eq, Bool.not_eq_true'] at hn
      rw [captureValue, hn.2] at hvalue
      have hread := mapError_ok_iff.mp (mapError_ok_iff.mp hvalue)
      rw [hn.1] at hread
      cases hread
      exact hv

theorem value_number (h : Typed s f call cs x) {name t : Text} (hn : isNumeric s f name = true)
    (ht : Capture.get? cs name = some t) :
    ∃ n i, Number.parse? t.trim = some n ∧ n.toInt64? = some i ∧ valueOf x.fields name = some (.number n) := by
  obtain ⟨v, type, hv, htype, hvalue⟩ := typedAs_value h.fields ht
  rw [isNumeric, ← targetCall_ok h.target] at hn
  simp only [htype, Bool.and_eq_true, decide_eq_true_eq, Bool.not_eq_true'] at hn
  rw [captureValue, hn.2] at hvalue
  have hread := mapError_ok_iff.mp (mapError_ok_iff.mp hvalue)
  rw [hn.1] at hread
  obtain ⟨n, i, hparse, hint, rfl⟩ := UiType.read_integer hread
  exact ⟨n, i, hparse, hint, hv⟩

end Typed

end Extraction

end Population

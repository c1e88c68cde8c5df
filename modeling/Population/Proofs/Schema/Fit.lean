import Population.Proofs.Compile.Typing
import Population.Proofs.Grammar.Captures
import Population.Proofs.Schema.Standard
import Population.Proofs.Script.Blocks

namespace Population

namespace Statement

open Schema Extraction

def callOf (f : Form) : Option Call :=
  f.target.bind standard.call?

def scopeOf (f : Form) (name : Text) : Option Text :=
  (paramOf (callOf f) name).bind (·.scope)

/-- The forms that begin a command which a later line completes. -/
def Opening (f : Form) : Prop :=
  f.kind = .activePerspective ∨ f.kind = .superclass

instance instDecidableOpening (f : Form) : Decidable (Opening f) :=
  inferInstanceAs (Decidable (_ ∨ _))

theorem forms_nodup : ∀ f ∈ forms, ∀ ns ∈ f.captureNames, ns.Nodup := by
  decide +kernel

/-- What comes from the scope is never captured. -/
theorem forms_no_level : ∀ f ∈ forms, ∀ ns ∈ f.captureNames, ∀ n ∈ ns, n ∉ Level.names := by
  decide +kernel

/-- A form that begins a command captures all that is required and does not come from the scope. -/
theorem forms_complete : ∀ f ∈ forms, ¬ Opening f → ∀ k ∈ (f.call.bind standard.call?).toList,
    ∀ ns ∈ f.captureNames, ∀ r ∈ k.required, r ∈ ns ∨ r ∈ Level.names := by
  decide +kernel

theorem forms_opening : ∀ f ∈ forms, (Opening f ↔ ∃ name ∈ relationshipCalls, f.call = some name) ∧
    (Opening f → (paramOf (callOf f) "rnum").isSome ∧ isNumeric standard f "rnum" ∧
      ∀ ns ∈ f.captureNames, ("rnum" : Text) ∈ ns) := by
  decide +kernel

theorem forms_scope : ∀ f ∈ forms, (∀ ns ∈ f.captureNames, ∀ n ∈ ns, n ≠ ("name" : Text) → scopeOf f n = none) ∧
    scopeOf f "name" = match f.kind with
      | .domain => some Level.domain.name
      | .subsystem => some Level.subsystem.name
      | .classDef => some Level.innerClass.name
      | _ => none := by
  decide +kernel

/-- The captures of a statement that the model reads as texts. -/
def textNames : StatementKind → List Text
  | .domain | .subsystem | .classDef => ["name"]
  | .ownAttribute => ["name", "id"]
  | .reference => ["name", "id", "to_attrs"]
  | .activePerspective => ["a_class", "p_class"]
  | .passivePerspective => ["p_view", "a_view"]
  | .superclass => ["superclass"]
  | _ => []

theorem forms_textual : ∀ f ∈ forms, ∀ n ∈ textNames f.kind, isTextual standard f n := by
  decide +kernel

theorem forms_named : ∀ f ∈ forms, ("name" : Text) ∈ textNames f.kind →
    (∀ ns ∈ f.captureNames, ("name" : Text) ∈ ns) ∧ (f.target.isSome → (paramOf (callOf f) "name").isSome) := by
  decide +kernel

end Statement

end Population

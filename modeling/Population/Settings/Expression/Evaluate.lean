import Population.Settings.Expression.Outcome

/-!
A settings file has no variables of its own: the only ones are those that stand for the entries of a collection.
-/
namespace Population.Settings

structure Scope where
  bindings : List (Text × Datum)
  item : Datum

namespace Scope

def empty : Scope :=
  ⟨[], .unknown .any⟩

def withEntry (s : Scope) (key : Option Text) (entry : Text) : Datum × Datum → Scope
  | (k, d) =>
    let bound := match key with
      | some key => (key, k) :: s.bindings
      | none => s.bindings
    { s with bindings := (entry, d) :: bound }

/-- An entry of which nothing is known. -/
def someEntry : Datum × Datum :=
  (.unknown .any, .unknown .any)

end Scope

namespace Expr

mutual

def eval : Expr → Scope → Outcome
  | .literal d, _ => .ok d
  | .variable name, s => .ofOption .any (s.bindings.lookup name)
  | .item, s => .ok s.item
  | .unusable, _ => .failed .any
  | .member e name, s => (e.eval s).andThen (Datum.member name)
  | .element e key, s => .element (key.eval s) (e.eval s)
  | .negate e, s => (e.eval s).negate
  | .not e, s => (e.eval s).not
  | .binary op left right, s => .binary op (left.eval s) (right.eval s)
  | .conditional condition yes no, s => .conditional (condition.eval s) (yes.eval s) (no.eval s)
  | .tuple items, s => .tuple (evalAll items s)
  | .object members, s => .object (evalMembers members s)
  | .eachItem key entry collection content condition, s =>
    let source := collection.eval s
    match Outcome.entries source (condition.eval (s.withEntry key entry Scope.someEntry)) with
    | .error o => o
    | .ok entries => .eachItem source.sound (entries.map fun e =>
      (condition.eval (s.withEntry key entry e), content.eval (s.withEntry key entry e)))
  | .eachMember key entry collection name content condition grouped, s =>
    let source := collection.eval s
    match Outcome.entries source (condition.eval (s.withEntry key entry Scope.someEntry)) with
    | .error o => o
    | .ok entries => .eachMember source.sound grouped (entries.map fun e =>
      (condition.eval (s.withEntry key entry e), name.eval (s.withEntry key entry e),
        content.eval (s.withEntry key entry e)))
  | .splat source each, s =>
    let o := source.eval s
    if !o.sound then .failed .any
    else match Outcome.splatItems o.datum with
      | .error o => o
      | .ok items => .splat o.datum (each.eval { s with item := .unknown .any })
        (items.map fun d => each.eval { s with item := d })
  | .template parts, s => .template (evalAll parts s)
  | .joined items, s => (items.eval s).joined

def evalAll : List Expr → Scope → List Outcome
  | [], _ => []
  | e :: es, s => e.eval s :: evalAll es s

def evalMembers : List (Expr × Expr) → Scope → List (Outcome × Outcome)
  | [], _ => []
  | (key, e) :: es, s => (key.eval s, e.eval s) :: evalMembers es s

end

/-- The text of an expression; none if something fails or its datum has no text. -/
def text? (e : Expr) : Option Text :=
  let o := e.eval Scope.empty
  if o.sound then o.datum.text? else none

end Expr

end Population.Settings

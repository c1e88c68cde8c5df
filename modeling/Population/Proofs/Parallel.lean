import Mathlib.Data.List.Forall2
import Population.Proofs.Outcome

namespace Population

variable {ε ε' δ δ' α α' β β' : Type}

/-- Outcomes of one sort: related values, or related errors. -/
inductive Parallel (E : ε → ε' → Prop) (R : α → α' → Prop) : Except ε α → Except ε' α' → Prop
  | ok {x : α} {y : α'} (h : R x y) : Parallel E R (.ok x) (.ok y)
  | error {e : ε} {f : ε'} (h : E e f) : Parallel E R (.error e) (.error f)

namespace Parallel

variable {E : ε → ε' → Prop} {D : δ → δ' → Prop} {R : α → α' → Prop} {S : β → β' → Prop} {r : Except ε α}
  {r' : Except ε' α'}

theorem refl {E : ε → ε → Prop} (hE : ∀ e, r = .error e → E e e) : Parallel E (· = ·) r r := by
  cases r with
  | ok x => exact .ok rfl
  | error e => exact .error (hE e rfl)

theorem mono {F : ε → ε' → Prop} (h : Parallel E R r r') (hE : ∀ e f, E e f → F e f) : Parallel F R r r' := by
  cases h with
  | ok h => exact .ok h
  | error h => exact .error (hE _ _ h)

theorem bind (h : Parallel E R r r') {next : α → Except ε β} {next' : α' → Except ε' β'}
    (hnext : ∀ x y, R x y → Parallel E S (next x) (next' y)) : Parallel E S (r >>= next) (r' >>= next') := by
  cases h with
  | ok h => exact hnext _ _ h
  | error h => exact .error h

theorem mapError (h : Parallel E R r r') {g : ε → δ} {g' : ε' → δ'} (hg : ∀ e f, E e f → D (g e) (g' f)) :
    Parallel D R (r.mapError g) (r'.mapError g') := by
  cases h with
  | ok h => exact .ok h
  | error h => exact .error (hg _ _ h)

theorem map (h : Parallel E R r r') {g : α → β} {g' : α' → β'} (hg : ∀ x y, R x y → S (g x) (g' y)) :
    Parallel E S (r.map g) (r'.map g') := by
  cases h with
  | ok h => exact .ok (hg _ _ h)
  | error h => exact .error h

theorem foldlM {step : β → α → Except ε β} {step' : β' → α' → Except ε' β'} {items : List α} {items' : List α'}
    (hitems : List.Forall₂ R items items')
    (hstep : ∀ b b' x x', S b b' → R x x' → Parallel E S (step b x) (step' b' x')) {b : β} {b' : β'} (hb : S b b') :
    Parallel E S (items.foldlM step b) (items'.foldlM step' b') := by
  induction hitems generalizing b b' with
  | nil => exact .ok hb
  | cons hx _ ih =>
      rw [List.foldlM_cons, List.foldlM_cons]
      exact (hstep _ _ _ _ hb hx).bind fun _ _ => ih

theorem forM {check : α → Except ε Unit} {check' : α' → Except ε' Unit} {items : List α} {items' : List α'}
    (hitems : List.Forall₂ R items items') (hcheck : ∀ x x', R x x' → Parallel E (· = ·) (check x) (check' x')) :
    Parallel E (· = ·) (items.forM check) (items'.forM check') := by
  induction hitems with
  | nil => exact .ok rfl
  | cons hx _ ih => exact (hcheck _ _ hx).bind fun _ _ _ => ih

theorem mapM {f : α → Except ε β} {f' : α → Except ε' β'} (items : List α)
    (hf : ∀ x ∈ items, Parallel E S (f x) (f' x)) :
    Parallel E (List.Forall₂ S) (items.mapM f) (items.mapM f') := by
  induction items with
  | nil => exact .ok .nil
  | cons x rest ih =>
      obtain ⟨hx, hrest⟩ := List.forall_mem_cons.mp hf
      rw [List.mapM_cons, List.mapM_cons]
      exact hx.bind fun _ _ hy => (ih hrest).bind fun _ _ hys => .ok (.cons hy hys)

end Parallel

theorem find?_parallel {R : α → α' → Prop} {l : List α} {l' : List α'} {p : α → Bool} {p' : α' → Bool}
    (h : List.Forall₂ R l l') (hp : ∀ x y, R x y → p x = p' y) : Option.Rel R (l.find? p) (l'.find? p') := by
  induction h with
  | nil => exact .none
  | @cons x y _ _ hxy _ ih =>
      rw [List.find?_cons, List.find?_cons, hp x y hxy]
      cases p' y with
      | true => exact .some hxy
      | false => exact ih

theorem getLast?_parallel {R : α → α' → Prop} {l : List α} {l' : List α'} (h : List.Forall₂ R l l') :
    Option.Rel R l.getLast? l'.getLast? := by
  have hreverse : List.Forall₂ R l.reverse l'.reverse := List.rel_reverse h
  rw [List.getLast?_eq_head?_reverse, List.getLast?_eq_head?_reverse]
  generalize l.reverse = m, l'.reverse = m' at hreverse
  cases hreverse with
  | nil => exact .none
  | cons hxy => exact .some hxy

theorem map_parallel {R : α → α' → Prop} {l : List α} {l' : List α'} (h : List.Forall₂ R l l') {f : α → β}
    {g : α' → β} (hfg : ∀ x y, R x y → g y = f x) : l'.map g = l.map f := by
  induction h with
  | nil => rfl
  | cons hxy _ ih => rw [List.map_cons, List.map_cons, hfg _ _ hxy, ih]

theorem forall₂_concat {R : α → α' → Prop} {l : List α} {l' : List α'} {x : α} {y : α'} (h : List.Forall₂ R l l')
    (hxy : R x y) : List.Forall₂ R (l ++ [x]) (l' ++ [y]) :=
  List.rel_append h (.cons hxy .nil)

theorem rel_cases {R : α → α' → Prop} {o : Option α} {o' : Option α'} (h : Option.Rel R o o') :
    (o = none ∧ o' = none) ∨ ∃ x y, o = some x ∧ o' = some y ∧ R x y := by
  cases h with
  | none => exact .inl ⟨rfl, rfl⟩
  | some h => exact .inr ⟨_, _, rfl, rfl, h⟩

theorem rel_imp {R S : α → α' → Prop} {o : Option α} {o' : Option α'} (h : Option.Rel R o o')
    (hRS : ∀ x y, R x y → S x y) : Option.Rel S o o' := by
  cases h with
  | none => exact .none
  | some h => exact .some (hRS _ _ h)

theorem rel_map {R : α → α' → Prop} {S : β → β' → Prop} {o : Option α} {o' : Option α'} (h : Option.Rel R o o')
    {f : α → β} {g : α' → β'} (hfg : ∀ x y, R x y → S (f x) (g y)) : Option.Rel S (o.map f) (o'.map g) := by
  cases h with
  | none => exact .none
  | some h => exact .some (hfg _ _ h)

theorem isSome_parallel {R : α → α' → Prop} {o : Option α} {o' : Option α'} (h : Option.Rel R o o') :
    o'.isSome = o.isSome := by
  cases h <;> rfl

end Population

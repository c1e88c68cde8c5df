import Mathlib.Data.List.Perm.Basic
import Population.Proofs.Script.Blocks

namespace Population

namespace Value

def text? : Value → Option Text
  | .text t => some t
  | _ => none

def int? : Value → Option Int
  | .number n => n.toInt64?
  | _ => none

def column : Option Value → List Text
  | some (.list _ items) => items.map (·.textOrEmpty)
  | _ => []

end Value

/-- What can be told from a call and its values. -/
abbrev Account (α : Type) :=
  Text → (Text → Option Value) → List α

namespace Account

/-- The class that is made, with its domain. -/
def made : Account (Option Text × Option Text) := fun call value =>
  if call = ("new_class" : Text) then [((value "domain").bind (·.text?), (value "name").bind (·.text?))] else []

/-- The class whose first identifier loses the placeholder, with its domain. -/
def evicted : Account (Option Text × Option Text) := fun call value =>
  if call = Analyzer.removeIdCall then [((value "domain").bind (·.text?), (value "class").bind (·.text?))] else []

/-- The attribute that is put into an identifier: domain, class, number and attribute. -/
def identified : Account (Option Text × Option Text × Option Int × Option Text) := fun call value =>
  if call = Analyzer.addIdCall then
    [((value "domain").bind (·.text?), (value "class").bind (·.text?), (value "id_num").bind (·.int?),
      (value "attr").bind (·.text?))]
  else []

/-- The references that are formalized, one for each index: domain, number, and the class and attribute at both
ends. -/
def formalized : Account (Option Text × Option Int × Option Text × Option Text × Option Text × Option Text) :=
  fun call value =>
    if call = Analyzer.formalizeCall then
      (List.range (Value.column (value "ref_classes")).length).map fun i =>
        ((value "domain").bind (·.text?), (value "rnum").bind (·.int?), (Value.column (value "ref_classes"))[i]?,
          (Value.column (value "ref_attrs"))[i]?, (Value.column (value "to_classes"))[i]?,
          (Value.column (value "to_attrs"))[i]?)
    else []

end Account

open Account

def Command.tells {α : Type} (c : Command) (account : Account α) : List α :=
  account c.call.name c.value?

/-- What commands say together. -/
def told {α : Type} (account : Account α) (cs : List Command) : List α :=
  cs.flatMap (·.tells account)

def Command.isDerived (c : Command) : Bool :=
  c.call.name ∈ derivedCalls

def derivedOf (cs : List Command) : List Command :=
  cs.filter (·.isDerived)

/-- A tagged attribute has exactly one command that puts it into its identifier, and that one stands before the one
command that takes the placeholder from its class. -/
structure Identified (block : List Command) (domain cls : Text) (number : Int) (attr : Text) : Prop where
  once : (told identified block).count (some domain, some cls, some number, some attr) = 1
  single : (told evicted block).count (some domain, some cls) = 1
  before : ∀ before c after, block = before ++ c :: after → (some domain, some cls) ∈ c.tells evicted →
    (some domain, some cls, some number, some attr) ∈ told identified before

theorem told_append {α : Type} (account : Account α) (cs ds : List Command) :
    told account (cs ++ ds) = told account cs ++ told account ds :=
  List.flatMap_append

theorem told_singleton {α : Type} (account : Account α) (c : Command) : told account [c] = c.tells account :=
  List.flatMap_singleton ..

theorem told_flatten {α : Type} (account : Account α) (css : List (List Command)) :
    told account css.flatten = css.flatMap (told account) := by
  induction css with
  | nil => rfl
  | cons cs rest ih => rw [List.flatten_cons, told_append, List.flatMap_cons, ih]

/-- Only derived commands have the account to tell. -/
def Account.OfDerived {α : Type} (account : Account α) : Prop :=
  ∀ call value, call ∉ derivedCalls → account call value = []

theorem told_derivedOf {α : Type} {account : Account α} (h : account.OfDerived) (cs : List Command) :
    told account (derivedOf cs) = told account cs := by
  induction cs with
  | nil => rfl
  | cons c rest ih =>
      rw [← List.singleton_append, derivedOf, List.filter_append, told_append, told_append, ← derivedOf, ← derivedOf, ih,
        told_singleton]
      cases hc : c.isDerived with
      | true => rw [derivedOf, List.filter_cons_of_pos hc, List.filter_nil, told_singleton]
      | false =>
          rw [derivedOf, List.filter_cons_of_neg (by rw [hc]; exact Bool.false_ne_true), List.filter_nil,
            show c.tells account = [] from h _ _ (by simpa [Command.isDerived] using hc)]
          rfl

theorem evicted_ofDerived : evicted.OfDerived := by
  intro call value h
  exact if_neg fun hc => h (by rw [hc]; decide)

theorem identified_ofDerived : identified.OfDerived := by
  intro call value h
  exact if_neg fun hc => h (by rw [hc]; decide)

theorem formalized_ofDerived : formalized.OfDerived := by
  intro call value h
  exact if_neg fun hc => h (by rw [hc]; decide)

theorem identified_of_evicted {c : Command} {cls : Option Text × Option Text} (h : cls ∈ c.tells evicted) :
    c.tells identified = [] := by
  refine if_neg fun hc => ?_
  have hne : c.call.name ≠ Analyzer.removeIdCall := by
    rw [hc]
    decide
  rw [Command.tells, evicted, if_neg hne] at h
  cases h

theorem identified_of_derivedOf {block : List Command} {domain cls attr : Text} {number : Int}
    (h : Identified (derivedOf block) domain cls number attr) : Identified block domain cls number attr := by
  refine ⟨?_, ?_, fun before c after hblock hc => ?_⟩
  · rw [← told_derivedOf identified_ofDerived]
    exact h.once
  · rw [← told_derivedOf evicted_ofDerived]
    exact h.single
  · rw [← told_derivedOf identified_ofDerived]
    refine h.before (derivedOf before) c (derivedOf after) ?_ hc
    have hderived : c.isDerived = true := by
      by_contra hnot
      rw [Command.tells, evicted_ofDerived _ _ (by simpa [Command.isDerived] using hnot)] at hc
      cases hc
    rw [hblock, derivedOf, derivedOf, derivedOf, List.filter_append, List.filter_cons_of_pos hderived]

end Population

import Mathlib.Data.List.TakeWhile
import Population.Model.Closing
import Population.Proofs.Script.Values

namespace Population

namespace Command

def opensDomain (c : Command) : Bool :=
  c.call.name = ("new_domain" : Text)

end Command

def relationshipCalls : List Text :=
  ["new_bin_rel", "new_gen"]

def derivedCalls : List Text :=
  [Analyzer.formalizeCall, Analyzer.addIdCall, Analyzer.removeIdCall]

namespace Command

theorem opensDomain_of_relationship {c : Command} (h : c.call.name ∈ relationshipCalls) : c.opensDomain = false := by
  have hall : ∀ name ∈ relationshipCalls, decide (name = ("new_domain" : Text)) = false := by decide
  exact hall _ h

theorem opensDomain_of_derived {c : Command} (h : c.call.name ∈ derivedCalls) : c.opensDomain = false := by
  have hall : ∀ name ∈ derivedCalls, decide (name = ("new_domain" : Text)) = false := by decide
  exact hall _ h

end Command

/-- What stands before the first domain. -/
def preamble (cs : List Command) : List Command :=
  cs.takeWhile (!·.opensDomain)

/-- The blocks of commands. What stands before the first domain is in none of them. -/
def blocks : List Command → List (List Command)
  | [] => []
  | c :: rest =>
    if c.opensDomain then (c :: preamble rest) :: blocks rest else blocks rest

def valuesOf (call field : Text) (cs : List Command) : List (Option Value) :=
  (cs.filter (·.call.name = call)).map (·.value? field)

theorem preamble_cons (c : Command) (rest : List Command) :
    preamble (c :: rest) = if c.opensDomain then [] else c :: preamble rest := by
  rw [preamble, List.takeWhile_cons]
  cases c.opensDomain <;> rfl

theorem preamble_append (before : List Command) {d : Command} (hd : d.opensDomain = true) (cur : List Command) :
    preamble (before ++ d :: cur) = preamble before := by
  rw [preamble, List.takeWhile_append]
  split
  next hall =>
      rw [List.takeWhile_cons_of_neg (by simp [hd]), List.append_nil]
      exact (List.takeWhile_prefix _).eq_of_length hall |>.symm
  next => rfl

theorem preamble_of_none {cs : List Command} (h : ∀ c ∈ cs, c.opensDomain = false) : preamble cs = cs :=
  List.takeWhile_eq_self_iff.mpr fun c hc => by rw [h c hc]; rfl

theorem blocks_of_none {cs : List Command} (h : ∀ c ∈ cs, c.opensDomain = false) : blocks cs = [] := by
  induction cs with
  | nil => rfl
  | cons c rest ih =>
      obtain ⟨hc, hrest⟩ := List.forall_mem_cons.mp h
      rw [blocks, hc, if_neg Bool.false_ne_true, ih hrest]

theorem blocks_append (before : List Command) {d : Command} {cur : List Command} (hd : d.opensDomain = true)
    (hcur : ∀ c ∈ cur, c.opensDomain = false) : blocks (before ++ d :: cur) = blocks before ++ [d :: cur] := by
  induction before with
  | nil =>
      simp only [blocks, List.nil_append, hd, if_true, preamble_of_none hcur, blocks_of_none hcur]
  | cons c before ih =>
      simp only [blocks, List.cons_append, preamble_append before hd, ih]
      split <;> rfl

theorem exists_last_domain (cs : List Command) : (∀ c ∈ cs, c.opensDomain = false) ∨
    ∃ before d cur, cs = before ++ d :: cur ∧ d.opensDomain = true ∧ ∀ c ∈ cur, c.opensDomain = false := by
  induction cs with
  | nil => exact .inl nofun
  | cons c rest ih =>
      rcases ih with hrest | ⟨before, d, cur, rfl, hd, hcur⟩
      · cases hc : c.opensDomain with
        | false => exact .inl (List.forall_mem_cons.mpr ⟨hc, hrest⟩)
        | true => exact .inr ⟨[], c, rest, rfl, hc, hrest⟩
      · exact .inr ⟨c :: before, d, cur, rfl, hd, hcur⟩

theorem blocks_snoc (cs : List Command) {c : Command} (hc : c.opensDomain = false) :
    (blocks cs = [] ∧ blocks (cs ++ [c]) = []) ∨
      ∃ bs b, blocks cs = bs ++ [b] ∧ blocks (cs ++ [c]) = bs ++ [b ++ [c]] := by
  have hsnoc {ds : List Command} (hds : ∀ d ∈ ds, d.opensDomain = false) : ∀ d ∈ ds ++ [c], d.opensDomain = false :=
    List.forall_mem_append.mpr ⟨hds, List.forall_mem_singleton.mpr hc⟩
  rcases exists_last_domain cs with hnone | ⟨before, d, cur, rfl, hd, hcur⟩
  · exact .inl ⟨blocks_of_none hnone, blocks_of_none (hsnoc hnone)⟩
  · refine .inr ⟨blocks before, d :: cur, blocks_append before hd hcur, ?_⟩
    rw [List.append_assoc, List.cons_append, blocks_append before hd (hsnoc hcur)]

theorem preamble_append_blocks (cs : List Command) : preamble cs ++ (blocks cs).flatten = cs := by
  induction cs with
  | nil => rfl
  | cons c rest ih =>
      rw [preamble_cons, blocks]
      split
      next => rw [List.flatten_cons, List.nil_append, List.cons_append, ih]
      next => rw [List.cons_append, ih]

theorem mem_preamble_snoc {cs : List Command} {c x : Command} (h : x ∈ preamble (cs ++ [c])) :
    x ∈ preamble cs ∨ x = c := by
  rw [preamble, List.takeWhile_append] at h
  split at h
  next hall =>
      have hwhole : preamble cs = cs := (List.takeWhile_prefix _).eq_of_length hall
      rw [hwhole]
      rcases List.mem_append.mp h with h | h
      · exact .inl h
      · exact .inr (List.mem_singleton.mp ((List.takeWhile_prefix _).subset h))
  next => exact .inl h

theorem valuesOf_append (call field : Text) (cs ds : List Command) :
    valuesOf call field (cs ++ ds) = valuesOf call field cs ++ valuesOf call field ds := by
  simp [valuesOf]

theorem valuesOf_singleton (call field : Text) (c : Command) :
    valuesOf call field [c] = if c.call.name = call then [c.value? field] else [] := by
  by_cases h : c.call.name = call <;> simp [valuesOf, h]

end Population

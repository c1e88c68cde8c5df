import Population.Model.Closing
import Population.Proofs.Outcome
import Population.Proofs.Pairing

namespace Population.Analyzer

variable {a a' : Analyzer} {st : Statement}

theorem orKeep_ok {r : Except AnalysisError Analyzer} (h : a.orKeep r = (a', none)) : r = .ok a' := by
  cases r with
  | error e => cases h
  | ok x =>
      cases h
      rfl

theorem addSubsystem_ok (h : a.addSubsystem st = .ok a') :
    a.subsystem? (st.text "name") = none ∧ ∃ floor ceiling, floor ≤ ceiling ∧ a' = { a with
      subsystems := a.subsystems ++ [⟨st.text "name", floor, ceiling⟩]
      graph := a.graph.addNode (st.text "name") } := by
  obtain ⟨floor, -, h⟩ := bind_ok_iff.mp h
  obtain ⟨ceiling, -, h⟩ := bind_ok_iff.mp h
  simp only at h
  split at h
  next => exact absurd h throw_ne_ok
  next hrange =>
      split at h
      next => exact absurd h throw_ne_ok
      next hnew => exact ⟨by simpa using hnew, floor, ceiling, Int.not_lt.mp hrange, (pure_ok_iff.mp h).symm⟩

theorem addClass_ok (h : a.addClass st = .ok a') :
    a.class? (st.scope.text .innerClass) = none ∧ ∃ number, a' = { a with
      classes := a.classes ++ [⟨st.scope.text .innerClass, st.scope.text .subsystem, number, [], st.origin⟩] } := by
  rw [addClass] at h
  simp only at h
  split at h
  next => exact absurd h throw_ne_ok
  next hnew =>
      obtain ⟨number, -, h⟩ := bind_ok_iff.mp h
      exact ⟨by simpa using hnew, number, (pure_ok_iff.mp h).symm⟩

theorem currentClass_ok {c : ModelClass} (h : a.currentClass st = .ok c) :
    a.class? c.name = some c ∧ st.scope.text .innerClass = c.name ∧ c.name ≠ [] := by
  rw [currentClass] at h
  split at h
  next d hd =>
      split at h
      next => cases h
      next hne =>
          cases h
          have hname : c.name = st.scope.text .innerClass := by simpa using List.find?_some hd
          rw [hname]
          exact ⟨hd, rfl, by simpa using hne⟩
  next => cases h

theorem addAttribute_ok (h : a.addAttribute st = .ok a') :
    ∃ c group, a.currentClass st = .ok c ∧ tagged c (st.text "name") (st.text "id") = .ok group ∧
      a' = a.setIdentifiers c.name group := by
  obtain ⟨c, hc, h⟩ := bind_ok_iff.mp h
  obtain ⟨group, hgroup, h⟩ := bind_ok_iff.mp h
  exact ⟨c, group, hc, hgroup, (pure_ok_iff.mp h).symm⟩

theorem readReference_ok {c : ModelClass} {rnum : Int} {targets : List Target}
    (h : a.readReference st = .ok (c, rnum, targets)) :
    a.currentClass st = .ok c ∧ st.int? "rnum" = some rnum ∧ Target.parseList (st.text "to_attrs") = .ok targets := by
  obtain ⟨c', hc, h⟩ := bind_ok_iff.mp h
  split at h
  next => exact absurd h throw_ne_ok
  next r hr =>
      obtain ⟨ts, hts, h⟩ := bind_ok_iff.mp h
      cases pure_ok_iff.mp h
      exact ⟨hc, hr, mapError_ok_iff.mp hts⟩

theorem addReference_ok (h : a.addReference st = (a', none)) :
    ∃ c rnum targets group, a.currentClass st = .ok c ∧ st.int? "rnum" = some rnum ∧
      Target.parseList (st.text "to_attrs") = .ok targets ∧
      tagged c (st.text "name") (st.text "id") = .ok group ∧
      a' = setIdentifiers { a with
        references := a.references ++ pending st c rnum targets
        dependencies := a.dependencies ++ crossing st targets } c.name group := by
  rw [addReference] at h
  split at h
  next => cases h
  next c rnum targets hread =>
      simp only at h
      split at h
      next => cases h
      next group hgroup =>
          cases h
          obtain ⟨hc, hr, hts⟩ := readReference_ok hread
          exact ⟨c, rnum, targets, group, hc, hr, hts, hgroup, rfl⟩

theorem declare_ok {ends : Ends} (h : a.declare st ends = .ok a') :
    ∃ rnum, st.int? "rnum" = some rnum ∧ a.relationship? rnum = none ∧ a' = { a with
      declared := a.declared ++ [⟨rnum, ends, st.scope.text .subsystem, st.origin⟩]
      last := some ⟨rnum, ends, st.scope.text .subsystem, st.origin⟩ } := by
  obtain ⟨rnum, hr, h⟩ := bind_ok_iff.mp h
  rw [Statement.whole] at hr
  split at hr
  next n hn =>
      cases hr
      split at h
      next => exact absurd h throw_ne_ok
      next hnew => exact ⟨rnum, hn, hnew, (pure_ok_iff.mp h).symm⟩
  next => cases hr

def referring (a : Analyzer) (st : Statement) (c : ModelClass) (rnum : Int) (targets : List Target) : Analyzer :=
  { a with
    references := a.references ++ pending st c rnum targets
    dependencies := a.dependencies ++ crossing st targets }

def passing : List (Option StatementKind) :=
  [some .none, some .typeDef, some .bridge, some .passivePerspective, some .subclasses]

/-- What a statement can do to a model, and the error that it ends with. -/
inductive Handled (a : Analyzer) (st : Statement) : Analyzer → Option AnalysisError → Prop
  | refused (e : AnalysisError) : Handled a st a (some e)
  | passed (h : st.kind ∈ passing) : Handled a st a none
  | domain (h : st.kind = some .domain) : Handled a st (opened (st.text "name")) none
  | subsystem (h : st.kind = some .subsystem) {floor ceiling : Int} (hrange : floor ≤ ceiling)
      (hnew : a.subsystem? (st.text "name") = none) : Handled a st { a with
        subsystems := a.subsystems ++ [⟨st.text "name", floor, ceiling⟩]
        graph := a.graph.addNode (st.text "name") } none
  | classDef (h : st.kind = some .classDef) (number : Int) (hnew : a.class? (st.scope.text .innerClass) = none) :
      Handled a st { a with
        classes := a.classes ++ [⟨st.scope.text .innerClass, st.scope.text .subsystem, number, [], st.origin⟩] } none
  | ownAttribute (h : st.kind = some .ownAttribute) {c : ModelClass} {group : Identifier.Group}
      (hc : a.currentClass st = .ok c) (hg : tagged c (st.text "name") (st.text "id") = .ok group) :
      Handled a st (a.setIdentifiers c.name group) none
  | reference (h : st.kind = some .reference) {c : ModelClass} (rnum : Int) {targets : List Target}
      {group : Identifier.Group} (hc : a.currentClass st = .ok c)
      (ht : Target.parseList (st.text "to_attrs") = .ok targets)
      (hg : tagged c (st.text "name") (st.text "id") = .ok group) :
      Handled a st ((a.referring st c rnum targets).setIdentifiers c.name group) none
  /-- The reference is there, although its tag was refused. -/
  | untagged (h : st.kind = some .reference) {c : ModelClass} (rnum : Int) {targets : List Target}
      {e : AnalysisError} (hc : a.currentClass st = .ok c) (ht : Target.parseList (st.text "to_attrs") = .ok targets)
      (hg : tagged c (st.text "name") (st.text "id") = .error e) :
      Handled a st (a.referring st c rnum targets) (some e)
  | relationship (h : st.kind = some .activePerspective ∨ st.kind = some .superclass) {rnum : Int} (ends : Ends)
      (hnew : a.relationship? rnum = none) : Handled a st { a with
        declared := a.declared ++ [⟨rnum, ends, st.scope.text .subsystem, st.origin⟩]
        last := some ⟨rnum, ends, st.scope.text .subsystem, st.origin⟩ } none

theorem orKeep_handled {r : Except AnalysisError Analyzer} (h : ∀ a', r = .ok a' → Handled a st a' none) :
    Handled a st (a.orKeep r).1 (a.orKeep r).2 := by
  cases r with
  | error e => exact .refused e
  | ok a' => exact h a' rfl

theorem addReference_handled (h : st.kind = some .reference) :
    Handled a st (a.addReference st).1 (a.addReference st).2 := by
  rw [addReference]
  split
  next e _ => exact .refused e
  next c rnum targets hread =>
      obtain ⟨hc, -, ht⟩ := readReference_ok hread
      dsimp only
      split
      next e hg => exact .untagged h rnum hc ht hg
      next group hg => exact .reference h rnum hc ht hg

theorem handle_handled (a : Analyzer) (st : Statement) : Handled a st (a.handle st).1 (a.handle st).2 := by
  have hpassed {check : Except AnalysisError Unit} (h : st.kind ∈ passing) :
      Handled a st (a.orKeep (check.map fun _ => a)).1 (a.orKeep (check.map fun _ => a)).2 := by
    apply orKeep_handled
    intro a' ha
    obtain ⟨-, -, rfl⟩ := map_ok_iff.mp ha
    exact .passed h
  rw [handle]
  split
  next => exact .refused .unhandled
  next h => exact .passed (by simp [passing, h])
  next h => exact .passed (by simp [passing, h])
  next h => exact .passed (by simp [passing, h])
  next h => exact .domain h
  next h =>
      apply orKeep_handled
      intro a' ha
      obtain ⟨hnew, floor, ceiling, hrange, rfl⟩ := addSubsystem_ok ha
      exact .subsystem h hrange hnew
  next h =>
      apply orKeep_handled
      intro a' ha
      obtain ⟨hnew, number, rfl⟩ := addClass_ok ha
      exact .classDef h number hnew
  next h =>
      apply orKeep_handled
      intro a' ha
      obtain ⟨c, group, hc, hg, rfl⟩ := addAttribute_ok ha
      exact .ownAttribute h hc hg
  next h => exact addReference_handled h
  next h =>
      apply orKeep_handled
      intro a' ha
      obtain ⟨rnum, -, hnew, rfl⟩ := declare_ok ha
      exact .relationship (.inl h) _ hnew
  next h => exact hpassed (by simp [passing, h])
  next h =>
      apply orKeep_handled
      intro a' ha
      obtain ⟨rnum, -, hnew, rfl⟩ := declare_ok ha
      exact .relationship (.inr h) _ hnew
  next h => exact hpassed (by simp [passing, h])

/-- The command that formalizes a relationship, and what makes it a legal one. -/
structure Formalizes (a : Analyzer) (rnum : Int) (e : Emission) : Prop where
  nonempty : a.referencesOf rnum ≠ []
  declared : (a.relationship? rnum).isSome
  targets : ∀ r ∈ a.referencesOf rnum, (a.class? r.target.cls).isSome
  emission : ∃ first, e = a.formalization rnum first (a.referencesOf rnum)

theorem checkTarget_ok {r : PendingReference} (h : a.checkTarget r = .ok ()) : (a.class? r.target.cls).isSome := by
  rw [checkTarget] at h
  split at h
  next => cases h
  next c hc =>
      rw [hc]
      rfl

theorem formalize_ok_iff {rnum : Int} {e : Option Emission} {first : PendingReference}
    (hfirst : (a.referencesOf rnum).head? = some first) : a.formalize rnum = .ok e ↔
      (a.relationship? rnum).isSome ∧ (∀ r ∈ a.referencesOf rnum, a.checkTarget r = .ok ()) ∧
        e = some (a.formalization rnum first (a.referencesOf rnum)) := by
  rw [formalize]
  split
  next hnil => simp [hnil] at hfirst
  next head rest hrefs =>
      obtain rfl : head = first := by simpa [hrefs] using hfirst
      rw [hrefs]
      cases hdeclared : a.relationship? rnum with
      | none => simp
      | some r =>
          rw [← forM_ok_iff]
          constructor
          · intro h
            obtain ⟨⟨⟩, hcheck, h⟩ := bind_ok_iff.mp h
            exact ⟨rfl, hcheck, (pure_ok_iff.mp h).symm⟩
          · rintro ⟨-, hcheck, rfl⟩
            exact bind_ok_iff.mpr ⟨(), hcheck, rfl⟩

theorem formalize_ok {rnum : Int} {e : Option Emission} (hne : a.referencesOf rnum ≠ [])
    (h : a.formalize rnum = .ok e) : ∃ x, e = some x ∧ a.Formalizes rnum x := by
  have hfirst := List.head?_eq_some_head hne
  obtain ⟨hdeclared, htargets, rfl⟩ := (formalize_ok_iff hfirst).mp h
  exact ⟨_, rfl, hne, hdeclared, fun r hr => checkTarget_ok (htargets r hr), _, rfl⟩

theorem mem_pendingNumbers {rnum : Int} : rnum ∈ a.pendingNumbers ↔ ∃ r ∈ a.references, r.rnum = rnum := by
  simp [pendingNumbers, List.mem_mergeSort, List.mem_eraseDups]

theorem nodup_pendingNumbers (a : Analyzer) : a.pendingNumbers.Nodup :=
  (List.mergeSort_perm _ _).nodup_iff.mpr (nodup_eraseDups _)

/-- Every reference waits for the number of one relationship. -/
theorem referencesOf_perm (a : Analyzer) : (a.pendingNumbers.flatMap a.referencesOf).Perm a.references :=
  flatMap_filter_perm PendingReference.rnum a.nodup_pendingNumbers a.references fun r hr =>
    mem_pendingNumbers.mpr ⟨r, hr, rfl⟩

theorem finalize_ok_iff (hactive : a.active = true) {es : List Emission} : a.finalize.2 = .ok es ↔
    ∃ graph, connect a.graph a.dependencies = (graph, none) ∧ a.emissions = .ok es := by
  rcases hconnect : connect a.graph a.dependencies with ⟨graph, refused⟩
  cases refused with
  | some refused => simp [finalize, hactive, hconnect]
  | none =>
      have hfinal : a.finalize.2 = a.emissions.mapError fun refused => refused.1.fault refused.2 := by
        simp only [finalize, hactive, hconnect, Bool.not_true, Bool.false_eq_true, if_false]
        rfl
      simp [hfinal]

/-- The commands that are derived when a domain is closed: one for each relationship with references, and then
those that identify the classes. -/
theorem finalize_ok {es : List Emission} (hactive : a.active = true) (h : a.finalize.2 = .ok es) :
    (∃ graph, a.finalize.1 = { a with active := false, graph }) ∧
      ∃ rels, es = rels ++ a.classes.flatMap a.identification ∧ List.Forall₂ a.Formalizes a.pendingNumbers rels := by
  obtain ⟨graph, hconnect, hemissions⟩ := (finalize_ok_iff hactive).mp h
  obtain ⟨rels, hrels, hes⟩ := bind_ok_iff.mp hemissions
  refine ⟨⟨graph, by simp [finalize, hactive, hconnect]⟩, rels.filterMap id, (pure_ok_iff.mp hes).symm, ?_⟩
  apply partners_some (mapM_ok_iff.mp hrels)
  intro rnum hrnum e he
  obtain ⟨r, hr, hnum⟩ := mem_pendingNumbers.mp hrnum
  have hmem : r ∈ a.referencesOf rnum := List.mem_filter.mpr ⟨hr, by simpa using hnum⟩
  exact formalize_ok (List.ne_nil_of_mem hmem) he

theorem identification_cases {c : ModelClass} {e : Emission} (h : e ∈ a.identification c) :
    (∃ number attr, e = idCommand addIdCall a c number attr) ∨
      e = idCommand removeIdCall a c 1 Identifier.placeholder := by
  rcases List.mem_append.mp h with h | h
  · obtain ⟨⟨attrs, i⟩, -, h⟩ := List.mem_flatMap.mp h
    obtain ⟨attr, -, rfl⟩ := List.mem_map.mp h
    exact .inl ⟨i + 1, attr, rfl⟩
  · exact .inr (List.mem_singleton.mp h)

theorem derived_cases {rels : List Emission} {e : Emission} (hrels : List.Forall₂ a.Formalizes a.pendingNumbers rels)
    (he : e ∈ rels ++ a.classes.flatMap a.identification) :
    (∃ rnum first, a.referencesOf rnum ≠ [] ∧ e = a.formalization rnum first (a.referencesOf rnum)) ∨
      ∃ call c number attr, (call = addIdCall ∨ call = removeIdCall) ∧ e = idCommand call a c number attr := by
  rcases List.mem_append.mp he with he | he
  · obtain ⟨rnum, -, hrel⟩ := partner_of_right hrels he
    obtain ⟨first, rfl⟩ := hrel.emission
    exact .inl ⟨rnum, first, hrel.nonempty, rfl⟩
  · obtain ⟨c, -, he⟩ := List.mem_flatMap.mp he
    rcases identification_cases he with ⟨number, attr, rfl⟩ | rfl
    · exact .inr ⟨addIdCall, c, number, attr, .inl rfl, rfl⟩
    · exact .inr ⟨removeIdCall, c, 1, Identifier.placeholder, .inr rfl, rfl⟩

end Population.Analyzer

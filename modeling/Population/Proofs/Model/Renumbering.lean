import Population.Model.Closing
import Population.Proofs.Parallel

namespace Population

structure Origin.Alike (N : Int → Int → Prop) (o o' : Origin) : Prop where
  file : o'.file = o.file
  line : N o.line o'.line
  text : o'.text = o.text

/-- The same thing, but for its origin. -/
def Renumbered {α : Type} (N : Int → Int → Prop) (origin : α → Origin) (put : α → Origin → α) (x x' : α) : Prop :=
  ∃ o, (origin x).Alike N o ∧ x' = put x o

abbrev ModelClass.Alike (N : Int → Int → Prop) : ModelClass → ModelClass → Prop :=
  Renumbered N ModelClass.origin fun c o => { c with origin := o }

abbrev PendingReference.Alike (N : Int → Int → Prop) : PendingReference → PendingReference → Prop :=
  Renumbered N PendingReference.origin fun r o => { r with origin := o }

abbrev Relationship.Alike (N : Int → Int → Prop) : Relationship → Relationship → Prop :=
  Renumbered N Relationship.origin fun r o => { r with origin := o }

abbrev Dependency.Alike (N : Int → Int → Prop) : Dependency → Dependency → Prop :=
  Renumbered N Dependency.origin fun d o => { d with origin := o }

abbrev Statement.Alike (N : Int → Int → Prop) : Statement → Statement → Prop :=
  Renumbered N Statement.origin fun st o => { st with origin := o }

abbrev Emission.Alike (N : Int → Int → Prop) : Emission → Emission → Prop :=
  Renumbered N Emission.origin fun e o => { e with origin := o }

inductive AnalysisError.Alike (N : Int → Int → Prop) : AnalysisError → AnalysisError → Prop
  | same {e : AnalysisError} (h : ∀ rnum line, e ≠ .duplicateRelationship rnum line) : Alike N e e
  | duplicate (rnum : Int) {line line' : Int} (h : N line line') :
      Alike N (.duplicateRelationship rnum line) (.duplicateRelationship rnum line')

abbrev ClosingError.Alike (N : Int → Int → Prop) (e e' : ClosingError × Origin) : Prop :=
  e'.1 = e.1 ∧ e.2.Alike N e'.2

structure Analyzer.Alike (N : Int → Int → Prop) (a a' : Analyzer) : Prop where
  domain : a'.domain = a.domain
  active : a'.active = a.active
  subsystems : a'.subsystems = a.subsystems
  classes : List.Forall₂ (ModelClass.Alike N) a.classes a'.classes
  references : List.Forall₂ (PendingReference.Alike N) a.references a'.references
  declared : List.Forall₂ (Relationship.Alike N) a.declared a'.declared
  last : Option.Rel (Relationship.Alike N) a.last a'.last
  graph : a'.graph = a.graph
  dependencies : List.Forall₂ (Dependency.Alike N) a.dependencies a'.dependencies

namespace Analyzer

variable {N : Int → Int → Prop} {a a' : Analyzer} {st st' : Statement}

theorem alike_opened (domain : Text) : (opened domain).Alike N (opened domain) :=
  ⟨rfl, rfl, rfl, .nil, .nil, .nil, .none, rfl, .nil⟩

theorem alike_idle : idle.Alike N idle :=
  ⟨rfl, rfl, rfl, .nil, .nil, .nil, .none, rfl, .nil⟩

namespace Alike

variable (h : a.Alike N a')
include h

theorem subsystem? (name : Text) : a'.subsystem? name = a.subsystem? name := by
  rw [Analyzer.subsystem?, h.subsystems]
  rfl

theorem class? (name : Text) : Option.Rel (ModelClass.Alike N) (a.class? name) (a'.class? name) := by
  refine find?_parallel h.classes ?_
  rintro c _ ⟨o, -, rfl⟩
  rfl

theorem relationship? (rnum : Int) :
    Option.Rel (Relationship.Alike N) (a.relationship? rnum) (a'.relationship? rnum) := by
  refine find?_parallel h.declared ?_
  rintro r _ ⟨o, -, rfl⟩
  rfl

theorem referencesOf (rnum : Int) :
    List.Forall₂ (PendingReference.Alike N) (a.referencesOf rnum) (a'.referencesOf rnum) := by
  refine List.rel_filter ?_ h.references
  rintro r _ ⟨o, -, rfl⟩
  rfl

theorem pendingNumbers : a'.pendingNumbers = a.pendingNumbers := by
  rw [Analyzer.pendingNumbers, Analyzer.pendingNumbers, map_parallel h.references]
  rintro r _ ⟨o, -, rfl⟩
  rfl

theorem setIdentifiers (name : Text) (group : Identifier.Group) :
    (a.setIdentifiers name group).Alike N (a'.setIdentifiers name group) where
  __ := h
  classes := by
    refine List.rel_map ?_ h.classes
    rintro c _ ⟨o, ho, rfl⟩
    by_cases hc : c.name = name <;> exact ⟨o, by simpa [hc] using ho, by simp [hc]⟩

end Alike

theorem whole_parallel (st : Statement) (name : Text) :
    Parallel (AnalysisError.Alike N) (· = ·) (st.whole name) (st.whole name) := by
  rw [Statement.whole]
  cases st.int? name with
  | some n => exact .ok rfl
  | none => exact .error (.same nofun)

theorem tagged_parallel (c : ModelClass) (attr tag : Text) :
    Parallel (AnalysisError.Alike N) (· = ·) (tagged c attr tag) (tagged c attr tag) := by
  refine .refl fun e he => .same ?_
  rintro rnum line rfl
  rw [tagged] at he
  split at he
  next => cases he
  next =>
      split at he
      next => cases he
      next =>
          split at he
          next => cases he
          next =>
              obtain ⟨_, -, he⟩ := mapError_error_iff.mp he
              cases he

theorem pending_parallel {o o' : Origin} (ho : st.origin.Alike N o) (c : ModelClass) (rnum : Int)
    (targets : List Target) : List.Forall₂ (PendingReference.Alike N) (pending st c rnum targets)
      (pending { st with origin := o } { c with origin := o' } rnum targets) := by
  refine List.rel_map ?_ (List.forall₂_same.mpr fun target _ => Eq.refl target)
  rintro target _ rfl
  exact ⟨o, ho, rfl⟩

theorem crossing_parallel {o : Origin} (ho : st.origin.Alike N o) (targets : List Target) :
    List.Forall₂ (Dependency.Alike N) (crossing st targets) (crossing { st with origin := o } targets) := by
  refine List.rel_filterMap ?_ (List.forall₂_same.mpr fun target _ => Eq.refl target)
  rintro target _ rfl
  dsimp only
  cases target.subsystem with
  | none => exact .none
  | some subsystem =>
      dsimp only
      split
      next => exact .none
      next => exact .some ⟨o, ho, rfl⟩

theorem checkItems_parallel (superclass : Text) (rnum : Int) (items : List Value) :
    Parallel (AnalysisError.Alike N) (· = ·) (checkItems superclass rnum items) (checkItems superclass rnum items) := by
  refine .refl fun e he => .same ?_
  rintro _ _ rfl
  fun_induction checkItems superclass rnum items with
  | case1 => cases he
  | case2 => cases he
  | case3 _ _ _ ih => exact ih he
  | case4 => cases he

namespace Alike

variable (h : a.Alike N a') (hst : st.Alike N st')
include h hst

theorem addSubsystem :
    Parallel (AnalysisError.Alike N) (Analyzer.Alike N) (a.addSubsystem st) (a'.addSubsystem st') := by
  obtain ⟨o, ho, rfl⟩ := hst
  refine (whole_parallel st "floor").bind ?_
  rintro floor _ rfl
  refine (whole_parallel st "ceiling").bind ?_
  rintro ceiling _ rfl
  dsimp only
  split
  next => exact .error (.same nofun)
  next =>
      rw [h.subsystem?, h.domain]
      change Parallel _ _ _ (if (a.subsystem? (st.text "name")).isSome then _ else _)
      split
      next => exact .error (.same nofun)
      next =>
          exact .ok { h with
            domain := rfl
            subsystems := congrArg (· ++ _) h.subsystems
            graph := congrArg (Graph.addNode · (st.text "name")) h.graph }

theorem classNumber (name subsystem : Text) : Parallel (AnalysisError.Alike N) (· = ·)
    (a.classNumber st name subsystem) (a'.classNumber st' name subsystem) := by
  obtain ⟨o, ho, rfl⟩ := hst
  rw [Analyzer.classNumber, Analyzer.classNumber, h.subsystem?]
  change Parallel _ _ _ (if (st.value? "cnum").isNone then _ else _)
  split
  next => exact .ok rfl
  next =>
      refine (whole_parallel st "cnum").bind ?_
      rintro number _ rfl
      cases a.subsystem? subsystem with
      | none => exact .ok rfl
      | some s =>
          dsimp only
          split
          next => exact .error (.same nofun)
          next => exact .ok rfl

theorem addClass : Parallel (AnalysisError.Alike N) (Analyzer.Alike N) (a.addClass st) (a'.addClass st') := by
  have hnumber := h.classNumber hst
  obtain ⟨o, ho, rfl⟩ := hst
  rw [Analyzer.addClass, Analyzer.addClass]
  dsimp only
  rw [isSome_parallel (h.class? _), h.domain]
  split
  next => exact .error (.same nofun)
  next =>
      refine (hnumber _ _).bind ?_
      rintro number _ rfl
      exact .ok { h with domain := rfl, classes := forall₂_concat h.classes ⟨o, ho, rfl⟩ }

theorem currentClass :
    Parallel (AnalysisError.Alike N) (ModelClass.Alike N) (a.currentClass st) (a'.currentClass st') := by
  obtain ⟨o, ho, rfl⟩ := hst
  rw [Analyzer.currentClass, Analyzer.currentClass]
  dsimp only
  rcases rel_cases (h.class? (st.scope.text .innerClass)) with ⟨hnone, hnone'⟩ | ⟨c, c', hsome, hsome', hc⟩
  · rw [hnone, hnone']
    exact .error (.same nofun)
  · rw [hsome, hsome']
    dsimp only
    split
    next => exact .error (.same nofun)
    next => exact .ok hc

theorem addAttribute :
    Parallel (AnalysisError.Alike N) (Analyzer.Alike N) (a.addAttribute st) (a'.addAttribute st') := by
  have hclass := h.currentClass hst
  obtain ⟨o, ho, rfl⟩ := hst
  refine hclass.bind ?_
  rintro c _ ⟨o', ho', rfl⟩
  refine (tagged_parallel c (st.text "name") (st.text "id")).bind ?_
  rintro group _ rfl
  exact .ok (h.setIdentifiers c.name group)

theorem readReference : Parallel (AnalysisError.Alike N)
    (fun x x' => ModelClass.Alike N x.1 x'.1 ∧ x'.2 = x.2) (a.readReference st) (a'.readReference st') := by
  have hclass := h.currentClass hst
  obtain ⟨o, ho, rfl⟩ := hst
  have hrnum : Statement.int? { st with origin := o } "rnum" = st.int? "rnum" := rfl
  refine hclass.bind fun c c' hc => ?_
  rw [hrnum]
  cases st.int? "rnum" with
  | none => exact .error (.same nofun)
  | some rnum =>
      have htargets : Parallel (AnalysisError.Alike N) (· = ·)
          ((Target.parseList (st.text "to_attrs")).mapError AnalysisError.target)
          ((Target.parseList (st.text "to_attrs")).mapError AnalysisError.target) := by
        refine .refl fun e he => .same ?_
        obtain ⟨e', -, rfl⟩ := mapError_error_iff.mp he
        nofun
      refine htargets.bind ?_
      rintro targets _ rfl
      exact .ok ⟨hc, rfl⟩

theorem addReference : (a.addReference st).1.Alike N (a'.addReference st').1 ∧
    Option.Rel (AnalysisError.Alike N) (a.addReference st).2 (a'.addReference st').2 := by
  have hread := h.readReference hst
  obtain ⟨o, ho, rfl⟩ := hst
  rw [Analyzer.addReference, Analyzer.addReference]
  generalize a.readReference st = r, a'.readReference _ = r' at hread
  cases hread with
  | error he => exact ⟨h, .some he⟩
  | @ok x x' hx =>
      obtain ⟨c, rnum, targets⟩ := x
      obtain ⟨_, _⟩ := x'
      obtain ⟨⟨o', ho', rfl⟩, rfl⟩ := hx
      -- the reference is recorded before its tag is read
      have hrecorded : Analyzer.Alike N
          { a with
            references := a.references ++ pending st c rnum targets
            dependencies := a.dependencies ++ crossing st targets }
          { a' with
            references := a'.references ++ pending { st with origin := o } { c with origin := o' } rnum targets
            dependencies := a'.dependencies ++ crossing { st with origin := o } targets } :=
        { h with
          references := List.rel_append h.references (pending_parallel ho c rnum targets)
          dependencies := List.rel_append h.dependencies (crossing_parallel ho targets) }
      have htagged := tagged_parallel (N := N) c (st.text "name") (st.text "id")
      have hfields : tagged { c with origin := o' } (Statement.text { st with origin := o } "name")
          (Statement.text { st with origin := o } "id") = tagged c (st.text "name") (st.text "id") := rfl
      dsimp only
      rw [hfields]
      generalize tagged c (st.text "name") (st.text "id") = t at htagged
      cases htagged with
      | error he => exact ⟨hrecorded, .some he⟩
      | ok hgroup => exact ⟨hrecorded.setIdentifiers _ _, .none⟩

theorem declare (ends : Ends) :
    Parallel (AnalysisError.Alike N) (Analyzer.Alike N) (a.declare st ends) (a'.declare st' ends) := by
  obtain ⟨o, ho, rfl⟩ := hst
  refine (whole_parallel st "rnum").bind ?_
  rintro rnum _ rfl
  rcases rel_cases (h.relationship? rnum) with ⟨hnone, hnone'⟩ | ⟨r, r', hsome, hsome', o', ho', rfl⟩
  · rw [hnone, hnone']
    exact .ok { h with
      declared := forall₂_concat h.declared ⟨o, ho, rfl⟩
      last := .some ⟨o, ho, rfl⟩ }
  · -- the error quotes the line of the relationship that was there before
    rw [hsome, hsome']
    exact .error (.duplicate rnum ho'.line)

theorem checkPassive : Parallel (AnalysisError.Alike N) (· = ·) (a.checkPassive st) (a'.checkPassive st') := by
  obtain ⟨o, ho, rfl⟩ := hst
  rw [Analyzer.checkPassive, Analyzer.checkPassive]
  rcases rel_cases h.last with ⟨hnone, hnone'⟩ | ⟨⟨rnum, ends, _, _⟩, _, hsome, hsome', o', ho', rfl⟩
  · rw [hnone, hnone']
    exact .error (.same nofun)
  · rw [hsome, hsome']
    cases ends with
    | generalization superclass => exact .error (.same nofun)
    | association active passive =>
        change Parallel _ _ _ (if st.text "p_view" = passive && st.text "a_view" = active then _ else _)
        dsimp only
        split
        next => exact .ok rfl
        next => exact .error (.same nofun)

theorem checkSubclasses :
    Parallel (AnalysisError.Alike N) (· = ·) (a.checkSubclasses st) (a'.checkSubclasses st') := by
  obtain ⟨o, ho, rfl⟩ := hst
  rw [Analyzer.checkSubclasses, Analyzer.checkSubclasses]
  rcases rel_cases h.last with ⟨hnone, hnone'⟩ | ⟨⟨rnum, ends, _, _⟩, _, hsome, hsome', o', ho', rfl⟩
  · rw [hnone, hnone']
    exact .error (.same nofun)
  · rw [hsome, hsome']
    cases ends with
    | association active passive => exact .error (.same nofun)
    | generalization superclass =>
        have hfield : Statement.value? { st with origin := o } "subclasses" = st.value? "subclasses" := rfl
        dsimp only
        rw [hfield]
        cases st.value? "subclasses" with
        | none => exact .ok rfl
        | some v =>
            cases v with
            | list _ items => exact checkItems_parallel superclass rnum items
            | _ => exact .ok rfl

omit hst in
theorem orKeep {r r' : Except AnalysisError Analyzer} (hr : Parallel (AnalysisError.Alike N) (Analyzer.Alike N) r r') :
    (a.orKeep r).1.Alike N (a'.orKeep r').1 ∧ Option.Rel (AnalysisError.Alike N) (a.orKeep r).2 (a'.orKeep r').2 := by
  cases hr with
  | ok hr => exact ⟨hr, .none⟩
  | error he => exact ⟨h, .some he⟩

/-- A statement leaves two models alike, and there is the same fault to find with it. -/
theorem handle : (a.handle st).1.Alike N (a'.handle st').1 ∧
    Option.Rel (AnalysisError.Alike N) (a.handle st).2 (a'.handle st').2 := by
  have hkind : st'.kind = st.kind := by
    obtain ⟨o, ho, rfl⟩ := hst
    rfl
  have htext (name : Text) : st'.text name = st.text name := by
    obtain ⟨o, ho, rfl⟩ := hst
    rfl
  simp only [Analyzer.handle, hkind, htext]
  cases st.kind with
  | none => exact ⟨h, .some (.same nofun)⟩
  | some kind =>
      cases kind with
      | none => exact ⟨h, .none⟩
      | typeDef => exact ⟨h, .none⟩
      | bridge => exact ⟨h, .none⟩
      | domain => exact ⟨alike_opened _, .none⟩
      | subsystem => exact h.orKeep (h.addSubsystem hst)
      | classDef => exact h.orKeep (h.addClass hst)
      | ownAttribute => exact h.orKeep (h.addAttribute hst)
      | reference => exact h.addReference hst
      | activePerspective => exact h.orKeep (h.declare hst _)
      | passivePerspective => exact h.orKeep ((h.checkPassive hst).map fun _ _ _ => h)
      | superclass => exact h.orKeep (h.declare hst _)
      | subclasses => exact h.orKeep ((h.checkSubclasses hst).map fun _ _ _ => h)

end Alike

theorem connect_parallel {ds ds' : List Dependency} (h : List.Forall₂ (Dependency.Alike N) ds ds') (g : Graph) :
    (connect g ds').1 = (connect g ds).1 ∧
      Option.Rel (ClosingError.Alike N) (connect g ds).2 (connect g ds').2 := by
  induction h generalizing g with
  | nil => exact ⟨rfl, .none⟩
  | @cons d _ _ _ hd _ ih =>
      obtain ⟨o, ho, rfl⟩ := hd
      rw [connect, connect]
      by_cases hnode : d.target ∈ g.nodes
      · simp only [hnode, not_true_eq_false, if_false]
        cases g.addEdge d.source d.target with
        | ok g => exact ih g
        | error e => exact ⟨rfl, .some ⟨rfl, ho⟩⟩
      · simp only [hnode, not_false_eq_true, if_true]
        exact ⟨trivial, .some ⟨rfl, ho⟩⟩

namespace Alike

variable (h : a.Alike N a')
include h

theorem checkTarget {r r' : PendingReference} (hr : r.Alike N r') :
    Parallel (ClosingError.Alike N) (· = ·) (a.checkTarget r) (a'.checkTarget r') := by
  obtain ⟨o, ho, rfl⟩ := hr
  rw [Analyzer.checkTarget, Analyzer.checkTarget]
  dsimp only
  rcases rel_cases (h.class? r.target.cls) with ⟨hnone, hnone'⟩ | ⟨c, _, hsome, hsome', o', ho', rfl⟩
  · rw [hnone, hnone']
    exact .error ⟨rfl, ho⟩
  · rw [hsome, hsome']
    cases r.target.subsystem with
    | none => exact .ok rfl
    | some subsystem =>
        dsimp only
        split
        next => exact .ok rfl
        next => exact .error ⟨rfl, ho⟩

theorem formalization {first first' : PendingReference} {refs refs' : List PendingReference} (rnum : Int)
    (hfirst : first.Alike N first') (hrefs : List.Forall₂ (PendingReference.Alike N) refs refs') :
    (a.formalization rnum first refs).Alike N (a'.formalization rnum first' refs') := by
  have hmap {α : Type} (f : PendingReference → α) (hf : ∀ r o, f { r with origin := o } = f r) :
      refs'.map f = refs.map f := by
    refine map_parallel hrefs ?_
    rintro r _ ⟨o, -, rfl⟩
    exact hf r o
  have hany : refs'.any (·.constrained) = refs.any (·.constrained) := by
    simpa only [List.any_map, Function.id_comp] using congrArg (List.any · id) (hmap (·.constrained) fun _ _ => rfl)
  obtain ⟨o, ho, rfl⟩ := hfirst
  refine ⟨o, ho, ?_⟩
  simp only [Analyzer.formalization, h.domain, hany, hmap (·.fromClass) fun _ _ => rfl,
    hmap (·.fromAttr) fun _ _ => rfl, hmap (·.target.cls) fun _ _ => rfl, hmap (·.target.attr) fun _ _ => rfl]

theorem formalize (rnum : Int) : Parallel (ClosingError.Alike N) (Option.Rel (Emission.Alike N))
    (a.formalize rnum) (a'.formalize rnum) := by
  have hrefs := h.referencesOf rnum
  rw [Analyzer.formalize, Analyzer.formalize]
  generalize a.referencesOf rnum = refs, a'.referencesOf rnum = refs' at hrefs
  cases hrefs with
  | nil => exact .ok .none
  | cons hfirst hrest =>
      have hdeclared := isSome_parallel (h.relationship? rnum)
      have hundeclared : (a'.relationship? rnum).isNone = (a.relationship? rnum).isNone := by
        rw [← Option.not_isSome, ← Option.not_isSome, hdeclared]
      dsimp only
      rw [hundeclared]
      split
      next =>
          obtain ⟨o, ho, rfl⟩ := hfirst
          exact .error ⟨rfl, ho⟩
      next =>
          refine (Parallel.forM (.cons hfirst hrest) fun r r' hr => h.checkTarget hr).bind fun _ _ _ => ?_
          exact .ok (.some (h.formalization rnum hfirst (.cons hfirst hrest)))

theorem identification {c c' : ModelClass} (hc : c.Alike N c') :
    List.Forall₂ (Emission.Alike N) (a.identification c) (a'.identification c') := by
  obtain ⟨o, ho, rfl⟩ := hc
  have hcommand (call : Text) (number : Nat) (attr : Text) : Emission.Alike N (idCommand call a c number attr)
      (idCommand call a' { c with origin := o } number attr) := by
    refine ⟨o, ho, ?_⟩
    simp only [idCommand, h.domain]
  refine List.rel_append ?_ (.cons (hcommand ..) .nil)
  refine List.rel_flatMap (List.forall₂_same.mpr fun x _ => Eq.refl x) ?_
  rintro ⟨attrs, i⟩ _ rfl
  refine List.rel_map ?_ (List.forall₂_same.mpr fun x _ => Eq.refl x)
  rintro attr _ rfl
  exact hcommand ..

theorem emissions :
    Parallel (ClosingError.Alike N) (List.Forall₂ (Emission.Alike N)) a.emissions a'.emissions := by
  rw [Analyzer.emissions, Analyzer.emissions, h.pendingNumbers]
  refine (Parallel.mapM _ fun rnum _ => h.formalize rnum).bind fun es es' hes => .ok ?_
  refine List.rel_append (List.rel_filterMap ?_ hes) (List.rel_flatMap h.classes fun c c' hc => h.identification hc)
  exact fun _ _ h => h

end Alike

end Analyzer

end Population

import Population.Proofs.Compile.Admission
import Population.Proofs.Compile.Location
import Population.Proofs.Grammar.Phrases
import Population.Proofs.Model.Identifier

/-!
Where the model looks into lists and values they are as it expects, with one exception: the subclasses of a
generalization are compared with its superclass as texts, and a schema may make numbers of them. So a build is
abandoned at such a line, and nowhere else.
-/
namespace Population

open Extraction Statement

namespace Analyzer

variable {a : Analyzer} {st : Statement} {e : AnalysisError}

theorem orKeep_error {r : Except AnalysisError Analyzer} (h : (a.orKeep r).2 = some e) : r = .error e := by
  cases r with
  | error e' =>
      cases h
      rfl
  | ok a' => cases h

theorem whole_error {name : Text} (h : st.whole name = .error e) : e = .notWhole name := by
  rw [Statement.whole] at h
  split at h
  next => cases h
  next =>
      cases h
      rfl

theorem addSubsystem_typed : a.addSubsystem st ≠ .error .subclassNotText := by
  intro h
  rcases bind_error_iff.mp h with h | ⟨floor, -, h⟩
  · cases whole_error h
  rcases bind_error_iff.mp h with h | ⟨ceiling, -, h⟩
  · cases whole_error h
  simp only at h
  split at h
  next => cases throw_error_iff.mp h
  next =>
      split at h
      next => cases throw_error_iff.mp h
      next => exact pure_ne_error h

theorem addClass_typed : a.addClass st ≠ .error .subclassNotText := by
  intro h
  rw [addClass] at h
  simp only at h
  split at h
  next => cases throw_error_iff.mp h
  next =>
      rcases bind_error_iff.mp h with h | ⟨number, -, h⟩
      · rw [classNumber] at h
        split at h
        next => exact pure_ne_error h
        next =>
            rcases bind_error_iff.mp h with h | ⟨number, -, h⟩
            · cases whole_error h
            · split at h
              next =>
                  split at h
                  next => cases throw_error_iff.mp h
                  next => exact pure_ne_error h
              next => exact pure_ne_error h
      · exact pure_ne_error h

theorem currentClass_typed : a.currentClass st ≠ .error .subclassNotText := by
  intro h
  rw [currentClass] at h
  split at h
  next => split at h <;> cases h
  next => cases h

theorem tagged_typed {c : ModelClass} {attr tag : Text} : tagged c attr tag ≠ .error .subclassNotText := by
  intro h
  rw [tagged] at h
  split at h
  next => cases h
  next =>
      split at h
      next => cases h
      next =>
          split at h
          next => cases h
          next =>
              obtain ⟨e, -, he⟩ := mapError_error_iff.mp h
              cases he

theorem addAttribute_typed : a.addAttribute st ≠ .error .subclassNotText := by
  intro h
  rcases bind_error_iff.mp h with h | ⟨c, -, h⟩
  · exact currentClass_typed h
  rcases bind_error_iff.mp h with h | ⟨group, -, h⟩
  · exact tagged_typed h
  · exact pure_ne_error h

theorem readReference_typed : a.readReference st ≠ .error .subclassNotText := by
  intro h
  rcases bind_error_iff.mp h with h | ⟨c, -, h⟩
  · exact currentClass_typed h
  split at h
  next => cases throw_error_iff.mp h
  next =>
      rcases bind_error_iff.mp h with h | ⟨targets, -, h⟩
      · obtain ⟨e, -, he⟩ := mapError_error_iff.mp h
        cases he
      · exact pure_ne_error h

theorem addReference_typed : (a.addReference st).2 ≠ some .subclassNotText := by
  intro h
  rw [addReference] at h
  split at h
  next hread =>
      cases h
      exact readReference_typed hread
  next =>
      simp only at h
      split at h
      next htagged =>
          cases h
          exact tagged_typed htagged
      next => cases h

theorem declare_typed {ends : Ends} : a.declare st ends ≠ .error .subclassNotText := by
  intro h
  rcases bind_error_iff.mp h with h | ⟨rnum, -, h⟩
  · cases whole_error h
  split at h
  next => cases throw_error_iff.mp h
  next => exact pure_ne_error h

theorem checkPassive_typed : a.checkPassive st ≠ .error .subclassNotText := by
  intro h
  rw [checkPassive] at h
  split at h
  next => split at h <;> cases h
  next => cases h

/-- No statement but one of subclasses takes a value for a text that is none. -/
theorem handle_untyped (h : (a.handle st).2 = some .subclassNotText) :
    st.kind = some .subclasses ∧ a.checkSubclasses st = .error .subclassNotText := by
  rw [handle] at h
  split at h
  next => cases h
  next => cases h
  next => cases h
  next => cases h
  next => cases h
  next => exact absurd (orKeep_error h) addSubsystem_typed
  next => exact absurd (orKeep_error h) addClass_typed
  next => exact absurd (orKeep_error h) addAttribute_typed
  next => exact absurd h addReference_typed
  next => exact absurd (orKeep_error h) declare_typed
  next => exact absurd (map_error_iff.mp (orKeep_error h)) checkPassive_typed
  next => exact absurd (orKeep_error h) declare_typed
  next hkind => exact ⟨hkind, map_error_iff.mp (orKeep_error h)⟩

theorem checkItems_untyped {superclass : Text} {rnum : Int} {items : List Value}
    (h : checkItems superclass rnum items = .error .subclassNotText) : ∃ v ∈ items, ∀ t, v ≠ .text t := by
  induction items with
  | nil => cases h
  | cons v rest ih =>
      by_cases htext : ∃ t, v = .text t
      · obtain ⟨t, rfl⟩ := htext
        rw [checkItems] at h
        split at h
        next => cases h
        next =>
            obtain ⟨v, hv, hnot⟩ := ih h
            exact ⟨v, List.mem_cons_of_mem _ hv, hnot⟩
      · exact ⟨v, List.mem_cons_self, fun t ht => htext ⟨t, ht⟩⟩

theorem checkItems_of_untyped (superclass : Text) (rnum : Int) {v : Value} (hv : ∀ t, v ≠ .text t) (rest : List Value) :
    checkItems superclass rnum (v :: rest) = .error .subclassNotText := by
  cases v with
  | text t => exact absurd rfl (hv t)
  | _ => rfl

theorem checkSubclasses_untyped (h : a.checkSubclasses st = .error .subclassNotText) :
    ∃ r superclass element items, a.last = some r ∧ r.ends = .generalization superclass ∧
      st.value? "subclasses" = some (.list element items) ∧ ∃ v ∈ items, ∀ t, v ≠ .text t := by
  rw [checkSubclasses] at h
  split at h
  next rnum superclass subsystem origin hlast =>
      split at h
      next element items hvalue =>
          exact ⟨_, superclass, element, items, hlast, rfl, hvalue, checkItems_untyped h⟩
      next => cases h
  next => cases h

theorem checkSubclasses_of_untyped {r : Relationship} {superclass : Text} {element : ValueType} {items : List Value}
    (hlast : a.last = some r) (hends : r.ends = .generalization superclass)
    (hvalue : st.value? "subclasses" = some (.list element items)) (hne : items ≠ [])
    (hitems : ∀ v ∈ items, ∀ t, v ≠ .text t) : a.checkSubclasses st = .error .subclassNotText := by
  obtain ⟨rnum, ends, subsystem, origin⟩ := r
  cases hends
  obtain ⟨v, rest, rfl⟩ := List.exists_cons_of_ne_nil hne
  simp only [checkSubclasses, hlast, hvalue]
  exact checkItems_of_untyped superclass rnum (hitems v List.mem_cons_self) rest

end Analyzer

def Schema.ListsSubclasses (s : Schema) (type : AppType) : Prop :=
  ∃ k p, s.call? "new_gen" = some k ∧ k.param? "subclasses" = some p ∧ p.multiple = true ∧ p.type = type

namespace Extraction

variable {s : Schema} {t : Text} {v : Value} {type : AppType}

theorem captureType_subclasses {param : Option Param}
    (h : captureType s subclassesForm "subclasses" param = .ok type) : ∃ p, param = some p ∧ p.type = type := by
  cases param with
  | none => cases h
  | some p => exact ⟨p, rfl, Except.ok.inj h⟩

/-- The value of the subclasses is a list if the schema says so, with an item for each of them. -/
theorem captureValue_subclasses {p : Param} {element : ValueType} {items : List Value} :
    captureValue subclassesForm type (some p) ⟨"subclasses", t⟩ = .ok (.list element items) ↔
      p.multiple = true ∧ element = type.ui.valueType ∧
        List.Forall₂ (fun sub v => type.convert sub = .ok v) (Capture.split "|" t) items := by
  have hsplit : subclassesForm.split "subclasses" t = Capture.split "|" t := rfl
  rw [captureValue, mapError_ok_iff, hsplit]
  cases hmultiple : p.multiple with
  | false =>
      constructor
      · intro h
        simp only [Option.any_some, hmultiple, Bool.false_eq_true, if_false] at h
        exact absurd h AppType.convert_ne_list
      · rintro ⟨h, -⟩
        cases h
  | true =>
      simp only [Option.any_some, hmultiple, if_true, AppType.convertList, map_ok_iff, Value.list.injEq, true_and]
      constructor
      · rintro ⟨items', h, rfl, rfl⟩
        exact ⟨rfl, mapM_ok_iff.mp h⟩
      · rintro ⟨rfl, h⟩
        exact ⟨items, mapM_ok_iff.mpr h, rfl, rfl⟩

end Extraction

namespace Building

variable {s : Schema} {b : Building} {h : Halt} {l : Line}

theorem within_true (b : Building) : b.Within fun _ => True :=
  ⟨⟨fun _ _ => trivial, fun _ _ => trivial, fun _ _ => trivial⟩, fun _ _ => trivial⟩

theorem closeDomain_faulty (he : b.closeDomain s = .error h) : h.fault ≠ none := by
  obtain ⟨g, o, -, -, hfault⟩ := b.within_true.closeDomain_error he
  rw [hfault]
  exact nofun

theorem header_faulty {word : Text} (he : b.header s l word = .error h) : h.fault ≠ none := by
  rcases b.within_true.header_error he with ⟨g, hfault, -⟩ | ⟨g, o, -, -, hfault⟩
  · rw [hfault]
    exact nofun
  · rw [hfault]
    exact nofun

/-- A statement that has no result, not even a fault: the model asks for a text and there is none. -/
theorem statement_abandoned (he : b.statement s l = .error h) (hfault : h.fault = none) :
    ∃ home walker m x scope, b.walker.statement = .ok (home, walker) ∧ matchLine home.name l.trimmed = .ok m ∧
      ofCaptures s m.form (Capture.transform m.form.transform m.captures).1 = .ok x ∧
      m.form.kind = .subclasses ∧ b.analyzer.checkSubclasses ⟨some m.form.kind, x.fields, scope,
        ⟨b.file, l.number, l.trimmed⟩⟩ = .error .subclassNotText := by
  rcases statement_error he with ⟨g, hg, -⟩ | ⟨home, walker, m, x, scope, e, hw, hm, hx, hhandle, rfl⟩
  · rw [hfault] at hg
    cases hg
  · have he : e = .subclassNotText := by cases e <;> first | rfl | cases hfault
    obtain ⟨hkind, hchecked⟩ := Analyzer.handle_untyped (he ▸ hhandle)
    exact ⟨home, walker, m, x, scope, hw, hm, hx, Option.some.inj hkind, hchecked⟩

/-- A line of subclasses comes after a superclass, and each of them is a value of a type. -/
def ReadsSubclasses (b : Building) (l : Line) (type : AppType) : Prop :=
  Section.header? l.trimmed = none ∧
    (∃ r superclass, b.analyzer.last = some r ∧ r.ends = .generalization superclass) ∧
    ∃ home walker m t, b.walker.statement = .ok (home, walker) ∧ matchLine home.name l.trimmed = .ok m ∧
      m.form.kind = .subclasses ∧ m.captures = [⟨"subclasses", t⟩] ∧
      ∀ sub ∈ Capture.split "|" t, ∃ v, type.convert sub = .ok v

theorem line_abandoned (he : b.line s l = .error h) (hfault : h.fault = none) :
    ∃ type, s.ListsSubclasses type ∧ type.ui ≠ .string ∧ b.ReadsSubclasses l type := by
  rw [line] at he
  obtain ⟨h', he', rfl⟩ := mapError_error_iff.mp he
  have hfault' : h'.fault = none := Option.map_eq_none_iff.mp hfault
  split at he'
  next => exact absurd hfault' (header_faulty he')
  next hword =>
      obtain ⟨home, walker, m, x, scope, hw, hm, hx, hkind, hchecked⟩ := statement_abandoned he' hfault'
      obtain ⟨hform, t, hcs, -⟩ := captures_subclasses hm hkind
      obtain ⟨r, superclass, element, items, hlast, hends, hvalue, v, hv, hnot⟩ :=
        Analyzer.checkSubclasses_untyped hchecked
      rw [hform, hcs] at hx
      have htyped := ofCaptures_ok hx
      -- the value that the model reads is what the one capture of the line is converted to
      have hget : Capture.get? (Capture.transform subclassesForm.transform [⟨"subclasses", t⟩]).1 "subclasses" =
          some t := by
        simp [Capture.transform, subclassesForm, Capture.get?]
      obtain ⟨v', type, hv', htype, hcaptured⟩ := typedAs_value htyped.fields hget
      obtain rfl : v' = .list element items := Option.some.inj (hv'.symm.trans hvalue)
      obtain ⟨p, hp, rfl⟩ := captureType_subclasses htype
      rw [hp] at hcaptured
      obtain ⟨hmultiple, -, hitems⟩ := captureValue_subclasses.mp hcaptured
      obtain ⟨k, hk, hparam⟩ := Option.bind_eq_some_iff.mp hp
      refine ⟨p.type, ⟨k, p, hk, hparam, hmultiple, rfl⟩, fun hstring => ?_, hword, ⟨r, superclass, hlast, hends⟩,
        home, walker, m, t, hw, hm, hkind, hcs, fun sub hsub => ?_⟩
      · obtain ⟨sub, -, hsub⟩ := partner_of_right hitems hv
        obtain ⟨text, rfl⟩ := (AppType.convert_text_iff hsub).mpr hstring
        exact hnot text rfl
      · obtain ⟨v, -, hv⟩ := partner_of_left hitems hsub
        exact ⟨v, hv⟩

theorem exists_extracted_subclasses (hs : s.Admitted) {home text t : Text} {m : Matched} {k : Call} {p : Param}
    {items : List Value} (hm : matchLine home text = .ok m) (hform : m.form = subclassesForm)
    (hcs : transformed m = .ok [⟨"subclasses", t⟩]) (hk : s.call? "new_gen" = some k)
    (hparam : k.param? "subclasses" = some p) (hmultiple : p.multiple = true)
    (hitems : List.Forall₂ (fun sub v => p.type.convert sub = .ok v) (Capture.split "|" t) items) :
    ∃ x, ofCaptures s m.form [⟨"subclasses", t⟩] = .ok x ∧
      valueOf x.fields "subclasses" = some (.list p.type.ui.valueType items) := by
  have hp : paramOf (m.form.target.bind s.call?) "subclasses" = some p := by
    rw [hform, paramOf, show subclassesForm.target.bind s.call? = some k from hk]
    exact hparam
  have hvalue (type : AppType) (htype : captureType s m.form "subclasses" (some p) = .ok type) :
      captureValue m.form type (some p) ⟨"subclasses", t⟩ = .ok (.list p.type.ui.valueType items) := by
    rw [hform] at htype ⊢
    obtain ⟨p', hp', rfl⟩ := captureType_subclasses htype
    cases hp'
    exact captureValue_subclasses.mpr ⟨hmultiple, rfl, hitems⟩
  -- an extraction that fails has a text that does not convert, and there is only this one
  cases hx : ofCaptures s m.form [⟨"subclasses", t⟩] with
  | error e =>
      obtain ⟨c, hc, type, cause, htype, hbad, -⟩ := hs.ofCaptures_error hm hcs hx
      cases List.mem_singleton.mp hc
      rw [hp] at htype hbad
      cases hbad.symm.trans (hvalue type htype)
  | ok x =>
      have htyped := ofCaptures_ok hx
      have hget : Capture.get? [⟨"subclasses", t⟩] "subclasses" = some t := by simp [Capture.get?]
      obtain ⟨v, type, hv, htype, hcaptured⟩ := typedAs_value htyped.fields hget
      rw [hp] at htype hcaptured
      cases hcaptured.symm.trans (hvalue type htype)
      exact ⟨x, rfl, hv⟩

theorem statement_of_readsSubclasses (hs : s.Admitted) {type : AppType} (hlists : s.ListsSubclasses type)
    (htype : type.ui ≠ .string) (hread : b.ReadsSubclasses l type) : b.statement s l = .error ⟨none, b.out⟩ := by
  obtain ⟨-, ⟨r, superclass, hlast, hends⟩, home, walker, m, t, hw, hm, hkind, hcs, hsubs⟩ := hread
  obtain ⟨k, p, hk, hparam, hmultiple, rfl⟩ := hlists
  obtain ⟨hform, t', hcs', hne⟩ := captures_subclasses hm hkind
  cases hcs.symm.trans hcs'
  obtain ⟨items, hitems⟩ := exists_partners_iff.mpr hsubs
  have htransformed : transformed m = .ok [⟨"subclasses", t⟩] := by
    rw [transformed_ok hm, hform, hcs]
    rfl
  obtain ⟨x, hx, hvalue⟩ := exists_extracted_subclasses hs hm hform htransformed hk hparam hmultiple hitems
  have htyped := ofCaptures_ok hx
  obtain ⟨scope, hscope⟩ := htyped.applyScope_ok hs b.scope
  -- the first item is compared with the superclass, and it is no text
  have hchecked : b.analyzer.checkSubclasses ⟨some m.form.kind, x.fields, scope, ⟨b.file, l.number, l.trimmed⟩⟩ =
      .error .subclassNotText := by
    refine Analyzer.checkSubclasses_of_untyped hlast hends hvalue ?_ fun v hv text htext => ?_
    · intro hnil
      rw [hnil, List.forall₂_nil_right_iff] at hitems
      exact hne hitems
    · obtain ⟨sub, -, hsub⟩ := partner_of_right hitems hv
      exact htype ((AppType.convert_text_iff hsub).mp ⟨text, htext⟩)
  have hhandle : b.analyzer.handle ⟨some m.form.kind, x.fields, scope, ⟨b.file, l.number, l.trimmed⟩⟩ =
      (b.analyzer, some .subclassNotText) := by
    rw [hkind] at hchecked ⊢
    simp only [Analyzer.handle, hchecked]
    rfl
  -- all steps before the model go well
  rw [statement_eq]
  refine bind_error_iff.mpr (.inr ⟨_, attempt_ok_iff.mpr (mapError_ok_iff.mpr hw), ?_⟩)
  refine bind_error_iff.mpr (.inr ⟨_, attempt_ok_iff.mpr (mapError_ok_iff.mpr hm), ?_⟩)
  refine bind_error_iff.mpr (.inr ⟨_, attempt_ok_iff.mpr htransformed, ?_⟩)
  refine bind_error_iff.mpr (.inr ⟨_, attempt_ok_iff.mpr (mapError_ok_iff.mpr hx), ?_⟩)
  refine bind_error_iff.mpr (.inr ⟨_, attempt_ok_iff.mpr (mapError_ok_iff.mpr hscope), ?_⟩)
  rw [hhandle]
  rfl

theorem line_abandoned_iff (hs : s.Admitted) : (∃ h, b.line s l = .error h ∧ h.fault = none) ↔
    ∃ type, s.ListsSubclasses type ∧ type.ui ≠ .string ∧ b.ReadsSubclasses l type := by
  constructor
  · rintro ⟨h, he, hfault⟩
    exact line_abandoned he hfault
  · rintro ⟨type, hlists, htype, hread⟩
    have hstatement := statement_of_readsSubclasses hs hlists htype hread
    refine ⟨⟨none, b.out⟩, ?_, rfl⟩
    rw [line, hread.1]
    exact mapError_error_iff.mpr ⟨_, hstatement, rfl⟩

theorem travel_abandoned_iff {ps : List Stop} : (∃ h, travel s ps = .error h ∧ h.fault = none) ↔
    ∃ before l after b, ps = before ++ .line l :: after ∧ travel s before = .ok b ∧
      ∃ h, b.line s l = .error h ∧ h.fault = none := by
  constructor
  · rintro ⟨h, he, hfault⟩
    obtain ⟨before, p, after, b, hps, hbefore, hvisit⟩ := foldlM_error he
    cases p with
    | opening f => cases hvisit
    | ending => exact absurd hfault (closeDomain_faulty hvisit)
    | line l => exact ⟨before, l, after, b, hps, hbefore, h, hvisit, hfault⟩
  · rintro ⟨before, l, after, b, rfl, hbefore, h, he, hfault⟩
    refine ⟨h, ?_, hfault⟩
    rw [travel_append]
    refine bind_error_iff.mpr (.inr ⟨b, hbefore, ?_⟩)
    rw [List.foldlM_cons]
    exact bind_error_iff.mpr (.inl he)

end Building

namespace Compiled

theorem build_abandoned {s : Schema} {fs : List SourceFile} :
    (build s fs).ending = .abandoned ↔ ∃ h, Building.travel s (stops fs) = .error h ∧ h.fault = none := by
  rw [build, ← travel_stops]
  cases Building.travel s (stops fs) with
  | ok b =>
      constructor
      · intro h
        cases h
      · rintro ⟨h, he, -⟩
        cases he
  | error h =>
      rcases ending_ofHalt h with ⟨hfault, hending⟩ | ⟨g, hfault, hending⟩
      · exact ⟨fun _ => ⟨h, rfl, hfault⟩, fun _ => hending⟩
      · refine ⟨fun habandoned => ?_, ?_⟩
        · cases hending.symm.trans habandoned
        · rintro ⟨h', he, hnone⟩
          cases he
          rw [hfault] at hnone
          cases hnone

end Compiled

/-- What the model relies on where it looks into lists and values: a relationship that references wait for has a first
one, no derived command is given an empty list, each number of a tag has its place among the identifiers, and texts and
numbers are read from values that are such. That a relationship has its classes is part of what it is. -/
structure Analyzer.Sturdy (a : Analyzer) : Prop where
  first : ∀ rnum ∈ a.pendingNumbers, ∃ r rest, a.referencesOf rnum = r :: rest
  lists : ∀ es, a.finalize.2 = .ok es → ∀ e ∈ es, ∀ f ∈ e.fields, ∀ element items, f.value = .list element items →
    items ≠ []
  slots : ∀ c ∈ a.classes, ∀ attr tag group, tagged c attr tag = .ok group →
    ∀ n ∈ tagNumbers tag, 1 ≤ n ∧ (n - 1).toNat < group.length
  reads : ∀ (st : Statement) (name : Text), (st.text name ≠ [] → ∃ t, st.value? name = some (.text t)) ∧
    ∀ n, st.int? name = some n → ∃ q, st.value? name = some (.number q)

namespace Analyzer

variable {a : Analyzer}

theorem formalization_lists {rnum : Int} {first : PendingReference} {refs : List PendingReference} (hne : refs ≠ [])
    {f : Field} (hf : f ∈ (a.formalization rnum first refs).fields) {element : ValueType} {items : List Value}
    (hvalue : f.value = .list element items) : items ≠ [] := by
  have htexts (g : PendingReference → Text) (h : Value.texts (refs.map g) = .list element items) : items ≠ [] := by
    cases h
    simpa using hne
  simp only [formalization, List.mem_append, List.mem_cons, List.not_mem_nil, or_false] at hf
  rcases hf with ((rfl | rfl | rfl | rfl | rfl) | hf) | rfl
  · cases hvalue
  · exact htexts _ hvalue
  · exact htexts _ hvalue
  · exact htexts _ hvalue
  · exact htexts _ hvalue
  · split at hf
    next =>
        cases List.mem_singleton.mp hf
        cases hvalue
    next => cases hf
  · cases hvalue

theorem idCommand_lists {call : Text} {c : ModelClass} {number : Nat} {attr : Text} {f : Field}
    (hf : f ∈ (idCommand call a c number attr).fields) {element : ValueType} {items : List Value} :
    f.value ≠ .list element items := by
  simp only [idCommand, List.mem_cons, List.not_mem_nil, or_false] at hf
  intro hlist
  rcases hf with rfl | rfl | rfl | rfl <;> cases hlist

theorem finalize_lists {es : List Emission} (h : a.finalize.2 = .ok es) {e : Emission} (he : e ∈ es) {f : Field}
    (hf : f ∈ e.fields) {element : ValueType} {items : List Value} (hvalue : f.value = .list element items) :
    items ≠ [] := by
  cases hactive : a.active with
  | false =>
      rw [finalize, hactive] at h
      cases h
      cases he
  | true =>
      obtain ⟨-, rels, rfl, hrels⟩ := finalize_ok hactive h
      rcases derived_cases hrels he with ⟨rnum, first, hne, rfl⟩ | ⟨call, c, number, attr, -, rfl⟩
      · exact formalization_lists hne hf hvalue
      · exact absurd hvalue (idCommand_lists hf)

theorem sturdy (a : Analyzer) : a.Sturdy where
  first rnum hrnum := by
    obtain ⟨r, hr, hnum⟩ := mem_pendingNumbers.mp hrnum
    exact List.exists_cons_of_ne_nil (List.ne_nil_of_mem (List.mem_filter.mpr ⟨hr, by simpa using hnum⟩))
  lists es h e he f hf element items hvalue := finalize_lists h he hf hvalue
  slots c hc attr tag group h n hn := by
    obtain ⟨hpos, -⟩ := tagNumbers_range hn
    refine ⟨hpos, ?_⟩
    have hholds : Identifier.Holds group (n - 1).toNat attr := by
      refine ((tagged_ok h).1 _ _).mpr (.inr ⟨?_, rfl⟩)
      rwa [show (((n - 1).toNat + 1 : Nat) : Int) = n by omega]
    obtain ⟨attrs, hattrs, -⟩ := hholds
    exact (List.getElem?_eq_some_iff.mp hattrs).1
  reads st name := by
    constructor
    · intro hne
      rw [Statement.text] at hne
      split at hne
      next v hv =>
          cases v with
          | text t => exact ⟨t, hv⟩
          | _ => exact absurd rfl hne
      next => exact absurd rfl hne
    · intro n hn
      rw [Statement.int?] at hn
      split at hn
      next q hq => exact ⟨q, hq⟩
      next => cases hn

end Analyzer

namespace Compiled

/-- A build is abandoned if, and only if, it comes to a line of subclasses that the schema takes as a list of something
other than texts, with a superclass before it and every subclass a value of that type. All else that the model looks
into is there. -/
theorem build_abandoned_iff {s : Schema} {fs : List SourceFile} (hs : checkSchema s = .ok ()) :
    ((build s fs).ending = .abandoned ↔ ∃ type, s.ListsSubclasses type ∧ type.ui ≠ .string ∧
      ∃ before l after b, stops fs = before ++ .line l :: after ∧ Building.travel s before = .ok b ∧
        b.ReadsSubclasses l type) ∧
    ∀ a : Analyzer, a.Sturdy := by
  refine ⟨?_, Analyzer.sturdy⟩
  have hadmitted := admitted_of_checkSchema hs
  rw [build_abandoned, Building.travel_abandoned_iff]
  constructor
  · rintro ⟨before, l, after, b, hstops, hbefore, habandoned⟩
    obtain ⟨type, hlists, htype, hread⟩ := (Building.line_abandoned_iff hadmitted).mp habandoned
    exact ⟨type, hlists, htype, before, l, after, b, hstops, hbefore, hread⟩
  · rintro ⟨type, hlists, htype, before, l, after, b, hstops, hbefore, hread⟩
    refine ⟨before, l, after, b, hstops, hbefore, ?_⟩
    exact (Building.line_abandoned_iff hadmitted).mpr ⟨type, hlists, htype, hread⟩

/-- The lines of the default schema, but for subclasses that are numbers. -/
def numberedLines : List String :=
  Schema.defaultLines.map fun line =>
    if line = "rnum:rnum, superclass:name, subclasses:name...," then
      "rnum:rnum, superclass:name, subclasses:nominal...,"
    else line

def numbered : Schema where
  types := Schema.standard.types
  calls := Schema.standard.calls.map fun k => { k with
    params := k.params.map fun p => if p.name = ("subclasses" : Text) then { p with type := Schema.Standard.nominal } else p }

def numberedSubclasses : SourceFile :=
  .ofBytes "numbered.mi" ("domain\nAir Traffic / ATC\nsubsystem\nAir Field / AF 1-50\nclasses\nrelationships\n" ++
    "R1: Aircraft <\n1 | 2\n")

theorem checkSchema_numbered : checkSchema numbered = .ok () := by
  decide +kernel

theorem ending_numbered : (build numbered [numberedSubclasses]).ending = .abandoned := by
  decide +kernel

theorem build_abandoned_numbered : checkSchema numbered = .ok () ∧
    (build numbered [numberedSubclasses]).ending = .abandoned ∧
    ∃ before l after b, stops [numberedSubclasses] = before ++ .line l :: after ∧
      Building.travel numbered before = .ok b ∧ b.ReadsSubclasses l Schema.Standard.nominal := by
  obtain ⟨type, ⟨k, p, hk, hp, -, rfl⟩, -, hstop⟩ := (build_abandoned_iff checkSchema_numbered).1.mp ending_numbered
  have htype : ((numbered.call? "new_gen").bind (·.param? "subclasses")).map (·.type) = some Schema.Standard.nominal := by
    decide +kernel
  rw [hk, Option.bind_some, hp] at htype
  rw [show p.type = Schema.Standard.nominal from Option.some.inj htype] at hstop
  exact ⟨checkSchema_numbered, ending_numbered, hstop⟩

/-- The schema is accepted, and yet there is a file that has neither a script nor a fault. -/
theorem build_not_ended :
    (Schema.ofBytes "numbered_schema.mi" (Text.lines (numberedLines.map Text.ofString))).toOption = some numbered ∧
    (checkSchema numbered).toOption = some () ∧ Check.files [numberedSubclasses] = .ok () ∧
    (build numbered [numberedSubclasses]).ending = .abandoned := by
  refine ⟨by decide +kernel, ?_, by decide +kernel, ending_numbered⟩
  rw [checkSchema_numbered]
  rfl

end Compiled

end Population

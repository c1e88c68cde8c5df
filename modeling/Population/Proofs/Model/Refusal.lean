import Population.Proofs.Model.Consistency

namespace Population.Analyzer

variable {a : Analyzer} {st : Statement} {e : AnalysisError}

/-- A reference of a class, with a number and with targets. Its tag may still be refused. -/
def Recordable (a : Analyzer) (st : Statement) : Prop :=
  st.kind = some .reference ∧ ∃ read, a.readReference st = .ok read

inductive Refused (a : Analyzer) (st : Statement) (e : AnalysisError) : Analyzer → Prop
  | unchanged (h : ¬ a.Recordable st) : Refused a st e a
  | recorded (h : st.kind = some .reference) {c : ModelClass} {rnum : Int} {targets : List Target}
      (hread : a.readReference st = .ok (c, rnum, targets))
      (htag : tagged c (st.text "name") (st.text "id") = .error e) : Refused a st e (a.referring st c rnum targets)

theorem addReference_refused (hk : st.kind = some .reference) (h : (a.addReference st).2 = some e) :
    Refused a st e (a.addReference st).1 := by
  rw [addReference] at h ⊢
  split at h
  next e' hread =>
      refine .unchanged ?_
      rintro ⟨-, read, hok⟩
      rw [hread] at hok
      cases hok
  next c rnum targets hread =>
      dsimp only at h ⊢
      split at h
      next e' htag =>
          cases h
          exact .recorded hk hread htag
      next => cases h

theorem refused_unless_reference (hk : st.kind ≠ some .reference) (h : (a.handle st).2 = some e) :
    (a.handle st).1 = a := by
  have hhandled := handle_handled a st
  rw [h] at hhandled
  generalize (a.handle st).1 = a' at hhandled
  cases hhandled with
  | refused => rfl
  | untagged hreference => exact absurd hreference hk

theorem handle_refusal (h : (a.handle st).2 = some e) : Refused a st e (a.handle st).1 := by
  by_cases hk : st.kind = some .reference
  · have hhandle : a.handle st = a.addReference st := by rw [handle, hk]
    rw [hhandle] at h ⊢
    exact addReference_refused hk h
  · rw [refused_unless_reference hk h]
    exact .unchanged fun hrecordable => hk hrecordable.1

/-- References that are recorded are more than there were, since a line has targets. -/
theorem referring_ne {c : ModelClass} {rnum : Int} {targets : List Target}
    (hread : a.readReference st = .ok (c, rnum, targets)) : a.referring st c rnum targets ≠ a := by
  intro heq
  obtain ⟨-, -, htargets⟩ := readReference_ok hread
  have hreferences : a.references ++ pending st c rnum targets = a.references := congrArg references heq
  have hnone : pending st c rnum targets = [] := List.append_right_eq_self.mp hreferences
  exact parseList_ne_nil htargets (List.map_eq_nil_iff.mp hnone)

/-- A refused statement leaves the model as it was, unless it is a reference whose tag is refused. Then the reference is
there, and with it the subsystems that it depends on. -/
theorem refused_unchanged_iff (actions : List Action) (h : ((reach actions).handle st).2 = some e) :
    (((reach actions).handle st).1 = reach actions ↔ ¬ (reach actions).Recordable st) ∧
    ∀ c rnum targets, st.kind = some .reference → (reach actions).readReference st = .ok (c, rnum, targets) →
      ((reach actions).handle st).1 = (reach actions).referring st c rnum targets := by
  have hrefused := handle_refusal h
  generalize hafter : ((reach actions).handle st).1 = a' at hrefused ⊢
  cases hrefused with
  | unchanged hnot =>
      exact ⟨⟨fun _ => hnot, fun _ => rfl⟩, fun c rnum targets hk hread => absurd ⟨hk, _, hread⟩ hnot⟩
  | recorded hk hread htag =>
      refine ⟨⟨fun heq => absurd heq (referring_ne hread), fun hnot => absurd ⟨hk, _, hread⟩ hnot⟩, ?_⟩
      intro c rnum targets _ hread'
      cases hread.symm.trans hread'
      rfl

def inPilot (kind : StatementKind) (fields : List Field) : Statement where
  kind := some kind
  fields
  scope := ⟨some (.text "Air Traffic"), some (.text "Air Field"), some (.text "Pilot")⟩
  origin := ⟨"atc.mi", 1, []⟩

def lonePilot : List Action :=
  [.handle (inPilot .domain [⟨"name", .text "Air Traffic"⟩]),
    .handle (inPilot .subsystem [⟨"name", .text "Air Field"⟩, ⟨"floor", .ofInt 1⟩, ⟨"ceiling", .ofInt 50⟩]),
    .handle (inPilot .classDef [])]

def reference (target tag : Text) : Statement :=
  inPilot .reference [⟨"name", .text "Base"⟩, ⟨"to_attrs", .text target⟩, ⟨"rnum", .ofInt 1⟩, ⟨"id", .text tag⟩]

theorem refused_unchanged_runway :
    ((reach lonePilot).handle (reference "Runway" "I")).2 = some (.target (.noSeparator "Runway")) ∧
    ((reach lonePilot).handle (reference "Runway" "I")).1 = reach lonePilot := by
  have hrefused : ((reach lonePilot).handle (reference "Runway" "I")).2 = some (.target (.noSeparator "Runway")) := by
    decide +kernel
  have hread : (reach lonePilot).readReference (reference "Runway" "I") = .error (.target (.noSeparator "Runway")) := by
    decide +kernel
  refine ⟨hrefused, (refused_unchanged_iff lonePilot hrefused).1.mpr ?_⟩
  rintro ⟨-, read, hok⟩
  rw [hread] at hok
  cases hok

/-- The line is refused for its tag, but its reference and the dependency of its subsystem stay. -/
theorem refused_not_unchanged :
    ((reach lonePilot).handle (reference "Runways::Runway.Code" "I0")).2 = some (.identifier (.belowOne 0 "I0")) ∧
    ((reach lonePilot).handle (reference "Runways::Runway.Code" "I0")).1 ≠ reach lonePilot ∧
    (reach lonePilot).references = [] ∧
    ((reach lonePilot).handle (reference "Runways::Runway.Code" "I0")).1.references =
      [⟨1, "Pilot", "Base", ⟨some "Runways", "Runway", "Code"⟩, false, "Air Field", ⟨"atc.mi", 1, []⟩⟩] ∧
    (reach lonePilot).dependencies = [] ∧
    ((reach lonePilot).handle (reference "Runways::Runway.Code" "I0")).1.dependencies =
      [⟨"Air Field", "Runways", ⟨"atc.mi", 1, []⟩⟩] := by
  decide +kernel

end Population.Analyzer

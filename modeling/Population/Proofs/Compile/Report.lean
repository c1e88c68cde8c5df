import Population.Compile.Build
import Population.Proofs.Model.Renumbering
import Population.Proofs.Text.Decimal

namespace Population

namespace Text

theorem ofInt_bytes {i : Int} {b : UInt8} (hb : b ∈ ofInt i) : b = 0x2d ∨ isDigit b = true := by
  cases i with
  | ofNat n => exact .inr (ofNat_digits hb)
  | negSucc n =>
      rcases List.mem_append.mp hb with hb | hb
      · exact .inl (List.mem_singleton.mp hb)
      · exact .inr (ofNat_digits hb)

/-- Neither a digit nor a byte of the words about a relationship that is declared twice. -/
def isForeign (b : UInt8) : Bool :=
  !isDigit b && b ∉ (("relationship R already declared on line -" : Text))

theorem ofInt_any_isForeign (i : Int) : (ofInt i).any isForeign = false := by
  rw [List.any_eq_false]
  intro b hb
  rcases ofInt_bytes hb with rfl | hdigit
  · decide
  · simp [isForeign, hdigit]

@[simp]
theorem quoted_any_isForeign (t : Text) : t.quoted.any isForeign = true := by
  simp +decide [quoted]

end Text

namespace AnalysisError

theorem duplicate_any_isForeign (rnum line : Int) :
    (duplicateRelationship rnum line).message.any Text.isForeign = false := by
  simp only [message, List.any_append, Text.ofInt_any_isForeign]
  decide

theorem any_isForeign {e : AnalysisError} (h : ∀ rnum line, e ≠ .duplicateRelationship rnum line) :
    e.message.any Text.isForeign = true := by
  cases e with
  | duplicateRelationship rnum line => exact absurd rfl (h rnum line)
  | identifier e => cases e <;> simp +decide [message, IdentifierError.message]
  | target e => cases e <;> simp +decide [message, TargetError.message]
  | _ => simp +decide [message]

end AnalysisError

/-- Messages that say the same, but for the number of a line that they quote. -/
inductive Said (N : Int → Int → Prop) : Text → Text → Prop
  | same {m : Text} (h : ∀ rnum line, m ≠ (AnalysisError.duplicateRelationship rnum line).message) : Said N m m
  | duplicate (rnum : Int) {line line' : Int} (h : N line line') :
      Said N (AnalysisError.duplicateRelationship rnum line).message
        (AnalysisError.duplicateRelationship rnum line').message

theorem said_of_isForeign {N : Int → Int → Prop} {m : Text} (h : m.any Text.isForeign = true) : Said N m m := by
  refine .same fun rnum line hm => ?_
  rw [hm, AnalysisError.duplicate_any_isForeign] at h
  cases h

structure Fault.Alike (N L : Int → Int → Prop) (f f' : Fault) : Prop where
  kind : f'.kind = f.kind
  file : f'.file = f.file
  line : L f.line f'.line
  text : f'.text = f.text
  summary : Said N f.summary f'.summary
  cause : f'.cause = f.cause

/-- Corresponding lines, or none at all: zero is the line of a fault without a place. -/
def Near (N : Int → Int → Prop) (n n' : Int) : Prop :=
  (n = 0 ↔ n' = 0) ∧ (n ≠ 0 → N n n')

/-- A line corresponds to a line, and never to none. -/
def KeepsPlace (N : Int → Int → Prop) : Prop :=
  ∀ n n', N n n' → (n = 0 ↔ n' = 0)

section

variable {N : Int → Int → Prop} {f f' : Fault} {o o' : Origin}

theorem near_zero : Near N 0 0 :=
  ⟨Iff.rfl, absurd rfl⟩

theorem Fault.Alike.locate (h : f.Alike N (Near N) f') {n n' : Int} (hn : N n n') (file text : Text) :
    (f.locate file n text).Alike N N (f'.locate file n' text) := by
  obtain ⟨_, _, line, _, summary, _⟩ := f
  obtain ⟨kind, known, line', words, summary', cause⟩ := f'
  obtain ⟨rfl, rfl, ⟨hzero, hline⟩, rfl, hsummary, rfl⟩ := h
  dsimp only at hzero hline
  by_cases h0 : line = 0
  · simp only [Fault.locate, h0, hzero.mp h0, if_true]
    cases known <;> exact ⟨rfl, rfl, hn, rfl, hsummary, rfl⟩
  · simp only [Fault.locate, h0, mt hzero.mpr h0, if_false]
    cases known <;> exact ⟨rfl, rfl, hline h0, rfl, hsummary, rfl⟩

theorem Fault.Alike.near (hN : KeepsPlace N) (h : f.Alike N N f') : f.Alike N (Near N) f' :=
  { h with line := ⟨hN _ _ h.line, fun _ => h.line⟩ }

/-- A fault without a place that quotes no line. -/
def Fault.Unplaced (f : Fault) : Prop :=
  f.line = 0 ∧ f.summary.any Text.isForeign = true

theorem Fault.Unplaced.alike (h : f.Unplaced) : f.Alike N (Near N) f := by
  obtain ⟨hline, hsummary⟩ := h
  refine ⟨rfl, rfl, ?_, rfl, said_of_isForeign hsummary, rfl⟩
  rw [hline]
  exact near_zero

theorem unplaced_of_mapError {ε α : Type} {r : Except ε α} {fault : ε → Fault} (hfault : ∀ e, (fault e).Unplaced)
    (h : r.mapError fault = .error f) : f.Unplaced := by
  obtain ⟨e, -, rfl⟩ := mapError_error_iff.mp h
  exact hfault e

theorem WalkError.fault_unplaced (e : WalkError) : e.fault.Unplaced := by
  refine ⟨rfl, ?_⟩
  cases e with
  | transition e => cases e <;> simp +decide [fault, Fault.plain, message, TransitionError.message]
  | _ => simp +decide [fault, Fault.plain, message]

theorem MatchError.fault_unplaced (e : MatchError) : e.fault.Unplaced := by
  refine ⟨rfl, ?_⟩
  cases e <;> simp +decide [fault, Fault.plain, message]

theorem ExtractError.fault_unplaced (e : ExtractError) : e.fault.Unplaced := by
  cases e <;> exact ⟨rfl, by simp +decide [fault, Fault.plain, Fault.causedBy]⟩

theorem UnknownScope.fault_unplaced (e : UnknownScope) : e.fault.Unplaced :=
  ⟨rfl, by simp +decide [fault, Fault.plain, message]⟩

theorem ScriptError.fault_unplaced (e : ScriptError) : e.fault.Unplaced := by
  refine ⟨rfl, ?_⟩
  cases e with
  | command e => cases e <;> simp +decide [fault, Fault.plain, message, CommandError.message]
  | _ => simp +decide [fault, Fault.plain, message]

theorem Building.transformed_unplaced {m : Matched} (h : transformed m = .error f) : f.Unplaced := by
  rw [transformed] at h
  split at h
  next => cases h
  next =>
      cases h
      exact ⟨rfl, by simp +decide [Fault.causedBy]⟩

theorem AnalysisError.Alike.fault? {e e' : AnalysisError} (h : e.Alike N e') :
    Option.Rel (Fault.Alike N (Near N)) e.fault? e'.fault? := by
  cases h with
  | duplicate rnum h => exact .some ⟨rfl, rfl, near_zero, rfl, .duplicate rnum h, rfl⟩
  | same h =>
      have hsaid := AnalysisError.any_isForeign h
      cases e with
      | subclassNotText => exact .none
      | _ => exact .some (Fault.Unplaced.alike ⟨rfl, hsaid⟩)

theorem ClosingError.fault_alike (e : ClosingError) (ho : o.Alike N o') :
    (e.fault o).Alike N N (e.fault o') := by
  cases e <;> simp only [fault, ho.file, ho.text] <;>
    exact Fault.Alike.locate (Fault.Unplaced.alike ⟨rfl, by simp +decide [Fault.plain, Fault.causedBy]⟩) ho.line _ _

theorem Analyzer.Alike.finalize {a a' : Analyzer} (h : a.Alike N a') : a.finalize.1.Alike N a'.finalize.1 ∧
    Parallel (Fault.Alike N N) (List.Forall₂ (Emission.Alike N)) a.finalize.2 a'.finalize.2 := by
  obtain ⟨hgraph, herror⟩ := connect_parallel h.dependencies a.graph
  rw [Analyzer.finalize, Analyzer.finalize, h.active, h.graph]
  cases a.active with
  | false => exact ⟨h, .ok .nil⟩
  | true =>
      generalize connect a.graph a.dependencies = r, connect a.graph a'.dependencies = r' at hgraph herror
      obtain ⟨g, e⟩ := r
      obtain ⟨g', e'⟩ := r'
      obtain rfl : g' = g := hgraph
      cases herror with
      | @some x x' he =>
          obtain ⟨e, o⟩ := x
          obtain ⟨_, o'⟩ := x'
          obtain ⟨rfl, ho⟩ := he
          exact ⟨{ h with active := rfl, graph := rfl }, .error (ClosingError.fault_alike _ ho)⟩
      | none =>
          have hclosed : Analyzer.Alike N { a with active := false, graph := g' }
              { a' with active := false, graph := g' } := { h with active := rfl, graph := rfl }
          refine ⟨hclosed, hclosed.emissions.mapError ?_⟩
          rintro ⟨e, o⟩ ⟨_, o'⟩ ⟨rfl, ho⟩
          exact ClosingError.fault_alike _ ho

end

end Population

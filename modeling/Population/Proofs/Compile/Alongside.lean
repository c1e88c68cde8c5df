import Population.Proofs.Compile.Report
import Population.Proofs.Compile.Step
import Population.Proofs.Script.Values

/-!
Of two builds side by side, which read the same lines, perhaps numbered otherwise, the second one begins behind
commands that are there before. It writes the same commands behind those, and stops where the first one stops.
-/
namespace Population

abbrev Command.Alike (N : Int → Int → Prop) : Command → Command → Prop :=
  Renumbered N Command.origin fun c o => { c with origin := o }

def Line.Alike (N : Int → Int → Prop) (l l' : Line) : Prop :=
  N l.number l'.number ∧ l'.trimmed = l.trimmed

structure SourceFile.Alike (N : Int → Int → Prop) (f f' : SourceFile) : Prop where
  name : f'.name = f.name
  lines : List.Forall₂ (Line.Alike N) f.lines f'.lines

/-- The commands of a script, and the same behind earlier ones. -/
def Script.Behind (N : Int → Int → Prop) (earlier : List Command) (s s' : Script) : Prop :=
  ∃ cs, List.Forall₂ (Command.Alike N) s.commands cs ∧ s'.commands = earlier ++ cs

structure Building.Alike (N : Int → Int → Prop) (earlier : List Command) (b b' : Building) : Prop where
  file : b'.file = b.file
  walker : b'.walker = b.walker
  scope : b'.scope = b.scope
  analyzer : b.analyzer.Alike N b'.analyzer
  script : b.out.script.Behind N earlier b'.out.script

structure Halt.Alike (N L : Int → Int → Prop) (earlier : List Command) (h h' : Halt) : Prop where
  fault : Option.Rel (Fault.Alike N L) h.fault h'.fault
  script : h.out.script.Behind N earlier h'.out.script

inductive Ending.Alike (N : Int → Int → Prop) : Ending → Ending → Prop
  | complete : Alike N .complete .complete
  | faulty {f f' : Fault} (h : f.Alike N N f') : Alike N (.faulty f) (.faulty f')
  | abandoned : Alike N .abandoned .abandoned

structure Compiled.Alike (N : Int → Int → Prop) (earlier : List Command) (r r' : Compiled) : Prop where
  script : r.script.Behind N earlier r'.script
  ending : r.ending.Alike N r'.ending

variable {N : Int → Int → Prop} {earlier : List Command} {s s' : Script} {c c' : Command} {o o' : Origin}

namespace Command

theorem Alike.contribute (h : c.Alike N c') (fields : List Field) :
    Parallel (· = ·) (Command.Alike N) (c.contribute fields) (c'.contribute fields) := by
  obtain ⟨o, ho, rfl⟩ := h
  have hcompleted : Command.completed { c with origin := o } = c.completed := rfl
  rw [Command.contribute, Command.contribute, hcompleted]
  split
  next => exact .error rfl
  next =>
      dsimp only
      cases Command.checkFields c.call c.explicit fields with
      | error e => exact .error rfl
      | ok _ => exact .ok ⟨o, ho, rfl⟩

theorem begin_parallel (call : Call) (scope : Option Scope) (fields : List Field) (ho : o.Alike N o') :
    Parallel (· = ·) (Command.Alike N) (begin call scope fields o) (begin call scope fields o') := by
  rw [begin, begin]
  cases checkFields call [] fields with
  | error e => exact .error rfl
  | ok _ => exact .ok ⟨o', ho, rfl⟩

end Command

namespace Script.Behind

theorem append (h : s.Behind N earlier s') (hc : c.Alike N c') : (s.append c).Behind N earlier (s'.append c') := by
  obtain ⟨cs, hcs, hs'⟩ := h
  refine ⟨cs ++ [c'], forall₂_concat hcs hc, ?_⟩
  rw [Script.append, hs', List.append_assoc]

variable (hclosed : Script.lastOpen ⟨earlier⟩ = none)
include hclosed

theorem lastOpen (h : s.Behind N earlier s') : Option.Rel (Command.Alike N) s.lastOpen s'.lastOpen := by
  obtain ⟨cs, hcs, hs'⟩ := h
  rw [Script.lastOpen, Script.lastOpen, hs']
  rcases rel_cases (getLast?_parallel hcs) with ⟨hnone, hnone'⟩ | ⟨c, _, hsome, hsome', o, ho, rfl⟩
  · -- nothing is added yet, and what was there before is closed
    obtain rfl := List.getLast?_eq_none_iff.mp hnone'
    rw [Script.lastOpen] at hclosed
    rw [hnone, List.append_nil, hclosed]
    exact .none
  · rw [hsome, List.getLast?_append, hsome', Option.some_or]
    have hcompleted : Command.completed { c with origin := o } = c.completed := rfl
    cases hc : c.completed with
    | true => simp [Option.filter, hcompleted, hc]
    | false => simpa [Option.filter, hcompleted, hc] using ⟨o, ho, rfl⟩

omit hclosed in
theorem replaceLast (h : s.Behind N earlier s') (hopen : s.lastOpen ≠ none) (hc : c.Alike N c') :
    (s.replaceLast c).Behind N earlier (s'.replaceLast c') := by
  obtain ⟨cs, hcs, hs'⟩ := h
  have hne : cs ≠ [] := by
    rintro rfl
    rw [List.forall₂_nil_right_iff] at hcs
    exact hopen (by rw [Script.lastOpen, hcs]; rfl)
  refine ⟨cs.dropLast ++ [c'], forall₂_concat ?_ hc, ?_⟩
  · rw [List.dropLast_eq_take, List.dropLast_eq_take, hcs.length_eq]
    exact List.forall₂_take _ hcs
  · rw [Script.replaceLast, hs', List.dropLast_append_of_ne_nil hne, List.append_assoc]

theorem add (h : s.Behind N earlier s') (schema : Schema) (call : Option Text) (scope : Option Scope)
    (fields : List Field) (ho : o.Alike N o') :
    Parallel (· = ·) (fun x x' => x.1.Behind N earlier x'.1 ∧ x.2.Alike N x'.2)
      (Script.add schema s call scope fields o) (Script.add schema s' call scope fields o') := by
  rcases rel_cases (h.lastOpen hclosed) with ⟨hnone, hnone'⟩ | ⟨tail, tail', hsome, hsome', htail⟩
  · cases call with
    | none =>
        simp only [Script.add, hnone, hnone']
        exact .error rfl
    | some name =>
        simp only [Script.add, hnone, hnone']
        cases schema.call? name with
        | none => exact .error rfl
        | some call =>
            refine Parallel.bind ?_ fun c c' hc => .ok ⟨h.append hc, hc⟩
            exact (Command.begin_parallel call scope fields ho).mapError fun _ _ => congrArg ScriptError.command
  · have hcontribute := htail.contribute fields
    obtain ⟨o, -, rfl⟩ := htail
    simp only [Script.add, hsome, hsome']
    split
    next => exact .error rfl
    next =>
        refine Parallel.bind ?_ fun c c' hc => .ok ⟨h.replaceLast (by simp [hsome]) hc, hc⟩
        exact hcontribute.mapError fun _ _ => congrArg ScriptError.command

theorem close (h : s.Behind N earlier s') : Parallel (Fault.Alike N N) (· = ·) s.close s'.close := by
  rw [Script.close, Script.close]
  rcases rel_cases (h.lastOpen hclosed) with ⟨hnone, hnone'⟩ | ⟨tail, _, hsome, hsome', o, ho, rfl⟩
  · rw [hnone, hnone']
    exact .ok rfl
  · rw [hsome, hsome']
    dsimp only
    rw [ho.file, ho.text]
    exact .error (Fault.Alike.locate (Fault.Unplaced.alike ⟨rfl, by simp +decide [Fault.plain]⟩) ho.line _ _)

end Script.Behind

theorem Halt.Alike.locate {h h' : Halt} (hh : h.Alike N (Near N) earlier h') {n n' : Int} (hn : N n n')
    (file text : Text) : (h.locate file n text).Alike N N earlier (h'.locate file n' text) :=
  ⟨rel_map hh.fault fun _ _ hf => hf.locate hn file text, hh.script⟩

theorem Halt.Alike.near (hN : KeepsPlace N) {h h' : Halt} (hh : h.Alike N N earlier h') :
    h.Alike N (Near N) earlier h' :=
  ⟨rel_imp hh.fault fun _ _ hf => hf.near hN, hh.script⟩

namespace Building.Alike

variable {L : Int → Int → Prop} {b b' : Building} (h : b.Alike N earlier b')
include h

theorem attempt {α β : Type} {R : α → β → Prop} {r : Except Fault α} {r' : Except Fault β}
    (hr : Parallel (Fault.Alike N L) R r r') :
    Parallel (Halt.Alike N L earlier) R (b.attempt r) (b'.attempt r') :=
  hr.mapError fun _ _ hf => ⟨.some hf, h.script⟩

/-- A step that does not look at the build, and whose faults have no place. -/
theorem attempt_same {α : Type} {r : Except Fault α} (hr : ∀ f, r = .error f → f.Unplaced) :
    Parallel (Halt.Alike N (Near N) earlier) (· = ·) (b.attempt r) (b'.attempt r) :=
  h.attempt (.refl fun f hf => (hr f hf).alike)

theorem attempt_mapped {ε α : Type} {r : Except ε α} {fault : ε → Fault} (hfault : ∀ e, (fault e).Unplaced) :
    Parallel (Halt.Alike N (Near N) earlier) (· = ·) (b.attempt (r.mapError fault)) (b'.attempt (r.mapError fault)) :=
  h.attempt_same fun _ => unplaced_of_mapError hfault

theorem noteCommand (c c' : Command) : (b.noteCommand c).Alike N earlier (b'.noteCommand c') := by
  obtain ⟨log, hlog⟩ := noteCommand_cases b c
  obtain ⟨log', hlog'⟩ := noteCommand_cases b' c'
  rw [hlog, hlog']
  exact { h with }

theorem noteDomain (domain : Text) (n n' : Nat) :
    (b.noteDomain domain n).Alike N earlier (b'.noteDomain domain n') := by
  obtain ⟨log, hlog⟩ := noteDomain_cases b domain n
  obtain ⟨log', hlog'⟩ := noteDomain_cases b' domain n'
  rw [hlog, hlog']
  exact { h with }

variable (hclosed : Script.lastOpen ⟨earlier⟩ = none) (schema : Schema)
include hclosed

theorem add (call : Option Text) (scope : Option Scope) (fields : List Field) (ho : o.Alike N o') :
    Parallel (Halt.Alike N (Near N) earlier) (Building.Alike N earlier) (b.add schema call scope fields o)
      (b'.add schema call scope fields o') := by
  have hfault (e e' : ScriptError) (he : e = e') : e.fault.Alike N (Near N) e'.fault := he ▸ e.fault_unplaced.alike
  have hadd := (h.script.add hclosed schema call scope fields ho).mapError hfault
  refine (h.attempt hadd).bind fun x x' hx => .ok ?_
  have hscript : Building.Alike N earlier { b with out := { b.out with script := x.1 } }
      { b' with out := { b'.out with script := x'.1 } } := { h with script := hx.1 }
  exact hscript.noteCommand x.2 x'.2

theorem addEmission {e e' : Emission} (he : e.Alike N e') :
    Parallel (Halt.Alike N N earlier) (Building.Alike N earlier) (b.addEmission schema e)
      (b'.addEmission schema e') := by
  obtain ⟨o, ho, rfl⟩ := he
  refine (h.add hclosed schema (some e.call) none e.fields ho).mapError fun x x' hx => ?_
  dsimp only
  rw [ho.file, ho.text]
  exact hx.locate ho.line _ _

theorem closeDomain : Parallel (Halt.Alike N N earlier) (Building.Alike N earlier) (b.closeDomain schema)
    (b'.closeDomain schema) := by
  obtain ⟨hanalyzer, hemissions⟩ := h.analyzer.finalize
  rw [closeDomain_eq, closeDomain_eq, h.analyzer.active]
  refine (h.attempt (h.script.close hclosed)).bind fun _ _ _ => ?_
  split
  next =>
      refine (h.attempt hemissions).bind fun es es' hes => ?_
      have hstart : Building.Alike N earlier { b with analyzer := b.analyzer.finalize.1 }
          { b' with analyzer := b'.analyzer.finalize.1 } := { h with analyzer := hanalyzer }
      have hstep (c c' : Building) (e e' : Emission) (hc : c.Alike N earlier c') (he : e.Alike N e') :=
        hc.addEmission hclosed schema he
      refine (Parallel.foldlM hes hstep hstart).bind fun c c' hc => .ok ?_
      rw [hanalyzer.domain]
      exact hc.noteDomain ..
  next => exact .ok h

theorem assemble (f : Form) (params : List Field) (ho : o.Alike N o') :
    Parallel (Halt.Alike N (Near N) earlier) (Building.Alike N earlier) (b.assemble schema f params o)
      (b'.assemble schema f params o') := by
  have hadd := h.add hclosed schema f.call (some b.scope) params ho
  have hany (name : Text) : b'.out.script.lastOpen.any (·.call.name = name) =
      b.out.script.lastOpen.any (·.call.name = name) := by
    rcases rel_cases (h.script.lastOpen hclosed) with ⟨hnone, hnone'⟩ | ⟨tail, _, hsome, hsome', o, -, rfl⟩
    · rw [hnone, hnone']
    · rw [hsome, hsome']
      rfl
  rw [Building.assemble, Building.assemble, h.scope]
  cases f.target with
  | none => exact .ok h
  | some target =>
      cases f.continues with
      | none => exact hadd
      | some extended =>
          dsimp only
          rw [hany]
          split
          next => exact hadd
          next =>
              exact .error ⟨.some (Fault.Unplaced.alike ⟨rfl, by simp +decide [Fault.plain]⟩), h.script⟩

theorem header (hN : KeepsPlace N) (l l' : Line) (word : Text) :
    Parallel (Halt.Alike N (Near N) earlier) (Building.Alike N earlier) (b.header schema l word)
      (b'.header schema l' word) := by
  rw [header_eq, header_eq, h.walker]
  refine (h.attempt_mapped WalkError.fault_unplaced).bind ?_
  rintro ⟨home, walker⟩ _ rfl
  have hentered : Building.Alike N earlier { b with walker } { b' with walker } := { h with walker := rfl }
  refine Parallel.bind (R := Building.Alike N earlier) ?_ fun c c' hc => .ok { hc with }
  split
  next => exact (hentered.closeDomain hclosed schema).mono fun _ _ he => he.near hN
  next => exact .ok hentered

theorem statement {l l' : Line} (hl : l.Alike N l') :
    Parallel (Halt.Alike N (Near N) earlier) (Building.Alike N earlier) (b.statement schema l)
      (b'.statement schema l') := by
  obtain ⟨hnumber, htrimmed⟩ := hl
  rw [statement_eq, statement_eq, h.walker, htrimmed, h.scope, h.file]
  -- step by step both builds read the same; only the origins of their statements differ
  refine (h.attempt_mapped WalkError.fault_unplaced).bind ?_
  rintro ⟨home, walker⟩ _ rfl
  refine (h.attempt_mapped MatchError.fault_unplaced).bind ?_
  rintro m _ rfl
  refine (h.attempt_same fun f hf => transformed_unplaced hf).bind ?_
  rintro cs _ rfl
  refine (h.attempt_mapped ExtractError.fault_unplaced).bind ?_
  rintro x _ rfl
  refine (h.attempt_mapped UnknownScope.fault_unplaced).bind ?_
  rintro scope _ rfl
  have horigin : Origin.Alike N ⟨b.file, l.number, l.trimmed⟩ ⟨b.file, l'.number, l.trimmed⟩ := ⟨rfl, hnumber, rfl⟩
  have hstatement : Statement.Alike N ⟨some m.form.kind, x.fields, scope, ⟨b.file, l.number, l.trimmed⟩⟩
      ⟨some m.form.kind, x.fields, scope, ⟨b.file, l'.number, l.trimmed⟩⟩ := ⟨_, horigin, rfl⟩
  have hhandle := h.analyzer.handle hstatement
  generalize b.analyzer.handle _ = r, b'.analyzer.handle _ = r' at hhandle
  obtain ⟨analyzer, e⟩ := r
  obtain ⟨analyzer', e'⟩ := r'
  obtain ⟨hanalyzer, herror⟩ := hhandle
  cases herror with
  | some he => exact .error ⟨he.fault?, h.script⟩
  | none =>
      have hstated : Building.Alike N earlier { b with walker, scope, analyzer }
          { b' with file := b.file, walker, scope, analyzer := analyzer' } :=
        { h with file := rfl, walker := rfl, scope := rfl, analyzer := hanalyzer }
      exact hstated.assemble hclosed schema m.form x.params horigin

variable (hN : KeepsPlace N)
include hN

theorem line {l l' : Line} (hl : l.Alike N l') :
    Parallel (Halt.Alike N N earlier) (Building.Alike N earlier) (b.line schema l) (b'.line schema l') := by
  rw [Building.line, Building.line, h.file, hl.2]
  refine Parallel.mapError (E := Halt.Alike N (Near N) earlier) ?_ fun _ _ he => he.locate hl.1 _ _
  cases Section.header? l.trimmed with
  | some word => exact h.header hclosed schema hN l l' word
  | none => exact h.statement hclosed schema hl

theorem run {ls ls' : List Line} (hls : List.Forall₂ (Line.Alike N) ls ls') :
    Parallel (Halt.Alike N N earlier) (Building.Alike N earlier) (b.run schema ls) (b'.run schema ls') := by
  have hstep (c c' : Building) (l l' : Line) (hc : c.Alike N earlier c') (hl : l.Alike N l') :=
    hc.line hclosed schema hN hl
  exact (Parallel.foldlM hls hstep h).bind fun c c' hc => hc.closeDomain hclosed schema

end Building.Alike

section

variable (hclosed : Script.lastOpen ⟨earlier⟩ = none) (schema : Schema) (hN : KeepsPlace N)
  {out out' : Output} (hout : out.script.Behind N earlier out'.script)
include hclosed hN hout

theorem Output.addFile_parallel {f f' : SourceFile} (hf : f.Alike N f') :
    Parallel (Halt.Alike N N earlier) (fun out out' => out.script.Behind N earlier out'.script)
      (addFile schema out f) (addFile schema out' f') := by
  have hstart : Building.Alike N earlier (.start f.name out) (.start f'.name out') :=
    ⟨hf.name, rfl, rfl, Analyzer.alike_idle, hout⟩
  exact (hstart.run hclosed schema hN hf.lines).map fun _ _ hb => hb.script

theorem Compiled.ofBuild_parallel {fs fs' : List SourceFile} (hfs : List.Forall₂ (SourceFile.Alike N) fs fs') :
    (ofBuild (fs.foldlM (Output.addFile schema) out)).Alike N earlier
      (ofBuild (fs'.foldlM (Output.addFile schema) out')) := by
  have hbuilt := Parallel.foldlM hfs (fun _ _ _ _ hout hf => Output.addFile_parallel hclosed schema hN hout hf) hout
  generalize fs.foldlM (Output.addFile schema) out = r, fs'.foldlM (Output.addFile schema) out' = r' at hbuilt
  cases hbuilt with
  | ok hout => exact ⟨hout, .complete⟩
  | @error h h' hh =>
      refine ⟨hh.script, ?_⟩
      rw [ofBuild, ofBuild, ofHalt, ofHalt]
      rcases rel_cases hh.fault with ⟨hnone, hnone'⟩ | ⟨f, f', hsome, hsome', hf⟩
      · rw [hnone, hnone']
        exact .abandoned
      · rw [hsome, hsome']
        exact .faulty hf

end

end Population

import Population.Proofs.Compile.Lines
import Population.Proofs.Splitting

/-!
A build is a walk from stop to stop: a file is opened, its lines are built and its last domain is closed. The script is
looked at after every stop, also after one at which the build has halted, and so each command has a stop that began it.
-/
namespace Population

open Schema Extraction Statement

/-- Where a build does something. -/
inductive Stop
  | opening (f : SourceFile)
  | line (l : Line)
  | ending

def SourceFile.stops (f : SourceFile) : List Stop :=
  .opening f :: (f.lines.map .line ++ [.ending])

/-- The stops of files, in the order in which they are built. -/
def stops (fs : List SourceFile) : List Stop :=
  fs.flatMap (·.stops)

/-- The stops of files up to a line of the next one. -/
def stopsBefore (fs : List SourceFile) (f : SourceFile) (ls : List Line) : List Stop :=
  stops fs ++ .opening f :: ls.map .line

/-- A stop that comes after some lines of a file. -/
def Stop.Follows (f : SourceFile) (ls : List Line) : Stop → Prop
  | .opening _ => False
  | .line l => ∃ rest, f.lines = ls ++ l :: rest
  | .ending => f.lines = ls

theorem SourceFile.stops_split {f : SourceFile} {before after : List Stop} {p : Stop}
    (h : f.stops = before ++ p :: after) :
    (before = [] ∧ p = .opening f) ∨ ∃ ls, before = .opening f :: ls.map .line ∧ p.Follows f ls := by
  cases before with
  | nil =>
      cases h
      exact .inl ⟨rfl, rfl⟩
  | cons q before =>
      obtain ⟨rfl, hrest⟩ := List.cons_eq_cons.mp h
      refine .inr ?_
      rcases append_eq_append_cons hrest with ⟨own, hlines⟩ | ⟨later, rfl, hend⟩
      · obtain ⟨ls, tail, hls, rfl, htail⟩ := List.map_eq_append_iff.mp hlines
        obtain ⟨l, tail, rfl, rfl, -⟩ := List.map_eq_cons_iff.mp htail
        exact ⟨ls, rfl, tail, hls⟩
      · cases later with
        | nil =>
            cases hend
            exact ⟨f.lines, by rw [List.append_nil], rfl⟩
        | cons q later => cases later <;> cases hend

theorem stops_cons (f : SourceFile) (fs : List SourceFile) : stops (f :: fs) = f.stops ++ stops fs :=
  List.flatMap_cons

/-- Every stop is the opening of a file or comes after some of its lines. -/
theorem stops_split {fs : List SourceFile} {before after : List Stop} {p : Stop} (h : stops fs = before ++ p :: after) :
    ∃ done f rest, fs = done ++ f :: rest ∧
      ((before = stops done ∧ p = .opening f) ∨ ∃ ls, before = stopsBefore done f ls ∧ p.Follows f ls) := by
  induction fs generalizing before with
  | nil => cases before <;> cases h
  | cons f fs ih =>
      rw [stops_cons] at h
      rcases append_eq_append_cons h with ⟨own, hown⟩ | ⟨later, rfl, hlater⟩
      · refine ⟨[], f, fs, rfl, ?_⟩
        rcases SourceFile.stops_split hown with hopening | ⟨ls, rfl, hp⟩
        · exact .inl hopening
        · exact .inr ⟨ls, rfl, hp⟩
      · obtain ⟨done, g, rest, rfl, ⟨rfl, rfl⟩ | ⟨ls, rfl, hp⟩⟩ := ih hlater
        · exact ⟨f :: done, g, rest, rfl, .inl ⟨(stops_cons f done).symm, rfl⟩⟩
        · refine ⟨f :: done, g, rest, rfl, .inr ⟨ls, ?_, hp⟩⟩
          rw [stopsBefore, stopsBefore, stops_cons, List.append_assoc]

theorem Stop.Follows.stops {f : SourceFile} {ls : List Line} {p : Stop} (h : p.Follows f ls)
    (before after : List SourceFile) :
    ∃ rest, Population.stops (before ++ f :: after) = stopsBefore before f ls ++ p :: rest := by
  have hsplit : ∃ rest, f.stops = .opening f :: ls.map .line ++ p :: rest := by
    cases p with
    | opening g => cases h
    | line l =>
        obtain ⟨rest, hlines⟩ := h
        exact ⟨rest.map .line ++ [.ending], by simp [SourceFile.stops, hlines]⟩
    | ending => exact ⟨[], by rw [SourceFile.stops, show f.lines = ls from h]; rfl⟩
  obtain ⟨rest, hrest⟩ := hsplit
  refine ⟨rest ++ Population.stops after, ?_⟩
  rw [Population.stops, List.flatMap_append, List.flatMap_cons, hrest]
  simp [stopsBefore, Population.stops]

namespace Building

/-- Builds what stands at a stop. -/
def visit (s : Schema) (b : Building) : Stop → Except Halt Building
  | .opening f => .ok (.start f.name b.out)
  | .line l => b.line s l
  | .ending => b.closeDomain s

/-- The script of a build, also if it has halted. -/
def reached : Except Halt Building → Script
  | .ok b => b.out.script
  | .error h => h.out.script

/-- The build after some stops. -/
def travel (s : Schema) (ps : List Stop) : Except Halt Building :=
  ps.foldlM (visit s) (.start [] .empty)

end Building

open Building

/-- The script after some stops. -/
def written (s : Schema) (ps : List Stop) : Script :=
  reached (travel s ps)

theorem foldlM_opening (s : Schema) (f : SourceFile) (ls : List Line) (b : Building) :
    (Stop.opening f :: ls.map .line).foldlM (visit s) b = ls.foldlM (line s) (.start f.name b.out) := by
  rw [List.foldlM_cons]
  change (ls.map Stop.line).foldlM (visit s) (.start f.name b.out) = _
  rw [List.foldlM_map]
  rfl

theorem foldlM_stops (s : Schema) (f : SourceFile) (b : Building) :
    f.stops.foldlM (visit s) b = run s (.start f.name b.out) f.lines := by
  rw [SourceFile.stops, ← List.cons_append, List.foldlM_append, foldlM_opening]
  simp only [List.foldlM_cons, List.foldlM_nil, bind_pure]
  rfl

theorem travel_stops (s : Schema) (fs : List SourceFile) :
    (travel s (stops fs)).map (·.out) = Output.ofFiles s fs := by
  suffices h : ∀ b : Building, ((stops fs).foldlM (visit s) b).map (·.out) = fs.foldlM (Output.addFile s) b.out from h _
  induction fs with
  | nil => exact fun _ => rfl
  | cons f fs ih =>
      intro b
      rw [stops_cons, List.foldlM_append, foldlM_stops, List.foldlM_cons, Output.addFile]
      cases run s (.start f.name b.out) f.lines with
      | error h => rfl
      | ok b' => exact ih b'

theorem written_stops (s : Schema) (fs : List SourceFile) : written s (stops fs) = (Compiled.build s fs).script := by
  rw [Compiled.build, ← travel_stops, written]
  cases travel s (stops fs) <;> rfl

theorem travel_append (s : Schema) (ps qs : List Stop) :
    travel s (ps ++ qs) = travel s ps >>= fun b => qs.foldlM (visit s) b :=
  List.foldlM_append

/-- A stop builds on what the stops before it have built, unless the build has halted there. -/
theorem written_snoc (s : Schema) (ps : List Stop) (p : Stop) :
    (∃ b, travel s ps = .ok b ∧ written s ps = b.out.script ∧ written s (ps ++ [p]) = reached (b.visit s p)) ∨
      written s (ps ++ [p]) = written s ps := by
  rw [written, written, travel_append]
  cases travel s ps with
  | error h => exact .inr rfl
  | ok b =>
      refine .inl ⟨b, rfl, rfl, ?_⟩
      change reached ([p].foldlM (visit s) b) = _
      rw [List.foldlM_cons]
      exact congrArg reached (bind_pure _)

/-- What holds between the scripts before and after every stop holds between those before and after several. -/
theorem written_related {s : Schema} {R : Script → Script → Prop} (hrefl : ∀ script, R script script)
    (htrans : ∀ script₁ script₂ script₃, R script₁ script₂ → R script₂ script₃ → R script₁ script₃)
    (hstep : ∀ b p, R b.out.script (reached (Building.visit s b p))) (ps qs : List Stop) :
    R (written s ps) (written s (ps ++ qs)) := by
  induction qs generalizing ps with
  | nil =>
      rw [List.append_nil]
      exact hrefl _
  | cons q qs ih =>
      have hq : R (written s ps) (written s (ps ++ [q])) := by
        rcases written_snoc s ps q with ⟨b, -, hb, hq⟩ | hq
        · rw [hb, hq]
          exact hstep b q
        · rw [hq]
          exact hrefl _
      rw [List.append_cons]
      exact htrans _ _ _ hq (ih _)

/-- A command is there after a stop and was not there before. -/
structure BegunAt (s : Schema) (n : Nat) (before : List Stop) (p : Stop) : Prop where
  absent : (written s before).commands.length ≤ n
  present : n < (written s (before ++ [p])).commands.length

theorem BegunAt.travel {s : Schema} {n : Nat} {before : List Stop} {p : Stop} (h : BegunAt s n before p) :
    ∃ b, Building.travel s before = .ok b ∧ written s before = b.out.script ∧
      written s (before ++ [p]) = reached (b.visit s p) := by
  rcases written_snoc s before p with htravel | hsame
  · exact htravel
  · have hlt := h.present
    rw [hsame] at hlt
    exact absurd hlt (Nat.not_lt.mpr h.absent)

theorem exists_begunAt {s : Schema} {ps : List Stop} {n : Nat} (h : n < (written s ps).commands.length) :
    ∃ before p after, ps = before ++ p :: after ∧ BegunAt s n before p := by
  induction ps using List.reverseRecOn with
  | nil => cases h
  | append_singleton ps p ih =>
      by_cases hn : n < (written s ps).commands.length
      · obtain ⟨before, q, after, rfl, hq⟩ := ih hn
        exact ⟨before, q, after ++ [p], by simp, hq⟩
      · exact ⟨ps, p, [], rfl, Nat.le_of_not_lt hn, h⟩

namespace Building

variable {s : Schema} {b b' : Building} {h : Halt}

theorem add_error_out {call : Option Text} {scope : Option Scope} {fields : List Field} {o : Origin}
    (he : b.add s call scope fields o = .error h) : h.out = b.out := by
  obtain ⟨e, -, rfl⟩ := add_error he
  rfl

theorem addEmission_error_out {e : Emission} (he : b.addEmission s e = .error h) : h.out = b.out := by
  obtain ⟨h', he', rfl⟩ := mapError_error_iff.mp he
  have hout := add_error_out he'
  exact hout

theorem assemble_error_out {f : Form} {params : List Field} {o : Origin} (he : b.assemble s f params o = .error h) :
    h.out = b.out := by
  obtain ⟨message, rfl⟩ := assemble_halts he
  rfl

theorem statement_error_out {l : Line} (he : b.statement s l = .error h) : h.out = b.out := by
  cases statement_fails he with
  | misplaced | unmatched | untransformed | untyped | unscoped | faulty => rfl
  | refused hrefused =>
      have hout := assemble_error_out hrefused
      exact hout

theorem reached_locate (r : Except Halt Building) (file : Text) (line : Int) (text : Text) :
    reached (r.mapError (·.locate file line text)) = reached r := by
  cases r <;> rfl

theorem reached_bind_pure {g : Building → Building} (hg : ∀ c, (g c).out.script = c.out.script)
    (r : Except Halt Building) : reached (r >>= fun c => pure (g c)) = reached r := by
  cases r with
  | error h => rfl
  | ok c => exact hg c

/-- A command that is derived from a domain carries its name. -/
def DerivedFrom (domain : Text) (c : Command) : Prop :=
  c.call.name ∈ derivedCalls ∧ c.value? "domain" = some (.text domain)

/-- What a stop does to the script of a build under the default schema, whether the build halts there or not. -/
inductive Moved (b : Building) : Stop → Script → Prop
  | same (p : Stop) : Moved b p b.out.script
  | placed {l : Line} {home : Section} {m : Matched} {x : Extraction} {scope : Scope} {script : Script}
      (hword : Section.header? l.trimmed = none) (hhome : b.walker.current = some home)
      (hread : Read home.name l.trimmed m x) (hscope : x.applyScope b.scope = .ok scope)
      (hplaced : Placed standard m.form x.params scope b.out.script script) : Moved b (.line l) script
  | derived {p : Stop} {cs : List Command}
      (hstop : p = .ending ∨ ∃ l word, p = .line l ∧ Section.header? l.trimmed = some word)
      (hactive : b.analyzer.active = true) (hcs : ∀ c ∈ cs, DerivedFrom b.analyzer.domain c) :
      Moved b p ⟨b.out.script.commands ++ cs⟩

/-- Emissions add their commands up to the first that is refused. -/
theorem addEmissions_reached {es : List Emission} (he : ∀ e ∈ es, e.Full) (hopen : b.out.script.lastOpen = none) :
    ∃ cs, (∀ c ∈ cs, ∃ e ∈ es, Emitted e c) ∧
      reached (es.foldlM (addEmission standard) b) = ⟨b.out.script.commands ++ cs⟩ := by
  cases hfold : es.foldlM (addEmission standard) b with
  | ok b' =>
      obtain ⟨cs, hcs, hext, -⟩ := addEmissions_emitted he hopen hfold
      exact ⟨cs, fun c hc => partner_of_right hcs hc, congrArg Script.mk hext.commands⟩
  | error h =>
      obtain ⟨before, e, after, c, rfl, hbefore, herror⟩ := foldlM_error hfold
      obtain ⟨cs, hcs, hext, -⟩ := addEmissions_emitted (List.forall_mem_append.mp he).1 hopen hbefore
      refine ⟨cs, fun d hd => ?_, ?_⟩
      · obtain ⟨e', he', hemitted⟩ := partner_of_right hcs hd
        exact ⟨e', List.mem_append_left _ he', hemitted⟩
      · rw [reached, addEmission_error_out herror]
        exact congrArg Script.mk hext.commands

/-- The end of a domain adds derived commands, or some of them if it halts. -/
theorem closeDomain_moved {p : Stop}
    (hstop : p = .ending ∨ ∃ l word, p = .line l ∧ Section.header? l.trimmed = some word) (b : Building)
    (walker : Walker) : Moved b p (reached (closeDomain standard { b with walker })) := by
  rw [closeDomain_eq]
  cases hclose : b.out.script.close with
  | error f => exact .same p
  | ok u =>
      have hopen : b.out.script.lastOpen = none := Script.close_ok_iff.mp hclose
      cases hactive : b.analyzer.active with
      | false => exact .same p
      | true =>
          cases hes : b.analyzer.finalize.2 with
          | error f => exact .same p
          | ok es =>
              obtain ⟨-, rels, rfl, hrels⟩ := Analyzer.finalize_ok hactive hes
              have hderived {e : Emission} := Analyzer.emission_derived (e := e) hrels
              obtain ⟨cs, hcs, hreached⟩ := addEmissions_reached
                (b := { b with walker, analyzer := b.analyzer.finalize.1 }) (fun e he => (hderived he).1) hopen
              have hnote (c : Building) (domain : Text) (n : Nat) : (c.noteDomain domain n).out.script = c.out.script := by
                obtain ⟨log, hlog⟩ := noteDomain_cases c domain n
                rw [hlog]
              change Moved b p (reached (_ >>= fun c : Building => pure (c.noteDomain _ _)))
              rw [reached_bind_pure fun c => hnote c _ _, hreached]
              refine .derived hstop hactive fun c hc => ?_
              obtain ⟨e, he, hemitted⟩ := hcs c hc
              obtain ⟨-, hcall, hdomain⟩ := hderived he
              exact ⟨hemitted.call ▸ hcall, (hemitted.value _).trans hdomain⟩

theorem header_moved {l : Line} {word : Text} (hword : Section.header? l.trimmed = some word) (b : Building) :
    Moved b (.line l) (reached (b.header standard l word)) := by
  rw [header_eq]
  cases b.walker.enter word with
  | error e => exact .same _
  | ok moved =>
      change Moved b (.line l) (reached (_ >>= fun c : Building => pure (c.note _ _ _)))
      rw [reached_bind_pure fun _ => note_script _ _ _ _]
      split
      next => exact closeDomain_moved (.inr ⟨l, word, rfl, hword⟩) b moved.2
      next => exact .same _

theorem statement_moved {l : Line} (hword : Section.header? l.trimmed = none) (b : Building) :
    Moved b (.line l) (reached (b.statement standard l)) := by
  cases hb : b.statement standard l with
  | error h =>
      rw [reached, statement_error_out hb]
      exact .same _
  | ok b' =>
      obtain ⟨home, walker, m, cs, x, scope, analyzer, hw, hm, hcs, hx, hscope, -, hasm⟩ := statement_ok hb
      exact .placed hword (Walker.statement_ok hw).1 (read_of_captures hm hcs hx) hscope (assemble_placed hasm).1

theorem visit_moved (b : Building) (p : Stop) : Moved b p (reached (b.visit standard p)) := by
  cases p with
  | opening f => exact .same _
  | ending => exact closeDomain_moved (.inl rfl) b b.walker
  | line l =>
      rw [visit, line, reached_locate]
      split
      next word hword => exact header_moved hword b
      next hword => exact statement_moved hword b

end Building

end Population

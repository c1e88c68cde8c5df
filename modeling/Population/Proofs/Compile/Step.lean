import Population.Compile.Build
import Population.Proofs.Grammar.Section
import Population.Proofs.Outcome

namespace Population

namespace Walker

variable {w w' : Walker} {home : Section}

theorem enter_ok {word : Text} (h : w.enter word = .ok (home, w')) :
    Section.ofName? word = some home ∧ w' = ⟨some home, 0⟩ := by
  rw [enter] at h
  split at h
  next next hstep =>
      cases h
      exact ⟨Section.step_ofName? hstep, rfl⟩
  next => cases h

theorem statement_ok (h : w.statement = .ok (home, w')) : w.current = some home ∧ w'.current = some home ∧
    w'.statements = w.statements + 1 ∧ (home.singular = true → w.statements = 0) := by
  rw [statement] at h
  split at h
  next => cases h
  next hcurrent =>
      split at h
      next => cases h
      next hsingle =>
          cases h
          refine ⟨hcurrent, hcurrent, rfl, fun hs => ?_⟩
          simpa [hs] using hsingle

end Walker

namespace Building

variable {s : Schema} {b b' : Building}

@[simp] theorem attempt_ok_iff {α : Type} {r : Except Fault α} {x : α} :
    b.attempt r = .ok x ↔ r = .ok x :=
  mapError_ok_iff

@[simp] theorem attempt_error_iff {α : Type} {r : Except Fault α} {h : Halt} :
    b.attempt r = .error h ↔ ∃ f, r = .error f ∧ b.halt f = h :=
  mapError_error_iff

theorem closeDomain_eq (s : Schema) (b : Building) :
    b.closeDomain s = b.attempt b.out.script.close >>= fun _ =>
      if b.analyzer.active then
        b.attempt b.analyzer.finalize.2 >>= fun emissions =>
          emissions.foldlM (addEmission s) { b with analyzer := b.analyzer.finalize.1 } >>= fun c =>
            pure (c.noteDomain b.analyzer.finalize.1.domain emissions.length)
      else pure b := by
  rw [closeDomain]
  cases b.analyzer.active <;> rfl

theorem header_eq (s : Schema) (b : Building) (l : Line) (word : Text) :
    b.header s l word = b.attempt ((b.walker.enter word).mapError (·.fault)) >>= fun moved =>
      (if closesDomain moved.1 then closeDomain s { b with walker := moved.2 }
        else pure { b with walker := moved.2 }) >>= fun c =>
          pure (c.note .debug "Entering section." [("section", .text moved.1.name), ("line", .int l.number)]) := by
  rw [header]
  cases b.walker.enter word with
  | error e => rfl
  | ok moved =>
      obtain ⟨home, walker⟩ := moved
      have hmoved : b.attempt ((Except.ok (home, walker)).mapError (fun e : WalkError => e.fault)) =
          .ok (home, walker) := rfl
      cases h : closesDomain home <;> simp [hmoved, h, bind, Except.bind]

theorem statement_eq (s : Schema) (b : Building) (l : Line) :
    b.statement s l = b.attempt (b.walker.statement.mapError (·.fault)) >>= fun moved =>
      b.attempt ((Statement.matchLine moved.1.name l.trimmed).mapError (·.fault)) >>= fun m =>
      b.attempt (transformed m) >>= fun cs =>
      b.attempt ((Extraction.ofCaptures s m.form cs).mapError (·.fault)) >>= fun x =>
      b.attempt ((x.applyScope b.scope).mapError (·.fault)) >>= fun scope =>
      match b.analyzer.handle ⟨some m.form.kind, x.fields, scope, ⟨b.file, l.number, l.trimmed⟩⟩ with
      | (_, some e) => throw ⟨e.fault?, b.out⟩
      | (analyzer, none) => ({ b with walker := moved.2, scope, analyzer } : Building).assemble s m.form x.params
          ⟨b.file, l.number, l.trimmed⟩ :=
  rfl

@[simp] theorem note_script (b : Building) (level : LogLevel) (message : Text) (attrs : List (Text × LogValue)) :
    (b.note level message attrs).out.script = b.out.script :=
  rfl

theorem noteCommand_cases (b : Building) (c : Command) :
    ∃ log, b.noteCommand c = { b with out := { b.out with log } } := by
  rw [noteCommand]
  split
  next => exact ⟨_, rfl⟩
  next => exact ⟨b.out.log, rfl⟩

theorem noteDomain_cases (b : Building) (domain : Text) (n : Nat) :
    ∃ log, b.noteDomain domain n = { b with out := { b.out with log } } := by
  simp only [noteDomain]
  split <;> exact ⟨_, rfl⟩

/-- A domain that is closed has no open command; if it was active its emissions are added. -/
theorem closeDomain_ok (h : b.closeDomain s = .ok b') :
    b.out.script.close = .ok () ∧
      ((b.analyzer.active = false ∧ b' = b) ∨
        (b.analyzer.active = true ∧ ∃ emissions c log, b.analyzer.finalize.2 = .ok emissions ∧
          emissions.foldlM (addEmission s) { b with analyzer := b.analyzer.finalize.1 } = .ok c ∧
          b' = { c with out := { c.out with log } })) := by
  rw [closeDomain_eq] at h
  obtain ⟨⟨⟩, hclose, h⟩ := bind_ok_iff.mp h
  refine ⟨attempt_ok_iff.mp hclose, ?_⟩
  split at h
  next hactive =>
    obtain ⟨emissions, he, h⟩ := bind_ok_iff.mp h
    obtain ⟨c, hc, h⟩ := bind_ok_iff.mp h
    obtain ⟨log, hlog⟩ := noteDomain_cases c b.analyzer.finalize.1.domain emissions.length
    exact .inr ⟨hactive, emissions, c, log, attempt_ok_iff.mp he, hc, (pure_ok_iff.mp h).symm.trans hlog⟩
  next hactive => exact .inl ⟨by simpa using hactive, (pure_ok_iff.mp h).symm⟩

theorem header_ok {l : Line} {word : Text} (h : b.header s l word = .ok b') :
    ∃ home walker c, b.walker.enter word = .ok (home, walker) ∧
      ((closesDomain home = true ∧ closeDomain s { b with walker } = .ok c) ∨
        (closesDomain home = false ∧ c = { b with walker })) ∧
      b' = c.note .debug "Entering section." [("section", .text home.name), ("line", .int l.number)] := by
  rw [header_eq] at h
  obtain ⟨⟨home, walker⟩, hw, h⟩ := bind_ok_iff.mp h
  obtain ⟨c, hc, h⟩ := bind_ok_iff.mp h
  refine ⟨home, walker, c, mapError_ok_iff.mp (attempt_ok_iff.mp hw), ?_, (pure_ok_iff.mp h).symm⟩
  split at hc
  next hclose => exact .inl ⟨hclose, hc⟩
  next hopen => exact .inr ⟨by simpa using hopen, (pure_ok_iff.mp hc).symm⟩

/-- Why the end of a domain is not built: a command is open, the domain is at fault, or one of the commands that are
derived from it is refused. -/
inductive ClosingFails (s : Schema) (b : Building) : Halt → Prop
  | waiting {g : Fault} (hclose : b.out.script.close = .error g) : ClosingFails s b (b.halt g)
  | faulty {g : Fault} (hfinal : b.analyzer.finalize.2 = .error g) : ClosingFails s b (b.halt g)
  | refused {es : List Emission} {h : Halt} (hclose : b.out.script.close = .ok ()) (hactive : b.analyzer.active = true)
      (hes : b.analyzer.finalize.2 = .ok es)
      (he : es.foldlM (addEmission s) { b with analyzer := b.analyzer.finalize.1 } = .error h) : ClosingFails s b h

theorem closeDomain_fails {h : Halt} (he : b.closeDomain s = .error h) : ClosingFails s b h := by
  rw [closeDomain_eq] at he
  rcases bind_error_iff.mp he with he | ⟨⟨⟩, hclose, he⟩
  · obtain ⟨g, hg, rfl⟩ := attempt_error_iff.mp he
    exact .waiting hg
  split at he
  next hactive =>
      rcases bind_error_iff.mp he with he | ⟨es, hes, he⟩
      · obtain ⟨g, hg, rfl⟩ := attempt_error_iff.mp he
        exact .faulty hg
      rcases bind_error_iff.mp he with he | ⟨_, -, he⟩
      · exact .refused (attempt_ok_iff.mp hclose) hactive (attempt_ok_iff.mp hes) he
      · exact absurd he pure_ne_error
  next => exact absurd he pure_ne_error

theorem header_fails {l : Line} {word : Text} {h : Halt} (he : b.header s l word = .error h) :
    (∃ e, b.walker.enter word = .error e ∧ h = b.halt e.fault) ∨
      ∃ walker, closeDomain s { b with walker } = .error h := by
  rw [header_eq] at he
  rcases bind_error_iff.mp he with he | ⟨⟨home, walker⟩, -, he⟩
  · obtain ⟨g, hg, rfl⟩ := attempt_error_iff.mp he
    obtain ⟨e, hw, rfl⟩ := mapError_error_iff.mp hg
    exact .inl ⟨e, hw, rfl⟩
  rcases bind_error_iff.mp he with he | ⟨_, -, he⟩
  · split at he
    next => exact .inr ⟨walker, he⟩
    next => exact absurd he pure_ne_error
  · exact absurd he pure_ne_error

theorem statement_ok {l : Line} (h : b.statement s l = .ok b') :
    ∃ home walker m cs x scope analyzer, b.walker.statement = .ok (home, walker) ∧
      Statement.matchLine home.name l.trimmed = .ok m ∧ transformed m = .ok cs ∧
      Extraction.ofCaptures s m.form cs = .ok x ∧ x.applyScope b.scope = .ok scope ∧
      b.analyzer.handle ⟨some m.form.kind, x.fields, scope, ⟨b.file, l.number, l.trimmed⟩⟩ = (analyzer, none) ∧
      ({ b with walker, scope, analyzer } : Building).assemble s m.form x.params
        ⟨b.file, l.number, l.trimmed⟩ = .ok b' := by
  rw [statement_eq] at h
  obtain ⟨⟨home, walker⟩, hw, h⟩ := bind_ok_iff.mp h
  obtain ⟨m, hm, h⟩ := bind_ok_iff.mp h
  obtain ⟨cs, hcs, h⟩ := bind_ok_iff.mp h
  obtain ⟨x, hx, h⟩ := bind_ok_iff.mp h
  obtain ⟨scope, hscope, h⟩ := bind_ok_iff.mp h
  split at h
  next => exact absurd h throw_ne_ok
  next analyzer ha =>
    exact ⟨home, walker, m, cs, x, scope, analyzer, mapError_ok_iff.mp (attempt_ok_iff.mp hw),
      mapError_ok_iff.mp (attempt_ok_iff.mp hm), attempt_ok_iff.mp hcs, mapError_ok_iff.mp (attempt_ok_iff.mp hx),
      mapError_ok_iff.mp (attempt_ok_iff.mp hscope), ha, h⟩

/-- Why a statement is not built: the first of its steps that fails, after those that have not. -/
inductive StatementFails (s : Schema) (b : Building) (l : Line) : Halt → Prop
  | misplaced {e : WalkError} (hw : b.walker.statement = .error e) : StatementFails s b l (b.halt e.fault)
  | unmatched {home : Section} {walker : Walker} {e : MatchError}
      (hw : b.walker.statement = .ok (home, walker)) (hm : Statement.matchLine home.name l.trimmed = .error e) :
      StatementFails s b l (b.halt e.fault)
  | untransformed {home : Section} {m : Matched} {g : Fault}
      (hm : Statement.matchLine home.name l.trimmed = .ok m) (hcs : transformed m = .error g) :
      StatementFails s b l (b.halt g)
  | untyped {m : Matched} {cs : List Capture} {e : ExtractError}
      (hx : Extraction.ofCaptures s m.form cs = .error e) : StatementFails s b l (b.halt e.fault)
  | unscoped {x : Extraction} {e : UnknownScope} (hscope : x.applyScope b.scope = .error e) :
      StatementFails s b l (b.halt e.fault)
  | faulty {home : Section} {walker : Walker} {m : Matched} {cs : List Capture} {x : Extraction}
      {scope : Scope} {e : AnalysisError} (hw : b.walker.statement = .ok (home, walker))
      (hm : Statement.matchLine home.name l.trimmed = .ok m) (hcs : transformed m = .ok cs)
      (hx : Extraction.ofCaptures s m.form cs = .ok x)
      (ha : (b.analyzer.handle ⟨some m.form.kind, x.fields, scope, ⟨b.file, l.number, l.trimmed⟩⟩).2 = some e) :
      StatementFails s b l ⟨e.fault?, b.out⟩
  | refused {walker : Walker} {scope : Scope} {analyzer : Analyzer} {f : Form} {params : List Field} {h : Halt}
      (he : ({ b with walker, scope, analyzer } : Building).assemble s f params ⟨b.file, l.number, l.trimmed⟩ =
        .error h) : StatementFails s b l h

theorem statement_fails {l : Line} {h : Halt} (he : b.statement s l = .error h) : StatementFails s b l h := by
  rw [statement_eq] at he
  rcases bind_error_iff.mp he with he | ⟨⟨home, walker⟩, hw, he⟩
  · obtain ⟨g, hg, rfl⟩ := attempt_error_iff.mp he
    obtain ⟨e, hw, rfl⟩ := mapError_error_iff.mp hg
    exact .misplaced hw
  have hw := mapError_ok_iff.mp (attempt_ok_iff.mp hw)
  rcases bind_error_iff.mp he with he | ⟨m, hm, he⟩
  · obtain ⟨g, hg, rfl⟩ := attempt_error_iff.mp he
    obtain ⟨e, hm, rfl⟩ := mapError_error_iff.mp hg
    exact .unmatched hw hm
  have hm := mapError_ok_iff.mp (attempt_ok_iff.mp hm)
  rcases bind_error_iff.mp he with he | ⟨cs, hcs, he⟩
  · obtain ⟨g, hcs, rfl⟩ := attempt_error_iff.mp he
    exact .untransformed hm hcs
  rcases bind_error_iff.mp he with he | ⟨x, hx, he⟩
  · obtain ⟨g, hg, rfl⟩ := attempt_error_iff.mp he
    obtain ⟨e, hx, rfl⟩ := mapError_error_iff.mp hg
    exact .untyped hx
  rcases bind_error_iff.mp he with he | ⟨scope, -, he⟩
  · obtain ⟨g, hg, rfl⟩ := attempt_error_iff.mp he
    obtain ⟨e, hscope, rfl⟩ := mapError_error_iff.mp hg
    exact .unscoped hscope
  split at he
  next e ha =>
      rw [← throw_error_iff.mp he]
      exact .faulty hw hm (attempt_ok_iff.mp hcs) (mapError_ok_iff.mp (attempt_ok_iff.mp hx)) (congrArg Prod.snd ha)
  next => exact .refused he

theorem add_ok {call : Option Text} {scope : Option Scope} {fields : List Field} {o : Origin}
    (h : b.add s call scope fields o = .ok b') :
    ∃ script c log, Script.add s b.out.script call scope fields o = .ok (script, c) ∧
      b' = { b with out := { b.out with script, log } } := by
  obtain ⟨⟨script, c⟩, hadd, h⟩ := bind_ok_iff.mp h
  obtain ⟨log, hlog⟩ := noteCommand_cases { b with out := { b.out with script } } c
  exact ⟨script, c, log, mapError_ok_iff.mp (attempt_ok_iff.mp hadd), (pure_ok_iff.mp h).symm.trans hlog⟩

theorem add_error {call : Option Text} {scope : Option Scope} {fields : List Field} {o : Origin} {h : Halt}
    (he : b.add s call scope fields o = .error h) :
    ∃ e, Script.add s b.out.script call scope fields o = .error e ∧ h = b.halt e.fault := by
  rcases bind_error_iff.mp he with he | ⟨_, -, he⟩
  · obtain ⟨g, hg, rfl⟩ := attempt_error_iff.mp he
    obtain ⟨e, hadd, rfl⟩ := mapError_error_iff.mp hg
    exact ⟨e, hadd, rfl⟩
  · exact absurd he pure_ne_error

/-- A statement that is taken in: it has no call, or the script takes its parameters, and a form without a call of its
own continues the command that is open. -/
theorem assemble_ok {f : Form} {params : List Field} {o : Origin} (h : b.assemble s f params o = .ok b') :
    (f.target = none ∧ b' = b) ∨
      (b.add s f.call (some b.scope) params o = .ok b' ∧
        ∀ tail, b.out.script.lastOpen = some tail → f.call = none → f.continues = some tail.call.name) := by
  rw [assemble] at h
  split at h
  next ht =>
      cases h
      exact .inl ⟨ht, rfl⟩
  next target ht hc =>
      refine .inr ⟨h, fun tail _ hcall => ?_⟩
      rw [Form.target, hcall, hc] at ht
      cases ht
  next target extended ht hc =>
      split at h
      next hany =>
          refine .inr ⟨h, fun tail htail _ => ?_⟩
          rw [htail] at hany
          rw [hc, of_decide_eq_true hany]
      next => cases h

/-- A statement that is not taken in: it has no command to continue, or it is refused by the script, in which the
command that it continues is open. -/
theorem assemble_error {f : Form} {params : List Field} {o : Origin} {h : Halt}
    (he : b.assemble s f params o = .error h) :
    (∃ extended, f.continues = some extended ∧ (∀ tail, b.out.script.lastOpen = some tail → tail.call.name ≠ extended) ∧
      h = b.halt (.plain .semantic (f.name ++ " must continue an open " ++ extended))) ∨
    ∃ target e, f.target = some target ∧ Script.add s b.out.script f.call (some b.scope) params o = .error e ∧
      h = b.halt e.fault ∧ (f.call = none → ∃ tail, b.out.script.lastOpen = some tail ∧ tail.call.name = target) := by
  rw [assemble] at he
  split at he
  next => cases he
  next target ht hc =>
      obtain ⟨e, hadd, rfl⟩ := add_error he
      refine .inr ⟨target, e, ht, hadd, rfl, fun hcall => ?_⟩
      rw [Form.target, hcall, hc] at ht
      cases ht
  next target extended ht hc =>
      split at he
      next hany =>
          obtain ⟨e, hadd, rfl⟩ := add_error he
          refine .inr ⟨target, e, ht, hadd, rfl, fun hcall => ?_⟩
          rw [Form.target, hcall, hc] at ht
          cases ht
          cases hlast : b.out.script.lastOpen with
          | none =>
              rw [hlast] at hany
              cases hany
          | some tail =>
              rw [hlast] at hany
              exact ⟨tail, rfl, of_decide_eq_true hany⟩
      next hany =>
          cases he
          refine .inl ⟨extended, hc, fun tail htail hname => hany ?_, rfl⟩
          rw [htail]
          exact decide_eq_true hname

theorem assemble_halts {f : Form} {params : List Field} {o : Origin} {h : Halt}
    (he : b.assemble s f params o = .error h) : ∃ message, h = b.halt (.plain .semantic message) := by
  rcases assemble_error he with ⟨extended, -, -, rfl⟩ | ⟨target, e, -, -, rfl, -⟩
  · exact ⟨_, rfl⟩
  · exact ⟨e.message, rfl⟩

theorem addEmission_ok {e : Emission} (h : b.addEmission s e = .ok b') :
    b.add s (some e.call) none e.fields e.origin = .ok b' :=
  mapError_ok_iff.mp h

theorem line_ok {l : Line} (h : b.line s l = .ok b') :
    (∃ word, Section.header? l.trimmed = some word ∧ b.header s l word = .ok b') ∨
      (Section.header? l.trimmed = none ∧ b.statement s l = .ok b') := by
  rw [line] at h
  have h := mapError_ok_iff.mp h
  split at h
  next word hword => exact .inl ⟨word, hword, h⟩
  next hword => exact .inr ⟨hword, h⟩

theorem run_ok {ls : List Line} (h : b.run s ls = .ok b') :
    ∃ c, ls.foldlM (line s) b = .ok c ∧ c.closeDomain s = .ok b' :=
  bind_ok_iff.mp h

end Building

end Population

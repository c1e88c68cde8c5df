import Population.Proofs.Compile.Step
import Population.Proofs.Grammar.Captures
import Population.Proofs.Source.Numbering

/-!
A build walks through the sections as a check does, so it stops at the line where the check stops, with the same fault,
unless the model is faulty before; and where the check passes no fault of the build is syntactic.
-/
namespace Population

@[simp] theorem Fault.locate_kind (f : Fault) (file : Text) (line : Int) (text : Text) :
    (f.locate file line text).kind = f.kind := by
  simp only [Fault.locate]
  split <;> split <;> rfl

/-- A build that stopped at a fault of the model, or was abandoned. -/
def Halt.Semantic (h : Halt) : Prop :=
  ∀ f, h.fault = some f → f.kind = .semantic

theorem Halt.Semantic.locate {h : Halt} (hs : h.Semantic) (file : Text) (line : Int) (text : Text) :
    (h.locate file line text).Semantic := by
  intro f hf
  obtain ⟨g, hg, rfl⟩ := Option.map_eq_some_iff.mp hf
  rw [Fault.locate_kind]
  exact hs g hg

theorem Script.close_semantic {s : Script} {f : Fault} (h : s.close = .error f) : f.kind = .semantic := by
  rw [Script.close] at h
  split at h
  next => cases h
  next =>
    cases h
    exact Fault.locate_kind _ _ _ _

theorem ClosingError.fault_semantic (e : ClosingError) (o : Origin) : (e.fault o).kind = .semantic := by
  simp only [ClosingError.fault, Fault.locate_kind]
  cases e <;> rfl

theorem Analyzer.finalize_semantic {a : Analyzer} {f : Fault} (h : a.finalize.2 = .error f) :
    f.kind = .semantic := by
  rw [Analyzer.finalize] at h
  split at h
  next => cases h
  next =>
    split at h
    next =>
      cases h
      exact ClosingError.fault_semantic _ _
    next =>
      obtain ⟨⟨e, o⟩, -, rfl⟩ := mapError_error_iff.mp h
      exact ClosingError.fault_semantic e o

theorem AnalysisError.fault_semantic {e : AnalysisError} {f : Fault} (h : e.fault? = some f) :
    f.kind = .semantic := by
  cases e <;> cases h <;> rfl

theorem ExtractError.fault_semantic (e : ExtractError) : e.fault.kind = .semantic := by
  cases e <;> rfl

namespace Building

variable {s : Schema} {b b' : Building}

theorem halt_semantic {f : Fault} (hf : f.kind = .semantic) : (b.halt f).Semantic := by
  intro g hg
  rw [← Option.some.inj hg]
  exact hf

theorem add_semantic {call : Option Text} {scope : Option Scope} {fields : List Field} {o : Origin} {h : Halt}
    (he : b.add s call scope fields o = .error h) : h.Semantic := by
  obtain ⟨e, -, rfl⟩ := add_error he
  exact halt_semantic rfl

theorem addEmission_semantic {e : Emission} {h : Halt} (he : b.addEmission s e = .error h) : h.Semantic := by
  obtain ⟨h', he', rfl⟩ := mapError_error_iff.mp he
  exact (add_semantic he').locate _ _ _

theorem closeDomain_semantic {h : Halt} (he : b.closeDomain s = .error h) : h.Semantic := by
  cases closeDomain_fails he with
  | waiting hclose => exact halt_semantic (Script.close_semantic hclose)
  | faulty hfinal => exact halt_semantic (Analyzer.finalize_semantic hfinal)
  | refused _ _ _ hrefused =>
      obtain ⟨_, _, _, _, -, -, hrefused⟩ := foldlM_error hrefused
      exact addEmission_semantic hrefused

theorem assemble_semantic {f : Form} {params : List Field} {o : Origin} {h : Halt}
    (he : b.assemble s f params o = .error h) : h.Semantic := by
  obtain ⟨message, rfl⟩ := assemble_halts he
  exact halt_semantic rfl

def SamePlace (b b' : Building) : Prop :=
  b'.walker = b.walker ∧ b'.file = b.file

theorem add_samePlace {call : Option Text} {scope : Option Scope} {fields : List Field} {o : Origin}
    (h : b.add s call scope fields o = .ok b') : b.SamePlace b' := by
  obtain ⟨script, c, log, -, rfl⟩ := add_ok h
  exact ⟨rfl, rfl⟩

theorem closeDomain_samePlace (h : b.closeDomain s = .ok b') : b.SamePlace b' := by
  obtain ⟨-, ⟨-, rfl⟩ | ⟨-, emissions, c, log, -, hc, rfl⟩⟩ := closeDomain_ok h
  · exact ⟨rfl, rfl⟩
  · have hkept : b.SamePlace c := by
      refine foldlM_keeps b.SamePlace hc ⟨rfl, rfl⟩ (fun x e y hx hy => ?_)
      have hxy := add_samePlace (addEmission_ok hy)
      exact ⟨hxy.1.trans hx.1, hxy.2.trans hx.2⟩
    exact hkept

theorem assemble_samePlace {f : Form} {params : List Field} {o : Origin}
    (h : b.assemble s f params o = .ok b') : b.SamePlace b' := by
  rcases assemble_ok h with ⟨-, rfl⟩ | ⟨hadd, -⟩
  · exact ⟨rfl, rfl⟩
  · exact add_samePlace hadd

theorem transformed_ok {home text : Text} {m : Matched} (h : Statement.matchLine home text = .ok m) :
    transformed m = .ok (Capture.transform m.form.transform m.captures).1 := by
  have hok := Statement.transform_ok h
  rw [transformed]
  split
  next hcs => rw [hcs]
  next hcs =>
    rw [hcs] at hok
    cases hok

end Building

/-- A step of a build that goes as the check of its line does: it moves to where the check moves, it is rejected
with the check's fault, or it stops at a fault of the model. -/
structure FollowsCheck (b : Building) (checked : Except Fault Walker) (built : Except Halt Building) : Prop where
  moves : ∀ b', built = .ok b' → checked = .ok b'.walker ∧ b'.file = b.file
  rejects : ∀ f, checked = .error f → built = .error (b.halt f)
  stops : ∀ w h, checked = .ok w → built = .error h → h.Semantic

namespace Building

variable {s : Schema} {b b' : Building}

theorem header_followsCheck (s : Schema) (b : Building) (l : Line) (word : Text) :
    FollowsCheck b (((b.walker.enter word).mapError WalkError.fault).map (·.2)) (b.header s l word) where
  moves b' h := by
    obtain ⟨home, walker, c, hw, hc, rfl⟩ := header_ok h
    have hplace : SamePlace { b with walker } c := by
      rcases hc with ⟨-, hc⟩ | ⟨-, rfl⟩
      · exact closeDomain_samePlace hc
      · exact ⟨rfl, rfl⟩
    rw [hw]
    exact ⟨congrArg Except.ok hplace.1.symm, hplace.2⟩
  rejects f hf := by
    obtain ⟨e, hw, rfl⟩ := mapError_error_iff.mp (map_error_iff.mp hf)
    rw [header_eq, hw]
    rfl
  stops w h hc he := by
    obtain ⟨moved, hw, -⟩ := map_ok_iff.mp hc
    rcases header_fails he with ⟨e, hw', -⟩ | ⟨walker, he⟩
    · cases hw'.symm.trans (mapError_ok_iff.mp hw)
    · exact closeDomain_semantic he

theorem statement_followsCheck (s : Schema) (b : Building) (l : Line) :
    FollowsCheck b (do
      let (home, w) ← b.walker.statement.mapError WalkError.fault
      let _ ← (Statement.matchLine home.name l.trimmed).mapError MatchError.fault
      return w) (b.statement s l) where
  moves b' h := by
    obtain ⟨home, walker, m, cs, x, scope, analyzer, hw, hm, -, -, -, -, ha⟩ := statement_ok h
    have hplace := assemble_samePlace ha
    rw [hplace.1, hplace.2]
    refine ⟨bind_ok_iff.mpr ⟨(home, walker), mapError_ok_iff.mpr hw, ?_⟩, rfl⟩
    exact bind_ok_iff.mpr ⟨m, mapError_ok_iff.mpr hm, rfl⟩
  rejects f hf := by
    rw [statement_eq]
    rcases bind_error_iff.mp hf with hf | ⟨⟨home, walker⟩, hw, hf⟩
    · obtain ⟨e, hw, rfl⟩ := mapError_error_iff.mp hf
      rw [hw]
      rfl
    rcases bind_error_iff.mp hf with hf | ⟨_, -, hf⟩
    · obtain ⟨e, hm, rfl⟩ := mapError_error_iff.mp hf
      refine bind_error_iff.mpr (.inr ⟨(home, walker), attempt_ok_iff.mpr hw, ?_⟩)
      rw [hm]
      rfl
    · exact absurd hf pure_ne_error
  stops w h hc he := by
    obtain ⟨⟨home, walker⟩, hw, hc⟩ := bind_ok_iff.mp hc
    obtain ⟨m, hm, -⟩ := bind_ok_iff.mp hc
    have hw := mapError_ok_iff.mp hw
    have hm := mapError_ok_iff.mp hm
    -- the first two steps are those that the check has taken
    cases statement_fails he with
    | misplaced hw' => cases hw.symm.trans hw'
    | unmatched hw' hm' =>
        cases hw.symm.trans hw'
        cases hm.symm.trans hm'
    | untransformed hm' hcs => cases (transformed_ok hm').symm.trans hcs
    | untyped => exact halt_semantic (ExtractError.fault_semantic _)
    | unscoped => exact halt_semantic rfl
    | faulty => exact fun f hf => AnalysisError.fault_semantic hf
    | refused hrefused => exact assemble_semantic hrefused

theorem line_follows (s : Schema) (b : Building) (l : Line) :
    (∀ b', b.line s l = .ok b' → Check.line b.walker l.trimmed = .ok b'.walker ∧ b'.file = b.file) ∧
    (∀ f, Check.line b.walker l.trimmed = .error f →
      b.line s l = .error (b.halt (f.locate b.file l.number l.trimmed))) ∧
    (∀ w h, Check.line b.walker l.trimmed = .ok w → b.line s l = .error h → h.Semantic) := by
  obtain ⟨r, hline, hfollows⟩ : ∃ r, b.line s l = r.mapError (·.locate b.file l.number l.trimmed) ∧
      FollowsCheck b (Check.line b.walker l.trimmed) r := by
    refine ⟨_, rfl, ?_⟩
    rw [Check.line]
    cases Section.header? l.trimmed with
    | some word => exact header_followsCheck s b l word
    | none => exact statement_followsCheck s b l
  rw [hline]
  refine ⟨fun b' h => hfollows.moves b' (mapError_ok_iff.mp h), fun f hf => ?_, fun w h hw he => ?_⟩
  · exact mapError_error_iff.mpr ⟨b.halt f, hfollows.rejects f hf, rfl⟩
  · obtain ⟨h', he', rfl⟩ := mapError_error_iff.mp he
    exact (hfollows.stops w h' hw he').locate _ _ _

end Building

namespace Check

theorem line_syntactic {w : Walker} {text : Text} {f : Fault} (h : line w text = .error f) :
    ∃ message, f = .plain .syntactic message := by
  rw [line] at h
  split at h
  next =>
    obtain ⟨e, -, rfl⟩ := mapError_error_iff.mp (map_error_iff.mp h)
    exact ⟨e.message, rfl⟩
  next =>
    rcases bind_error_iff.mp h with h | ⟨⟨home, w'⟩, -, h⟩
    · obtain ⟨e, -, rfl⟩ := mapError_error_iff.mp h
      exact ⟨e.message, rfl⟩
    rcases bind_error_iff.mp h with h | ⟨_, -, h⟩
    · obtain ⟨e, -, rfl⟩ := mapError_error_iff.mp h
      exact ⟨e.message, rfl⟩
    · exact absurd h pure_ne_error

theorem lines_error {name : Text} {w : Walker} {ls : List Line} {e : Fault} (h : lines name w ls = .error e) :
    ∃ before l after w' f, ls = before ++ l :: after ∧ lines name w before = .ok w' ∧
      line w' l.trimmed = .error f ∧ e = f.locate name l.number l.trimmed := by
  induction ls generalizing w with
  | nil => cases h
  | cons l rest ih =>
      rw [lines] at h
      split at h
      next w₁ hw =>
        obtain ⟨before, l', after, w', f, rfl, hbefore, hf, he⟩ := ih h
        refine ⟨l :: before, l', after, w', f, rfl, ?_, hf, he⟩
        rw [lines, hw]
        exact hbefore
      next f hf =>
        cases h
        exact ⟨[], l, rest, w, f, rfl, rfl, hf, rfl⟩

theorem file_syntactic {f : SourceFile} {e : Fault} (h : file f = .error e) : e.kind = .syntactic := by
  obtain ⟨_, _, _, _, fault, -, -, hf, rfl⟩ := lines_error (map_error_iff.mp h)
  obtain ⟨message, rfl⟩ := line_syntactic hf
  exact Fault.locate_kind ..

theorem files_syntactic {fs : List SourceFile} {e : Fault} (h : files fs = .error e) : e.kind = .syntactic := by
  induction fs with
  | nil => cases h
  | cons f rest ih =>
      rcases bind_error_iff.mp h with h | ⟨_, -, h⟩
      · exact file_syntactic h
      · exact ih h

theorem files_ok {fs : List SourceFile} (h : files fs = .ok ()) : ∀ f ∈ fs, file f = .ok () := by
  induction fs with
  | nil => nofun
  | cons f rest ih =>
      obtain ⟨⟨⟩, hf, hrest⟩ := bind_ok_iff.mp h
      exact List.forall_mem_cons.mpr ⟨hf, ih hrest⟩

end Check

namespace Building

variable {s : Schema} {b : Building}

theorem foldlM_line_follows {ls : List Line} {w : Walker} (hc : Check.lines b.file b.walker ls = .ok w) :
    (∃ b', ls.foldlM (line s) b = .ok b' ∧ b'.walker = w ∧ b'.file = b.file) ∨
      ∃ before l after b' h, ls = before ++ l :: after ∧ before.foldlM (line s) b = .ok b' ∧
        b'.line s l = .error h ∧ ls.foldlM (line s) b = .error h ∧ h.Semantic := by
  induction ls generalizing b with
  | nil =>
      cases hc
      exact .inl ⟨b, rfl, rfl, rfl⟩
  | cons l rest ih =>
      obtain ⟨hmoves, -, hstops⟩ := line_follows s b l
      rw [Check.lines] at hc
      split at hc
      next w₁ hw =>
        rw [List.foldlM_cons]
        cases hl : b.line s l with
        | error h =>
            refine .inr ⟨[], l, rest, b, h, rfl, rfl, hl, ?_, hstops w₁ h hw hl⟩
            exact bind_error_iff.mpr (.inl rfl)
        | ok b₁ =>
            obtain ⟨hw₁, hfile⟩ := hmoves b₁ hl
            have hsame : b₁.walker = w₁ := Except.ok.inj (hw₁.symm.trans hw)
            rw [← hsame, ← hfile] at hc
            rcases ih hc with ⟨b', hb', hwalker, hfile'⟩ | ⟨before, l', after, b', h, rfl, hbefore, herr, hall, hsem⟩
            · exact .inl ⟨b', bind_ok_iff.mpr ⟨b₁, rfl, hb'⟩, hwalker, hfile'.trans hfile⟩
            · refine .inr ⟨l :: before, l', after, b', h, rfl, ?_, herr,
                bind_error_iff.mpr (.inr ⟨b₁, rfl, hall⟩), hsem⟩
              rw [List.foldlM_cons]
              exact bind_ok_iff.mpr ⟨b₁, hl, hbefore⟩
      next => cases hc

theorem run_semantic {ls : List Line} {w : Walker} {h : Halt} (hc : Check.lines b.file b.walker ls = .ok w)
    (he : b.run s ls = .error h) : h.Semantic := by
  rcases bind_error_iff.mp he with he | ⟨b', -, he⟩
  · rcases foldlM_line_follows hc with ⟨b', hb', -⟩ | ⟨_, _, _, _, h', -, -, -, hall, hsem⟩
    · rw [hb'] at he
      cases he
    · rw [hall] at he
      cases he
      exact hsem
  · exact closeDomain_semantic he

end Building

namespace Compiled

variable {s : Schema}

theorem build_singleton (s : Schema) (f : SourceFile) :
    build s [f] = ofBuild (Output.addFile s .empty f) := by
  rw [build, Output.ofFiles, List.foldlM_cons]
  cases Output.addFile s .empty f <;> rfl

theorem ending_ofHalt (h : Halt) :
    (h.fault = none ∧ (ofHalt h).ending = .abandoned) ∨ ∃ g, h.fault = some g ∧ (ofHalt h).ending = .faulty g := by
  simp only [ofHalt]
  cases h.fault with
  | none => exact .inl ⟨rfl, rfl⟩
  | some g => exact .inr ⟨g, rfl, rfl⟩

theorem build_checked_semantic {fs : List SourceFile} {g : Fault} (hc : ∀ f ∈ fs, Check.file f = .ok ())
    (hg : (build s fs).ending = .faulty g) : g.kind = .semantic := by
  rw [build] at hg
  cases hfiles : Output.ofFiles s fs with
  | ok out =>
      rw [hfiles] at hg
      cases hg
  | error h =>
      rw [hfiles] at hg
      obtain ⟨before, f, after, out, rfl, -, hadd⟩ := foldlM_error hfiles
      obtain ⟨w, hw, -⟩ := map_ok_iff.mp (hc f (by simp))
      have hsem : h.Semantic := Building.run_semantic (b := .start f.name out) hw (map_error_iff.mp hadd)
      rcases ending_ofHalt h with ⟨-, hend⟩ | ⟨g', hg', hend⟩
      · rw [ofBuild, hend] at hg
        cases hg
      · rw [ofBuild, hend] at hg
        cases hg
        exact hsem g hg'

theorem build_complete {fs : List SourceFile} (h : (build s fs).ending = .complete) :
    ∃ out, Output.ofFiles s fs = .ok out ∧ (build s fs).script = out.script := by
  rw [build] at h ⊢
  cases hout : Output.ofFiles s fs with
  | error halt =>
      rw [hout, ofBuild] at h
      rcases ending_ofHalt halt with ⟨-, hending⟩ | ⟨g, -, hending⟩ <;> rw [hending] at h <;> cases h
  | ok out => exact ⟨out, rfl, rfl⟩

theorem compile_complete {fs : List SourceFile} (h : (compile s fs).ending = .complete) :
    ∃ out, Output.ofFiles s fs = .ok out ∧ (compile s fs).script = out.script := by
  rw [compile] at h ⊢
  split at h
  next => cases h
  next => exact build_complete h

/-- A compilation is stopped by the syntax of its files or by what they say, and by nothing else. -/
theorem compile_fault_kind {fs : List SourceFile} {g : Fault} (h : (compile s fs).ending = .faulty g) :
    g.kind = .syntactic ∨ g.kind = .semantic := by
  rw [compile] at h
  split at h
  next fault hc =>
      cases h
      exact .inl (Check.files_syntactic hc)
  next hc => exact .inr (build_checked_semantic (Check.files_ok hc) h)

/-- A fault that the build of a file raises at one of its lines. -/
def RaisedAt (s : Schema) (f : SourceFile) (l : Line) (g : Fault) : Prop :=
  ∃ before after b h, f.lines = before ++ l :: after ∧
    before.foldlM (Building.line s) (.start f.name .empty) = .ok b ∧ b.line s l = .error h ∧ h.fault = some g

theorem build_rejected {f : SourceFile} {e : Fault} (hc : Check.file f = .error e) :
    ∃ before l after, f.lines = before ++ l :: after ∧ (e.line = (l.number : Int)) ∧
      ((build s [f]).ending = .abandoned ∨ (build s [f]).ending = .faulty e ∨
        ∃ g, ∃ l' ∈ before, (build s [f]).ending = .faulty g ∧ g.kind = .semantic ∧ RaisedAt s f l' g) := by
  obtain ⟨before, l, after, w, fault, hls, hbefore, hf, rfl⟩ := Check.lines_error (map_error_iff.mp hc)
  obtain ⟨message, rfl⟩ := Check.line_syntactic hf
  refine ⟨before, l, after, hls, rfl, ?_⟩
  have hrun (h : Halt) (he : f.lines.foldlM (Building.line s) (.start f.name .empty) = .error h) :
      (build s [f]).ending = (ofHalt h).ending := by
    have hadd : Output.addFile s .empty f = .error h :=
      map_error_iff.mpr (bind_error_iff.mpr (.inl he))
    rw [build_singleton, hadd]
    rfl
  rcases Building.foldlM_line_follows (s := s) (b := .start f.name .empty) hbefore with
    ⟨b', hb', hwalker, hfile⟩ | ⟨before₁, l', after₁, b', h, hsplit, hb', herr, hall, hsem⟩
  · -- the lines before are built, so the line itself is rejected with the fault of the check
    have hreject := (Building.line_follows s b' l).2.1 _ (hwalker ▸ hf)
    rw [hfile] at hreject
    refine .inr (.inl (hrun (b'.halt ((Fault.plain .syntactic message).locate f.name l.number l.trimmed)) ?_))
    rw [hls, List.foldlM_append]
    refine bind_error_iff.mpr (.inr ⟨b', hb', ?_⟩)
    rw [List.foldlM_cons]
    exact bind_error_iff.mpr (.inl hreject)
  · have hend := hrun h (by
      rw [hls, List.foldlM_append]
      exact bind_error_iff.mpr (.inl hall))
    rcases ending_ofHalt h with ⟨-, hnone⟩ | ⟨g, hg, hsome⟩
    · exact .inl (hend.trans hnone)
    · refine .inr (.inr ⟨g, l', ?_, hend.trans hsome, hsem g hg, before₁, after₁ ++ l :: after, b', h, ?_,
        hb', herr, hg⟩)
      · simp [hsplit]
      · simp [hls, hsplit]

/-- Checking and building agree on syntax, whatever the schema. No transform fails on a line that is matched; a
file that passes the check is built without a syntactic fault; and a file that the check rejects is rejected by
the build with the same fault, unless the build is abandoned or stops at the model on an earlier line. -/
theorem build_agrees_with_check (s : Schema) (name bytes : Text) :
    (∀ home text m, Statement.matchLine home text = .ok m →
      (Capture.transform m.form.transform m.captures).2 = none) ∧
    (Check.file (.ofBytes name bytes) = .ok () →
      ∀ g, (build s [.ofBytes name bytes]).ending = .faulty g → g.kind ≠ .syntactic) ∧
    (∀ e, Check.file (.ofBytes name bytes) = .error e →
      (build s [.ofBytes name bytes]).ending = .abandoned ∨
      (build s [.ofBytes name bytes]).ending = .faulty e ∨
      ∃ g l, (build s [.ofBytes name bytes]).ending = .faulty g ∧ g.kind = .semantic ∧
        RaisedAt s (.ofBytes name bytes) l g ∧ (l.number : Int) < e.line) := by
  refine ⟨fun _ _ _ => Statement.transform_ok, fun hc g hg hk => ?_, fun e he => ?_⟩
  · have hsem := build_checked_semantic (by simpa using hc) hg
    rw [hk] at hsem
    cases hsem
  · obtain ⟨before, l, after, hls, hline, hcases⟩ := build_rejected (s := s) he
    rcases hcases with h | h | ⟨g, l', hl', hend, hsem, hraised⟩
    · exact .inl h
    · exact .inr (.inl h)
    · refine .inr (.inr ⟨g, l', hend, hsem, hraised, ?_⟩)
      have hasc := SourceFile.contentLines_ascending bytes
      rw [show SourceFile.contentLines bytes = before ++ l :: after from hls, List.pairwise_append] at hasc
      rw [hline]
      exact Int.ofNat_lt.mpr (hasc.2.2 l' hl' l List.mem_cons_self)

end Compiled

end Population

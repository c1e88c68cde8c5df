import Population.Proofs.Compile.Completion

/-!
A fault that has its line is moved no more, but one without the name of a file takes the name of the file that is read
when it comes up; an open command of a file without a name must not outlive it, or its line is looked for in the wrong
file.
-/
namespace Population

open Statement

def SourceFile.Places (f : SourceFile) (o : Origin) : Prop :=
  ∃ l ∈ f.lines, o = ⟨f.name, l.number, l.trimmed⟩

namespace Fault

variable {g : Fault}

def Nowhere (g : Fault) : Prop :=
  g.file = [] ∧ g.line = 0

theorem Nowhere.locate (h : g.Nowhere) (file : Text) (line : Int) (text : Text) :
    (g.locate file line text).file = file ∧ (g.locate file line text).line = line ∧
      (g.locate file line text).text = text := by
  obtain ⟨hfile, hline⟩ := h
  simp [Fault.locate, hfile, hline]

theorem locate_of_line (h : g.line ≠ 0) (file : Text) (line : Int) (text : Text) :
    g.locate file line text = if g.file = [] then { g with file } else g := by
  cases hfile : g.file <;> simp [Fault.locate, h, hfile]

/-- A fault at a place of `P`, or at the line of such a place in `file` if the place is in a file without a name. -/
def PutBy (P : Origin → Prop) (file : Text) (g : Fault) : Prop :=
  ∃ o, P o ∧ g.line = o.line ∧ g.text = o.text ∧ (g.file = o.file ∨ (o.file = [] ∧ g.file = file))

variable {P : Origin → Prop} {o : Origin}

theorem Nowhere.putBy (h : g.Nowhere) (ho : P o) (file : Text) : (g.locate o.file o.line o.text).PutBy P file := by
  obtain ⟨hfile, hline, htext⟩ := h.locate o.file o.line o.text
  exact ⟨o, ho, hline, htext, .inl hfile⟩

theorem Nowhere.putBy_again (h : g.Nowhere) (ho : P o) (hline : o.line ≠ 0) (file : Text) (line : Int) (text : Text) :
    ((g.locate o.file o.line o.text).locate file line text).PutBy P file := by
  obtain ⟨hfile', hline', htext'⟩ := h.locate o.file o.line o.text
  rw [locate_of_line (by rw [hline']; exact hline)]
  split
  next hnone => exact ⟨o, ho, hline', htext', .inr ⟨hfile'.symm.trans hnone, rfl⟩⟩
  next => exact ⟨o, ho, hline', htext', .inl hfile'⟩

end Fault

/-- A build that stopped at a fault without a place. -/
def Halt.Nowhere (h : Halt) : Prop :=
  ∃ g, h.fault = some g ∧ g.Nowhere

def Halt.PutAt (P : Origin → Prop) (h : Halt) : Prop :=
  ∃ (g : Fault) (o : Origin), g.Nowhere ∧ P o ∧ h.fault = some (g.locate o.file o.line o.text)

theorem AnalysisError.fault_nowhere {e : AnalysisError} {g : Fault} (h : e.fault? = some g) : g.Nowhere := by
  cases e <;> cases h <;> exact ⟨rfl, rfl⟩

theorem ClosingError.fault_eq (e : ClosingError) (o : Origin) :
    ∃ raw : Fault, raw.Nowhere ∧ e.fault o = raw.locate o.file o.line o.text := by
  rw [fault.eq_def]
  exact ⟨_, by cases e <;> exact ⟨rfl, rfl⟩, rfl⟩

namespace Analyzer

variable {P : Origin → Prop} {a a' : Analyzer} {st : Statement}

structure RecordedIn (P : Origin → Prop) (a : Analyzer) : Prop where
  classes : ∀ c ∈ a.classes, P c.origin
  references : ∀ r ∈ a.references, P r.origin
  dependencies : ∀ d ∈ a.dependencies, P d.origin

theorem recordedIn_opened (domain : Text) : (opened domain).RecordedIn P :=
  ⟨nofun, nofun, nofun⟩

theorem RecordedIn.setIdentifiers (h : a.RecordedIn P) (name : Text) (group : Identifier.Group) :
    (a.setIdentifiers name group).RecordedIn P := by
  refine { h with classes := fun c hc => ?_ }
  obtain ⟨d, hd, rfl⟩ := List.mem_map.mp hc
  split
  next => exact h.classes d hd
  next => exact h.classes d hd

theorem RecordedIn.addReference (h : a.RecordedIn P) (hst : P st.origin) (c : ModelClass) (rnum : Int)
    (targets : List Target) : (a.referring st c rnum targets).RecordedIn P := by
  refine { h with references := fun r hr => ?_, dependencies := fun d hd => ?_ }
  · rcases List.mem_append.mp hr with hr | hr
    · exact h.references r hr
    · obtain ⟨target, -, rfl⟩ := List.mem_map.mp hr
      exact hst
  · rcases List.mem_append.mp hd with hd | hd
    · exact h.dependencies d hd
    · obtain ⟨target, -, hd⟩ := List.mem_filterMap.mp hd
      split at hd
      next => cases hd
      next =>
          split at hd
          next => cases hd
          next =>
              cases hd
              exact hst

theorem handle_recordedIn (h : a.handle st = (a', none)) (ha : a.RecordedIn P) (hst : P st.origin) :
    a'.RecordedIn P := by
  have hhandled := handle_handled a st
  rw [h] at hhandled
  cases hhandled with
  | passed => exact ha
  | domain => exact recordedIn_opened _
  | subsystem | relationship => exact { ha with }
  | classDef =>
      refine { ha with classes := fun c hc => ?_ }
      rcases List.mem_append.mp hc with hc | hc
      · exact ha.classes c hc
      · cases List.mem_singleton.mp hc
        exact hst
  | ownAttribute => exact ha.setIdentifiers _ _
  | reference => exact (ha.addReference hst _ _ _).setIdentifiers _ _

theorem connect_refused {g : Graph} {ds : List Dependency} {e : ClosingError} {o : Origin}
    (h : (connect g ds).2 = some (e, o)) : ∃ d ∈ ds, d.origin = o := by
  induction ds generalizing g with
  | nil => cases h
  | cons d rest ih =>
      rw [connect] at h
      split at h
      next =>
          cases h
          exact ⟨d, List.mem_cons_self, rfl⟩
      next =>
          split at h
          next =>
              obtain ⟨d', hd', ho⟩ := ih h
              exact ⟨d', List.mem_cons_of_mem _ hd', ho⟩
          next =>
              cases h
              exact ⟨d, List.mem_cons_self, rfl⟩

theorem checkTarget_refused {r : PendingReference} {e : ClosingError} {o : Origin}
    (h : a.checkTarget r = .error (e, o)) : r.origin = o := by
  rw [checkTarget] at h
  split at h
  next =>
      cases h
      rfl
  next =>
      split at h
      next => cases h
      next =>
          split at h
          next => cases h
          next =>
              cases h
              rfl

theorem formalize_refused {rnum : Int} {e : ClosingError} {o : Origin} (h : a.formalize rnum = .error (e, o)) :
    ∃ r ∈ a.references, r.origin = o := by
  rw [formalize] at h
  split at h
  next => cases h
  next first rest hrefs =>
      have hmem : ∀ r ∈ first :: rest, r ∈ a.references := by
        rw [← hrefs]
        exact fun r hr => (List.mem_filter.mp hr).1
      split at h
      next =>
          cases throw_error_iff.mp h
          exact ⟨first, hmem first List.mem_cons_self, rfl⟩
      next =>
          rcases bind_error_iff.mp h with h | ⟨⟨⟩, -, h⟩
          · obtain ⟨r, hr, he⟩ := forM_error h
            exact ⟨r, hmem r hr, checkTarget_refused he⟩
          · exact absurd h pure_ne_error

theorem formalize_origin {rnum : Int} {e : Emission} (h : a.formalize rnum = .ok (some e)) :
    ∃ r ∈ a.references, r.origin = e.origin := by
  rw [formalize] at h
  split at h
  next => cases h
  next first rest hrefs =>
      split at h
      next => exact absurd h throw_ne_ok
      next =>
          obtain ⟨⟨⟩, -, h⟩ := bind_ok_iff.mp h
          cases pure_ok_iff.mp h
          have hfirst : first ∈ a.referencesOf rnum := by
            rw [hrefs]
            exact List.mem_cons_self
          exact ⟨first, (List.mem_filter.mp hfirst).1, rfl⟩

theorem identification_origin {c : ModelClass} {e : Emission} (h : e ∈ a.identification c) : e.origin = c.origin := by
  rcases List.mem_append.mp h with h | h
  · obtain ⟨⟨attrs, i⟩, -, h⟩ := List.mem_flatMap.mp h
    obtain ⟨attr, -, rfl⟩ := List.mem_map.mp h
    rfl
  · cases List.mem_singleton.mp h
    rfl

namespace RecordedIn

variable (ha : a.RecordedIn P)
include ha

theorem emissions_refused {e : ClosingError} {o : Origin} (h : a.emissions = .error (e, o)) : P o := by
  rcases bind_error_iff.mp h with h | ⟨_, -, h⟩
  · obtain ⟨rnum, -, h⟩ := mapM_error h
    obtain ⟨r, hr, rfl⟩ := formalize_refused h
    exact ha.references r hr
  · exact absurd h pure_ne_error

theorem emissions_origin {es : List Emission} (h : a.emissions = .ok es) : ∀ e ∈ es, P e.origin := by
  obtain ⟨rels, hrels, h⟩ := bind_ok_iff.mp h
  cases pure_ok_iff.mp h
  intro e he
  rcases List.mem_append.mp he with he | he
  · obtain ⟨_, hmem, rfl⟩ := List.mem_filterMap.mp he
    obtain ⟨rnum, -, hrel⟩ := partner_of_right (mapM_ok_iff.mp hrels) hmem
    obtain ⟨r, hr, ho⟩ := formalize_origin hrel
    exact ho ▸ ha.references r hr
  · obtain ⟨c, hc, he⟩ := List.mem_flatMap.mp he
    rw [identification_origin he]
    exact ha.classes c hc

/-- A domain that cannot be closed is at fault where something of it was declared. -/
theorem finalize_error {g : Fault} (h : a.finalize.2 = .error g) :
    ∃ (raw : Fault) (o : Origin), raw.Nowhere ∧ P o ∧ g = raw.locate o.file o.line o.text := by
  rw [finalize] at h
  split at h
  next => cases h
  next =>
      split at h
      next graph e o hconnect =>
          cases h
          obtain ⟨d, hd, rfl⟩ := connect_refused (congrArg Prod.snd hconnect)
          obtain ⟨raw, hraw, heq⟩ := e.fault_eq d.origin
          exact ⟨raw, d.origin, hraw, ha.dependencies d hd, heq⟩
      next graph hconnect =>
          obtain ⟨⟨e, o⟩, hrefused, rfl⟩ := mapError_error_iff.mp h
          have hgraph : RecordedIn P { a with active := false, graph } := { ha with }
          obtain ⟨raw, hraw, heq⟩ := e.fault_eq o
          exact ⟨raw, o, hraw, hgraph.emissions_refused hrefused, heq⟩

theorem finalize : a.finalize.1.RecordedIn P ∧ ∀ es, a.finalize.2 = .ok es → ∀ e ∈ es, P e.origin := by
  rw [Analyzer.finalize]
  split
  next =>
      refine ⟨ha, fun es h => ?_⟩
      cases h
      intro e he
      cases he
  next =>
      split
      next =>
          refine ⟨{ ha with }, fun es h => ?_⟩
          cases h
      next graph hconnect =>
          have hgraph : RecordedIn P { a with active := false, graph } := { ha with }
          exact ⟨hgraph, fun es h => hgraph.emissions_origin (mapError_ok_iff.mp h)⟩

end RecordedIn

end Analyzer

namespace Script

variable {P : Origin → Prop} {s : Schema} {script script' : Script}

def TailIn (P : Origin → Prop) (script : Script) : Prop :=
  ∀ tail, script.lastOpen = some tail → P tail.origin

theorem TailIn.add {call : Option Text} {scope : Option Scope} {fields : List Field} {o : Origin} {c : Command}
    (hs : script.TailIn P) (ho : P o) (h : add s script call scope fields o = .ok (script', c)) : script'.TailIn P := by
  intro tail htail
  rcases add_ok h with ⟨last, hlast, -, hc, rfl⟩ | ⟨-, name, k, -, -, hc, rfl⟩
  · have horigin : c.origin = last.origin := by
      rw [Command.contribute] at hc
      split at hc
      next => exact absurd hc throw_ne_ok
      next =>
          obtain ⟨⟨⟩, -, hc⟩ := bind_ok_iff.mp hc
          cases pure_ok_iff.mp hc
          rfl
    rw [lastOpen_replaceLast_eq htail, horigin]
    exact hs last hlast
  · have horigin : c.origin = o := by
      obtain ⟨⟨⟩, -, hc⟩ := bind_ok_iff.mp hc
      cases pure_ok_iff.mp hc
      rfl
    rw [lastOpen_append_eq htail, horigin]
    exact ho

end Script

namespace Building

variable {P : Origin → Prop} {s : Schema} {b b' : Building} {h : Halt}

/-- All that a build can put a later fault at is a place of `P`. -/
structure Within (P : Origin → Prop) (b : Building) : Prop where
  recorded : b.analyzer.RecordedIn P
  tail : b.out.script.TailIn P

namespace Within

variable (hb : b.Within P)
include hb

theorem add {call : Option Text} {scope : Option Scope} {fields : List Field} {o : Origin} (ho : P o)
    (h : b.add s call scope fields o = .ok b') : b'.Within P := by
  obtain ⟨script, c, log, hadd, rfl⟩ := add_ok h
  exact ⟨hb.recorded, hb.tail.add ho hadd⟩

theorem closeDomain (h : b.closeDomain s = .ok b') : b'.Within P := by
  obtain ⟨-, ⟨-, rfl⟩ | ⟨-, es, c, log, hes, hc, rfl⟩⟩ := closeDomain_ok h
  · exact hb
  · obtain ⟨hrecorded, horigins⟩ := hb.recorded.finalize
    have hkept : c.Within P := by
      refine foldlM_keeps_of_mem (Within P) hc ⟨hrecorded, hb.tail⟩ fun x e he y hx hy => ?_
      exact hx.add (horigins es hes e he) (addEmission_ok hy)
    exact ⟨hkept.recorded, hkept.tail⟩

theorem assemble {f : Form} {params : List Field} {o : Origin} (ho : P o)
    (h : b.assemble s f params o = .ok b') : b'.Within P := by
  rcases assemble_ok h with ⟨-, rfl⟩ | ⟨hadd, -⟩
  · exact hb
  · exact hb.add ho hadd

theorem line {l : Line} (hl : P ⟨b.file, l.number, l.trimmed⟩) (h : b.line s l = .ok b') : b'.Within P := by
  rcases line_ok h with ⟨word, -, h⟩ | ⟨-, h⟩
  · obtain ⟨home, walker, c, -, hc, rfl⟩ := header_ok h
    have hwalker : Within P { b with walker } := ⟨hb.recorded, hb.tail⟩
    have hkept : c.Within P := by
      rcases hc with ⟨-, hc⟩ | ⟨-, rfl⟩
      · exact hwalker.closeDomain hc
      · exact hwalker
    exact ⟨hkept.recorded, hkept.tail⟩
  · obtain ⟨home, walker, m, cs, x, scope, analyzer, -, -, -, -, -, ha, hasm⟩ := statement_ok h
    have hhandled : Within P { b with walker, scope, analyzer } :=
      ⟨Analyzer.handle_recordedIn ha hb.recorded hl, hb.tail⟩
    exact hhandled.assemble hl hasm

end Within

/-- A domain that cannot be closed: the command that is open, or something recorded of the domain, is at fault. -/
theorem Within.closeDomain_error (hb : b.Within P) (he : b.closeDomain s = .error h) : h.PutAt P := by
  cases closeDomain_fails he with
  | waiting hclose =>
      rw [Script.close] at hclose
      split at hclose
      next => cases hclose
      next tail htail =>
          cases hclose
          exact ⟨_, tail.origin, ⟨rfl, rfl⟩, hb.tail tail htail, rfl⟩
  | faulty hfinal =>
      obtain ⟨raw, o, hraw, ho, rfl⟩ := hb.recorded.finalize_error hfinal
      exact ⟨raw, o, hraw, ho, rfl⟩
  | refused _ _ hes hrefused =>
      obtain ⟨before, e, after, c, rfl, -, hadd⟩ := foldlM_error hrefused
      obtain ⟨h', hadd', rfl⟩ := mapError_error_iff.mp hadd
      have horigin := hb.recorded.finalize.2 _ hes e (by simp)
      obtain ⟨refusal, -, rfl⟩ := add_error hadd'
      exact ⟨refusal.fault, e.origin, ⟨rfl, rfl⟩, horigin, rfl⟩

/-- A statement that is not built: the model finds fault with it, or something else is wrong with it. -/
theorem statement_error {l : Line} (he : b.statement s l = .error h) : h.Nowhere ∨
    ∃ home walker m x scope e, b.walker.statement = .ok (home, walker) ∧ matchLine home.name l.trimmed = .ok m ∧
      Extraction.ofCaptures s m.form (Capture.transform m.form.transform m.captures).1 = .ok x ∧
      (b.analyzer.handle ⟨some m.form.kind, x.fields, scope, ⟨b.file, l.number, l.trimmed⟩⟩).2 = some e ∧
      h = ⟨e.fault?, b.out⟩ := by
  cases statement_fails he with
  | misplaced | unmatched | unscoped => exact .inl ⟨_, rfl, rfl, rfl⟩
  | untransformed hm hcs => cases (transformed_ok hm).symm.trans hcs
  | @untyped _ _ e => exact .inl ⟨_, rfl, by cases e <;> exact ⟨rfl, rfl⟩⟩
  | faulty hw hm hcs hx ha =>
      cases (transformed_ok hm).symm.trans hcs
      exact .inr ⟨_, _, _, _, _, _, hw, hm, hx, ha, rfl⟩
  | refused hrefused =>
      obtain ⟨message, rfl⟩ := assemble_halts hrefused
      exact .inl ⟨_, rfl, rfl, rfl⟩

theorem Within.header_error (hb : b.Within P) {l : Line} {word : Text} (he : b.header s l word = .error h) :
    h.Nowhere ∨ h.PutAt P := by
  rcases header_fails he with ⟨e, -, rfl⟩ | ⟨walker, he⟩
  · exact .inl ⟨_, rfl, rfl, rfl⟩
  · exact .inr (Within.closeDomain_error (b := { b with walker }) ⟨hb.recorded, hb.tail⟩ he)

variable (hP : ∀ o, P o → o.line ≠ 0) {g : Fault}
include hP

theorem Within.line_error (hb : b.Within P) {l : Line} (hl : P ⟨b.file, l.number, l.trimmed⟩)
    (he : b.line s l = .error h) (hg : h.fault = some g) : g.PutBy P b.file := by
  rw [Building.line] at he
  obtain ⟨h', he', rfl⟩ := mapError_error_iff.mp he
  obtain ⟨raw, hraw, rfl⟩ := Option.map_eq_some_iff.mp hg
  have hput : raw.Nowhere ∨ h'.PutAt P := by
    split at he'
    next =>
        refine (hb.header_error he').imp_left ?_
        rintro ⟨g, hg, hnowhere⟩
        cases hraw.symm.trans hg
        exact hnowhere
    next =>
        rcases statement_error he' with ⟨g, hg, hnowhere⟩ | ⟨_, _, _, _, _, e, -, -, -, -, rfl⟩
        · cases hraw.symm.trans hg
          exact .inl hnowhere
        · exact .inl (AnalysisError.fault_nowhere hraw)
  rcases hput with hnowhere | ⟨raw', o, hnowhere, ho, hfault⟩
  · exact hnowhere.putBy hl b.file
  · cases hraw.symm.trans hfault
    exact hnowhere.putBy_again ho (hP o ho) _ _ _

omit hP in
theorem Within.lines (hb : b.Within P) {ls : List Line} (hls : ∀ l ∈ ls, P ⟨b.file, l.number, l.trimmed⟩)
    (h : ls.foldlM (Building.line s) b = .ok b') : b'.file = b.file ∧ b'.Within P := by
  refine foldlM_keeps_of_mem (fun c => c.file = b.file ∧ c.Within P) h ⟨rfl, hb⟩ fun x l hl y hx hy => ?_
  refine ⟨((line_follows s x l).1 y hy).2.trans hx.1, hx.2.line ?_ hy⟩
  rw [hx.1]
  exact hls l hl

/-- What stops the build of a file is at one of its lines, or at the one where a command was left open before it. -/
theorem Within.run_error (hb : b.Within P) {ls : List Line} (hls : ∀ l ∈ ls, P ⟨b.file, l.number, l.trimmed⟩)
    (he : b.run s ls = .error h) (hg : h.fault = some g) : g.PutBy P b.file := by
  rcases bind_error_iff.mp he with he | ⟨c, hc, he⟩
  · obtain ⟨before, l, after, c, rfl, hc, he⟩ := foldlM_error he
    obtain ⟨hfile, hc⟩ := hb.lines (fun x hx => hls x (List.mem_append_left _ hx)) hc
    rw [← hfile]
    refine hc.line_error hP ?_ he hg
    rw [hfile]
    exact hls l (by simp)
  · obtain ⟨raw, o, hnowhere, ho, hfault⟩ := (hb.lines hls hc).2.closeDomain_error he
    cases hg.symm.trans hfault
    exact hnowhere.putBy ho b.file

omit hP in
theorem run_fault_kind {ls : List Line} (he : b.run s ls = .error h) (hg : h.fault = some g) :
    g.kind = .syntactic ∨ g.kind = .semantic := by
  rcases bind_error_iff.mp he with he | ⟨c, -, he⟩
  · obtain ⟨before, l, after, c, -, -, he⟩ := foldlM_error he
    obtain ⟨-, hrejects, hstops⟩ := line_follows s c l
    cases hcheck : Check.line c.walker l.trimmed with
    | ok w => exact .inr (hstops w h hcheck he g hg)
    | error f =>
        obtain ⟨message, rfl⟩ := Check.line_syntactic hcheck
        cases he.symm.trans (hrejects _ hcheck)
        cases hg
        exact .inl (Fault.locate_kind ..)
  · exact .inr (closeDomain_semantic he g hg)

end Building

/-- The places of the content lines of files. -/
def PlacedIn (fs : List SourceFile) (o : Origin) : Prop :=
  ∃ f ∈ fs, f.Places o

namespace Output

variable {s : Schema} {fs : List SourceFile} {f : SourceFile} {out out' : Output}

theorem start_within (htail : out.script.TailIn (PlacedIn fs)) : (Building.start f.name out).Within (PlacedIn fs) :=
  ⟨⟨nofun, nofun, nofun⟩, htail⟩

theorem placedIn_lines (hf : f ∈ fs) : ∀ l ∈ f.lines, PlacedIn fs ⟨f.name, l.number, l.trimmed⟩ :=
  fun l hl => ⟨f, hf, l, hl, rfl⟩

theorem addFile_tailIn (hf : f ∈ fs) (htail : out.script.TailIn (PlacedIn fs)) (h : addFile s out f = .ok out') :
    out'.script.TailIn (PlacedIn fs) := by
  obtain ⟨b', hrun, rfl⟩ := map_ok_iff.mp h
  obtain ⟨c, hc, hclose⟩ := Building.run_ok hrun
  obtain ⟨-, hwithin⟩ := (start_within htail).lines (placedIn_lines hf) hc
  exact (hwithin.closeDomain hclose).tail

theorem ofFiles_tailIn (h : ofFiles s fs = .ok out) : out.script.TailIn (PlacedIn fs) :=
  foldlM_keeps_of_mem (·.script.TailIn (PlacedIn fs)) h nofun fun _ _ hf _ htail hadd => addFile_tailIn hf htail hadd

theorem ofFiles_lastOpen (hs : s.Evicts) (h : ofFiles s fs = .ok out) : out.script.lastOpen = none := by
  obtain ⟨hkept, hlast⟩ := ofFiles_kept h
  exact ((hkept.finished_iff hlast).mpr (.inl hs)).closed

theorem addFile_error {h : Halt} {g : Fault} (hnumbers : ∀ f ∈ fs, ∀ l ∈ f.lines, 0 < l.number) (hf : f ∈ fs)
    (htail : out.script.TailIn (PlacedIn fs)) (he : addFile s out f = .error h) (hg : h.fault = some g) :
    g.PutBy (PlacedIn fs) f.name := by
  refine (start_within htail).run_error ?_ (placedIn_lines hf) (map_error_iff.mp he) hg
  rintro _ ⟨f', hf', l, hl, rfl⟩
  have hpos := hnumbers f' hf' l hl
  exact Int.natCast_ne_zero.mpr (Nat.ne_of_gt hpos)

end Output

theorem Fault.PutBy.placed {fs : List SourceFile} {file : Text} {g : Fault} (h : g.PutBy (PlacedIn fs) file)
    (hnames : ∀ f ∈ fs, f.name = [] → file = []) : PlacedIn fs ⟨g.file, g.line, g.text⟩ := by
  obtain ⟨o, ⟨f, hf, l, hl, rfl⟩, hline, htext, hfile⟩ := h
  refine ⟨f, hf, l, hl, ?_⟩
  rw [hline, htext]
  rcases hfile with hfile | ⟨hnone, hfile⟩
  · rw [hfile]
  · rw [hfile, hnames f hf hnone, show f.name = [] from hnone]

namespace Check

theorem files_error_placed {fs : List SourceFile} {g : Fault} (h : files fs = .error g) :
    PlacedIn fs ⟨g.file, g.line, g.text⟩ := by
  obtain ⟨f, hf, h⟩ := forM_error h
  obtain ⟨before, l, after, w, raw, hlines, -, hraw, rfl⟩ := lines_error (map_error_iff.mp h)
  obtain ⟨message, rfl⟩ := line_syntactic hraw
  refine ⟨f, hf, l, ?_, rfl⟩
  rw [hlines]
  simp

end Check

namespace Compiled

variable {s : Schema} {fs : List SourceFile} {g : Fault}

theorem build_faulty (hg : (build s fs).ending = .faulty g) :
    ∃ before f after out h, fs = before ++ f :: after ∧ Output.ofFiles s before = .ok out ∧
      Output.addFile s out f = .error h ∧ h.fault = some g := by
  rw [build] at hg
  cases hfiles : Output.ofFiles s fs with
  | ok out =>
      rw [hfiles] at hg
      cases hg
  | error h =>
      rw [hfiles, ofBuild] at hg
      obtain ⟨before, f, after, out, hfs, hbefore, hadd⟩ := foldlM_error hfiles
      rcases ending_ofHalt h with ⟨-, hend⟩ | ⟨g', hg', hend⟩
      · rw [hend] at hg
        cases hg
      · rw [hend] at hg
        cases hg
        exact ⟨before, f, after, out, h, hfs, hbefore, hadd, hg'⟩

theorem build_fault_kind (hg : (build s fs).ending = .faulty g) : g.kind = .syntactic ∨ g.kind = .semantic := by
  obtain ⟨_, f, _, out, h, -, -, hadd, hfault⟩ := build_faulty hg
  exact Building.run_fault_kind (map_error_iff.mp hadd) hfault

/-- The fault of a build is at a line, if nothing is left open after a file without a name or no name comes after it. -/
theorem build_fault_placed (hnumbers : ∀ f ∈ fs, ∀ l ∈ f.lines, 0 < l.number)
    (hnames : s.Evicts ∨ fs.Pairwise fun f f' => f.name = [] → f'.name = [])
    (hg : (build s fs).ending = .faulty g) : PlacedIn fs ⟨g.file, g.line, g.text⟩ := by
  obtain ⟨before, f, after, out, h, rfl, hbefore, hadd, hfault⟩ := build_faulty hg
  obtain ⟨owners, hsub, hf, htail, hnames⟩ : ∃ owners, (∀ f' ∈ owners, f' ∈ before ++ f :: after) ∧ f ∈ owners ∧
      out.script.TailIn (PlacedIn owners) ∧ ∀ f' ∈ owners, f'.name = [] → f.name = [] := by
    rcases hnames with hevicts | hnames
    · have hopen := Output.ofFiles_lastOpen hevicts hbefore
      refine ⟨[f], by simp, List.mem_cons_self, fun tail htail => ?_, by simp⟩
      rw [hopen] at htail
      cases htail
    · refine ⟨before ++ [f], fun f' hf' => ?_, by simp, fun tail htail => ?_, fun f' hf' => ?_⟩
      · rw [List.append_cons]
        exact List.mem_append_left _ hf'
      · obtain ⟨f', hf', hplaces⟩ := Output.ofFiles_tailIn hbefore tail htail
        exact ⟨f', List.mem_append_left _ hf', hplaces⟩
      · rcases List.mem_append.mp hf' with hf' | hf'
        · exact (List.pairwise_append.mp hnames).2.2 f' hf' f List.mem_cons_self
        · rw [List.mem_singleton.mp hf']
          exact id
  have hput := Output.addFile_error (fun f' hf' => hnumbers f' (hsub f' hf')) hf htail hadd hfault
  obtain ⟨f', hf', hplaces⟩ := hput.placed hnames
  exact ⟨f', hsub f' hf', hplaces⟩

end Compiled

/-- A fault of the syntax or of the model at a content line of files, and where the file has a name it stays there. -/
def Fault.Located (fs : List SourceFile) (g : Fault) : Prop :=
  ∃ f ∈ fs, ∃ l ∈ f.lines, g.file = f.name ∧ g.line = l.number ∧ g.text = l.trimmed ∧
    (g.kind = .syntactic ∨ g.kind = .semantic) ∧
    (f.name ≠ [] → ∀ kind file line text, (Failure.fault g).locate kind file line text = g)

theorem PlacedIn.located {fs : List SourceFile} {g : Fault} (hnumbers : ∀ f ∈ fs, ∀ l ∈ f.lines, 0 < l.number)
    (h : PlacedIn fs ⟨g.file, g.line, g.text⟩) (hkind : g.kind = .syntactic ∨ g.kind = .semantic) : g.Located fs := by
  obtain ⟨f, hf, l, hl, ho⟩ := h
  obtain ⟨hfile, hline, htext⟩ : g.file = f.name ∧ g.line = l.number ∧ g.text = l.trimmed := by
    simpa only [Origin.mk.injEq] using ho
  refine ⟨f, hf, l, hl, hfile, hline, htext, hkind, fun hname kind file line text => ?_⟩
  have hpos := hnumbers f hf l hl
  rw [Failure.locate, Failure.fault?]
  simp only
  rw [Fault.locate_of_line (by omega), if_neg (by rw [hfile]; exact hname)]

namespace Compiled

/-- Every fault of a check, a build or a compilation is at a line of one of the files. The files may do without names
if none that has one comes after one that has none; and else if the schema asks no more than it is given of the command
that takes a placeholder, which is the only one that can outlive its file. -/
theorem fault_located {s : Schema} {fs : List SourceFile} {g : Fault} (hfs : ∀ f ∈ fs, f = .ofBytes f.name f.bytes)
    (hnames : s.Evicts ∨ fs.Pairwise fun f f' => f.name = [] → f'.name = [])
    (hg : Check.files fs = .error g ∨ (build s fs).ending = .faulty g ∨ (compile s fs).ending = .faulty g) :
    g.Located fs := by
  have hnumbers : ∀ f ∈ fs, ∀ l ∈ f.lines, 0 < l.number := by
    intro f hf l hl
    rw [hfs f hf] at hl
    exact SourceFile.contentLines_number_pos hl
  have hchecked (h : Check.files fs = .error g) : g.Located fs :=
    (Check.files_error_placed h).located hnumbers (.inl (Check.files_syntactic h))
  have hbuilt (h : (build s fs).ending = .faulty g) : g.Located fs :=
    (build_fault_placed hnumbers hnames h).located hnumbers (build_fault_kind h)
  rcases hg with hg | hg | hg
  · exact hchecked hg
  · exact hbuilt hg
  · rw [compile] at hg
    split at hg
    next hfault =>
        cases hg
        exact hchecked hfault
    next => exact hbuilt hg

/-- A relationship that is not declared, which comes up when the domain is closed and is put at the reference to it. -/
def loneReference : List SourceFile :=
  [.ofBytes [] "domain\nGround Traffic / GT\n",
    .ofBytes "air_traffic.mi" ("domain\nAir Traffic / ATC\nsubsystem\nAir Field / AF 1-50\nclasses\nPilot / P\n" ++
      "Rank -> Rank.Title, R1\nName : name / I\n")]

theorem fault_located_loneReference : Schema.standard.Evicts ∧
    ∃ g, (build Schema.standard loneReference).ending = .faulty g ∧ g.file = "air_traffic.mi" ∧ g.line = 7 ∧
      g.text = "Rank -> Rank.Title, R1" ∧ g.Located loneReference := by
  have hending : (build Schema.standard loneReference).ending = .faulty ⟨.semantic, "air_traffic.mi", 7,
      "Rank -> Rank.Title, R1", "reference to undeclared relationship R1", none⟩ := by
    decide +kernel
  have hread : ∀ f ∈ loneReference, f = .ofBytes f.name f.bytes := by
    intro f hf
    rcases List.mem_cons.mp hf with rfl | hf
    · rfl
    · cases List.mem_singleton.mp hf
      rfl
  exact ⟨Schema.standard_evicts, _, hending, rfl, rfl, rfl,
    fault_located hread (.inl Schema.standard_evicts) (.inr (.inl hending))⟩

/-- A class at the end of a file without a name, and another file after it. -/
def namelessClass : List SourceFile :=
  [.ofBytes [] lastClass.bytes, .ofBytes "next.mi" "domain\nGround Traffic / GT\n"]

/-- The command that takes the placeholder stays open after its file, and the next file is blamed for it: it is said to
be at line 6 of a file of two lines. -/
theorem fault_not_located :
    (Schema.ofBytes "demanding.mi" (Text.lines (demandingLines.map Text.ofString))).toOption = some demanding ∧
    (checkSchema demanding).toOption = some () ∧
    ∃ g, (build demanding namelessClass).ending = .faulty g ∧ (compile demanding namelessClass).ending = .faulty g ∧
      g.file = "next.mi" ∧ g.line = 6 ∧ g.text = "Pilot / P" ∧ ¬ g.Located namelessClass := by
  have hending : (build demanding namelessClass).ending = .faulty ⟨.semantic, "next.mi", 6, "Pilot / P",
      "remove_attr_from_id is missing reason", none⟩ := by
    decide +kernel
  have hchecked : Check.files namelessClass = .ok () := by decide +kernel
  have hcompiled : compile demanding namelessClass = build demanding namelessClass := by
    rw [compile, hchecked]
  refine ⟨ofBytes_demanding, checkSchema_demanding, _, hending, hcompiled ▸ hending, rfl, rfl, rfl, ?_⟩
  rintro ⟨f, hf, l, hl, hfile, hline, -⟩
  have hlines : ∀ f ∈ namelessClass, ∀ l ∈ f.lines, ("next.mi" : Text) = f.name → (6 : Int) ≠ l.number := by
    decide +kernel
  exact hlines f hf l hl hfile hline

end Compiled

end Population

import Mathlib.Data.List.Induction
import Mathlib.Data.List.TakeDrop
import Mathlib.Data.List.TakeWhile
import Population.Proofs.Compile.Phases
import Population.Proofs.Text.Ends

namespace Population

def Line.isHeader (l : Line) : Bool :=
  !l.trimmed.isEmpty && l.trimmed.all Text.isWord

def headings (ls : List Line) : List Text :=
  (ls.filter (·.isHeader)).map (·.trimmed)

structure Heads (ls : List Line) (h : Line) (body : List Line) : Prop where
  stands : ∃ before, before ++ h :: body <+: ls
  header : h.isHeader = true
  statements : ∀ l ∈ body, l.isHeader = false

/-- Whether a line matches an expression of the section of a name. -/
def Statement.Matches (home text : Text) : Prop :=
  ∃ f ∈ forms, f.home.name = home ∧ ∃ p ∈ f.patterns, (p.match? text).isSome

/-- Whether lines are of the language of scripts. -/
structure WellFormed (ls : List Line) : Prop where
  sequence : Section.checkSequence (headings ls) = .ok ()
  headed : ∀ before l, before ++ [l] <+: ls → l.isHeader = false → ∃ h ∈ before, h.isHeader = true
  single : ∀ h body, Heads ls h body → h.trimmed ∈ [("model" : Text), "domain", "subsystem"] → body.length ≤ 1
  matched : ∀ h body, Heads ls h body → ∀ l ∈ body, Statement.Matches h.trimmed l.trimmed

namespace Section

theorem singular_iff (home : Section) : home.singular = true ↔ home.name ∈ [("model" : Text), "domain", "subsystem"] := by
  cases home <;> decide

/-- Where no word starts or ends with white space, a header is a word and nothing else. -/
theorem header?_of_ends {t : Text} (hfirst : ∀ b ∈ t.head?, Text.isSpace b = false)
    (hlast : ∀ b ∈ t.getLast?, Text.isSpace b = false) :
    header? t = if !t.isEmpty && t.all Text.isWord then some t else none := by
  have hdrop : t.dropWhile Text.isSpace = t := Text.allSpace_nil.dropWhile hfirst
  simp only [header?, hdrop, List.span_eq_takeWhile_dropWhile]
  have hrest : (t.dropWhile Text.isWord).all Text.isSpace = true ↔ t.dropWhile Text.isWord = [] := by
    refine ⟨fun hspace => ?_, fun hnil => by rw [hnil]; rfl⟩
    rcases List.eq_nil_or_concat (t.dropWhile Text.isWord) with hnil | ⟨front, b, hb⟩
    · exact hnil
    · rw [List.concat_eq_append] at hb
      have hmem : b ∈ t.getLast? := by
        rw [← List.takeWhile_append_dropWhile (p := Text.isWord) (l := t), hb, ← List.append_assoc]
        exact List.getLast?_concat
      have hsp : Text.isSpace b = true := List.all_eq_true.mp hspace b (by rw [hb]; simp)
      rw [hlast b hmem] at hsp
      cases hsp
  by_cases hword : t.all Text.isWord = true
  · have htake : t.takeWhile Text.isWord = t := List.takeWhile_eq_self_iff.mpr (List.all_eq_true.mp hword)
    have hnil : t.dropWhile Text.isWord = [] := List.dropWhile_eq_nil_iff.mpr (List.all_eq_true.mp hword)
    rw [htake, hnil, hword]
    rfl
  · have hne : ¬ t.dropWhile Text.isWord = [] := fun hnil =>
      hword (List.all_eq_true.mpr (List.dropWhile_eq_nil_iff.mp hnil))
    rw [if_neg, if_neg]
    · simp [hword]
    · rw [Bool.and_eq_true, hrest]
      exact fun h => hne h.2

end Section

theorem Line.header?_trimmed (l : Line) : Section.header? l.trimmed = if l.isHeader then some l.trimmed else none :=
  Section.header?_of_ends (Text.trim_first l.text) (Text.trim_last l.text)

theorem Statement.matchLine_ok_iff {home text : Text} : (∃ m, matchLine home text = .ok m) ↔ Matches home text := by
  have hform (f : Form) : (f.captures? text).isSome ↔ ∃ p ∈ f.patterns, (p.match? text).isSome := by
    simp [Form.captures?, List.findSome?_isSome_iff]
  have hmatch : (match? home text).isSome ↔ Matches home text := by
    simp only [match?, List.findSome?_isSome_iff, Option.isSome_map, hform, formsOf, List.mem_filter, Matches,
      decide_eq_true_eq, and_assoc]
  rw [← hmatch, matchLine]
  cases match? home text <;> simp

theorem headings_append (ls ms : List Line) : headings (ls ++ ms) = headings ls ++ headings ms := by
  simp [headings]

theorem headings_of_statements {ls : List Line} (h : ∀ l ∈ ls, l.isHeader = false) : headings ls = [] := by
  simpa [headings] using h

theorem headings_header {l : Line} (h : l.isHeader = true) : headings [l] = [l.trimmed] := by
  simp [headings, h]

theorem last_header_unique {before before' body body' : List Line} {h h' : Line} (hh : h.isHeader = true)
    (hh' : h'.isHeader = true) (hbody : ∀ l ∈ body, l.isHeader = false) (hbody' : ∀ l ∈ body', l.isHeader = false)
    (heq : before ++ h :: body = before' ++ h' :: body') : h = h' ∧ body = body' := by
  have hmem {x : Line} {ls : List Line} (hx : x.isHeader = true) (hls : ∀ l ∈ ls, l.isHeader = false) : x ∉ ls := by
    intro hmem
    rw [hls x hmem] at hx
    cases hx
  rcases List.append_eq_append_iff.mp heq with ⟨middle, -, hmiddle⟩ | ⟨middle, -, hmiddle⟩
  · cases middle with
    | nil => simpa using hmiddle
    | cons x rest =>
        obtain ⟨-, rfl⟩ := List.cons.inj hmiddle
        exact absurd (by simp) (hmem hh' hbody)
  · cases middle with
    | nil => simpa [eq_comm] using hmiddle
    | cons x rest =>
        obtain ⟨-, rfl⟩ := List.cons.inj hmiddle
        exact absurd (by simp) (hmem hh hbody')

theorem Heads.mono {ls ms : List Line} {h : Line} {body : List Line} (hh : Heads ms h body) (hp : ms <+: ls) :
    Heads ls h body where
  stands := by
    obtain ⟨before, hbefore⟩ := hh.stands
    exact ⟨before, hbefore.trans hp⟩
  header := hh.header
  statements := hh.statements

theorem WellFormed.of_prefix {ls ms : List Line} (h : WellFormed ls) (hp : ms <+: ls) : WellFormed ms where
  sequence := by
    obtain ⟨rest, rfl⟩ := hp
    have hseq := h.sequence
    rw [headings_append] at hseq
    exact Section.followFrom_of_append hseq
  headed before l hl := h.headed before l (hl.trans hp)
  single head body hh := h.single head body (hh.mono hp)
  matched head body hh := h.matched head body (hh.mono hp)

theorem wellFormed_nil : WellFormed [] where
  sequence := rfl
  headed before l hl := by simp at hl
  single h body hh := by
    obtain ⟨before, hbefore⟩ := hh.stands
    simp at hbefore
  matched h body hh := by
    obtain ⟨before, hbefore⟩ := hh.stands
    simp at hbefore

/-- The walker that has passed some lines: it stands in the section of their last header and has counted the statements
after that. -/
inductive Walked : List Line → Walker → Prop
  | start : Walked [] .start
  | inside {before body : List Line} {h : Line} {home : Section} (header : h.isHeader = true)
      (statements : ∀ l ∈ body, l.isHeader = false) (named : Section.ofName? h.trimmed = some home) :
      Walked (before ++ h :: body) ⟨some home, body.length⟩

theorem Walked.current {ls : List Line} {w : Walker} (h : Walked ls w) :
    (headings ls).getLast?.elim none Section.ofName? = w.current := by
  cases h with
  | start => rfl
  | @inside before body h home header statements named =>
      rw [List.append_cons, headings_append, headings_append, headings_header header, headings_of_statements statements,
        List.append_nil, List.getLast?_concat]
      exact named

/-- The statements under a header of lines with one more line are those it had, or it is the last header. -/
theorem Heads.concat_cases {ls body : List Line} {l h : Line} (hh : Heads (ls ++ [l]) h body) :
    Heads ls h body ∨ ∃ before, ls ++ [l] = before ++ h :: body := by
  obtain ⟨before, hbefore⟩ := hh.stands
  rcases List.prefix_concat_iff.mp hbefore with hall | hbefore
  · exact .inr ⟨before, hall.symm⟩
  · exact .inl ⟨⟨before, hbefore⟩, hh.header, hh.statements⟩

theorem headed_concat_iff {ls : List Line} {l : Line} :
    (∀ before k, before ++ [k] <+: ls ++ [l] → k.isHeader = false → ∃ h ∈ before, h.isHeader = true) ↔
      (∀ before k, before ++ [k] <+: ls → k.isHeader = false → ∃ h ∈ before, h.isHeader = true) ∧
        (l.isHeader = false → ∃ h ∈ ls, h.isHeader = true) := by
  constructor
  · intro h
    refine ⟨fun before k hk => h before k (hk.trans (List.prefix_append ls [l])), ?_⟩
    exact h ls l (List.prefix_refl _)
  · rintro ⟨hls, hl⟩ before k hk hkl
    rcases List.prefix_concat_iff.mp hk with hall | hk
    · obtain ⟨rfl, hlast⟩ := List.append_inj' hall rfl
      cases hlast
      exact hl hkl
    · exact hls before k hk hkl

/-- One more header: its word has to follow in the sequence. -/
theorem Walked.header_iff {ls : List Line} {w : Walker} {l : Line} (hw : Walked ls w) (hl : l.isHeader = true) :
    WellFormed (ls ++ [l]) ↔ WellFormed ls ∧ ∃ next, Section.step w.current l.trimmed = .ok next := by
  have hseq : Section.checkSequence (headings (ls ++ [l])) = .ok () ↔
      Section.checkSequence (headings ls) = .ok () ∧ ∃ next, Section.step w.current l.trimmed = .ok next := by
    rw [headings_append, headings_header hl, Section.checkSequence, Section.followFrom_concat, hw.current]
    rfl
  -- the last header is the new one, and no statement is under it yet
  have hheads {h : Line} {body : List Line} (hh : Heads (ls ++ [l]) h body) : Heads ls h body ∨ body = [] := by
    refine hh.concat_cases.imp_right fun ⟨before, hbefore⟩ => ?_
    exact (last_header_unique hl hh.header (List.forall_mem_nil _) hh.statements hbefore).2.symm
  constructor
  · intro h
    exact ⟨h.of_prefix (List.prefix_append ls [l]), (hseq.mp h.sequence).2⟩
  · rintro ⟨h, hstep⟩
    refine ⟨hseq.mpr ⟨h.sequence, hstep⟩, headed_concat_iff.mpr ⟨h.headed, fun hno => ?_⟩, ?_, ?_⟩
    · rw [hl] at hno
      cases hno
    · intro head body hh hname
      rcases hheads hh with hh | rfl
      · exact h.single head body hh hname
      · exact Nat.zero_le 1
    · intro head body hh
      rcases hheads hh with hh | rfl
      · exact h.matched head body hh
      · nofun

/-- One more statement: it needs a section, with room for it if that takes one only, and has to match there. -/
theorem Walked.statement_iff {ls : List Line} {w : Walker} {l : Line} (hw : Walked ls w) (hl : l.isHeader = false) :
    WellFormed (ls ++ [l]) ↔ WellFormed ls ∧ ∃ home, w.current = some home ∧
      (home.singular = true → w.statements = 0) ∧ Statement.Matches home.name l.trimmed := by
  have hseq : headings (ls ++ [l]) = headings ls := by
    rw [headings_append, headings_of_statements (List.forall_mem_singleton.mpr hl), List.append_nil]
  cases hw with
  | start =>
      refine ⟨fun h => ?_, fun ⟨_, _, hcurrent, _⟩ => nomatch hcurrent⟩
      obtain ⟨head, hhead, -⟩ := h.headed [] l (List.prefix_refl _) hl
      cases hhead
  | @inside before body h home header statements named =>
      have hname := (Section.ofName?_eq_some_iff.mp named).symm
      -- the line joins those under the last header, and no other header gets it
      have hlast : Heads (before ++ h :: body ++ [l]) h (body ++ [l]) := by
        refine ⟨⟨before, by simp⟩, header, fun k hk => ?_⟩
        rcases List.mem_append.mp hk with hk | hk
        · exact statements k hk
        · cases List.mem_singleton.mp hk
          exact hl
      have hheads {h' : Line} {body' : List Line} (hh : Heads (before ++ h :: body ++ [l]) h' body') :
          Heads (before ++ h :: body) h' body' ∨ (h' = h ∧ body' = body ++ [l]) := by
        refine hh.concat_cases.imp_right fun ⟨before', hbefore'⟩ => ?_
        rw [List.append_assoc, List.cons_append] at hbefore'
        exact last_header_unique hh.header header hh.statements hlast.statements hbefore'.symm
      constructor
      · intro h'
        refine ⟨h'.of_prefix (List.prefix_append _ [l]), home, rfl, fun hsingular => ?_, ?_⟩
        · have hle := h'.single h _ hlast (hname ▸ (Section.singular_iff home).mp hsingular)
          simpa using hle
        · rw [hname]
          exact h'.matched h _ hlast l (by simp)
      · rintro ⟨h', home', hhome, hroom, hmatch⟩
        cases hhome
        refine ⟨hseq ▸ h'.sequence, headed_concat_iff.mpr ⟨h'.headed, fun _ => ⟨h, by simp, header⟩⟩, ?_, ?_⟩
        · intro head body' hh hsingle
          rcases hheads hh with hh | ⟨rfl, rfl⟩
          · exact h'.single head body' hh hsingle
          · rw [← hname] at hsingle
            have hempty : body.length = 0 := hroom ((Section.singular_iff home).mpr hsingle)
            simp [hempty]
        · intro head body' hh k hk
          rcases hheads hh with hh | ⟨rfl, rfl⟩
          · exact h'.matched head body' hh k hk
          · rcases List.mem_append.mp hk with hk | hk
            · exact h'.matched head body ⟨⟨before, List.prefix_refl _⟩, header, statements⟩ k hk
            · cases List.mem_singleton.mp hk
              rw [← hname]
              exact hmatch

namespace Walker

theorem enter_ok_iff {w w' : Walker} {word : Text} : (∃ home, w.enter word = .ok (home, w')) ↔
    ∃ next, Section.step w.current word = .ok next ∧ w' = ⟨some next, 0⟩ := by
  rw [enter]
  cases Section.step w.current word with
  | error e => simp
  | ok next =>
      constructor
      · rintro ⟨home, h⟩
        cases h
        exact ⟨next, rfl, rfl⟩
      · rintro ⟨_, hnext, rfl⟩
        cases hnext
        exact ⟨next, rfl⟩

theorem statement_ok_iff {w w' : Walker} {home : Section} : w.statement = .ok (home, w') ↔
    w.current = some home ∧ (home.singular = true → w.statements = 0) ∧ w' = ⟨some home, w.statements + 1⟩ := by
  constructor
  · intro h
    obtain ⟨hcurrent, hcurrent', hcount, hroom⟩ := statement_ok h
    refine ⟨hcurrent, hroom, ?_⟩
    cases w' with
    | mk current statements =>
        cases hcurrent'
        cases hcount
        rfl
  · rintro ⟨hcurrent, hroom, rfl⟩
    rw [statement, hcurrent]
    cases hsingular : home.singular with
    | false => simp [hsingular]
    | true => simp [hroom hsingular]

end Walker

namespace Check

theorem line_ok_iff {w w' : Walker} {l : Line} : line w l.trimmed = .ok w' ↔
    (l.isHeader = true ∧ ∃ next, Section.step w.current l.trimmed = .ok next ∧ w' = ⟨some next, 0⟩) ∨
    (l.isHeader = false ∧ ∃ home, w.current = some home ∧ (home.singular = true → w.statements = 0) ∧
      Statement.Matches home.name l.trimmed ∧ w' = ⟨some home, w.statements + 1⟩) := by
  rw [line, l.header?_trimmed]
  cases l.isHeader with
  | true =>
      simp only [if_true, map_ok_iff, mapError_ok_iff, true_and, Bool.true_eq_false, false_and, or_false]
      rw [← Walker.enter_ok_iff]
      simp
  | false =>
      simp only [Bool.false_eq_true, if_false, bind_ok_iff, mapError_ok_iff, pure_ok_iff, Prod.exists,
        Walker.statement_ok_iff, false_and, false_or, true_and, ← Statement.matchLine_ok_iff]
      constructor
      · rintro ⟨home, _, ⟨hcurrent, hroom, rfl⟩, m, hm, rfl⟩
        exact ⟨home, hcurrent, hroom, ⟨m, hm⟩, rfl⟩
      · rintro ⟨home, hcurrent, hroom, ⟨m, hm⟩, rfl⟩
        exact ⟨home, _, ⟨hcurrent, hroom, rfl⟩, m, hm, rfl⟩

end Check

theorem Walked.line_ok_iff {ls : List Line} {w : Walker} (hw : Walked ls w) (hls : WellFormed ls) (l : Line) :
    (∃ w', Check.line w l.trimmed = .ok w') ↔ WellFormed (ls ++ [l]) := by
  simp only [Check.line_ok_iff]
  cases hl : l.isHeader with
  | true => simp [hw.header_iff hl, hls]
  | false => simp [hw.statement_iff hl, hls]

theorem Walked.next {ls : List Line} {w w' : Walker} {l : Line} (hw : Walked ls w)
    (h : Check.line w l.trimmed = .ok w') : Walked (ls ++ [l]) w' := by
  rcases Check.line_ok_iff.mp h with ⟨hl, next, hstep, rfl⟩ | ⟨hl, home, hcurrent, -, -, rfl⟩
  · exact .inside hl (List.forall_mem_nil _) (Section.step_ofName? hstep)
  · cases hw with
    | start => cases hcurrent
    | @inside before body h _ header statements named =>
        cases hcurrent
        have hbody : ∀ k ∈ body ++ [l], k.isHeader = false := by
          simpa [or_imp, forall_and, hl] using statements
        rw [List.append_assoc, List.cons_append]
        simpa using @Walked.inside before (body ++ [l]) _ _ header hbody named

namespace Check

theorem lines_concat (name : Text) (w : Walker) (ls : List Line) (l : Line) : lines name w (ls ++ [l]) =
    lines name w ls >>= fun w' => (line w' l.trimmed).mapError (·.locate name l.number l.trimmed) := by
  induction ls generalizing w with
  | nil =>
      have hone : lines name w [l] = (line w l.trimmed).mapError (·.locate name l.number l.trimmed) := by
        rw [lines]
        cases line w l.trimmed <;> rfl
      exact hone
  | cons k rest ih =>
      rw [List.cons_append, lines, lines]
      cases line w k.trimmed with
      | error f => rfl
      | ok w' => exact ih w'

theorem lines_ok_iff (name : Text) (ls : List Line) : (∀ w, lines name .start ls = .ok w → Walked ls w) ∧
    ((∃ w, lines name .start ls = .ok w) ↔ WellFormed ls) := by
  induction ls using List.reverseRecOn with
  | nil => exact ⟨fun w h => by cases h; exact .start, fun _ => wellFormed_nil, fun _ => ⟨_, rfl⟩⟩
  | append_singleton ls l ih =>
      obtain ⟨hwalked, hiff⟩ := ih
      simp only [lines_concat, bind_ok_iff, mapError_ok_iff]
      refine ⟨?_, ?_, fun h => ?_⟩
      · rintro w ⟨w', hw', hl⟩
        exact (hwalked w' hw').next hl
      · rintro ⟨w, w', hw', hl⟩
        exact ((hwalked w' hw').line_ok_iff (hiff.mp ⟨w', hw'⟩) l).mp ⟨w, hl⟩
      · have hls := h.of_prefix (List.prefix_append ls [l])
        obtain ⟨w', hw'⟩ := hiff.mpr hls
        obtain ⟨w, hl⟩ := ((hwalked w' hw').line_ok_iff hls l).mpr h
        exact ⟨w, w', hw', hl⟩

/-- A file passes the check if, and only if, its lines are well formed. The check of any other file names the first line
up to which they are not. -/
theorem file_accepts_wellFormed (f : SourceFile) : (file f = .ok () ↔ WellFormed f.lines) ∧
    (¬ WellFormed f.lines → ∃ e before l after, file f = .error e ∧ f.lines = before ++ l :: after ∧
      (∀ earlier, earlier <+: before → WellFormed earlier) ∧ ¬ WellFormed (before ++ [l]) ∧
      e.kind = .syntactic ∧ e.file = f.name ∧ e.line = l.number ∧ e.text = l.trimmed) := by
  have hfile : file f = .ok () ↔ WellFormed f.lines := by
    rw [← (lines_ok_iff f.name f.lines).2, file]
    simp
  refine ⟨hfile, fun hno => ?_⟩
  cases hf : file f with
  | ok u => exact absurd (hfile.mp hf) hno
  | error e =>
      obtain ⟨before, l, after, w, g, hls, hbefore, hl, rfl⟩ := lines_error (map_error_iff.mp hf)
      obtain ⟨hwalked, hiff⟩ := lines_ok_iff f.name before
      have hwell : WellFormed before := hiff.mp ⟨w, hbefore⟩
      refine ⟨_, before, l, after, rfl, hls, fun earlier => hwell.of_prefix, fun hcontra => ?_, ?_⟩
      · obtain ⟨w', hw'⟩ := ((hwalked w hbefore).line_ok_iff hwell l).mpr hcontra
        rw [hl] at hw'
        cases hw'
      · obtain ⟨message, rfl⟩ := line_syntactic hl
        simp [Fault.locate, Fault.plain]

end Check

end Population

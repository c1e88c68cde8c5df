import Population.Proofs.Compile.Context
import Population.Proofs.Compile.Joining
import Population.Proofs.Compile.Phases

namespace Population

open Schema Extraction Statement Building

/-- A command that is complete never changes. -/
def Script.Settles (script script' : Script) : Prop :=
  ∀ (n : Nat) (c : Command), script.commands[n]? = some c → c.completed = true → script'.commands[n]? = some c

theorem Script.settles_append (script : Script) (cs : List Command) : script.Settles ⟨script.commands ++ cs⟩ := by
  intro n c hc _
  obtain ⟨hn, -⟩ := List.getElem?_eq_some_iff.mp hc
  rw [List.getElem?_append_left hn, hc]

theorem Script.settles_replaceLast {script : Script} {tail : Command} (hopen : script.lastOpen = some tail)
    (c : Command) : script.Settles (script.replaceLast c) := by
  intro n d hd hcompleted
  rcases Script.getElem?_replaceLast hopen c hd with hsame | ⟨rfl, -⟩
  · exact hsame
  · obtain ⟨-, -, hwaiting⟩ := Script.lastOpen_some hopen
    rw [hwaiting] at hcompleted
    cases hcompleted

theorem Script.getElem?_last {script : Script} {tail : Command} {n : Nat} (hopen : script.lastOpen = some tail)
    (hn : script.commands.length = n + 1) (c : Command) :
    script.commands[n]? = some tail ∧ (script.replaceLast c).commands[n]? = some c := by
  obtain ⟨before, hbefore, -⟩ := Script.lastOpen_some hopen
  obtain rfl : before.length = n := by simpa [hbefore] using hn
  rw [Script.replaceLast, hbefore, List.dropLast_concat]
  exact ⟨List.getElem?_concat_length, List.getElem?_concat_length⟩

theorem Building.Moved.settles {b : Building} {p : Stop} {script : Script} (h : b.Moved p script) :
    b.out.script.Settles script := by
  cases h with
  | same => exact fun _ _ hc _ => hc
  | derived => exact Script.settles_append _ _
  | placed _ _ _ _ hplaced =>
      cases hplaced with
      | silent => exact fun _ _ hc _ => hc
      | begun => exact Script.settles_append _ _
      | continued hopen => exact Script.settles_replaceLast hopen _

theorem written_settles (ps qs : List Stop) : (written standard ps).Settles (written standard (ps ++ qs)) :=
  written_related (fun _ _ _ hc _ => hc) (fun _ _ _ h₁ h₂ n c hc hd => h₂ n c (h₁ n c hc hd) hd)
    (fun b p => (visit_moved b p).settles) ps qs

theorem written_absent {ps : List Stop} {n : Nat} (qs : List Stop)
    (h : (written standard (ps ++ qs)).commands[n]? = none) : (written standard ps).commands[n]? = none := by
  by_contra hsome
  obtain ⟨c, hc⟩ := Option.ne_none_iff_exists'.mp hsome
  obtain ⟨c', hc', -⟩ := written_grows ps qs n c hc
  rw [h] at hc'
  cases hc'

/-- What a line says after others, with its captures. -/
structure Outline.Reads (r : Outline) (l : Line) (m : Matched) (x : Extraction) : Prop where
  plain : Section.header? l.trimmed = none
  read : ∃ home, r.home = some home ∧ Read home.name l.trimmed m x

/-- Two lines of a file, with what stands before and between them. -/
structure LinePair where
  done : List SourceFile
  file : SourceFile
  above : List Line
  first : Line
  between : List Line
  second : Line

namespace LinePair

def toFirst (q : LinePair) : List Stop :=
  stopsBefore q.done q.file q.above

def toSecond (q : LinePair) : List Stop :=
  stopsBefore q.done q.file (q.above ++ q.first :: q.between)

def In (q : LinePair) (fs : List SourceFile) : Prop :=
  ∃ later below, fs = q.done ++ q.file :: later ∧
    q.file.lines = q.above ++ q.first :: q.between ++ q.second :: below

/-- A command comes from two lines: the first begins it, nothing is begun or extended between them, and no other
stop touches the command. -/
structure Streams (q : LinePair) (s : Schema) (fs : List SourceFile) (n : Nat) : Prop where
  mem : q.In fs
  begun : BegunAt s n q.toFirst (.line q.first)
  quiet : ∀ part rest, q.between = part ++ rest →
    written s (stopsBefore q.done q.file (q.above ++ q.first :: part)) = written s (q.toFirst ++ [.line q.first])
  touched : ∀ before p after, stops fs = before ++ p :: after →
    ((written s before).commands[n]? ≠ (written s (before ++ [p])).commands[n]? ↔
      before = q.toFirst ∨ before = q.toSecond)

end LinePair

theorem stopsBefore_append (done : List SourceFile) (f : SourceFile) (ls ms : List Line) :
    stopsBefore done f (ls ++ ms) = stopsBefore done f ls ++ ms.map .line := by
  simp [stopsBefore]

theorem travel_lines (s : Schema) (done : List SourceFile) (f : SourceFile) (ls ms : List Line) :
    travel s (stopsBefore done f (ls ++ ms)) = travel s (stopsBefore done f ls) >>= fun b => ms.foldlM (line s) b := by
  rw [stopsBefore_append, travel_append]
  simp only [List.foldlM_map]
  rfl

theorem written_of_travel {s : Schema} {ps : List Stop} {b : Building} (h : travel s ps = .ok b) :
    written s ps = b.out.script := by
  rw [written, h]
  rfl

namespace Building

variable {b c : Building} {m : Matched} {x : Extraction} {tail : Command} {rest : List Line}

theorem undoomed_of_closed (h : rest.foldlM (line standard) b = .ok c) (hclosed : c.out.script.lastOpen = none) :
    ¬ b.out.script.Doomed := by
  intro hd
  obtain ⟨tail, htail, -⟩ := foldlM_keeps (·.out.script.Doomed) h hd fun _ _ _ => line_doomed
  rw [hclosed] at htail
  cases htail

/-- A line completes the command that waits in a build, and the lines before it leave the script as it is. -/
structure CompletedBy (b : Building) (m : Matched) (x : Extraction) (mid : List Line) (l : Line) (m' : Matched)
    (x' : Extraction) (c : Command) : Prop where
  quiet : ∀ part more, mid = part ++ more → ∃ b₀, part.foldlM (line standard) b = .ok b₀ ∧
    b₀.out.script = b.out.script
  plain : Section.header? l.trimmed = none
  built : ∃ b₁ b₂ home, mid.foldlM (line standard) b = .ok b₁ ∧ b₁.walker.current = some home ∧
    Read home.name l.trimmed m' x' ∧ b₁.line standard l = .ok b₂ ∧ b₂.out.script = b.out.script.replaceLast c
  completed : c.completed = true
  joined : Joined x x' c
  agrees : Agrees m m' c

theorem CompletedBy.cons {b b' : Building} {l₀ l : Line} {mid : List Line} {m' : Matched} {x' : Extraction}
    {d : Command} (hline : b.line standard l₀ = .ok b') (hscript : b'.out.script = b.out.script)
    (h : CompletedBy b' m x mid l m' x' d) : CompletedBy b m x (l₀ :: mid) l m' x' d := by
  have hfold {ls : List Line} {b₀ : Building} (hls : ls.foldlM (line standard) b' = .ok b₀) :
      (l₀ :: ls).foldlM (line standard) b = .ok b₀ := by
    rw [List.foldlM_cons]
    exact bind_ok_iff.mpr ⟨b', hline, hls⟩
  refine ⟨fun part more hpart => ?_, h.plain, ?_, h.completed, h.joined, h.agrees⟩
  · cases part with
    | nil => exact ⟨b, rfl, rfl⟩
    | cons l₁ part =>
        obtain ⟨rfl, hmid⟩ := List.cons_eq_cons.mp hpart
        obtain ⟨b₀, hb₀, hsame⟩ := h.quiet part more hmid
        exact ⟨b₀, hfold hb₀, hsame.trans hscript⟩
  · obtain ⟨b₁, b₂, home, hmid, hhome, hread, hl, hjoined⟩ := h.built
    exact ⟨b₁, b₂, home, hfold hmid, hhome, hread, hl, by rw [hjoined, hscript]⟩

theorem Pending.completes (hp : b.Pending m x tail) (hs : b.out.script.Steady)
    (h : rest.foldlM (line standard) b = .ok c) (hclosed : c.out.script.lastOpen = none) :
    ∃ mid l after m' x' d, rest = mid ++ l :: after ∧ CompletedBy b m x mid l m' x' d := by
  induction rest generalizing b with
  | nil =>
      cases pure_ok_iff.mp h
      have hopen := hp.opened
      rw [hclosed] at hopen
      cases hopen
  | cons l rest ih =>
      rw [List.foldlM_cons] at h
      obtain ⟨b', hline, hrest⟩ := bind_ok_iff.mp h
      rcases hp.next hs hline (undoomed_of_closed hrest hclosed) with ⟨hscript, hp'⟩ | hjoin
      · obtain ⟨mid, l', after, m', x', d, rfl, hcompleted⟩ := ih hp' (hscript ▸ hs) hrest
        exact ⟨l :: mid, l', after, m', x', d, rfl, hcompleted.cons hline hscript⟩
      · obtain ⟨hword, home, m', x', o, hw, hstated, hj⟩ := hjoin
        obtain ⟨d, hscript, hcompleted, hjoined, hagrees⟩ := hp.joins hstated hj
        refine ⟨[], l, rest, m', x', d, rfl, fun part more hpart => ?_, hword, ?_, hcompleted, hjoined, hagrees⟩
        · obtain ⟨rfl, -⟩ := List.append_eq_nil_iff.mp hpart.symm
          exact ⟨b, rfl, rfl⟩
        · exact ⟨b, b', home, rfl, (Walker.statement_ok hw).1, hstated.read, hline, hscript⟩

theorem Stated.opening {b' : Building} {home line : Text} {o : Origin} {n : Nat} {d : Command}
    (h : Stated b b' home line o m x) (hn : b.out.script.commands.length ≤ n)
    (hd : b'.out.script.commands[n]? = some d) (hcall : d.call.name ∈ relationshipCalls) : Opening m.form := by
  have hnew : b.out.script.commands[n]? = none := List.getElem?_eq_none hn
  have hp := h.placed
  generalize b'.out.script = script' at hp hd
  cases hp with
  | silent =>
      rw [hnew] at hd
      cases hd
  | begun _ hname =>
      rw [Script.append, List.getElem?_append_right hn] at hd
      obtain rfl := List.mem_singleton.mp (List.mem_of_getElem? hd)
      exact (forms_opening _ h.read.form_mem).1.mpr ⟨d.call.name, hcall, hname⟩
  | continued hopen =>
      obtain ⟨before, hbefore, -⟩ := Script.lastOpen_some hopen
      rw [Script.replaceLast, hbefore, List.dropLast_concat, List.getElem?_eq_none (by simpa [hbefore] using hn)] at hd
      cases hd

end Building

theorem travel_closed {fs : List SourceFile} {b : Building} (h : travel standard (stops fs) = .ok b) :
    b.out.script.lastOpen = none := by
  have hfiles := travel_stops standard fs
  rw [h] at hfiles
  exact Output.ofFiles_closed hfiles.symm

theorem exists_underway {done later : List SourceFile} {f : SourceFile} {ls rest : List Line} {b' : Building}
    (h : travel standard (stops (done ++ f :: later)) = .ok b') (hlines : f.lines = ls ++ rest) :
    ∃ b c, travel standard (stopsBefore done f ls) = .ok b ∧ b.out.script.Steady ∧
      rest.foldlM (Building.line standard) b = .ok c ∧ c.out.script.lastOpen = none := by
  obtain ⟨after, hafter⟩ := Stop.Follows.stops (p := .ending) (f := f) rfl done later
  rw [hafter, travel_append] at h
  obtain ⟨c, hc, h⟩ := bind_ok_iff.mp h
  rw [List.foldlM_cons] at h
  obtain ⟨_, hclose, -⟩ := bind_ok_iff.mp h
  obtain ⟨hclosed, -⟩ := closeDomain_closes hclose
  rw [hlines, travel_lines] at hc
  obtain ⟨b, hb, hrest⟩ := bind_ok_iff.mp hc
  refine ⟨b, c, hb, ?_, hrest, hclosed⟩
  have hdone := hb
  rw [stopsBefore, travel_append] at hdone
  obtain ⟨b₀, hb₀, hls⟩ := bind_ok_iff.mp hdone
  rw [foldlM_opening] at hls
  have hclosed₀ : b₀.out.script.lastOpen = none := travel_closed hb₀
  have hstart : (Building.start f.name b₀.out).out.script.Steady := Script.steady_of_closed hclosed₀
  exact (foldlM_line_keeps (r := ()) (fun r _ => r) (fun _ _ => True) (fun _ _ _ _ _ _ _ => trivial) trivial hstart hls
    (undoomed_of_closed hrest hclosed)).1

namespace LinePair

variable {q : LinePair} {fs : List SourceFile} {n : Nat} {tail c : Command}

theorem toSecond_eq (q : LinePair) : q.toSecond = q.toFirst ++ .line q.first :: q.between.map .line := by
  rw [toSecond, stopsBefore_append]
  rfl

/-- Where a stop stands if there are two lines: before the first, at it, between the two, at the second or after it. -/
theorem split {before rest after : List Stop} {p : Stop}
    (h : q.toSecond ++ .line q.second :: rest = before ++ p :: after) :
    (∃ own, q.toFirst = before ++ p :: own) ∨ (before = q.toFirst ∧ p = .line q.first) ∨
    (∃ part l more, q.between = part ++ l :: more ∧ before = q.toFirst ++ .line q.first :: part.map .line ∧ p = .line l) ∨
    (before = q.toSecond ∧ p = .line q.second) ∨ ∃ own, before = q.toSecond ++ .line q.second :: own := by
  rcases append_eq_append_cons h with ⟨own, hown⟩ | ⟨own, rfl, hown⟩
  · rw [toSecond_eq] at hown
    rcases append_eq_append_cons hown with hfirst | ⟨mid, rfl, hmid⟩
    · exact .inl hfirst
    · cases mid with
      | nil =>
          cases hmid
          exact .inr (.inl ⟨List.append_nil _, rfl⟩)
      | cons p₀ mid =>
          obtain ⟨rfl, hbetween⟩ := List.cons_eq_cons.mp hmid
          obtain ⟨part, tail, hpart, rfl, htail⟩ := List.map_eq_append_iff.mp hbetween
          obtain ⟨l, more, rfl, rfl, -⟩ := List.map_eq_cons_iff.mp htail
          exact .inr (.inr (.inl ⟨part, l, more, hpart, rfl, rfl⟩))
  · cases own with
    | nil =>
        cases hown
        exact .inr (.inr (.inr (.inl ⟨List.append_nil _, rfl⟩)))
    | cons p₀ own =>
        obtain ⟨rfl, -⟩ := List.cons_eq_cons.mp hown
        exact .inr (.inr (.inr (.inr ⟨own, rfl⟩)))

/-- A command is touched by no other stop if it is not there before the first of two lines, waits between them and is
complete after the second. -/
theorem streams (hmem : q.In fs) (hbegun : BegunAt standard n q.toFirst (.line q.first))
    (hquiet : ∀ part rest, q.between = part ++ rest →
      written standard (stopsBefore q.done q.file (q.above ++ q.first :: part)) =
        written standard (q.toFirst ++ [.line q.first]))
    (htail : (written standard (q.toFirst ++ [.line q.first])).commands[n]? = some tail)
    (hwaiting : tail.completed = false)
    (hc : (written standard (q.toSecond ++ [.line q.second])).commands[n]? = some c) (hdone : c.completed = true) :
    q.Streams standard fs n := by
  have habsent : (written standard q.toFirst).commands[n]? = none := List.getElem?_eq_none hbegun.absent
  have hsecond : (written standard q.toSecond).commands[n]? = some tail := by
    rw [toSecond, hquiet q.between [] (by rw [List.append_nil]), htail]
  have hbetween (part more : List Line) (hpart : q.between = part ++ more) :
      written standard (q.toFirst ++ .line q.first :: part.map .line) = written standard (q.toFirst ++ [.line q.first]) := by
    rw [← hquiet part more hpart, stopsBefore_append]
    rfl
  obtain ⟨later, below, rfl, hlines⟩ := hmem
  obtain ⟨rest, hrest⟩ := Stop.Follows.stops (p := .line q.second) ⟨below, hlines⟩ q.done later
  refine ⟨⟨later, below, rfl, hlines⟩, hbegun, hquiet, fun before p after hstops => ⟨fun hne => ?_, ?_⟩⟩
  · rcases split (hrest.symm.trans hstops) with
      ⟨own, hown⟩ | ⟨rfl, -⟩ | ⟨part, l, more, hpart, rfl, rfl⟩ | ⟨rfl, -⟩ | ⟨own, rfl⟩
    · -- the command is not there yet
      rw [hown] at habsent
      rw [List.append_cons] at habsent
      refine absurd ?_ hne
      rw [written_absent own habsent, written_absent [p] (written_absent own habsent)]
    · exact .inl rfl
    · -- the command waits
      have hnext := hbetween (part ++ [l]) more (by rw [hpart, List.append_assoc, List.singleton_append])
      rw [List.map_append, ← List.cons_append, ← List.append_assoc] at hnext
      refine absurd ?_ hne
      rw [hbetween part _ hpart]
      exact congrArg (·.commands[n]?) hnext.symm
    · exact .inr rfl
    · -- the command is complete
      refine absurd ?_ hne
      rw [List.append_cons, List.append_assoc (_ ++ _), written_settles _ _ n c hc hdone,
        written_settles _ _ n c hc hdone]
  · rintro (rfl | rfl)
    · obtain rfl : p = .line q.first := by
        rw [hrest, show stopsBefore _ _ _ = q.toSecond from rfl, toSecond_eq, List.append_assoc] at hstops
        exact (List.cons.inj (List.append_cancel_left hstops)).1.symm
      rw [habsent, htail]
      exact nofun
    · obtain rfl : p = .line q.second := by
        rw [hrest] at hstops
        exact (List.cons.inj (List.append_cancel_left hstops)).1.symm
      rw [hsecond, hc]
      intro hsame
      rw [Option.some.inj hsame, hdone] at hwaiting
      cases hwaiting

end LinePair

theorem Stop.Begins.exists_statement {p : Stop} {ls : List Line} {c : Command} (h : p.Begins ls c)
    (hcall : c.call.name ∉ derivedCalls) : ∃ l, p = .line l ∧ Section.header? l.trimmed = none := by
  rw [Stop.Begins] at h
  cases p with
  | opening f =>
      obtain ⟨_, -, hderived, -⟩ := h
      exact absurd hderived hcall
  | ending =>
      obtain ⟨_, -, hderived, -⟩ := h
      exact absurd hderived hcall
  | line l =>
      cases hword : Section.header? l.trimmed with
      | none => exact ⟨l, rfl, hword⟩
      | some word =>
          rw [show Stop.statement? (.line l) = none by simp [Stop.statement?, hword]] at h
          obtain ⟨_, -, hderived, -⟩ := h
          exact absurd hderived hcall

/-- A build that has read the first line of a relationship and gets to the end of the file. -/
structure Opened (n : Nat) (done : List SourceFile) (f : SourceFile) (ls : List Line) (l : Line) (rest : List Line)
    (b : Building) (m : Matched) (x : Extraction) (tail : Command) : Prop where
  lines : f.lines = ls ++ l :: rest
  begun : BegunAt standard n (stopsBefore done f ls) (.line l)
  reads : (Outline.ofLines ls).Reads l m x
  built : travel standard (stopsBefore done f (ls ++ [l])) = .ok b
  pending : b.Pending m x tail
  steady : b.out.script.Steady
  last : b.out.script.commands.length = n + 1
  ends : ∃ c, rest.foldlM (Building.line standard) b = .ok c ∧ c.out.script.lastOpen = none

theorem stopsBefore_concat (done : List SourceFile) (f : SourceFile) (ls : List Line) (l : Line) :
    stopsBefore done f (ls ++ [l]) = stopsBefore done f ls ++ [.line l] :=
  stopsBefore_append ..

theorem exists_opened {fs : List SourceFile} {n : Nat} {c : Command} {b' : Building}
    (h : travel standard (stops fs) = .ok b') (hc : (written standard (stops fs)).commands[n]? = some c)
    (hcall : c.call.name ∈ relationshipCalls) :
    ∃ done f later ls l rest b m x tail, fs = done ++ f :: later ∧ Opened n done f ls l rest b m x tail := by
  obtain ⟨done, f, later, ls, p, rfl, hp, hbegun⟩ := exists_begun_stop (List.getElem?_eq_some_iff.mp hc).1
  obtain ⟨d, hd⟩ : ∃ d, (written standard (stopsBefore done f ls ++ [p])).commands[n]? = some d :=
    ⟨_, List.getElem?_eq_getElem hbegun.present⟩
  obtain ⟨after, hafter⟩ := hp.stops done later
  rw [hafter, List.append_cons] at hc
  obtain ⟨c', hc', hcalls, -⟩ := written_grows _ after n d hd
  obtain rfl : c' = c := Option.some.inj (hc'.symm.trans hc)
  rw [hcalls] at hcall
  -- the end of a domain begins no relationship, so the stop is a statement
  have hunderived : d.call.name ∉ derivedCalls := by
    have hall : ∀ name ∈ relationshipCalls, name ∉ derivedCalls := by decide
    exact hall _ hcall
  obtain ⟨l, rfl, hword⟩ := (hbegun.begins hd).exists_statement hunderived
  obtain ⟨rest, hlines⟩ := hp
  -- the lines behind it are built to the end of the file
  obtain ⟨b, cEnd, hb, hs, hrest, hclosed⟩ := exists_underway h hlines
  rw [List.foldlM_cons] at hrest
  obtain ⟨b₁, hline, hrest⟩ := bind_ok_iff.mp hrest
  have htravel : travel standard (stopsBefore done f (ls ++ [l])) = .ok b₁ := by
    rw [travel_lines, hb]
    exact bind_ok_iff.mpr ⟨b, rfl, by rw [List.foldlM_cons, hline]; rfl⟩
  rw [← stopsBefore_concat, written_of_travel htravel] at hd
  have habsent := hbegun.absent
  rw [written_of_travel hb] at habsent
  rcases line_ok hline with ⟨word, hword', -⟩ | ⟨-, hstatement⟩
  · rw [hword] at hword'
    cases hword'
  · obtain ⟨home, m, x, hw, hstated⟩ := statement_stated hs hstatement (undoomed_of_closed hrest hclosed)
    obtain ⟨tail, -, hscript, hpending⟩ := hstated.pending (hstated.opening habsent hd hcall)
    have hhome : (Outline.ofLines ls).home = some home := (travel_tracks hb).home.symm.trans (Walker.statement_ok hw).1
    -- the command that has just been begun is the last one
    have hlast : b₁.out.script.commands.length = n + 1 := by
      obtain ⟨hn, -⟩ := List.getElem?_eq_some_iff.mp hd
      rw [hscript, Script.append, List.length_append, List.length_singleton] at hn ⊢
      omega
    have hsteady := (hstated.read.steady hstated.placed hs).resolve_right hstated.undoomed
    exact ⟨done, f, later, ls, l, rest, b₁, m, x, tail, rfl, hlines, hbegun, ⟨hword, home, hhome, hstated.read⟩, htravel,
      hpending, hsteady, hlast, cEnd, hrest, hclosed⟩

theorem Opened.streams {done : List SourceFile} {f : SourceFile} {ls rest : List Line} {l : Line} {b : Building}
    {m : Matched} {x : Extraction} {tail : Command} {n : Nat} (h : Opened n done f ls l rest b m x tail)
    (later : List SourceFile) : ∃ q m' x' c, LinePair.Streams q standard (done ++ f :: later) n ∧
      (Outline.ofLines q.above).Reads q.first m x ∧
      (Outline.ofLines (q.above ++ q.first :: q.between)).Reads q.second m' x' ∧
      (written standard (q.toSecond ++ [.line q.second])).commands[n]? = some c ∧ c.completed = true ∧
      Joined x x' c ∧ Agrees m m' c := by
  obtain ⟨cEnd, hrest, hclosed⟩ := h.ends
  obtain ⟨mid, l', after, m', x', c, rfl, hcompleted⟩ := h.pending.completes h.steady hrest hclosed
  obtain ⟨b₁, b₂, home, hmid, hhome, hread, hline, hscript⟩ := hcompleted.built
  -- the build between the two lines, as a walk from the beginning
  have hbetween {part : List Line} {b₀ : Building} (hpart : part.foldlM (line standard) b = .ok b₀) :
      travel standard (stopsBefore done f (ls ++ l :: part)) = .ok b₀ := by
    rw [List.append_cons, travel_lines, h.built]
    exact hpart
  have hsecond : travel standard (stopsBefore done f (ls ++ l :: mid) ++ [.line l']) = .ok b₂ := by
    rw [travel_append, hbetween hmid]
    exact bind_ok_iff.mpr ⟨b₁, rfl, by rw [List.foldlM_cons]; exact bind_ok_iff.mpr ⟨b₂, hline, rfl⟩⟩
  have hc : (written standard (stopsBefore done f (ls ++ l :: mid) ++ [.line l'])).commands[n]? = some c := by
    rw [written_of_travel hsecond, hscript]
    exact (Script.getElem?_last h.pending.opened h.last c).2
  have hfirst : written standard (stopsBefore done f ls ++ [.line l]) = b.out.script := by
    rw [← stopsBefore_concat, written_of_travel h.built]
  obtain ⟨-, -, hwaiting⟩ := Script.lastOpen_some h.pending.opened
  have htail := (Script.getElem?_last h.pending.opened h.last c).1
  refine ⟨⟨done, f, ls, l, mid, l'⟩, m', x', c, ?_, h.reads, ⟨hcompleted.plain, home, ?_, hread⟩, hc,
    hcompleted.completed, hcompleted.joined, hcompleted.agrees⟩
  · refine LinePair.streams ⟨later, after, rfl, by rw [h.lines]; simp⟩ h.begun (fun part more hpart => ?_)
      (by rw [show LinePair.toFirst _ = stopsBefore done f ls from rfl, hfirst]; exact htail) hwaiting hc
      hcompleted.completed
    obtain ⟨b₀, hb₀, hsame⟩ := hcompleted.quiet part more hpart
    exact (written_of_travel (hbetween hb₀)).trans (hsame.trans hfirst.symm)
  · exact (travel_tracks (hbetween hmid)).home.symm.trans hhome

/-- A command comes from two lines of a file that say these two things, and has nothing but its context besides. -/
def ToldBy (s : Schema) (fs : List SourceFile) (n : Nat) (c : Command) (m m' : Matched) : Prop :=
  ∃ q x x', LinePair.Streams q s fs n ∧ (Outline.ofLines q.above).Reads q.first m x ∧
    (Outline.ofLines (q.above ++ q.first :: q.between)).Reads q.second m' x' ∧ Joined x x' c

theorem exists_toldBy {fs : List SourceFile} {n : Nat} {c : Command} {b' : Building}
    (h : travel standard (stops fs) = .ok b') (hc : (written standard (stops fs)).commands[n]? = some c)
    (hcall : c.call.name ∈ relationshipCalls) : ∃ m m', ToldBy standard fs n c m m' ∧ Agrees m m' c := by
  obtain ⟨done, f, later, ls, l, rest, b, m, x, tail, rfl, hopened⟩ := exists_opened h hc hcall
  obtain ⟨q, m', x', c', hstreams, hfirst, hsecond, hc', hcompleted, hjoined, hagrees⟩ := hopened.streams later
  obtain rfl : c' = c := by
    obtain ⟨later', below, hfs, hlines⟩ := hstreams.mem
    obtain ⟨after, hafter⟩ := Stop.Follows.stops (p := .line q.second) ⟨below, hlines⟩ q.done later'
    rw [hfs, hafter, List.append_cons] at hc
    exact Option.some.inj ((written_settles _ after n c' hc' hcompleted).symm.trans hc)
  exact ⟨m, m', ⟨q, x, x', hstreams, hfirst, hsecond, hjoined⟩, hagrees⟩

namespace Compiled

/-- The relationships of a complete compilation, each from its own two lines. -/
theorem compile_streamed {s : Schema} {fs : List SourceFile} {n : Nat} {c : Command} (hs : Schema.default = .ok s)
    (hc : (compile s fs).ending = .complete) (hn : (compile s fs).script.commands[n]? = some c) :
    (c.call.name = ("new_bin_rel" : Text) → ∃ m m', ToldBy s fs n c m m' ∧
      m.form.kind = .activePerspective ∧ m'.form.kind = .passivePerspective ∧
      c.value? "p_class" = some (.text (m'.text "p_view")) ∧ c.value? "a_class" = some (.text (m'.text "a_view"))) ∧
    (c.call.name = ("new_gen" : Text) → ∃ m m', ToldBy s fs n c m m' ∧
      m.form.kind = .superclass ∧ m'.form.kind = .subclasses ∧
      ∃ superclass subs, c.value? "superclass" = some (.text superclass) ∧
        c.value? "subclasses" = some (.texts subs) ∧ superclass ∉ subs) := by
  rw [Schema.default_eq_standard] at hs
  cases hs
  obtain ⟨out, hout, hscript⟩ := compile_complete hc
  rw [← travel_stops] at hout
  obtain ⟨b, hb, rfl⟩ := map_ok_iff.mp hout
  rw [hscript, ← written_of_travel hb] at hn
  have hne : ("new_gen" : Text) ≠ "new_bin_rel" := by decide
  refine ⟨fun hcall => ?_, fun hcall => ?_⟩
  · obtain ⟨m, m', htold, hagrees⟩ := exists_toldBy hb hn (by rw [hcall]; decide)
    cases hagrees with
    | association _ hk hk' hp ha => exact ⟨m, m', htold, hk, hk', hp, ha⟩
    | generalization hgen => exact absurd (hgen.symm.trans hcall) hne
  · obtain ⟨m, m', htold, hagrees⟩ := exists_toldBy hb hn (by rw [hcall]; decide)
    cases hagrees with
    | association hbin => exact absurd (hcall.symm.trans hbin) hne
    | generalization _ hk hk' hsuper hsubs hnot => exact ⟨m, m', htold, hk, hk', _, _, hsuper, hsubs, hnot⟩

/-- Two classes and an association between them, with a reference between its two lines. -/
def heldRank : SourceFile :=
  .ofBytes "held_rank.mi" ("domain\nAir Traffic / ATC\nsubsystem\nAir Field / AF 1-50\nclasses\nPilot / P\n" ++
    "Name : name / I\nRank / RK\nTitle : name / I\nrelationships\nR1 : Pilot / holds >0 Rank\nsubsystem\nclasses\n" ++
    "Holder -> Pilot.Name, R1\nrelationships\nRank / is held by >> Pilot\n")

theorem compile_streamed_heldRank : Schema.default = .ok standard ∧
    (compile standard [heldRank]).ending = .complete ∧
    ∃ c, (compile standard [heldRank]).script.commands[6]? = some c ∧ c.call.name = ("new_bin_rel" : Text) ∧
      ∃ m m', ToldBy standard [heldRank] 6 c m m' ∧
        m.form.kind = .activePerspective ∧ m'.form.kind = .passivePerspective ∧
        c.value? "p_class" = some (.text (m'.text "p_view")) ∧ c.value? "a_class" = some (.text (m'.text "a_view")) := by
  obtain ⟨hc, hcall⟩ : (compile standard [heldRank]).ending = .complete ∧
      (compile standard [heldRank]).script.commands[6]?.map (·.call.name) = some ("new_bin_rel" : Text) := by
    decide +kernel
  obtain ⟨c, hn, hname⟩ := Option.map_eq_some_iff.mp hcall
  exact ⟨Schema.default_eq_standard, hc, c, hn, hname, (compile_streamed Schema.default_eq_standard hc hn).1 hname⟩

end Compiled

end Population

import Population.Proofs.Compile.Trace

namespace Population

open Schema Extraction Statement Building

/-- The statements of the first lines of a file, last first, and the section that the next line stands in. -/
structure Outline where
  home : Option Section
  statements : List Matched

namespace Outline

def start : Outline :=
  ⟨none, []⟩

def add (r : Outline) (m : Matched) : Outline :=
  { r with statements := m :: r.statements }

def line (r : Outline) (l : Line) : Outline :=
  match Section.header? l.trimmed, r.home with
  | some word, _ => match Section.ofName? word with
    | some home => { r with home := some home }
    | none => r
  | none, some home => match matchLine home.name l.trimmed with
    | .ok m => r.add m
    | .error _ => r
  | none, none => r

def ofLines (ls : List Line) : Outline :=
  ls.foldl line start

def nameOn (k : StatementKind) (ms : List Matched) : Option Text :=
  (ms.find? (·.form.kind = k)).map (·.text "name")

/-- The name on the last domain statement. -/
def domain (r : Outline) : Option Text :=
  nameOn .domain r.statements

/-- The name on the last subsystem statement after the last domain statement. -/
def subsystem (r : Outline) : Option Text :=
  nameOn .subsystem (r.statements.takeWhile (·.form.kind ≠ .domain))

/-- The name on the last class statement after the last domain and subsystem statements. -/
def innerClass (r : Outline) : Option Text :=
  nameOn .classDef (r.statements.takeWhile fun m => m.form.kind ≠ .domain && m.form.kind ≠ .subsystem)

def scope (r : Outline) : Scope :=
  ⟨r.domain.map .text, r.subsystem.map .text, r.innerClass.map .text⟩

theorem line_header {r : Outline} {l : Line} {word : Text} {home : Section}
    (hword : Section.header? l.trimmed = some word) (hhome : Section.ofName? word = some home) :
    r.line l = { r with home := some home } := by
  simp only [line, hword, hhome]

theorem line_statement {r : Outline} {l : Line} {home : Section} {m : Matched}
    (hword : Section.header? l.trimmed = none) (hhome : r.home = some home)
    (hm : matchLine home.name l.trimmed = .ok m) : r.line l = r.add m := by
  simp only [line, hword, hhome, hm]

theorem ofLines_concat (ls : List Line) (l : Line) : ofLines (ls ++ [l]) = (ofLines ls).line l :=
  List.foldl_concat ..

/-- A statement that names a domain, a subsystem or a class leaves what was inside the one before it. -/
theorem scope_add (r : Outline) (m : Matched) : (r.add m).scope = match m.form.kind with
    | .domain => ⟨some (.text (m.text "name")), none, none⟩
    | .subsystem => ⟨r.scope.domain, some (.text (m.text "name")), none⟩
    | .classDef => ⟨r.scope.domain, r.scope.subsystem, some (.text (m.text "name"))⟩
    | _ => r.scope := by
  cases hk : m.form.kind <;>
    simp [scope, domain, subsystem, innerClass, add, nameOn, hk]

theorem domain_add (r : Outline) (m : Matched) :
    (r.add m).domain = if m.form.kind = .domain then some (m.text "name") else r.domain := by
  by_cases hk : m.form.kind = .domain <;> simp [domain, add, nameOn, hk]

end Outline

/-- A statement other than a domain statement stays in the domain, open or closed. -/
theorem Analyzer.handle_domain {a a' : Analyzer} {st : Statement} (h : a.handle st = (a', none))
    (hk : st.kind ≠ some .domain) : a'.domain = a.domain ∧ a'.active = a.active := by
  have hhandled := handle_handled a st
  rw [h] at hhandled
  cases hhandled with
  | domain hkind => exact absurd hkind hk
  | passed | subsystem | classDef | ownAttribute | reference | relationship => exact ⟨rfl, rfl⟩

/-- A build stands where the lines of its file say. -/
structure Building.Tracks (b : Building) (r : Outline) : Prop where
  home : b.walker.current = r.home
  scope : b.scope = r.scope
  analyzer : b.analyzer.active = true → r.domain = some b.analyzer.domain

namespace Building.Tracks

variable {r : Outline} {b b' : Building} {l : Line}

theorem start (file : Text) (out : Output) : (Building.start file out).Tracks .start :=
  ⟨rfl, rfl, nofun⟩

theorem scope_add (h : b.Tracks r) {home line : Text} {m : Matched} {x : Extraction} {scope : Scope}
    (hread : Read home line m x) (hscope : x.applyScope b.scope = .ok scope) : scope = (r.add m).scope := by
  have hset := hread.scope_eq hscope
  have hadd := r.scope_add m
  rw [h.scope] at hset
  cases hk : m.form.kind <;> rw [hk] at hset hadd <;> exact hset.trans hadd.symm

theorem statement (h : b.Tracks r) (hword : Section.header? l.trimmed = none) (hb : b.statement standard l = .ok b') :
    b'.Tracks (r.line l) := by
  obtain ⟨home, walker, m, cs, x, scope, analyzer, hw, hm, hcs, hx, hscope, ha, hasm⟩ := statement_ok hb
  obtain ⟨-, rfl, rfl, rfl, -⟩ := assemble_placed hasm
  have hread := read_of_captures hm hcs hx
  obtain ⟨hhome, hhome', -⟩ := Walker.statement_ok hw
  rw [Outline.line_statement hword (h.home.symm.trans hhome) hm]
  refine ⟨hhome'.trans (hhome.symm.trans h.home), h.scope_add hread hscope, fun hactive => ?_⟩
  rw [Outline.domain_add]
  split
  next hk =>
      rw [hk] at ha
      have hname : ("name" : Text) ∈ textNames m.form.kind := by
        rw [hk]
        decide
      rw [← (Prod.mk.inj ha).1, ← hread.text_eq hname]
      rfl
  next hk =>
      obtain ⟨hdomain, hsame⟩ := Analyzer.handle_domain ha fun hkind => hk (Option.some.inj hkind)
      rw [hdomain]
      exact h.analyzer (hsame ▸ hactive)

theorem header (h : b.Tracks r) {word : Text} (hword : Section.header? l.trimmed = some word)
    (hb : b.header standard l word = .ok b') : b'.Tracks (r.line l) := by
  obtain ⟨home, walker, c, hw, hc, rfl⟩ := header_ok hb
  obtain ⟨hname, rfl⟩ := Walker.enter_ok hw
  rw [Outline.line_header hword hname]
  rcases hc with ⟨-, hc⟩ | ⟨-, rfl⟩
  · obtain ⟨-, -, hcloses⟩ := closeDomain_closes hc
    cases hcloses with
    | idle _ hext =>
        refine ⟨congrArg Walker.current hext.walker, hext.scope.trans h.scope, fun hactive => ?_⟩
        rw [show (c.note _ _ _).analyzer = b.analyzer from hext.analyzer] at hactive ⊢
        exact h.analyzer hactive
    | emits _ _ _ hext =>
        refine ⟨congrArg Walker.current hext.walker, hext.scope.trans h.scope, fun hactive => ?_⟩
        have hclosed : c.analyzer.active = false := congrArg Analyzer.active hext.analyzer
        rw [show (c.note _ _ _).analyzer.active = false from hclosed] at hactive
        cases hactive
  · exact ⟨rfl, h.scope, h.analyzer⟩

theorem line (h : b.Tracks r) (hb : b.line standard l = .ok b') : b'.Tracks (r.line l) := by
  rcases line_ok hb with ⟨word, hword, hb⟩ | ⟨hword, hb⟩
  · exact h.header hword hb
  · exact h.statement hword hb

end Building.Tracks

/-- A build that has come to a line of a file stands where the lines before it say. -/
theorem travel_tracks {before : List SourceFile} {f : SourceFile} {ls : List Line} {b : Building}
    (h : travel standard (stopsBefore before f ls) = .ok b) : b.Tracks (.ofLines ls) := by
  rw [stopsBefore, travel_append] at h
  obtain ⟨b₀, -, h⟩ := bind_ok_iff.mp h
  rw [foldlM_opening] at h
  exact foldlM_follows Outline.line (fun r b => b.Tracks r) h (.start f.name b₀.out) fun _ _ _ _ hb hline => hb.line hline

theorem Script.getElem?_replaceLast {script : Script} {tail d : Command} {n : Nat} (hopen : script.lastOpen = some tail)
    (c : Command) (hd : script.commands[n]? = some d) :
    (script.replaceLast c).commands[n]? = some d ∨ d = tail ∧ (script.replaceLast c).commands[n]? = some c := by
  obtain ⟨before, hbefore, -⟩ := Script.lastOpen_some hopen
  rw [hbefore] at hd
  rw [Script.replaceLast, hbefore, List.dropLast_concat]
  by_cases hn : n < before.length
  · rw [List.getElem?_append_left hn] at hd ⊢
    exact .inl hd
  · obtain ⟨hle, -⟩ := List.getElem?_eq_some_iff.mp hd
    obtain rfl : n = before.length := by
      rw [List.length_append, List.length_singleton] at hle
      omega
    rw [List.getElem?_concat_length] at hd ⊢
    exact .inr ⟨(Option.some.inj hd).symm, rfl⟩

/-- Commands keep their calls and what they have from their context. -/
def Script.Grows (script script' : Script) : Prop :=
  ∀ (n : Nat) (c : Command), script.commands[n]? = some c → ∃ c' : Command, script'.commands[n]? = some c' ∧
    c'.call = c.call ∧ ∀ name ∈ Level.names, c'.value? name = c.value? name

namespace Script.Grows

variable {script script' : Script}

theorem refl (script : Script) : script.Grows script :=
  fun _ c hc => ⟨c, hc, rfl, fun _ _ => rfl⟩

theorem trans (script₁ script₂ script₃ : Script) (h₁ : script₁.Grows script₂) (h₂ : script₂.Grows script₃) :
    script₁.Grows script₃ := by
  intro n c hc
  obtain ⟨c₂, hc₂, hcall₂, hvalue₂⟩ := h₁ n c hc
  obtain ⟨c₃, hc₃, hcall₃, hvalue₃⟩ := h₂ n c₂ hc₂
  exact ⟨c₃, hc₃, hcall₃.trans hcall₂, fun name hname => (hvalue₃ name hname).trans (hvalue₂ name hname)⟩

theorem append (script : Script) (cs : List Command) : script.Grows ⟨script.commands ++ cs⟩ := by
  intro n c hc
  obtain ⟨hn, -⟩ := List.getElem?_eq_some_iff.mp hc
  exact ⟨c, by rw [List.getElem?_append_left hn, hc], rfl, fun _ _ => rfl⟩

theorem replaceLast {tail c : Command} (hopen : script.lastOpen = some tail) (hcall : c.call = tail.call)
    (hvalue : ∀ name ∈ Level.names, c.value? name = tail.value? name) : script.Grows (script.replaceLast c) := by
  intro n d hd
  rcases Script.getElem?_replaceLast hopen c hd with hsame | ⟨rfl, hlast⟩
  · exact ⟨d, hsame, rfl, fun _ _ => rfl⟩
  · exact ⟨c, hlast, hcall, hvalue⟩

end Script.Grows

theorem Building.Moved.grows {b : Building} {p : Stop} {script : Script} (h : b.Moved p script) :
    b.out.script.Grows script := by
  cases h with
  | same => exact .refl _
  | derived => exact .append _ _
  | placed _ _ hread _ hplaced =>
      cases hplaced with
      | silent => exact .refl _
      | begun => exact .append _ _
      | continued hopen _ hcall _ _ hvalue =>
          refine .replaceLast hopen hcall fun name hname => ?_
          rw [hvalue, hread.params_no_level hname, Option.none_or]

theorem written_grows (ps qs : List Stop) : (written standard ps).Grows (written standard (ps ++ qs)) :=
  written_related Script.Grows.refl Script.Grows.trans (fun b p => (visit_moved b p).grows) ps qs

/-- What a command begun by a statement has from its context: the lines before the statement and the statement. -/
structure InContext (ls : List Line) (l : Line) (c : Command) : Prop where
  domain : c.call.hasParam "domain" → c.value? "domain" = (Outline.ofLines (ls ++ [l])).domain.map .text
  subsystem : c.call.hasParam "subsystem" → c.value? "subsystem" = (Outline.ofLines (ls ++ [l])).subsystem.map .text
  innerClass : c.call.name = ("new_ind_attr" : Text) → c.value? "class" = (Outline.ofLines ls).innerClass.map .text

def Stop.statement? : Stop → Option Line
  | .line l => if (Section.header? l.trimmed).isNone then some l else none
  | .opening _ | .ending => none

def Stop.Begins (p : Stop) (ls : List Line) (c : Command) : Prop :=
  match p.statement? with
  | some l => c.call.name ∉ derivedCalls ∧ InContext ls l c
  | none => ∃ domain, (Outline.ofLines ls).domain = some domain ∧ DerivedFrom domain c

theorem get?_subsystem (s : Scope) : s.get? "subsystem" = s.subsystem := by
  rw [Scope.get?, show Level.ofName? "subsystem" = some .subsystem by decide]
  rfl

namespace Building

variable {b : Building} {ls : List Line} {c : Command} {script : Script}

theorem Tracks.inContext (h : b.Tracks (.ofLines ls)) {l : Line} {home : Section} {m : Matched} {x : Extraction}
    {scope : Scope} (hword : Section.header? l.trimmed = none) (hhome : b.walker.current = some home)
    (hread : Read home.name l.trimmed m x) (hscope : x.applyScope b.scope = .ok scope)
    (hcall : m.form.call = some c.call.name) (hk : standard.call? c.call.name = some c.call)
    (hvalue : ∀ n, c.value? n = (valueOf x.params n).or (if c.call.hasParam n then scope.get? n else none)) :
    InContext ls l c := by
  have hvalue {n : Text} (hn : n ∈ Level.names) (hp : c.call.hasParam n = true) : c.value? n = scope.get? n := by
    rw [hvalue, hread.params_no_level hn, Option.none_or, if_pos hp]
  have hafter : scope = (Outline.ofLines (ls ++ [l])).scope := by
    rw [Outline.ofLines_concat, Outline.line_statement hword (h.home.symm.trans hhome) hread.matched]
    exact h.scope_add hread hscope
  refine ⟨fun hp => ?_, fun hp => ?_, fun hname => ?_⟩
  · rw [hvalue (by decide) hp, get?_domain, hafter]
    rfl
  · rw [hvalue (by decide) hp, get?_subsystem, hafter]
    rfl
  · have hparam : c.call.hasParam "class" = true := by
      rw [hname] at hk
      rw [← Option.some.inj hk]
      decide
    have hkind : m.form.kind = .ownAttribute := by
      rw [(forms_begins _ hread.form_mem).2.1, hname] at hcall
      exact StatementKind.begins_inj hcall rfl
    have hsame := hread.scope_eq hscope
    rw [hkind] at hsame
    rw [hvalue (by decide) hparam, get?_class, hsame, h.scope]
    rfl

theorem Moved.begins {p : Stop} (hm : b.Moved p script) (h : b.Tracks (.ofLines ls)) {n : Nat}
    (hn : b.out.script.commands.length ≤ n) (hc : script.commands[n]? = some c) : p.Begins ls c := by
  have hnew : b.out.script.commands[n]? = none := List.getElem?_eq_none hn
  cases hm with
  | same =>
      rw [hnew] at hc
      cases hc
  -- a derived command comes from the end of a domain, which is no statement
  | derived hstop hactive hcs =>
      rw [List.getElem?_append_right hn] at hc
      have hderived := hcs c (List.mem_of_getElem? hc)
      have hnone : p.statement? = none := by
        rcases hstop with rfl | ⟨l, word, rfl, hword⟩
        · rfl
        · simp [Stop.statement?, hword]
      rw [Stop.Begins, hnone]
      exact ⟨_, h.analyzer hactive, hderived⟩
  | @placed l home m x scope _ hword hhome hread hscope hplaced =>
      rw [Stop.Begins, show Stop.statement? (.line l) = some l by simp [Stop.statement?, hword]]
      cases hplaced with
      | silent =>
          rw [hnew] at hc
          cases hc
      | @begun d _ hcall hk _ hvalue =>
          rw [Script.append, List.getElem?_append_right hn] at hc
          obtain rfl := List.mem_singleton.mp (List.mem_of_getElem? hc)
          refine ⟨?_, h.inContext hword hhome hread hscope hcall hk hvalue⟩
          rw [(forms_begins _ hread.form_mem).2.1] at hcall
          exact (StatementKind.begins_calls hcall).2.2
      | continued hopen =>
          -- an open command is replaced in its place, so none is new
          obtain ⟨before, hbefore, -⟩ := Script.lastOpen_some hopen
          rw [Script.replaceLast, hbefore, List.dropLast_concat, List.getElem?_eq_none (by simpa [hbefore] using hn)] at hc
          cases hc

end Building

theorem Stop.Begins.of_grows {p : Stop} {ls : List Line} {c c' : Command} (h : p.Begins ls c) (hcall : c'.call = c.call)
    (hvalue : ∀ name ∈ Level.names, c'.value? name = c.value? name) : p.Begins ls c' := by
  have hdomain := hvalue "domain" (by decide)
  rw [Stop.Begins] at h ⊢
  split at h
  next l _ =>
      refine ⟨hcall ▸ h.1, ⟨fun hp => ?_, fun hp => ?_, fun hname => ?_⟩⟩
      · rw [hdomain]
        exact h.2.domain (hcall ▸ hp)
      · rw [hvalue "subsystem" (by decide)]
        exact h.2.subsystem (hcall ▸ hp)
      · rw [hvalue "class" (by decide)]
        exact h.2.innerClass (hcall ▸ hname)
  next =>
      obtain ⟨domain, hlast, hname, hvalue⟩ := h
      exact ⟨domain, hlast, hcall ▸ hname, hdomain.trans hvalue⟩

/-- Every command is begun at a line or the end of a file. -/
theorem exists_begun_stop {fs : List SourceFile} {n : Nat} (hn : n < (written standard (stops fs)).commands.length) :
    ∃ before f after ls p, fs = before ++ f :: after ∧ p.Follows f ls ∧
      BegunAt standard n (stopsBefore before f ls) p := by
  obtain ⟨before, p, after, hstops, hbegun⟩ := exists_begunAt hn
  obtain ⟨done, f, rest, rfl, ⟨rfl, rfl⟩ | ⟨ls, rfl, hp⟩⟩ := stops_split hstops
  · -- opening a file leaves the script alone
    obtain ⟨b, -, hb, hopened⟩ := hbegun.travel
    obtain ⟨habsent, hpresent⟩ := hbegun
    rw [hb] at habsent
    rw [hopened] at hpresent
    exact absurd hpresent (Nat.not_lt.mpr habsent)
  · exact ⟨done, f, rest, ls, p, rfl, hp, hbegun⟩

theorem BegunAt.begins {before : List SourceFile} {f : SourceFile} {ls : List Line} {p : Stop} {n : Nat} {c : Command}
    (h : BegunAt standard n (stopsBefore before f ls) p)
    (hc : (written standard (stopsBefore before f ls ++ [p])).commands[n]? = some c) : p.Begins ls c := by
  obtain ⟨b, htravel, hb, hafter⟩ := h.travel
  have habsent := h.absent
  rw [hb] at habsent
  rw [hafter] at hc
  exact (visit_moved b p).begins (travel_tracks htravel) habsent hc

namespace Compiled

/-- Every command is begun at some stop of a file, and its context is what the lines before that stop say. -/
theorem build_context {s : Schema} {fs : List SourceFile} {n : Nat} {c : Command} (hs : Schema.default = .ok s)
    (hc : (build s fs).script.commands[n]? = some c) :
    (∃ before f after ls p, fs = before ++ f :: after ∧ p.Follows f ls ∧ BegunAt s n (stopsBefore before f ls) p) ∧
    ∀ before f after ls p, fs = before ++ f :: after → p.Follows f ls → BegunAt s n (stopsBefore before f ls) p →
      p.Begins ls c := by
  rw [Schema.default_eq_standard] at hs
  cases hs
  rw [← written_stops] at hc
  refine ⟨exists_begun_stop (List.getElem?_eq_some_iff.mp hc).1, fun before f after ls p hfs hp hbegun => ?_⟩
  obtain ⟨c₀, hc₀⟩ : ∃ c₀, (written standard (stopsBefore before f ls ++ [p])).commands[n]? = some c₀ :=
    ⟨_, List.getElem?_eq_getElem hbegun.present⟩
  obtain ⟨rest, hrest⟩ := hp.stops before after
  obtain ⟨c', hc', hcall, hvalue⟩ := written_grows (stopsBefore before f ls ++ [p]) rest n c₀ hc₀
  rw [List.append_assoc, List.singleton_append, ← hrest, ← hfs, hc] at hc'
  cases hc'
  exact (hbegun.begins hc₀).of_grows hcall hvalue

/-- A file that names a domain, and one with a type outside of domains. -/
def strayType : List SourceFile :=
  [.ofBytes "air_traffic.mi" "domain\nAir Traffic / ATC\n", .ofBytes "stray.mi" "domain\ntypes\nCount : integer\n"]

theorem build_context_strayType : Schema.default = .ok standard ∧
    ∃ c, (build standard strayType).script.commands[1]? = some c ∧ c.call.name = ("new_type" : Text) ∧
      c.call.hasParam "domain" ∧ (c.value? "domain").isNone ∧
      (∃ before f after ls p, strayType = before ++ f :: after ∧ p.Follows f ls ∧
        BegunAt standard 1 (stopsBefore before f ls) p) ∧
      ∀ before f after ls p, strayType = before ++ f :: after → p.Follows f ls →
        BegunAt standard 1 (stopsBefore before f ls) p → p.Begins ls c := by
  obtain ⟨c, hc, hname, hparam, hnone⟩ : ∃ c, (build standard strayType).script.commands[1]? = some c ∧
      c.call.name = ("new_type" : Text) ∧ c.call.hasParam "domain" ∧ (c.value? "domain").isNone := by
    have h : ((build standard strayType).script.commands[1]?.any fun c => c.call.name = ("new_type" : Text) &&
        (c.call.hasParam "domain" && (c.value? "domain").isNone)) = true := by
      decide +kernel
    obtain ⟨c, hc, h⟩ := Option.any_eq_true _ _ |>.mp h
    simp only [Bool.and_eq_true, decide_eq_true_eq] at h
    exact ⟨c, hc, h⟩
  exact ⟨Schema.default_eq_standard, c, hc, hname, hparam, hnone, build_context Schema.default_eq_standard hc⟩

end Compiled

end Population

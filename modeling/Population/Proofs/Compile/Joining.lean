import Population.Proofs.Compile.Lines
import Population.Proofs.Script.Scope

namespace Population

open Schema Extraction Statement

namespace Analyzer

variable {a : Analyzer} {st : Statement}

theorem checkPassive_ok (h : a.checkPassive st = .ok ()) :
    ∃ r, a.last = some r ∧ r.ends = .association (st.text "a_view") (st.text "p_view") := by
  rw [checkPassive] at h
  split at h
  next rnum active passive subsystem o hlast =>
      split at h
      next hviews =>
          simp only [Bool.and_eq_true, decide_eq_true_eq] at hviews
          exact ⟨_, hlast, by rw [hviews.1, hviews.2]⟩
      next => cases h
  next => cases h

theorem checkItems_ok {superclass : Text} {rnum : Int} {subs : List Text}
    (h : checkItems superclass rnum (subs.map .text) = .ok ()) : superclass ∉ subs := by
  induction subs with
  | nil => exact List.not_mem_nil
  | cons t rest ih =>
      rw [List.map_cons, checkItems] at h
      split at h
      next => cases h
      next hne => exact List.not_mem_cons_of_ne_of_not_mem (fun he => hne he.symm) (ih h)

theorem checkSubclasses_ok {subs : List Text} (h : a.checkSubclasses st = .ok ())
    (hv : st.value? "subclasses" = some (.texts subs)) :
    ∃ r superclass, a.last = some r ∧ r.ends = .generalization superclass ∧ superclass ∉ subs := by
  rw [checkSubclasses, hv] at h
  split at h
  next rnum superclass subsystem o hlast => exact ⟨_, superclass, hlast, rfl, checkItems_ok h⟩
  next => cases h

end Analyzer

namespace Extraction

def isTextList (s : Schema) (f : Form) (name : Text) : Bool :=
  let param := paramOf (f.target.bind s.call?) name
  match captureType s f name param with
  | .ok type => type.ui = .string && param.any (·.multiple)
  | .error _ => false

theorem mapM_convert_string {type : AppType} (hs : type.ui = .string) (ts : List Text) :
    ts.mapM type.convert = .ok (ts.map fun t => .text t.trim) := by
  induction ts with
  | nil => rfl
  | cons t rest ih =>
      rw [List.mapM_cons, ih]
      simp only [AppType.convert, hs]
      rfl

theorem Typed.value_texts {s : Schema} {f : Form} {call : Option Call} {cs : List Capture} {x : Extraction}
    (h : Typed s f call cs x) {name t : Text} (hn : isTextList s f name = true) (ht : Capture.get? cs name = some t) :
    valueOf x.fields name = some (.texts ((f.split name t).map Text.trim)) := by
  obtain ⟨v, type, hv, htype, hvalue⟩ := typedAs_value h.fields ht
  rw [isTextList, ← targetCall_ok h.target] at hn
  simp only [htype, Bool.and_eq_true, decide_eq_true_eq] at hn
  rw [captureValue, if_pos hn.2] at hvalue
  have hlist := mapError_ok_iff.mp hvalue
  rw [AppType.convertList, mapM_convert_string hn.1, hn.1] at hlist
  cases hlist
  rw [hv, Value.texts, List.map_map]
  rfl

end Extraction

/-- The classes that the first line of a relationship names. -/
def Matched.ends (m : Matched) : Ends :=
  if m.form.kind = .superclass then .generalization (m.text "superclass")
  else .association (m.text "a_class") (m.text "p_class")

/-- The forms that complete the command of a relationship. -/
def Statement.Joining (f : Form) : Prop :=
  f.kind = .passivePerspective ∨ f.kind = .subclasses

/-- A second line continues the command of a first one. -/
def Statement.Continues (f g : Form) : Prop :=
  Opening f ∧ Joining g ∧ g.target = f.call

def Form.Gives (f : Form) (n : Text) : Prop :=
  ∀ ns ∈ f.captureNames, n ∈ ns

instance Form.instDecidableGives (f : Form) (n : Text) : Decidable (f.Gives n) :=
  inferInstanceAs (Decidable (∀ ns ∈ f.captureNames, n ∈ ns))

instance Statement.instDecidableJoining (f : Form) : Decidable (Joining f) :=
  inferInstanceAs (Decidable (_ ∨ _))

instance Statement.instDecidableContinues (f g : Form) : Decidable (Continues f g) :=
  inferInstanceAs (Decidable (_ ∧ _))

namespace Statement

/-- The first line of a relationship names its classes, but does not give all that is required. -/
theorem forms_waiting : ∀ f ∈ forms, Opening f → ∀ k ∈ (callOf f).toList,
    (∃ r ∈ k.required, r ∉ Level.names ∧ ∀ ns ∈ f.captureNames, r ∉ ns) ∧
    ∀ n ∈ textNames f.kind, (k.param? n).isSome ∧ f.Gives n := by
  decide +kernel

/-- The two lines are of the same kind of relationship, and give all that is required and is not from the scope. -/
theorem forms_continues : ∀ f ∈ forms, ∀ g ∈ forms, Continues f g →
    (f.kind = .activePerspective ∧ g.kind = .passivePerspective ∨ f.kind = .superclass ∧ g.kind = .subclasses) ∧
    ∀ k ∈ (callOf f).toList, ∀ r ∈ k.required, f.Gives r ∨ g.Gives r ∨ r ∈ Level.names := by
  decide +kernel

theorem forms_subclasses : ∀ f ∈ forms, f.kind = .subclasses → isTextList standard f "subclasses" ∧
    (paramOf (callOf f) "subclasses").isSome ∧ f.Gives "subclasses" := by
  decide +kernel

end Statement

namespace Read

variable {home line : Text} {m : Matched} {x : Extraction} (h : Read home line m x)
include h

theorem not_mem_params {n : Text} (hn : ∀ ns ∈ m.form.captureNames, n ∉ ns) : valueOf x.params n = none := by
  rw [h.typed.value_params, valueOf_eq_none_iff.mpr (hn _ h.names_mem)]
  split <;> rfl

/-- What a call requires and a line captures is among the parameters that the line gives. -/
theorem value_required {k : Call} (hk : callOf m.form = some k) {r : Text} (hr : r ∈ k.required)
    (hn : m.form.Gives r) : valueOf x.params r ≠ none := by
  have hparam : (paramOf (callOf m.form) r).isSome := by
    rw [paramOf, hk]
    exact Call.hasParam_of_required hr
  rw [h.typed.value_params, if_pos hparam, ne_eq, valueOf_eq_none_iff, not_not]
  exact hn _ h.names_mem

end Read

namespace Building

variable {b b' : Building} {home line : Text} {o : Origin} {m m' : Matched} {x x' : Extraction} {tail : Command}

/-- A build whose last command has been begun by the first line of a relationship and waits for the second one. -/
structure Pending (b : Building) (m : Matched) (x : Extraction) (tail : Command) : Prop where
  read : ∃ home line, Read home line m x
  opening : Opening m.form
  opened : b.out.script.lastOpen = some tail
  call : m.form.call = some tail.call.name
  known : standard.call? tail.call.name = some tail.call
  explicit : tail.explicit = x.params.map (·.name)
  value : ∀ n, n ∉ Level.names → tail.value? n = valueOf x.params n
  last : ∃ r, b.analyzer.last = some r ∧ r.ends = m.ends

theorem Stated.declares (h : Stated b b' home line o m x) (hk : Opening m.form) :
    ∃ r, b'.analyzer.last = some r ∧ r.ends = m.ends := by
  have ha := h.handled
  have htext {n : Text} (hn : n ∈ textNames m.form.kind) := h.read.text_eq hn (some m.form.kind) b'.scope o
  rcases hk with hk | hk
  · rw [hk] at ha htext
    obtain ⟨rnum, -, -, ha⟩ := Analyzer.declare_ok (Analyzer.orKeep_ok ha)
    rw [ha, htext (by decide), htext (by decide)]
    exact ⟨_, rfl, by simp [Matched.ends, hk]⟩
  · rw [hk] at ha htext
    obtain ⟨rnum, -, -, ha⟩ := Analyzer.declare_ok (Analyzer.orKeep_ok ha)
    rw [ha, htext (by decide)]
    exact ⟨_, rfl, by simp [Matched.ends, hk]⟩

theorem Stated.pending (h : Stated b b' home line o m x) (hk : Opening m.form) :
    ∃ tail, b.out.script.lastOpen = none ∧ b'.out.script = b.out.script.append tail ∧ b'.Pending m x tail := by
  have hbegins : m.form.kind.begins.isSome := by rcases hk with hk | hk <;> rw [hk] <;> rfl
  obtain ⟨c, hopen, hscript, hname, hknown, hexplicit, hvalue⟩ := h.begun hbegins
  have hcall : m.form.call = some c.call.name := (forms_begins _ h.read.form_mem).2.1.trans hname
  have hvalue (n : Text) (hn : n ∉ Level.names) : c.value? n = valueOf x.params n := by
    rw [hvalue, Scope.get?_eq_none _ hn]
    split <;> exact Option.or_none
  have hmem : c.call ∈ (callOf m.form).toList := by
    rw [callOf_of_call hcall, hknown]
    exact List.mem_singleton.mpr rfl
  obtain ⟨⟨r, hr, hlevel, hnames⟩, -⟩ := forms_waiting _ h.read.form_mem hk _ hmem
  have hwaiting : c.completed = false := by
    rw [Command.completed, List.isEmpty_eq_false_iff]
    refine List.ne_nil_of_mem (Command.mem_missing_iff.mpr ⟨hr, ?_⟩)
    rw [hvalue r hlevel, h.read.not_mem_params hnames]
  refine ⟨c, hopen, hscript, ⟨home, line, h.read⟩, hk, ?_, hcall, hknown, hexplicit, hvalue, h.declares hk⟩
  rw [hscript, Script.lastOpen_append, hwaiting]
  rfl

structure Joined (x x' : Extraction) (c : Command) : Prop where
  explicit : c.explicit = x.params.map (·.name) ++ x'.params.map (·.name)
  value : ∀ n, n ∉ Level.names → c.value? n = (valueOf x'.params n).or (valueOf x.params n)

/-- The second line of a relationship agrees with the first one. -/
inductive Agrees (m m' : Matched) (c : Command) : Prop
  | association (hcall : c.call.name = ("new_bin_rel" : Text)) (hk : m.form.kind = .activePerspective)
      (hk' : m'.form.kind = .passivePerspective) (hp : c.value? "p_class" = some (.text (m'.text "p_view")))
      (ha : c.value? "a_class" = some (.text (m'.text "a_view")))
  | generalization {superclass : Text} {subs : List Text} (hcall : c.call.name = ("new_gen" : Text))
      (hk : m.form.kind = .superclass) (hk' : m'.form.kind = .subclasses)
      (hsuper : c.value? "superclass" = some (.text superclass))
      (hsubs : c.value? "subclasses" = some (.texts subs)) (hne : superclass ∉ subs)

namespace Pending

variable (hp : b.Pending m x tail)
include hp

/-- A line either leaves a command that waits alone, or it is a second line of a relationship. -/
theorem next {l : Line} (hs : b.out.script.Steady) (h : b.line standard l = .ok b') (hd : ¬ b'.out.script.Doomed) :
    (b'.out.script = b.out.script ∧ b'.Pending m x tail) ∨
      Section.header? l.trimmed = none ∧ ∃ home m' x' o, b.walker.statement = .ok (home, b'.walker) ∧
        Stated b b' home.name l.trimmed o m' x' ∧ Joining m'.form := by
  have hopen := hp.opened
  rcases line_ok h with ⟨word, hword, h⟩ | ⟨hword, h⟩
  · obtain ⟨home, walker, c, hw, hc, rfl⟩ := header_ok h
    rcases hc with ⟨-, hc⟩ | ⟨-, rfl⟩
    · rw [(closeDomain_closes hc).1] at hopen
      cases hopen
    · exact .inl ⟨rfl, hp.read, hp.opening, hopen, hp.call, hp.known, hp.explicit, hp.value, hp.last⟩
  · obtain ⟨home, m', x', hw, hstated⟩ := statement_stated hs h hd
    have hclosed {c : Command} (hc : Begins b b' m' c) : False := by
      rw [hc.closed] at hopen
      cases hopen
    cases hstated.effect with
    | domain _ hc | plain _ hc | subsystem _ hc | classDef _ hc | ownAttribute _ hc | relationship _ hc =>
        exact (hclosed hc).elim
    | reference _ hscript _ _ _ _ _ _ _ _ ha =>
        refine .inl ⟨hscript, hp.read, hp.opening, hscript ▸ hopen, hp.call, hp.known, hp.explicit, hp.value, ?_⟩
        rw [ha]
        exact hp.last
    | continued hk => exact .inr ⟨hword, home, m', x', _, hw, hstated, hk⟩

theorem call_mem : tail.call ∈ (callOf m.form).toList := by
  rw [callOf_of_call hp.call, hp.known]
  exact List.mem_singleton.mpr rfl

theorem value_end {n : Text} (hn : n ∈ textNames m.form.kind) (hlevel : n ∉ Level.names) :
    tail.value? n = some (.text (m.text n)) := by
  obtain ⟨home, line, hread⟩ := hp.read
  obtain ⟨hparam, hnames⟩ := (forms_waiting _ hread.form_mem hp.opening _ hp.call_mem).2 n hn
  have hparam : (paramOf (callOf m.form) n).isSome := by
    rw [callOf_of_call hp.call, hp.known]
    exact hparam
  rw [hp.value n hlevel, hread.typed.value_params, if_pos hparam, hread.value_given hn hnames]

/-- What the first line has given is not given again. -/
theorem kept {n : Text} {v : Value} (hnew : ∀ p ∈ x'.params, p.name ∉ tail.explicit) (hlevel : n ∉ Level.names)
    (hv : tail.value? n = some v) : valueOf x'.params n = none := by
  refine valueOf_eq_none_iff.mpr fun hmem => ?_
  obtain ⟨p, hp', hname⟩ := List.mem_map.mp hmem
  refine hnew p hp' ?_
  rw [hname, hp.explicit]
  by_contra hnot
  rw [hp.value n hlevel, valueOf_eq_none_iff.mpr hnot] at hv
  cases hv

/-- The second line of an association names its classes the other way round. -/
theorem views (h : Stated b b' home line o m' x') (hk : m.form.kind = .activePerspective)
    (hk' : m'.form.kind = .passivePerspective) :
    m.text "p_class" = m'.text "p_view" ∧ m.text "a_class" = m'.text "a_view" := by
  have ha := h.handled
  have htext {n : Text} (hn : n ∈ textNames m'.form.kind) := h.read.text_eq hn (some m'.form.kind) b'.scope o
  rw [hk'] at ha htext
  obtain ⟨⟨⟩, hpassive, -⟩ := map_ok_iff.mp (Analyzer.orKeep_ok ha)
  obtain ⟨r, hlast, hends⟩ := Analyzer.checkPassive_ok hpassive
  obtain ⟨r', hlast', hends'⟩ := hp.last
  rw [hlast] at hlast'
  cases hlast'
  rw [hends, Matched.ends, hk, htext (by decide), htext (by decide)] at hends'
  obtain ⟨hactive, hpassive⟩ := Ends.association.inj hends'
  exact ⟨hpassive.symm, hactive.symm⟩

/-- The second line of a generalization does not name its superclass. -/
theorem subclasses (h : Stated b b' home line o m' x') (hk : m.form.kind = .superclass)
    (hk' : m'.form.kind = .subclasses) :
    ∃ subs, valueOf x'.params "subclasses" = some (.texts subs) ∧ m.text "superclass" ∉ subs := by
  obtain ⟨hlist, hparam, hgives⟩ := forms_subclasses _ h.read.form_mem hk'
  obtain ⟨t, ht⟩ : ∃ t, Capture.get? (Capture.transform m'.form.transform m'.captures).1 "subclasses" = some t := by
    refine Option.ne_none_iff_exists'.mp fun hnone => ?_
    exact valueOf_eq_none_iff.mp (h.read.typed.value_none hnone) (hgives _ h.read.names_mem)
  have hvalue := h.read.typed.value_texts hlist ht
  have ha := h.handled
  rw [hk'] at ha
  obtain ⟨⟨⟩, hsubs, -⟩ := map_ok_iff.mp (Analyzer.orKeep_ok ha)
  obtain ⟨r, superclass, hlast, hends, hne⟩ := Analyzer.checkSubclasses_ok hsubs hvalue
  obtain ⟨r', hlast', hends'⟩ := hp.last
  rw [hlast] at hlast'
  cases hlast'
  rw [hends, Matched.ends, if_pos hk] at hends'
  rw [← Ends.generalization.inj hends']
  refine ⟨_, ?_, hne⟩
  rw [h.read.typed.value_params, if_pos hparam, hvalue]

/-- Nothing is missing when both lines have been read, for what comes from the scope was there from the start. -/
theorem completed (h : Stated b b' home line o m' x') (hcont : Continues m.form m'.form) {c : Command}
    (hscript : b'.out.script = b.out.script.replaceLast c) (hcall : c.call = tail.call)
    (hvalue : ∀ n, c.value? n = (valueOf x'.params n).or (tail.value? n)) : c.completed = true := by
  obtain ⟨home₀, line₀, hread⟩ := hp.read
  refine Command.completed_iff.mpr fun r hr => Option.isSome_iff_ne_none.mpr fun hnone => ?_
  have hmissing := Command.mem_missing_iff.mpr ⟨hr, hnone⟩
  rw [hvalue] at hnone
  obtain ⟨hnone', hnone⟩ := Option.or_eq_none_iff.mp hnone
  rw [hcall] at hr
  by_cases hlevel : r ∈ Level.names
  · exact h.undoomed (Script.doomed_of_missing (by rw [hscript, Script.lastOpen_replaceLast]) hlevel hmissing)
  · have hcall₁ : callOf m.form = some tail.call := by rw [callOf_of_call hp.call, hp.known]
    have hcall₂ : callOf m'.form = some tail.call := by rw [callOf, hcont.2.2, hp.call, Option.bind_some, hp.known]
    rcases (forms_continues _ hread.form_mem _ h.read.form_mem hcont).2 _ hp.call_mem r hr with hg | hg | hl
    · rw [hp.value r hlevel] at hnone
      exact hread.value_required hcall₁ hr hg hnone
    · exact h.read.value_required hcall₂ hr hg hnone'
    · exact hlevel hl

theorem joins (h : Stated b b' home line o m' x') (hj : Joining m'.form) :
    ∃ c, b'.out.script = b.out.script.replaceLast c ∧ c.completed = true ∧ Joined x x' c ∧ Agrees m m' c := by
  obtain ⟨home₀, line₀, hread⟩ := hp.read
  obtain ⟨tail', c, hopen, htarget, hscript, hcall, hexplicit, hnew, hvalue⟩ := h.extended hj
  obtain rfl : tail = tail' := Option.some.inj (hp.opened.symm.trans hopen)
  have hcont : Continues m.form m'.form := ⟨hp.opening, hj, htarget.trans hp.call.symm⟩
  -- what the first line has given stays
  have hkept {n : Text} (hn : n ∈ textNames m.form.kind) (hlevel : n ∉ Level.names) :
      c.value? n = some (.text (m.text n)) := by
    have hv := hp.value_end hn hlevel
    rw [hvalue, hp.kept hnew hlevel hv, Option.none_or, hv]
  have hname : m.form.kind.begins = some c.call.name := by
    rw [← (forms_begins _ hread.form_mem).2.1, hp.call, hcall]
  refine ⟨c, hscript, hp.completed h hcont hscript hcall hvalue, ⟨?_, fun n hn => ?_⟩, ?_⟩
  · rw [hexplicit, hp.explicit]
  · rw [hvalue, hp.value n hn]
  -- an association is told the other way round, a generalization lists its subclasses
  · rcases (forms_continues _ hread.form_mem _ h.read.form_mem hcont).1 with ⟨hk, hk'⟩ | ⟨hk, hk'⟩
    · rw [hk] at hkept hname
      obtain ⟨hpassive, hactive⟩ := hp.views h hk hk'
      refine .association (Option.some.inj hname).symm hk hk' ?_ ?_
      · rw [← hpassive]
        exact hkept (by decide) (by decide)
      · rw [← hactive]
        exact hkept (by decide) (by decide)
    · rw [hk] at hkept hname
      obtain ⟨subs, hsubs, hne⟩ := hp.subclasses h hk hk'
      refine .generalization (Option.some.inj hname).symm hk hk' (hkept (by decide) (by decide)) ?_ hne
      rw [hvalue, hsubs]
      rfl

end Pending

end Building

end Population

import Population.Proofs.Schema.Sheet

namespace Population

open Text

namespace Schema

variable {s : Schema} {c : Call} {l : RecordLine} {p : Param}

theorem type?_of_mem (h : (s.types.map (·.name)).Nodup) {t : AppType} (ht : t ∈ s.types) : s.type? t.name = some t :=
  (find?_key_iff h).mpr ⟨ht, rfl⟩

theorem key_not_mem {α : Type} {key : α → Text} {front : List α} {x : α} {back : List α}
    (h : ((front ++ x :: back).map key).Nodup) : key x ∉ front.map key := by
  rw [List.map_append, List.map_cons] at h
  intro hmem
  exact (List.nodup_append.mp h).2.2 (key x) hmem (key x) List.mem_cons_self rfl

theorem foldlM_readType {ts : List AppType} (hnames : ((s.types ++ ts).map (·.name)).Nodup)
    (hwords : ∀ t ∈ ts, t.name.IsIdentifier) :
    (ts.map typeLine).foldlM readType s = .ok { s with types := s.types ++ ts } := by
  induction ts generalizing s with
  | nil =>
      rw [List.append_nil]
      rfl
  | cons t ts ih =>
      obtain ⟨ht, hwords⟩ := List.forall_mem_cons.mp hwords
      have hnew : s.type? t.name = none := by
        rw [← Option.not_isSome_iff_eq_none]
        exact mt find?_key_isSome.mp (key_not_mem hnames)
      rw [List.map_cons, List.foldlM_cons, readType_typeLine ht hnew]
      refine (ih (by simpa using hnames) hwords).trans ?_
      rw [List.append_assoc, List.singleton_append]

/-- A schema with one more call, which parameters can be added to. -/
def opened (s : Schema) (c : Call) : Schema :=
  { s with calls := s.calls ++ [c] }

/-- A parameter whose names are words and whose type is there. -/
structure Declares (s : Schema) (p : Param) : Prop where
  words : Worded p
  type : s.type? p.type.name = some p.type

theorem addParam_opened (hp : s.Declares p) (hcall : c.name ∉ s.calls.map (·.name))
    (hnew : p.name ∉ c.params.map (·.name)) :
    (s.opened c).addParam c.name p.type.name (recordOf p).toParam =
      .ok (s.opened { c with params := c.params ++ [p] }) := by
  have hfind : (s.opened c).call? c.name = some c := by
    have hnone : s.calls.find? (·.name = c.name) = none := by
      rw [← Option.not_isSome_iff_eq_none]
      exact mt find?_key_isSome.mp hcall
    simp [call?, opened, List.find?_append, hnone]
  have hparam : c.hasParam p.name = false := by
    rw [Bool.eq_false_iff]
    exact mt find?_key_isSome.mp hnew
  have htype : (s.opened c).type? p.type.name = some p.type := hp.type
  have hothers (grown : Call) : (s.calls.map fun d => if d.name = c.name then grown else d) = s.calls := by
    refine (List.map_congr_left fun d hd => if_neg fun hname => hcall ?_).trans (List.map_id s.calls)
    exact List.mem_map.mpr ⟨d, hd, hname⟩
  rw [addParam, hfind]
  simp only [recordOf, Record.toParam, hparam, htype, Bool.false_eq_true, if_false]
  simp [opened, hothers]

def takeRecord (call : Text) (s : Schema) (record : Text) : Except SchemaError Schema := do
  let r ← readRecord record
  s.addParam call r.typeName r.toParam

theorem readRecords_eq (call line : Text) (s : Schema) : readRecords call line s =
    ((splitByte 0x2c (trimRight isSeparator line)).map Text.trim).foldlM (takeRecord call) s := by
  have hstep : (fun s record => takeRecord call s (Text.trim record)) = takeRecord call := by
    funext s record
    rw [takeRecord, takeRecord, readRecord_trim]
  rw [List.foldlM_map, hstep]
  rfl

theorem foldlM_takeRecord {ps : List Param} (hps : ∀ p ∈ ps, s.Declares p) (hcall : c.name ∉ s.calls.map (·.name))
    (hnames : ((c.params ++ ps).map (·.name)).Nodup) :
    (ps.map Param.toText).foldlM (takeRecord c.name) (s.opened c) =
      .ok (s.opened { c with params := c.params ++ ps }) := by
  induction ps generalizing c with
  | nil =>
      rw [List.append_nil]
      rfl
  | cons p ps ih =>
      obtain ⟨hp, hps⟩ := List.forall_mem_cons.mp hps
      have htake : takeRecord c.name (s.opened c) p.toText = .ok (s.opened { c with params := c.params ++ [p] }) := by
        rw [takeRecord, hp.words.readRecord_toText]
        exact addParam_opened hp hcall (key_not_mem hnames)
      rw [List.map_cons, List.foldlM_cons, htake]
      have hrest := ih (c := { c with params := c.params ++ [p] }) hps hcall (by simpa using hnames)
      refine hrest.trans ?_
      rw [List.append_assoc, List.singleton_append]

theorem colon_mem_line (h : l.Neat) : 0x3a ∈ l.toText := by
  obtain ⟨r, rs, hrecords⟩ := List.exists_cons_of_ne_nil h.records
  have hcolon : 0x3a ∈ r.toText := by simp [Spaced.toText, colon_mem_toText]
  refine List.mem_append_left _ ?_
  rw [RecordLine.body, hrecords, List.map_cons]
  cases rs with
  | nil => simpa [Text.join] using hcolon
  | cons next rs =>
      rw [Text.join, List.map_cons, List.intercalate_cons_cons]
      exact List.mem_append_left _ (List.mem_append_left _ hcolon)

theorem readConstructor_line (h : l.Neat) (hps : ∀ p ∈ l.params, s.Declares p)
    (hcall : c.name ∉ s.calls.map (·.name)) (hnames : ((c.params ++ l.params).map (·.name)).Nodup) :
    readConstructor ⟨s.opened c, some c.name⟩ l.toText.trim =
      .ok ⟨s.opened { c with params := c.params ++ l.params }, some c.name⟩ := by
  have hcolon : l.toText.trim.contains ":" = true := contains_byte.mpr (mem_trim_of_visible rfl (colon_mem_line h))
  have hread : readRecords c.name l.toText.trim (s.opened c) = .ok (s.opened { c with params := c.params ++ l.params }) := by
    rw [readRecords_eq, h.pieces fun p hp => (hps p hp).words]
    exact foldlM_takeRecord hps hcall hnames
  rw [readConstructor, hcolon]
  simp only [if_true, hread]
  rfl

theorem readConstructor_heading {m n : Text} (hm : m.IsIdentifier) (hn : n.IsIdentifier)
    (hmetaclass : m ∉ s.calls.map (·.metaclass)) (hname : n ∉ s.calls.map (·.name)) (call : Option Text) :
    readConstructor ⟨s, call⟩ (heading m n) = .ok ⟨s.opened ⟨m, n, []⟩, some n⟩ := by
  have hcolon : (heading m n).contains ":" = false := by
    rw [Bool.eq_false_iff]
    intro hcontains
    exact not_mem_heading hm hn rfl (by decide) (contains_byte.mp hcontains)
  have hfreshClass : ¬ (s.callOf? m).isSome = true := mt find?_key_isSome.mp hmetaclass
  have hfreshName : ¬ (s.call? n).isSome = true := mt find?_key_isSome.mp hname
  have hadd : s.addCall m n = .ok (s.opened ⟨m, n, []⟩) := by
    rw [addCall, if_neg hfreshClass, if_neg hfreshName]
    rfl
  rw [readConstructor, hcolon]
  simp only [Bool.false_eq_true, if_false, metaclassLine?_heading hm hn, Option.getD_some, hadd]
  rfl

theorem foldlM_lines {ls : List RecordLine} (h : ∀ l ∈ ls, l.Neat)
    (hps : ∀ p ∈ ls.flatMap RecordLine.params, s.Declares p) (hcall : c.name ∉ s.calls.map (·.name))
    (hnames : ((c.params ++ ls.flatMap RecordLine.params).map (·.name)).Nodup) :
    (ls.map fun l => l.toText.trim).foldlM readConstructor ⟨s.opened c, some c.name⟩ =
      .ok ⟨s.opened { c with params := c.params ++ ls.flatMap RecordLine.params }, some c.name⟩ := by
  induction ls generalizing c with
  | nil =>
      rw [List.flatMap_nil, List.append_nil]
      rfl
  | cons l ls ih =>
      obtain ⟨hl, hls⟩ := List.forall_mem_cons.mp h
      rw [List.flatMap_cons] at hps hnames ⊢
      rw [← List.append_assoc] at hnames
      have hhere : ((c.params ++ l.params).map (·.name)).Nodup := by
        rw [List.map_append] at hnames
        exact hnames.of_append_left
      rw [List.map_cons, List.foldlM_cons,
        readConstructor_line hl (fun p hp => hps p (List.mem_append_left _ hp)) hcall hhere]
      have hrest := ih (c := { c with params := c.params ++ l.params }) hls
        (fun p hp => hps p (List.mem_append_right _ hp)) hcall hnames
      refine hrest.trans ?_
      rw [List.append_assoc]

theorem foldlM_entry {e : Entry} {others : List Call} (h : WellFormed { s with calls := s.calls ++ e.call :: others })
    (hlines : ∀ l ∈ e.lines, l.Neat) (call : Option Text) :
    (e.texts.map Text.trim).foldlM readConstructor ⟨s, call⟩ = .ok ⟨s.opened e.call, some e.name⟩ := by
  have hmem : e.call ∈ s.calls ++ e.call :: others := List.mem_append_right _ List.mem_cons_self
  obtain ⟨hm, hn⟩ : e.metaclass.IsIdentifier ∧ e.name.IsIdentifier := h.calls e.call hmem
  have hmetaclass : e.call.metaclass ∉ s.calls.map (·.metaclass) := key_not_mem h.metaclasses
  have hname : e.call.name ∉ s.calls.map (·.name) := key_not_mem h.callNames
  have hdeclares : ∀ p ∈ e.params, s.Declares p := by
    intro p hp
    obtain ⟨hwords, htype⟩ := h.params e.call hmem p hp
    exact ⟨hwords, type?_of_mem h.typeNames htype⟩
  rw [Entry.texts, List.map_cons, List.foldlM_cons, (shown_heading hm hn).trimmed.trim,
    readConstructor_heading hm hn hmetaclass hname, List.map_map]
  exact foldlM_lines (c := ⟨e.metaclass, e.name, []⟩) hlines hdeclares hname (h.paramNames e.call hmem)

theorem foldlM_entries {es : List Entry} (h : WellFormed { s with calls := s.calls ++ es.map Entry.call })
    (hlines : ∀ e ∈ es, ∀ l ∈ e.lines, l.Neat) (call : Option Text) :
    ∃ last, ((es.flatMap Entry.texts).map Text.trim).foldlM readConstructor ⟨s, call⟩ =
      .ok ⟨{ s with calls := s.calls ++ es.map Entry.call }, last⟩ := by
  induction es generalizing s call with
  | nil =>
      refine ⟨call, ?_⟩
      rw [List.map_nil, List.append_nil]
      rfl
  | cons e es ih =>
      obtain ⟨he, hes⟩ := List.forall_mem_cons.mp hlines
      have hrest : WellFormed { s.opened e.call with calls := (s.opened e.call).calls ++ es.map Entry.call } := by
        rw [List.map_cons] at h
        simpa [opened] using h
      obtain ⟨last, hlast⟩ := ih hrest hes (some e.name)
      refine ⟨last, ?_⟩
      rw [List.flatMap_cons, List.map_append, List.foldlM_append, foldlM_entry h he]
      refine hlast.trans ?_
      simp [opened]

end Schema

end Population

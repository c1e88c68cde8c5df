import Population.Proofs.Schema.Loading
import Population.Proofs.Text.Joining

namespace Population

open Text

namespace Schema

open SourceFile SectionedFile

variable {s : Sheet} {l : RecordLine}

def RecordLine.fits (l : RecordLine) : Bool :=
  isReadable l.toText

/-- The calls before the first line that is too long, the last one with the records before it. -/
def readableEntries : List Entry → List Entry
  | [] => []
  | e :: rest =>
    if !isReadable (heading e.metaclass e.name) then []
    else if e.lines.all RecordLine.fits then e :: readableEntries rest
    else [{ e with lines := e.lines.takeWhile RecordLine.fits }]

def typeFits (t : AppType) : Bool :=
  isReadable (typeLine t)

def typeSection (ts : List AppType) : Written :=
  ⟨typeHeader, "type", ts.map typeLine⟩

def constructorSection (es : List Entry) : Written :=
  ⟨constructorHeader, "constructor", es.flatMap Entry.texts⟩

namespace Sheet

/-- The part of a sheet before its first line that is too long. -/
def readable (s : Sheet) : Sheet :=
  if s.types.all typeFits then { s with entries := readableEntries s.entries }
  else ⟨s.types.takeWhile typeFits, []⟩

def readableSections (s : Sheet) : List Written :=
  if s.types.all typeFits then [typeSection s.types, constructorSection (readableEntries s.entries)]
  else [typeSection (s.types.takeWhile typeFits)]

end Sheet

theorem takeWhile_append_of_neg {α : Type} {p : α → Bool} {front : List α} (h : ¬ front.all p = true) (back : List α) :
    (front ++ back).takeWhile p = front.takeWhile p := by
  rw [List.takeWhile_append]
  split
  next hlength =>
      have hwhole := List.takeWhile_eq_self_iff.mp ((List.takeWhile_prefix p).eq_of_length hlength)
      exact absurd (List.all_eq_true.mpr hwhole) h
  next => rfl

theorem takeWhile_entries (es : List Entry) :
    (es.flatMap Entry.texts).takeWhile isReadable = (readableEntries es).flatMap Entry.texts := by
  induction es with
  | nil => rfl
  | cons e es ih =>
      rw [List.flatMap_cons, readableEntries, Entry.texts, List.cons_append]
      by_cases hheading : isReadable (heading e.metaclass e.name) = true
      · rw [List.takeWhile_cons_of_pos hheading, if_neg (by simp [hheading])]
        by_cases hlines : e.lines.all RecordLine.fits = true
        · have hfits : ∀ t ∈ e.lines.map RecordLine.toText, isReadable t = true := by
            intro t ht
            obtain ⟨l, hl, rfl⟩ := List.mem_map.mp ht
            exact List.all_eq_true.mp hlines l hl
          rw [if_pos hlines, List.takeWhile_append_of_pos hfits, ih]
          rfl
        · have hlong : ¬ (e.lines.map RecordLine.toText).all isReadable = true := by
            rw [List.all_map]
            exact hlines
          rw [if_neg hlines, takeWhile_append_of_neg hlong, List.takeWhile_map, List.flatMap_singleton]
          rfl
      · rw [List.takeWhile_cons_of_neg hheading, if_pos (by simp [hheading])]
        rfl

theorem takeWhile_texts (s : Sheet) : s.texts.takeWhile isReadable = s.readableSections.flatMap Written.lines := by
  have htype : isReadable typeHeader = true := by decide
  have hconstructor : isReadable constructorHeader = true := by decide
  rw [Sheet.texts, List.takeWhile_cons_of_pos htype, Sheet.readableSections]
  split
  next hfits =>
      have hread : ∀ t ∈ s.types.map typeLine, isReadable t = true := by
        intro t ht
        obtain ⟨u, hu, rfl⟩ := List.mem_map.mp ht
        exact List.all_eq_true.mp hfits u hu
      rw [List.takeWhile_append_of_pos hread, List.takeWhile_cons_of_pos hconstructor, takeWhile_entries]
      simp [typeSection, constructorSection, Written.lines]
  next hlong =>
      have hunread : ¬ (s.types.map typeLine).all isReadable = true := by
        rw [List.all_map]
        exact hlong
      rw [takeWhile_append_of_neg hunread, List.takeWhile_map, List.flatMap_singleton]
      rfl

theorem RecordLine.Neat.not_mem (h : l.Neat) (hwords : ∀ p ∈ l.params, Worded p) {b : UInt8} (hb : isWord b = false)
    (hsigns : b ∉ recordSigns) (hcomma : b ≠ 0x2c) (hgap : ∀ t, IsGap t → b ∉ t) : b ∉ l.toText := by
  have hbody : b ∉ l.body := by
    refine not_mem_join (by simpa using hcomma) fun t ht => ?_
    obtain ⟨r, hr, rfl⟩ := List.mem_map.mp ht
    obtain ⟨hbefore, hafter⟩ := h.gaps r hr
    exact not_mem_record (hwords r.param (List.mem_map_of_mem hr)) hb hsigns (hgap _ hbefore) (hgap _ hafter)
  simp [toText, hbody, hgap _ h.gap, hcomma]

/-- A line of a section: it has content, and it is neither a comment nor a header. -/
structure Ordinary (t : Text) : Prop where
  plain : Plain t
  header : header? (stripComment t) = none

theorem ordinary_typeLine {t : AppType} (h : t.name.IsIdentifier) : Ordinary (typeLine t) := by
  have hcomment : 0x23 ∉ typeLine t := not_mem_typeLine h rfl (by decide)
  have hshown := shown_typeLine h
  refine ⟨⟨not_mem_typeLine h rfl (by decide), hcomment, ?_⟩, header?_stripComment hcomment (.inl ?_)⟩
  · rw [hshown.trimmed.trim]
    exact hshown.ne_nil
  · exact not_mem_typeLine h rfl (by decide)

theorem ordinary_heading {m n : Text} (hm : m.IsIdentifier) (hn : n.IsIdentifier) : Ordinary (heading m n) := by
  have hcomment : 0x23 ∉ heading m n := not_mem_heading hm hn rfl (by decide)
  have hshown := shown_heading hm hn
  refine ⟨⟨not_mem_heading hm hn rfl (by decide), hcomment, ?_⟩, header?_stripComment hcomment (.inl ?_)⟩
  · rw [hshown.trimmed.trim]
    exact hshown.ne_nil
  · exact not_mem_heading hm hn rfl (by decide)

theorem ordinary_line (h : l.Neat) (hwords : ∀ p ∈ l.params, Worded p) : Ordinary l.toText := by
  have hcomment : 0x23 ∉ l.toText := h.not_mem hwords rfl (by decide) (by decide) fun t ht => ht.blank.not_mem rfl
  refine ⟨⟨h.not_mem hwords rfl (by decide) (by decide) fun t ht => ht.feed, hcomment, ?_⟩,
    header?_stripComment hcomment (.inr (colon_mem_line h))⟩
  exact List.ne_nil_of_mem (mem_trim_of_visible rfl (colon_mem_line h))

theorem plain_headers : (Plain typeHeader ∧ header? (stripComment typeHeader) = some "type") ∧
    Plain constructorHeader ∧ header? (stripComment constructorHeader) = some "constructor" := by
  have hparts (t : Text) (h : 0x0a ∉ t ∧ 0x23 ∉ t ∧ t.trim ≠ []) : Plain t := ⟨h.1, h.2.1, h.2.2⟩
  exact ⟨⟨hparts _ (by decide +kernel), by decide +kernel⟩, hparts _ (by decide +kernel), by decide +kernel⟩

theorem Sheet.Sound.ordinary_types (h : s.Sound) : ∀ t ∈ s.types.map typeLine, Ordinary t := by
  intro t ht
  obtain ⟨u, hu, rfl⟩ := List.mem_map.mp ht
  exact ordinary_typeLine (h.schema.types u hu)

theorem Sheet.Sound.ordinary_entries (h : s.Sound) : ∀ t ∈ s.entries.flatMap Entry.texts, Ordinary t := by
  intro t ht
  obtain ⟨e, he, ht⟩ := List.mem_flatMap.mp ht
  have hcall : e.call ∈ s.schema.calls := List.mem_map_of_mem he
  rcases List.mem_cons.mp ht with rfl | ht
  · obtain ⟨hm, hn⟩ : e.metaclass.IsIdentifier ∧ e.name.IsIdentifier := h.schema.calls e.call hcall
    exact ordinary_heading hm hn
  · obtain ⟨l, hl, rfl⟩ := List.mem_map.mp ht
    exact ordinary_line (h.lines e he l hl) fun p hp =>
      (h.schema.params e.call hcall p (List.mem_flatMap.mpr ⟨l, hl, hp⟩)).1

theorem Sheet.Sound.plain (h : s.Sound) : ∀ t ∈ s.texts, Plain t := by
  intro t ht
  rcases List.mem_cons.mp ht with rfl | ht
  · exact plain_headers.1.1
  rcases List.mem_append.mp ht with ht | ht
  · exact (h.ordinary_types t ht).plain
  rcases List.mem_cons.mp ht with rfl | ht
  · exact plain_headers.2.1
  · exact (h.ordinary_entries t ht).plain

theorem isPrefix_readableEntries (f : Entry → Text) (hf : ∀ e ls, f { e with lines := ls } = f e) (es : List Entry) :
    (readableEntries es).map f <+: es.map f := by
  induction es with
  | nil => exact List.prefix_refl _
  | cons e es ih =>
      rw [readableEntries]
      split
      next => exact List.nil_prefix
      next =>
          split
          next =>
              rw [List.map_cons, List.map_cons]
              exact (List.prefix_cons_inj (f e)).mpr ih
          next =>
              rw [List.map_singleton, hf, List.map_cons]
              exact List.prefix_append [f e] _

theorem mem_readableEntries {e : Entry} {es : List Entry} (h : e ∈ readableEntries es) :
    ∃ e' ∈ es, e.metaclass = e'.metaclass ∧ e.name = e'.name ∧ e.lines <+: e'.lines := by
  induction es with
  | nil => cases h
  | cons e' es ih =>
      rw [readableEntries] at h
      split at h
      next => cases h
      next =>
          split at h
          next =>
              rcases List.mem_cons.mp h with rfl | h
              · exact ⟨e, List.mem_cons_self, rfl, rfl, List.prefix_refl _⟩
              · obtain ⟨e'', he'', heq⟩ := ih h
                exact ⟨e'', List.mem_cons_of_mem _ he'', heq⟩
          next =>
              obtain rfl := List.mem_singleton.mp h
              exact ⟨e', List.mem_cons_self, rfl, rfl, List.takeWhile_prefix RecordLine.fits⟩

theorem sound_of_entries (h : s.Sound) : Sheet.Sound { s with entries := readableEntries s.entries } where
  schema := {
    typeNames := h.schema.typeNames
    types := h.schema.types
    -- names are different since those that are left were different before
    metaclasses := by
      have hnodup := h.schema.metaclasses
      rw [Sheet.schema, List.map_map] at hnodup ⊢
      exact hnodup.sublist (isPrefix_readableEntries Entry.metaclass (fun _ _ => rfl) s.entries).sublist
    callNames := by
      have hnodup := h.schema.callNames
      rw [Sheet.schema, List.map_map] at hnodup ⊢
      exact hnodup.sublist (isPrefix_readableEntries Entry.name (fun _ _ => rfl) s.entries).sublist
    calls := by
      intro c hc
      obtain ⟨e, he, rfl⟩ := List.mem_map.mp hc
      obtain ⟨e', he', hmetaclass, hname, -⟩ := mem_readableEntries he
      have hwords := h.schema.calls e'.call (List.mem_map_of_mem he')
      rw [Entry.call, hmetaclass, hname]
      exact hwords
    paramNames := by
      intro c hc
      obtain ⟨e, he, rfl⟩ := List.mem_map.mp hc
      obtain ⟨e', he', -, -, hlines⟩ := mem_readableEntries he
      have hparams : e.params <+: e'.params := by
        obtain ⟨more, hmore⟩ := hlines
        rw [Entry.params, Entry.params, ← hmore, List.flatMap_append]
        exact List.prefix_append _ _
      exact (h.schema.paramNames e'.call (List.mem_map_of_mem he')).sublist (hparams.sublist.map _)
    params := by
      intro c hc p hp
      obtain ⟨e, he, rfl⟩ := List.mem_map.mp hc
      obtain ⟨e', he', -, -, hlines⟩ := mem_readableEntries he
      obtain ⟨l, hl, hp⟩ := List.mem_flatMap.mp hp
      exact h.schema.params e'.call (List.mem_map_of_mem he') p (List.mem_flatMap.mpr ⟨l, hlines.subset hl, hp⟩)
  }
  lines := by
    intro e he l hl
    obtain ⟨e', he', -, -, hlines⟩ := mem_readableEntries he
    exact h.lines e' he' l (hlines.subset hl)

theorem sound_of_types (h : s.Sound) : Sheet.Sound ⟨s.types.takeWhile typeFits, []⟩ where
  schema := {
    typeNames := h.schema.typeNames.sublist ((List.takeWhile_sublist typeFits).map _)
    types := fun t ht => h.schema.types t ((List.takeWhile_sublist typeFits).subset ht)
    metaclasses := .nil
    callNames := .nil
    calls := nofun
    paramNames := nofun
    params := nofun
  }
  lines := nofun

theorem Sheet.Sound.readable (h : s.Sound) : s.readable.Sound := by
  rw [Sheet.readable]
  split
  next => exact sound_of_entries h
  next => exact sound_of_types h

theorem ofSectioned_of_folds {f : SectionedFile} {typed : Schema} {r : Reading}
    (htypes : ((f.linesOf "type").map Line.trimmed).foldlM readType Schema.empty = .ok typed)
    (hcalls : ((f.linesOf "constructor").map Line.trimmed).foldlM readConstructor ⟨typed, none⟩ = .ok r) :
    ofSectioned f = .ok r.schema := by
  rw [List.foldlM_map] at htypes hcalls
  have htyped := foldlM_mapError_ok_iff (g := fun l => faultAt f.name l).mpr htypes
  have hread := foldlM_mapError_ok_iff (g := fun l => faultAt f.name l).mpr hcalls
  exact bind_ok_iff.mpr ⟨typed, htyped, bind_ok_iff.mpr ⟨r, hread, rfl⟩⟩

theorem Sheet.Sound.foldlM_types (h : s.Sound) :
    ((s.types.map typeLine).map Text.trim).foldlM readType Schema.empty = .ok ⟨s.types, []⟩ := by
  have htrim : (s.types.map typeLine).map Text.trim = s.types.map typeLine := by
    rw [List.map_map]
    exact List.map_congr_left fun t ht => (shown_typeLine (h.schema.types t ht)).trimmed.trim
  rw [htrim]
  exact foldlM_readType (s := Schema.empty) h.schema.typeNames h.schema.types

theorem textsOf_readableSections (s : Sheet) : textsOf s.readableSections "type" = s.readable.types.map typeLine ∧
    textsOf s.readableSections "constructor" = s.readable.entries.flatMap Entry.texts := by
  rw [Sheet.readableSections, Sheet.readable]
  split
  next => exact ⟨rfl, rfl⟩
  next => exact ⟨rfl, rfl⟩

theorem Sheet.Sound.marked (h : s.Sound) : (∀ w ∈ s.readableSections, w.Marked) ∧
    (s.readableSections.map (·.name)).Nodup := by
  have htypes : (typeSection s.readable.types).Marked :=
    ⟨plain_headers.1.2, fun t ht => (h.readable.ordinary_types t ht).header⟩
  have hentries : (constructorSection s.readable.entries).Marked :=
    ⟨plain_headers.2.2, fun t ht => (h.readable.ordinary_entries t ht).header⟩
  rw [Sheet.readable] at htypes hentries
  rw [Sheet.readableSections]
  split
  next hfits =>
      rw [if_pos hfits] at htypes hentries
      refine ⟨List.forall_mem_cons.mpr ⟨htypes, List.forall_mem_singleton.mpr hentries⟩, ?_⟩
      have hnames : (["type", "constructor"] : List Text).Nodup := by decide
      exact hnames
  next hlong =>
      rw [if_neg hlong] at htypes
      exact ⟨List.forall_mem_singleton.mpr htypes, List.nodup_singleton _⟩

/-- What is loaded is the part of the sheet that is read. -/
theorem ofBytes_readable (name : Text) (h : s.Sound) : ofBytes name s.toText = .ok s.readable.schema := by
  obtain ⟨hmarked, hnames⟩ := h.marked
  obtain ⟨f, hfile, hlines⟩ := ofBytes_written name h.plain (takeWhile_texts s) hmarked hnames
  obtain ⟨htypeTexts, hcallTexts⟩ := textsOf_readableSections s
  have htypes := h.readable.foldlM_types
  rw [← htypeTexts, ← hlines] at htypes
  obtain ⟨last, hcalls⟩ := foldlM_entries (s := ⟨s.readable.types, []⟩) h.readable.schema h.readable.lines none
  rw [← hcallTexts, ← hlines] at hcalls
  exact bind_ok_iff.mpr ⟨f, mapError_ok_iff.mpr hfile, ofSectioned_of_folds htypes hcalls⟩

theorem all_fits_of_params {ls : List RecordLine} (hne : ∀ l ∈ ls, l.records ≠ [])
    (h : (ls.takeWhile RecordLine.fits).flatMap RecordLine.params = ls.flatMap RecordLine.params) :
    ls.all RecordLine.fits = true := by
  have hsplit : ls.flatMap RecordLine.params = (ls.takeWhile RecordLine.fits).flatMap RecordLine.params ++
      (ls.dropWhile RecordLine.fits).flatMap RecordLine.params := by
    rw [← List.flatMap_append, List.takeWhile_append_dropWhile]
  have hunread : (ls.dropWhile RecordLine.fits).flatMap RecordLine.params = [] :=
    List.self_eq_append_right.mp (h.trans hsplit)
  cases hdrop : ls.dropWhile RecordLine.fits with
  | nil => exact List.all_eq_true.mpr (List.dropWhile_eq_nil_iff.mp hdrop)
  | cons l rest =>
      have hl : l ∈ ls.dropWhile RecordLine.fits := hdrop ▸ List.mem_cons_self
      have hnone := List.flatMap_eq_nil_iff.mp hunread l hl
      exact absurd (List.map_eq_nil_iff.mp hnone) (hne l ((List.dropWhile_sublist RecordLine.fits).subset hl))

theorem readableEntries_calls_iff {es : List Entry} (hne : ∀ e ∈ es, ∀ l ∈ e.lines, l.records ≠ []) :
    (readableEntries es).map Entry.call = es.map Entry.call ↔ ∀ t ∈ es.flatMap Entry.texts, isReadable t = true := by
  induction es with
  | nil => simp [readableEntries]
  | cons e es ih =>
      obtain ⟨he, hes⟩ := List.forall_mem_cons.mp hne
      have hlines : (∀ t ∈ e.lines.map RecordLine.toText, isReadable t = true) ↔ e.lines.all RecordLine.fits = true := by
        rw [List.all_eq_true, List.forall_mem_map]
        rfl
      rw [List.flatMap_cons, List.forall_mem_append, Entry.texts, List.forall_mem_cons, hlines, readableEntries]
      by_cases hheading : isReadable (heading e.metaclass e.name) = true
      · rw [if_neg (by simp [hheading])]
        by_cases hfits : e.lines.all RecordLine.fits = true
        · rw [if_pos hfits, List.map_cons, List.map_cons, List.cons_inj_right, ih hes]
          simp [hheading, hfits]
        · rw [if_neg hfits, List.map_singleton, List.map_cons]
          refine iff_of_false (fun heq => hfits ?_) (fun h => hfits h.1.2)
          obtain ⟨hcall, -⟩ := List.cons.inj heq
          exact all_fits_of_params he (congrArg Call.params hcall)
      · rw [if_pos (by simp [hheading])]
        refine iff_of_false (fun heq => ?_) (fun h => hheading h.1.1)
        rw [List.map_nil, List.map_cons] at heq
        cases heq

theorem readable_schema_iff (h : s.Sound) :
    s.readable.schema = s.schema ↔ ∀ line ∈ s.texts, line.length ≤ lineLimit := by
  have hne : ∀ e ∈ s.entries, ∀ l ∈ e.lines, l.records ≠ [] := fun e he l hl => (h.lines e he l hl).records
  have hreadable : (∀ line ∈ s.texts, line.length ≤ lineLimit) ↔ s.types.all typeFits = true ∧
      ∀ t ∈ s.entries.flatMap Entry.texts, isReadable t = true := by
    have htype : typeHeader.length ≤ lineLimit := by decide
    have hconstructor : constructorHeader.length ≤ lineLimit := by decide
    rw [Sheet.texts, List.forall_mem_cons, List.forall_mem_append, List.forall_mem_cons, List.forall_mem_map]
    simp [htype, hconstructor, typeFits, isReadable]
  rw [hreadable, Sheet.readable]
  split
  next hfits =>
      rw [← readableEntries_calls_iff hne, and_iff_right hfits]
      constructor
      · intro heq
        exact congrArg Schema.calls heq
      · intro hcalls
        rw [Sheet.schema, Sheet.schema, hcalls]
  next hlong =>
      refine iff_of_false (fun heq => hlong ?_) (fun hall => hlong hall.1)
      exact List.all_eq_true.mpr (List.takeWhile_eq_self_iff.mp (congrArg Schema.types heq))

/-- What loading a sheet should give: its types, calls and parameters, each call printed as it was written. -/
def LoadsAsWritten (name : Text) (s : Sheet) : Prop :=
  ∃ loaded, ofBytes name s.toText = .ok loaded ∧ loaded = s.schema ∧
    loaded.calls.map Call.toText = s.entries.map Entry.rendering

/-- Loading a sheet succeeds with what stands before the first line above the limit, and it gives the whole sheet back if
and only if there is no such line. -/
theorem ofBytes_sheet_iff (name : Text) (h : s.Sound) : ofBytes name s.toText = .ok s.readable.schema ∧
    (LoadsAsWritten name s ↔ ∀ line ∈ s.texts, line.length ≤ lineLimit) := by
  have hloaded := ofBytes_readable name h
  refine ⟨hloaded, ?_⟩
  rw [← readable_schema_iff h]
  constructor
  · rintro ⟨loaded, hload, heq, -⟩
    rw [hloaded] at hload
    cases hload
    exact heq
  · intro heq
    refine ⟨s.readable.schema, hloaded, heq, ?_⟩
    rw [heq, Sheet.schema, List.map_map]
    exact List.map_congr_left fun e _ => e.toText_call

instance instDecidableWorded (p : Param) : Decidable (Worded p) :=
  decidable_of_iff (p.name.IsIdentifier ∧ p.type.name.IsIdentifier ∧ ∀ s ∈ p.scope, s.IsIdentifier)
    ⟨fun h => ⟨h.1, h.2.1, h.2.2⟩, fun h => ⟨h.name, h.type, h.scope⟩⟩

instance instDecidableNeat (l : RecordLine) : Decidable l.Neat :=
  decidable_of_iff (l.records ≠ [] ∧ (∀ r ∈ l.records, IsGap r.before ∧ IsGap r.after) ∧ IsGap l.gap)
    ⟨fun h => ⟨h.1, h.2.1, h.2.2⟩, fun h => ⟨h.records, h.gaps, h.gap⟩⟩

/-- Two calls with records on several lines. A tab and a no-break space stand around records, and a line ends in a comma
and a blank. -/
def spacedSheet : Sheet where
  types := [⟨"name", .string⟩, ⟨"flag", .bool⟩]
  entries := [
    ⟨"thing", "new_thing", [
      ⟨[⟨[], ⟨"name", ⟨"name", .string⟩, false, false, some "thing"⟩, []⟩,
        ⟨[0x20], ⟨"parts", ⟨"name", .string⟩, false, true, none⟩, [0x09]⟩], 1, [0x20]⟩,
      ⟨[⟨[0xc2, 0xa0], ⟨"hidden", ⟨"flag", .bool⟩, true, false, none⟩, []⟩], 0, []⟩]⟩,
    ⟨"bridge", "bridge", []⟩]

theorem ofBytes_sheet_spaced : spacedSheet.Sound ∧ LoadsAsWritten "calls.mi" spacedSheet := by
  have hsound : spacedSheet.Sound := {
    schema := {
      typeNames := by decide +kernel
      types := by decide +kernel
      metaclasses := by decide +kernel
      callNames := by decide +kernel
      calls := by decide +kernel
      paramNames := by decide +kernel
      params := by decide +kernel
    }
    lines := by decide +kernel
  }
  exact ⟨hsound, (ofBytes_sheet_iff "calls.mi" hsound).2.mpr (by decide +kernel)⟩

def indentedLine : RecordLine :=
  ⟨[⟨List.replicate (lineLimit + 1) 0x20, ⟨"x", ⟨"name", .string⟩, false, false, none⟩, []⟩], 0, []⟩

def indentedSheet : Sheet :=
  ⟨[⟨"name", .string⟩], [⟨"thing", "new_thing", [indentedLine]⟩]⟩

theorem indentedSheet_sound : indentedSheet.Sound where
  schema := {
    typeNames := by decide +kernel
    types := by decide +kernel
    metaclasses := by decide +kernel
    callNames := by decide +kernel
    calls := by decide +kernel
    paramNames := by decide +kernel
    params := by decide +kernel
  }
  lines := by
    have hspaces : IsGap (List.replicate (lineLimit + 1) 0x20) := by
      refine ⟨AllSpace.isBlank fun b hb => ?_, fun hfeed => ?_⟩
      · rw [List.eq_of_mem_replicate hb]
        rfl
      · cases List.eq_of_mem_replicate hfeed
    have hnone : IsGap [] := ⟨isRun_nil blankCodes, List.not_mem_nil⟩
    have hneat : indentedLine.Neat :=
      ⟨List.cons_ne_nil _ _, List.forall_mem_singleton.mpr ⟨hspaces, hnone⟩, hnone⟩
    exact List.forall_mem_singleton.mpr (List.forall_mem_singleton.mpr hneat)

/-- The call is loaded without its parameter. -/
theorem ofBytes_sheet_indented : indentedSheet.Sound ∧ ¬ LoadsAsWritten "calls.mi" indentedSheet ∧
    ofBytes "calls.mi" indentedSheet.toText = .ok ⟨[⟨"name", .string⟩], [⟨"thing", "new_thing", []⟩]⟩ := by
  have hlength : lineLimit < indentedLine.toText.length := by
    simp only [indentedLine, RecordLine.toText, RecordLine.body, List.map_singleton, Text.join,
      List.intercalate_singleton, Spaced.toText, List.length_append, List.length_replicate]
    omega
  have hlong : indentedLine.fits = false := by simpa [RecordLine.fits, isReadable] using hlength
  have hread : indentedSheet.readable.schema = ⟨[⟨"name", .string⟩], [⟨"thing", "new_thing", []⟩]⟩ := by
    have htypes : indentedSheet.types.all typeFits = true := by decide
    have hheading : isReadable (heading "thing" "new_thing") = true := by decide
    rw [Sheet.readable, if_pos htypes]
    simp [indentedSheet, readableEntries, hheading, hlong, Sheet.schema, Entry.call, Entry.params]
  have hload := ofBytes_readable "calls.mi" indentedSheet_sound
  rw [hread] at hload
  refine ⟨indentedSheet_sound, ?_, hload⟩
  rintro ⟨loaded, hloaded, heq, -⟩
  rw [hload] at hloaded
  cases hloaded
  have hparams := congrArg (fun s : Schema => s.calls.map (·.params)) heq
  revert hparams
  simp [indentedSheet, Sheet.schema, Entry.call, Entry.params, RecordLine.params, indentedLine]

end Schema

end Population

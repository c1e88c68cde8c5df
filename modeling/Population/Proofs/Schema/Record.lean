import Mathlib.Data.List.TakeDrop
import Population.Proofs.Outcome
import Population.Proofs.Text.Blank
import Population.Proofs.Text.Cutting
import Population.Schema.Reader

namespace Population

namespace Text

/-- A name in a schema: word characters, at least one. -/
structure IsIdentifier (t : Text) : Prop where
  ne_nil : t ≠ []
  bytes : ∀ b ∈ t, isWord b = true

instance instDecidableIsIdentifier (t : Text) : Decidable t.IsIdentifier :=
  decidable_of_iff (t ≠ [] ∧ t.all isWord = true)
    ⟨fun h => ⟨h.1, List.all_eq_true.mp h.2⟩, fun h => ⟨h.ne_nil, List.all_eq_true.mpr h.bytes⟩⟩

variable {t : Text}

theorem IsIdentifier.not_mem (h : t.IsIdentifier) {b : UInt8} (hb : isWord b = false) : b ∉ t := by
  intro hmem
  rw [h.bytes b hmem] at hb
  cases hb

theorem IsIdentifier.bounded (h : t.IsIdentifier) : t.Bounded :=
  bounded_of_isWord h.ne_nil h.bytes

theorem IsIdentifier.trim (h : t.IsIdentifier) : t.trim = t :=
  trim_of_isWord h.bytes

theorem IsIdentifier.span (h : t.IsIdentifier) (rest : Text) (hrest : ∀ b ∈ rest.head?, isWord b = false) :
    (t ++ rest).span isWord = (t, rest) := by
  have hnone : rest.takeWhile isWord = [] ∧ rest.dropWhile isWord = rest := by
    cases rest with
    | nil => exact ⟨rfl, rfl⟩
    | cons b rest =>
        have hb : ¬ isWord b = true := by simpa using hrest b rfl
        exact ⟨List.takeWhile_cons_of_neg hb, List.dropWhile_cons_of_neg hb⟩
  rw [List.span_eq_takeWhile_dropWhile, List.takeWhile_append_of_pos h.bytes, List.dropWhile_append_of_pos h.bytes,
    hnone.1, hnone.2, List.append_nil]

theorem untilBlankFrom_append {seen : Text} (h : ∀ b ∈ t, isWord b = true) (rest : Text) :
    untilBlankFrom seen (t ++ rest) = untilBlankFrom (t.reverse ++ seen) rest := by
  induction t generalizing seen with
  | nil => rfl
  | cons b t ih =>
      obtain ⟨hb, ht⟩ := List.forall_mem_cons.mp h
      have hnone : dropCode? blankCodes (b :: (t ++ rest)) = none := by
        rw [dropCode?_eq_none_iff]
        intro code hcode hprefix
        have hhead := blankCodes_head code (List.mem_append_left _ hcode)
        cases code with
        | nil => cases hhead
        | cons c code =>
            obtain ⟨rfl, -⟩ := List.cons_prefix_cons.mp hprefix
            simp [hb] at hhead
      rw [List.cons_append, untilBlankFrom, hnone]
      simp only [Option.isSome_none, Bool.false_eq_true, if_false]
      rw [ih ht]
      simp

theorem IsIdentifier.trimStart_append (h : t.IsIdentifier) (rest : Text) : trimStart (t ++ rest) = t ++ rest := by
  obtain ⟨b, u, rfl⟩ := List.exists_cons_of_ne_nil h.ne_nil
  exact strip_of_isWord (fun code hcode => blankCodes_head code (List.mem_append_left _ hcode))
    (h.bytes b List.mem_cons_self) _

theorem IsIdentifier.untilBlank (h : t.IsIdentifier) : untilBlankFrom [] t = (t, []) := by
  rw [← List.append_nil t, untilBlankFrom_append h.bytes, untilBlankFrom]
  simp

theorem fields_pair {u : Text} (ht : t.IsIdentifier) (hu : u.IsIdentifier) : Text.fields (t ++ 0x20 :: u) = [t, u] := by
  have huntil : untilBlankFrom [] (t ++ 0x20 :: u) = (t, 0x20 :: u) := by
    have hblank : dropCode? blankCodes (0x20 :: u) = some u := dropCode?_of_isSpace blankCodes_take.1 rfl u
    rw [untilBlankFrom_append ht.bytes, untilBlankFrom, hblank]
    simp
  have hstart : trimStart (0x20 :: u) = u := by
    have hspace : IsRun blankCodes [0x20] := ⟨[[0x20]], by decide, rfl⟩
    have hstrip := strip_append blankCodes_prefixless.1 blankCodes_ne_nil.1 hspace u
    have hu' : trimStart u = u := by simpa using hu.trimStart_append []
    exact hstrip.trans hu'
  have hempty : Text.fields [] = [] := by decide +kernel
  have hrest : Text.fields (0x20 :: u) = [u] := by
    rw [Text.fields, hstart, hu.untilBlank]
    simp [hu.ne_nil, hempty]
  rw [Text.fields, ht.trimStart_append, huntil]
  simp [ht.ne_nil, hrest]

end Text

namespace Schema

open Text

def typeLine (t : AppType) : Text :=
  t.name ++ " " ++ t.ui.name

def heading (metaclass call : Text) : Text :=
  metaclass ++ " / " ++ call

theorem uiName_identifier (u : UiType) : u.name.IsIdentifier ∧ UiType.ofName? u.name = some u := by
  cases u <;> decide +kernel

theorem not_mem_typeLine {t : AppType} (h : t.name.IsIdentifier) {b : UInt8} (hb : isWord b = false) (hblank : b ≠ 0x20) :
    b ∉ typeLine t := by
  have hsep : Text.ofString " " = [0x20] := rfl
  rw [typeLine, hsep]
  simp [h.not_mem hb, (uiName_identifier t.ui).1.not_mem hb, hblank]

theorem shown_typeLine {t : AppType} (h : t.name.IsIdentifier) : (typeLine t).Shown := by
  rw [typeLine, List.append_assoc]
  exact h.bounded.shown.append _ (uiName_identifier t.ui).1.bounded.shown

theorem not_mem_heading {m c : Text} (hm : m.IsIdentifier) (hc : c.IsIdentifier) {b : UInt8} (hb : isWord b = false)
    (hsigns : b ∉ [0x20, 0x2f]) : b ∉ heading m c := by
  have hsep : Text.ofString " / " = [0x20, 0x2f, 0x20] := rfl
  simp only [List.mem_cons, List.not_mem_nil, or_false, not_or] at hsigns
  rw [heading, hsep]
  simp [hm.not_mem hb, hc.not_mem hb, hsigns]

theorem shown_heading {m c : Text} (hm : m.IsIdentifier) (hc : c.IsIdentifier) : (heading m c).Shown := by
  rw [heading, List.append_assoc]
  exact hm.bounded.shown.append _ hc.bounded.shown

theorem readType_typeLine {s : Schema} {t : AppType} (hname : t.name.IsIdentifier) (hnew : s.type? t.name = none) :
    readType s (typeLine t) = .ok { s with types := s.types ++ [t] } := by
  obtain ⟨hui, hof⟩ := uiName_identifier t.ui
  have hfields : (typeLine t).fields = [t.name, t.ui.name] := by
    rw [typeLine, List.append_assoc]
    exact fields_pair hname hui
  rw [readType, hfields]
  dsimp only
  rw [hof]
  simp [addType, hnew]

theorem metaclassLine?_heading {m c : Text} (hm : m.IsIdentifier) (hc : c.IsIdentifier) :
    metaclassLine? (heading m c) = some (m, some c) := by
  have hfirst : (heading m c).span isWord = (m, 0x20 :: 0x2f :: 0x20 :: c) := by
    rw [heading, List.append_assoc]
    refine hm.span (0x20 :: 0x2f :: 0x20 :: c) ?_
    rintro b ⟨⟩
    rfl
  have hslash : (0x20 :: 0x2f :: 0x20 :: c).dropWhile isSpace = 0x2f :: 0x20 :: c := rfl
  have hblank : (0x20 :: c).dropWhile isSpace = c :=
    AllSpace.dropWhile (s := [0x20]) (by simp [AllSpace, isSpace]) hc.bounded.first_not_space
  have hlast : c.span isWord = (c, []) := by simpa using hc.span [] (by simp)
  rw [metaclassLine?, hfirst]
  simp only [hslash, hblank, hlast]
  simp [hm.ne_nil, hc.ne_nil]

/-- What a record says in front of its colon, but for a bracket. -/
def front (p : Param) : Text :=
  p.name ++ Param.arrow p.scope

/-- What a record says behind its colon, but for a bracket. -/
def back (p : Param) : Text :=
  p.type.name ++ if p.multiple then [0x2e, 0x2e, 0x2e] else []

def opening (p : Param) : Text :=
  if p.optional then [0x5b] else []

def closing (p : Param) : Text :=
  if p.optional then [0x5d] else []

theorem toText_eq (p : Param) : p.toText = (opening p ++ front p) ++ 0x3a :: (back p ++ closing p) := by
  have hcolon : Text.ofString ":" = [0x3a] := rfl
  have hopen : Text.ofString "[" = [0x5b] := rfl
  have hclose : Text.ofString "]" = [0x5d] := rfl
  have hdots : Text.ofString "..." = [0x2e, 0x2e, 0x2e] := rfl
  rw [Param.toText, hcolon, hopen, hclose, hdots]
  cases ho : p.optional <;> simp [opening, closing, front, back, ho]

structure Worded (p : Param) : Prop where
  name : p.name.IsIdentifier
  type : p.type.name.IsIdentifier
  scope : ∀ s ∈ p.scope, s.IsIdentifier

variable {p : Param}

/-- The record that a parameter is read as, its type still a name. -/
def recordOf (p : Param) : Record :=
  ⟨p.name, p.type.name, p.optional, p.multiple, p.scope⟩

theorem Worded.not_mem_front (h : Worded p) {b : UInt8} (hb : isWord b = false) (hsigns : b ∉ [0x2d, 0x3e]) :
    b ∉ front p := by
  have hname := h.name.not_mem hb
  have harrow : Text.ofString "->" = [0x2d, 0x3e] := rfl
  cases hs : p.scope with
  | none => simp [front, Param.arrow, hs, hname]
  | some s =>
      have hscope := (h.scope s hs).not_mem hb
      rw [front, hs, Param.arrow, harrow, List.mem_append, List.mem_append]
      simp only [not_or]
      exact ⟨hname, hsigns, hscope⟩

theorem Worded.not_mem_back (h : Worded p) {b : UInt8} (hb : isWord b = false) (hdot : b ≠ 0x2e) : b ∉ back p := by
  have htype := h.type.not_mem hb
  rw [back]
  split <;> simp [htype, hdot]

theorem Worded.shown_front (h : Worded p) : (front p).Shown := by
  cases hs : p.scope with
  | none =>
      rw [front, hs, Param.arrow, List.append_nil]
      exact h.name.bounded.shown
  | some s =>
      rw [front, hs, Param.arrow]
      exact h.name.bounded.shown.append _ (h.scope s hs).bounded.shown

theorem Worded.shown_left (h : Worded p) : (opening p ++ front p).Shown := by
  rw [opening]
  split
  next => exact (shown_singleton rfl).append [] h.shown_front
  next => exact h.shown_front

theorem Worded.shown_back (h : Worded p) : (back p).Shown := by
  rw [back]
  split
  next => exact h.type.bounded.shown.append [0x2e, 0x2e] (shown_singleton rfl)
  next =>
      rw [List.append_nil]
      exact h.type.bounded.shown

theorem Worded.shown_right (h : Worded p) : (back p ++ closing p).Shown := by
  rw [closing]
  split
  next => exact h.shown_back.append [] (shown_singleton rfl)
  next =>
      rw [List.append_nil]
      exact h.shown_back

theorem Worded.shown_toText (h : Worded p) : p.toText.Shown := by
  rw [toText_eq]
  exact h.shown_left.append [0x3a] h.shown_right

/-- The bytes of a record that are not in its names. -/
def recordSigns : Text :=
  [0x2d, 0x3e, 0x3a, 0x2e, 0x5b, 0x5d]

theorem Worded.not_mem_toText (h : Worded p) {b : UInt8} (hb : isWord b = false) (hsigns : b ∉ recordSigns) :
    b ∉ p.toText := by
  simp only [recordSigns, List.mem_cons, List.not_mem_nil, or_false, not_or] at hsigns
  obtain ⟨hdash, harrow, hcolon, hdot, hopen, hclose⟩ := hsigns
  have hfront : b ∉ front p := h.not_mem_front hb (by simp [hdash, harrow])
  have hback : b ∉ back p := h.not_mem_back hb hdot
  have hopening : b ∉ opening p := by
    rw [opening]
    split <;> simp [hopen]
  have hclosing : b ∉ closing p := by
    rw [closing]
    split <;> simp [hclose]
  rw [toText_eq]
  simp [hfront, hback, hopening, hclosing, hcolon]

theorem colon_mem_toText (p : Param) : 0x3a ∈ p.toText := by
  simp [toText_eq]

theorem Worded.splitScope_front (h : Worded p) : splitScope (front p) = (p.name, p.scope) := by
  have harrow : Text.ofString "->" = [0x2d, 0x3e] := rfl
  have hname : 0x2d ∉ p.name := h.name.not_mem rfl
  rw [splitScope, harrow, front]
  cases hs : p.scope with
  | none =>
      rw [Param.arrow, List.append_nil, cut_eq_none_of_not_mem List.mem_cons_self hname]
  | some s =>
      have hscope := h.scope s hs
      rw [Param.arrow, harrow, cut_of_not_mem hname [0x3e] s]
      simp [h.name.trim, hscope.trim, hscope.ne_nil]

theorem Worded.splitDots_back (h : Worded p) : splitDots (back p) = (p.type.name, p.multiple) := by
  have hdots : Text.ofString "..." = [0x2e, 0x2e, 0x2e] := rfl
  rw [splitDots, hdots, back]
  cases hm : p.multiple with
  | true =>
      have hends : endsWith (p.type.name ++ [0x2e, 0x2e, 0x2e]) [0x2e, 0x2e, 0x2e] = true := by
        simp [endsWith]
      simp [hends, h.type.trim]
  | false =>
      have hends : endsWith p.type.name [0x2e, 0x2e, 0x2e] = false := by
        rw [Bool.eq_false_iff]
        intro hsuffix
        have hdot : 0x2e ∈ p.type.name := (List.isSuffixOf_iff_suffix.mp hsuffix).subset List.mem_cons_self
        exact h.type.not_mem rfl hdot
      simp [hends]

theorem readRecord_eq (record : Text) : readRecord record = match Text.cut [0x3a] record with
    | none => .error (.paramRecord record.trim)
    | some (left, right) =>
      let (name, scope) := splitScope (Text.trimLeft (· == 0x5b) left.trim).trim
      let (typeName, multiple) := splitDots (Text.trimRight (· == 0x5d) right.trim).trim
      if right.contains [0x3a] then .error (.paramRecord record.trim)
      else if name.isEmpty then .error .paramNameMissing
      else if typeName.isEmpty then .error (.paramTypeMissing name)
      else .ok ⟨name, typeName, left.contains [0x5b], multiple, scope⟩ := by
  rw [readRecord, show Text.ofString ":" = [0x3a] from rfl, show Text.ofString "[" = [0x5b] from rfl]
  cases Text.cut [0x3a] record with
  | none => rfl
  | some parts =>
      dsimp only
      split
      next => rfl
      next =>
          split
          next => rfl
          next =>
              split
              next => rfl
              next => rfl

theorem trimLeft_of_not_mem {t : Text} {c : UInt8} (h : c ∉ t) : trimLeft (· == c) t = t := by
  cases t with
  | nil => rfl
  | cons b t =>
      have hb : b ≠ c := (List.ne_and_not_mem_of_not_mem_cons h).1.symm
      rw [trimLeft, List.dropWhile_cons, if_neg (by simpa using hb)]

theorem trimRight_of_not_mem {t : Text} {c : UInt8} (h : c ∉ t) : trimRight (· == c) t = t := by
  have hreverse : trimLeft (· == c) t.reverse = t.reverse := trimLeft_of_not_mem (by simpa using h)
  rw [trimRight, ← trimLeft, hreverse, List.reverse_reverse]

theorem readRecord_trim (record : Text) : readRecord record.trim = readRecord record := by
  obtain ⟨b, e, hb, he, hrecord⟩ := exists_trim_eq record
  have hcolon : isVisible 0x3a = true := rfl
  have hcut : cut [0x3a] record = (cut [0x3a] record.trim).map fun parts => (b ++ parts.1, parts.2 ++ e) := by
    rw [hrecord, cut_append_left (hb.not_mem hcolon), cut_append_right (he.not_mem hcolon), ← hrecord, Option.map_map]
    rfl
  have htrim : record.trim.trim = record.trim := (trimmed_trim record).trim
  rw [readRecord_eq, readRecord_eq record, hcut]
  cases cut [0x3a] record.trim with
  | none => rw [Option.map_none, htrim]
  | some parts =>
      obtain ⟨left, right⟩ := parts
      have hright : (right ++ e).contains [0x3a] = right.contains [0x3a] := by
        rw [Bool.eq_iff_iff, contains_byte, contains_byte, List.mem_append]
        simp [he.not_mem hcolon]
      have hleft : (b ++ left).contains [0x5b] = left.contains [0x5b] := by
        rw [Bool.eq_iff_iff, contains_byte, contains_byte, List.mem_append]
        simp [hb.not_mem (b := 0x5b) rfl]
      simp only [Option.map_some, hright, hleft, trim_blank_append hb, trim_append_blank he, htrim]

theorem Worded.readRecord_toText (h : Worded p) : readRecord p.toText = .ok (recordOf p) := by
  have hleft : 0x3a ∉ opening p ++ front p := by
    have hfront : 0x3a ∉ front p := h.not_mem_front rfl (by decide)
    rw [opening]
    split <;> simp [hfront]
  have hright : 0x3a ∉ back p ++ closing p := by
    have hback : 0x3a ∉ back p := h.not_mem_back rfl (by decide)
    rw [closing]
    split <;> simp [hback]
  have hbracket : 0x5b ∉ front p := h.not_mem_front rfl (by decide)
  have hname : trimLeft (· == 0x5b) (opening p ++ front p) = front p := by
    rw [opening]
    split
    next => exact trimLeft_of_not_mem hbracket
    next => exact trimLeft_of_not_mem hbracket
  have htype : trimRight (· == 0x5d) (back p ++ closing p) = back p := by
    have hback : trimRight (· == 0x5d) (back p) = back p := trimRight_of_not_mem (h.not_mem_back rfl (by decide))
    rw [closing]
    split
    next => rwa [trimRight, List.reverse_concat, List.dropWhile_cons_of_pos rfl]
    next => rw [List.append_nil, hback]
  have hoptional : Text.contains (opening p ++ front p) [0x5b] = p.optional := by
    rw [Bool.eq_iff_iff, contains_byte, opening]
    split <;> simp_all
  have hnocolon : Text.contains (back p ++ closing p) [0x3a] = false := by
    rw [Bool.eq_false_iff, Ne, contains_byte]
    exact hright
  rw [readRecord_eq, toText_eq, cut_byte hleft]
  simp only [h.shown_left.trimmed.trim, h.shown_right.trimmed.trim, hname, htype, h.shown_front.trimmed.trim,
    h.shown_back.trimmed.trim, h.splitScope_front, h.splitDots_back, hnocolon, hoptional]
  simp [h.name.ne_nil, h.type.ne_nil, recordOf]

end Schema

end Population

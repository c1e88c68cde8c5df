import Mathlib.Data.List.Forall2
import Population.Proofs.Model.Target
import Population.Proofs.Pairing
import Population.Proofs.Text.Blank

namespace Population.Target

variable {raw : Text} {t : Target} {ts : List Target}

def pieces (raw : Text) : List Text :=
  (raw.splitOn 0x2c).filter fun piece => ¬ piece.IsBlank

theorem fragments_eq (raw : Text) : fragments raw = pieces raw := by
  refine List.filter_congr fun piece _ => ?_
  rw [Bool.eq_iff_iff, decide_eq_true_eq, ← Text.trim_eq_nil_iff]
  simp

theorem parseList_ok_iff : parseList raw = .ok ts ↔
    ts ≠ [] ∧ List.Forall₂ (fun piece t => parse piece = .ok t) (pieces raw) ts := by
  rw [parseList, fragments_eq, bind_ok_iff]
  constructor
  · rintro ⟨ts', hread, h⟩
    split at h
    next => exact absurd h throw_ne_ok
    next hne =>
        cases pure_ok_iff.mp h
        exact ⟨by simpa using hne, mapM_ok_iff.mp hread⟩
  · rintro ⟨hne, hread⟩
    refine ⟨ts, mapM_ok_iff.mpr hread, ?_⟩
    rw [if_neg (by simpa using hne)]
    rfl

theorem parseList_refused_iff : (∃ e, parseList raw = .error e) ↔
    pieces raw = [] ∨ ∃ piece ∈ pieces raw, ∃ e, parse piece = .error e := by
  rw [parseList, fragments_eq]
  constructor
  · rintro ⟨e, h⟩
    rcases bind_error_iff.mp h with hread | ⟨ts, hread, h⟩
    · obtain ⟨piece, hpiece, he⟩ := mapM_error hread
      exact .inr ⟨piece, hpiece, e, he⟩
    · split at h
      next hnil =>
          have hpieces := mapM_ok_iff.mp hread
          rw [List.isEmpty_iff.mp hnil, List.forall₂_nil_right_iff] at hpieces
          exact .inl hpieces
      next => exact absurd h pure_ne_error
  · intro h
    cases hread : (pieces raw).mapM parse with
    | error e => exact ⟨e, rfl⟩
    | ok ts =>
        have hpieces := mapM_ok_iff.mp hread
        rcases h with hnil | ⟨piece, hpiece, e, he⟩
        · rw [hnil, List.forall₂_nil_left_iff] at hpieces
          subst hpieces
          exact ⟨.noTargets, rfl⟩
        · obtain ⟨t, -, ht⟩ := partner_of_left hpieces hpiece
          rw [he] at ht
          cases ht

/-- What is read is as long as the list of pieces, and each target is what its piece reads as. -/
def ReadsPieces (raw : Text) (ts : List Target) : Prop :=
  ts.length = (pieces raw).length ∧
    ∀ (k : Nat) (t : Target), ts[k]? = some t → ∃ piece, (pieces raw)[k]? = some piece ∧ parse piece = .ok t

theorem parseList_readsPieces (h : parseList raw = .ok ts) : ReadsPieces raw ts := by
  have hread := (parseList_ok_iff.mp h).2
  refine ⟨hread.length_eq.symm, fun k t ht => ?_⟩
  obtain ⟨hk, rfl⟩ := List.getElem?_eq_some_iff.mp ht
  have hk' : k < (pieces raw).length := hread.length_eq ▸ hk
  exact ⟨(pieces raw)[k], List.getElem?_eq_getElem hk', hread.get hk' hk⟩

/-- A target whose parts are trimmed and hold none of the signs that lists and targets are cut at. -/
structure Plain (t : Target) : Prop where
  subsystem : ∀ s ∈ t.subsystem, IsPart s ∧ 0x2c ∉ s ∧ 0x3a ∉ s
  cls : IsPart t.cls ∧ 0x2c ∉ t.cls ∧ 0x2e ∉ t.cls ∧ 0x3a ∉ t.cls
  attr : IsPart t.attr ∧ 0x2c ∉ t.attr ∧ 0x2e ∉ t.attr ∧ 0x3a ∉ t.attr

instance instDecidableIsPart (part : Text) : Decidable (IsPart part) :=
  decidable_of_iff (part.Trimmed ∧ part ≠ []) ⟨fun h => ⟨h.1, h.2⟩, fun h => ⟨h.trimmed, h.ne_nil⟩⟩

instance instDecidablePlain (t : Target) : Decidable t.Plain :=
  decidable_of_iff ((∀ s ∈ t.subsystem, IsPart s ∧ 0x2c ∉ s ∧ 0x3a ∉ s) ∧
      (IsPart t.cls ∧ 0x2c ∉ t.cls ∧ 0x2e ∉ t.cls ∧ 0x3a ∉ t.cls) ∧
      IsPart t.attr ∧ 0x2c ∉ t.attr ∧ 0x2e ∉ t.attr ∧ 0x3a ∉ t.attr)
    ⟨fun h => ⟨h.1, h.2.1, h.2.2⟩, fun h => ⟨h.subsystem, h.cls, h.attr⟩⟩

theorem Plain.apart (h : t.Plain) : t.Apart where
  subsystem s hs := by
    obtain ⟨hpart, -, hcolon⟩ := h.subsystem s hs
    exact ⟨hpart, fun hinner => hcolon (hinner.subset List.mem_cons_self)⟩
  cls := h.cls.1
  cls_bytes := h.cls.2.2
  attr := h.attr.1
  attr_bytes := h.attr.2.2

theorem Plain.not_endsInColon (h : t.Plain) : ¬ t.EndsInColon := by
  rintro ⟨s, hs, hend⟩
  exact (h.subsystem s hs).2.2 (List.mem_of_getLast? hend)

theorem Plain.comma_not_mem (h : t.Plain) : 0x2c ∉ t.toText := by
  have hplace : 0x2c ∉ t.place := by simp [place, h.cls.2.1, h.attr.2.1]
  rw [toText_eq]
  cases hs : t.subsystem with
  | none => exact hplace
  | some s => simp [(h.subsystem s hs).2.1, hplace]

/-- What is written between two commas: blanks only, or a target with blanks around it. -/
inductive Fragment
  | blank (text : Text)
  | target (before : Text) (t : Target) (after : Text)

namespace Fragment

def toText : Fragment → Text
  | blank text => text
  | target before t after => before ++ (t.toText ++ after)

def target? : Fragment → Option Target
  | blank _ => none
  | target _ t _ => some t

def Spaced : Fragment → Prop
  | blank text => text.IsBlank
  | target before _ after => before.IsBlank ∧ after.IsBlank

instance instDecidableSpaced : (f : Fragment) → Decidable f.Spaced
  | blank text => inferInstanceAs (Decidable text.IsBlank)
  | target before _ after => inferInstanceAs (Decidable (before.IsBlank ∧ after.IsBlank))

variable {f : Fragment} {fs : List Fragment}

theorem comma_not_mem (hf : f.Spaced) (hplain : ∀ t ∈ f.target?, t.Plain) : 0x2c ∉ f.toText := by
  have hcomma : Text.isVisible 0x2c = true := rfl
  cases f with
  | blank text => exact Text.IsBlank.not_mem hf hcomma
  | target before t after =>
      have htext := (hplain t rfl).comma_not_mem
      simp [toText, hf.1.not_mem hcomma, hf.2.not_mem hcomma, htext]

theorem trim_target {before after : Text} (h : t.Plain) (hbefore : before.IsBlank) (hafter : after.IsBlank) :
    (target before t after).toText.trim = t.toText :=
  h.apart.trimmed.trim_between hbefore hafter

theorem parse_target {before after : Text} (h : t.Plain) (hbefore : before.IsBlank) (hafter : after.IsBlank) :
    parse (target before t after).toText = .ok t :=
  h.apart.parse_of_trim h.not_endsInColon (trim_target h hbefore hafter)

theorem not_isBlank_target {before after : Text} (h : t.Plain) (hbefore : before.IsBlank) (hafter : after.IsBlank) :
    ¬ (target before t after).toText.IsBlank := by
  rw [← Text.trim_eq_nil_iff, trim_target h hbefore hafter, toText_eq]
  cases t.subsystem <;> simp [place]

theorem read_texts (hspaced : ∀ f ∈ fs, f.Spaced) (hplain : ∀ t ∈ fs.filterMap target?, t.Plain) :
    List.Forall₂ (fun piece t => parse piece = .ok t) ((fs.map toText).filter fun piece => ¬ piece.IsBlank)
      (fs.filterMap target?) := by
  induction fs with
  | nil => exact .nil
  | cons f fs ih =>
      obtain ⟨hf, hrest⟩ := List.forall_mem_cons.mp hspaced
      cases f with
      | blank text =>
          have hdropped : ¬ decide (¬ (blank text).toText.IsBlank) = true := by
            rw [decide_eq_true_eq, not_not]
            exact hf
          rw [List.map_cons, List.filter_cons, if_neg hdropped]
          exact ih hrest hplain
      | target before t after =>
          obtain ⟨ht, hothers⟩ := List.forall_mem_cons.mp hplain
          have hkept : decide (¬ (target before t after).toText.IsBlank) = true :=
            decide_eq_true (not_isBlank_target ht hf.1 hf.2)
          rw [List.map_cons, List.filter_cons, if_pos hkept]
          exact .cons (parse_target ht hf.1 hf.2) (ih hrest hothers)

theorem pieces_join (hspaced : ∀ f ∈ fs, f.Spaced) (hplain : ∀ t ∈ fs.filterMap target?, t.Plain) (hne : fs ≠ []) :
    pieces (Text.join "," (fs.map toText)) = (fs.map toText).filter fun piece => ¬ piece.IsBlank := by
  have hcomma : ∀ piece ∈ fs.map toText, 0x2c ∉ piece := by
    intro piece hpiece
    obtain ⟨f, hf, rfl⟩ := List.mem_map.mp hpiece
    exact comma_not_mem (hspaced f hf) fun t ht => hplain t (List.mem_filterMap.mpr ⟨f, hf, ht⟩)
  have hsplit : (Text.join "," (fs.map toText)).splitOn 0x2c = fs.map toText :=
    List.splitOn_intercalate 0x2c hcomma (by simpa using hne)
  rw [pieces, hsplit]

end Fragment

/-- Targets that are written with commas between them, with any blanks and blank pieces, are read back in their order.
Any list that is read has a target for each piece that is not blank, and a list is refused only if there is no such piece
or one of them is refused. -/
theorem parseList_join :
    (∀ fs : List Fragment, (∀ f ∈ fs, f.Spaced) → (∀ t ∈ fs.filterMap Fragment.target?, t.Plain) →
      fs.filterMap Fragment.target? ≠ [] →
      parseList (Text.join "," (fs.map Fragment.toText)) = .ok (fs.filterMap Fragment.target?)) ∧
    (∀ raw ts, parseList raw = .ok ts → ReadsPieces raw ts) ∧
    (∀ raw, (∃ e, parseList raw = .error e) ↔
      pieces raw = [] ∨ ∃ piece ∈ pieces raw, ∃ e, parse piece = .error e) := by
  refine ⟨fun fs hspaced hplain hne => ?_, fun _ _ => parseList_readsPieces, fun _ => parseList_refused_iff⟩
  have hfs : fs ≠ [] := by
    rintro rfl
    exact hne rfl
  refine parseList_ok_iff.mpr ⟨hne, ?_⟩
  rw [Fragment.pieces_join hspaced hplain hfs]
  exact Fragment.read_texts hspaced hplain

/-- Blanks of several kinds, blank pieces, and a subsystem with a dot in its name. -/
def spacedFragments : List Fragment :=
  [.blank " ", .target "\t" ⟨some "Air.Field", "Runway 1", "Number"⟩ "", .blank "",
    .target "\u2003" ⟨none, "Person", "Name"⟩ "\r\n"]

theorem parseList_join_spacedFragments :
    parseList " ,\tAir.Field::Runway 1.Number,,\u2003Person.Name\r\n" =
        .ok [⟨some "Air.Field", "Runway 1", "Number"⟩, ⟨none, "Person", "Name"⟩] ∧
      ∃ e, parseList "Person.First, Last" = .error e := by
  have hspaced : ∀ f ∈ spacedFragments, f.Spaced := by decide +kernel
  have hplain : ∀ t ∈ spacedFragments.filterMap Fragment.target?, t.Plain := by decide +kernel
  obtain ⟨hwritten, -, hrefused⟩ := parseList_join
  refine ⟨hwritten spacedFragments hspaced hplain nofun, (hrefused _).mpr (.inr ?_)⟩
  exact ⟨" Last", by decide +kernel, .noSeparator "Last", by decide +kernel⟩

end Population.Target

import Mathlib.Data.List.TakeWhile
import Mathlib.Logic.Relation
import Population.Proofs.Source.Numbering
import Population.Proofs.Text.Ends

namespace Population

namespace Layout

def IsMargin (t : Text) : Prop :=
  ∀ b ∈ t, Text.isBlankOrTab b = true

instance (t : Text) : Decidable (IsMargin t) :=
  List.decidableBAll _ t

def IsEnding (t : Text) : Prop :=
  t = [] ∨ t = [0x0d]

/-- A line that is empty, or holds only blanks and tabs, or a comment after them. -/
inductive Idle : Text → Prop
  | blank {margin ending : Text} (hm : IsMargin margin) (he : IsEnding ending) : Idle (margin ++ ending)
  | comment {margin : Text} (hm : IsMargin margin) (note : Text) : Idle (margin ++ 0x23 :: note)

/-- A change of one line: a comment behind it, other margins, or a carriage return before its line feed. -/
inductive Reshaped : Text → Text → Prop
  | comment (body note : Text) {ending : Text} (he : IsEnding ending) :
      Reshaped (body ++ ending) (body ++ 0x23 :: note ++ ending)
  | margins (core : Text) {lead lead' tail tail' ending : Text} (hlead : IsMargin lead) (hlead' : IsMargin lead')
      (htail : IsMargin tail) (htail' : IsMargin tail') (he : IsEnding ending) :
      Reshaped (lead ++ core ++ tail ++ ending) (lead' ++ core ++ tail' ++ ending)
  | carriageReturn (body : Text) : Reshaped body (body ++ [0x0d])

inductive Relaid : List Text → List Text → Prop
  | insert (before after : List Text) {line : Text} (h : Idle line) : Relaid (before ++ after) (before ++ line :: after)
  | remove (before after : List Text) {line : Text} (h : Idle line) : Relaid (before ++ line :: after) (before ++ after)
  | reshape (before after : List Text) {line line' : Text} (h : Reshaped line line') :
      Relaid (before ++ line :: after) (before ++ line' :: after)

/-- One change in the layout of a text, which is lines with line feeds between them. -/
inductive Edit : Text → Text → Prop
  | lines {ls ls' : List Text} (h : Relaid ls ls') (hls : ∀ l ∈ ls, 0x0a ∉ l) (hls' : ∀ l ∈ ls', 0x0a ∉ l) :
      Edit (Text.join [0x0a] ls) (Text.join [0x0a] ls')

def Fits (bytes : Text) : Prop :=
  ∀ l ∈ SourceFile.physicalLines bytes, l.length ≤ SourceFile.lineLimit

instance (bytes : Text) : Decidable (Fits bytes) :=
  List.decidableBAll _ (SourceFile.physicalLines bytes)

/-- What is taken off the end of a line. -/
def isTrailing (b : UInt8) : Bool :=
  Text.isBlankOrTab b || b == 0x0d

theorem not_comment {b : UInt8} (h : isTrailing b = true) : (b != 0x23) = true := by
  by_contra hsign
  obtain rfl : b = 0x23 := by simpa using hsign
  cases h

theorem IsMargin.trailing {t : Text} (h : IsMargin t) : ∀ b ∈ t, isTrailing b = true := by
  intro b hb
  simp [isTrailing, h b hb]

theorem IsEnding.trailing {t : Text} (h : IsEnding t) : ∀ b ∈ t, isTrailing b = true := by
  intro b hb
  rcases h with rfl | rfl
  · cases hb
  · cases List.mem_singleton.mp hb
    rfl

end Layout

namespace SourceFile

open Layout

theorem trimRight_append {p : UInt8 → Bool} {e : Text} (he : ∀ b ∈ e, p b = true) (t : Text) :
    Text.trimRight p (t ++ e) = Text.trimRight p t := by
  have hdrop : e.reverse.dropWhile p = [] := List.dropWhile_eq_nil_iff.mpr fun b hb => he b (List.mem_reverse.mp hb)
  rw [Text.trimRight, List.reverse_append, List.dropWhile_append, hdrop]
  rfl

theorem takeWhile_append_all {p : UInt8 → Bool} {t e : Text} (he : ∀ b ∈ e, p b = true) :
    ∃ e', (∀ b ∈ e', b ∈ e) ∧ (t ++ e).takeWhile p = t.takeWhile p ++ e' := by
  rw [List.takeWhile_append]
  split
  next h =>
      refine ⟨e, fun b hb => hb, ?_⟩
      rw [List.takeWhile_eq_self_iff.mpr he, (List.takeWhile_prefix p).eq_of_length h]
  next => exact ⟨[], by simp, by simp⟩

theorem stripComment_append {e : Text} (he : ∀ b ∈ e, isTrailing b = true) (line : Text) :
    stripComment (line ++ e) = stripComment line := by
  obtain ⟨e', he', htake⟩ := takeWhile_append_all (t := line) fun b hb => not_comment (he b hb)
  rw [stripComment, stripComment, htake]
  exact trimRight_append (fun b hb => he b (he' b hb)) _

theorem stripComment_comment (body note : Text) : stripComment (body ++ 0x23 :: note) = stripComment body := by
  rw [stripComment, stripComment, List.takeWhile_append]
  split
  next h =>
      rw [List.takeWhile_cons_of_neg (by decide), List.append_nil, (List.takeWhile_prefix _).eq_of_length h]
  next => rfl

theorem stripComment_dropReturn (line : Text) : stripComment (dropReturn line) = stripComment line := by
  rw [dropReturn]
  split
  next h =>
      obtain ⟨front, rfl⟩ := List.getLast?_eq_some_iff.mp h
      rw [List.dropLast_concat]
      exact (stripComment_append (IsEnding.trailing (.inr rfl)) front).symm
  next => rfl

/-- A margin stands before a line that has content, and makes none. -/
theorem stripComment_margin {lead : Text} (h : IsMargin lead) (core : Text) :
    stripComment (lead ++ core) = if (stripComment core).isEmpty then [] else lead ++ stripComment core := by
  have hcomment : ∀ b ∈ lead, (b != 0x23) = true := fun b hb => not_comment (h.trailing b hb)
  have hdrop : lead.reverse.dropWhile isTrailing = [] :=
    List.dropWhile_eq_nil_iff.mpr fun b hb => h.trailing b (List.mem_reverse.mp hb)
  rw [stripComment, stripComment, List.takeWhile_append_of_pos hcomment]
  change Text.trimRight isTrailing _ = if (Text.trimRight isTrailing _).isEmpty then [] else _ ++ Text.trimRight isTrailing _
  rw [Text.trimRight, Text.trimRight, List.reverse_append, List.dropWhile_append, hdrop, List.isEmpty_reverse]
  split
  next => rfl
  next => rw [List.reverse_append, List.reverse_reverse]

def content (line : Text) : Option Text :=
  if (stripComment line).isEmpty then none else some (stripComment line).trim

theorem content_congr {line line' : Text} (h : stripComment line' = stripComment line) :
    content line' = content line := by
  rw [content, content, h]

theorem content_margin {lead : Text} (h : IsMargin lead) (core : Text) : content (lead ++ core) = content core := by
  have hspace : lead.AllSpace := by
    intro b hb
    have hb := h b hb
    simp only [Text.isBlankOrTab, Bool.or_eq_true] at hb
    rcases hb with hb | hb <;> simp [Text.isSpace, beq_iff_eq.mp hb]
  have htrim : (lead ++ stripComment core).trim = (stripComment core).trim := by
    rw [Text.trim, Text.trimStart, Text.strip_of_allSpace Text.blankCodes_take.1 hspace]
    rfl
  rw [content, content, stripComment_margin h]
  by_cases hcore : stripComment core = []
  · simp [hcore]
  · simp [hcore, htrim]

theorem content_idle {line : Text} (h : Idle line) : content line = none := by
  cases h with
  | blank hm he =>
      rw [content_margin hm]
      exact content_congr (stripComment_append he.trailing [])
  | comment hm note =>
      rw [content_margin hm]
      exact content_congr (stripComment_comment [] note)

theorem content_reshaped {line line' : Text} (h : Reshaped line line') : content line' = content line := by
  cases h with
  | comment body note he =>
      apply content_congr
      rw [stripComment_append he.trailing, stripComment_append he.trailing,
        stripComment_comment]
  | margins core hlead hlead' htail htail' he =>
      have hends {lead tail ending : Text} (hlead : IsMargin lead) (htail : IsMargin tail) (he : IsEnding ending) :
          content (lead ++ core ++ tail ++ ending) = content core := by
        rw [content_congr (stripComment_append he.trailing _),
          content_congr (stripComment_append htail.trailing _), content_margin hlead]
      rw [hends hlead htail he, hends hlead' htail' he]
  | carriageReturn => exact content_congr (stripComment_append (IsEnding.trailing (.inr rfl)) line)

theorem content_relaid {ls ls' : List Text} (h : Relaid ls ls') : ls'.filterMap content = ls.filterMap content := by
  cases h with
  | insert before after h => rw [List.filterMap_append, List.filterMap_append, List.filterMap_cons_none (content_idle h)]
  | remove before after h => rw [List.filterMap_append, List.filterMap_append, List.filterMap_cons_none (content_idle h)]
  | reshape before after h =>
      rw [List.filterMap_append, List.filterMap_append, List.filterMap_cons, List.filterMap_cons, content_reshaped h]

def contents (bytes : Text) : List Text :=
  (Text.splitByte 0x0a bytes).filterMap content

theorem contents_join {ls : List Text} (h : ∀ l ∈ ls, 0x0a ∉ l) :
    contents (Text.join [0x0a] ls) = ls.filterMap content := by
  by_cases hne : ls = []
  · subst hne
    rfl
  · have hsplit : Text.splitByte 0x0a (Text.join [0x0a] ls) = ls := List.splitOn_intercalate 0x0a h hne
    rw [contents, hsplit]

theorem contents_edits {bytes bytes' : Text} (h : Relation.ReflTransGen Edit bytes bytes') :
    contents bytes' = contents bytes := by
  induction h with
  | refl => rfl
  | tail _ hedit ih =>
      cases hedit with
      | lines h hls hls' => rw [contents_join hls', content_relaid h, ← contents_join hls, ih]

theorem linesFrom_trimmed (number offset : Nat) (texts : List Text) :
    (linesFrom number offset texts).map Line.trimmed = texts.filterMap content := by
  induction texts generalizing number offset with
  | nil => rfl
  | cons line rest ih =>
      rw [linesFrom, stripComment_dropReturn, List.filterMap_cons, content]
      split
      next => exact ih _ _
      next => rw [List.map_cons, ih, Line.trimmed]

theorem physicalLines_contents (bytes : Text) : (physicalLines bytes).filterMap content = contents bytes := by
  rw [contents, physicalLines]
  split
  next h =>
      obtain ⟨front, hfront⟩ := List.getLast?_eq_some_iff.mp h
      rw [hfront, List.dropLast_concat, List.filterMap_append]
      simp [content, stripComment, Text.trimRight]
  next => rfl

/-- The content lines of a text say what its lines say, if none of them is too long to be read. -/
theorem contentLines_trimmed {bytes : Text} (h : Fits bytes) :
    (contentLines bytes).map Line.trimmed = contents bytes := by
  have hreadable : (physicalLines bytes).takeWhile isReadable = physicalLines bytes :=
    List.takeWhile_eq_self_iff.mpr fun l hl => decide_eq_true (h l hl)
  rw [contentLines_eq, hreadable, linesFrom_trimmed, physicalLines_contents]

end SourceFile

end Population

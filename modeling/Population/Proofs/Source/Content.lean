import Population.Proofs.Source.Layout
import Population.Proofs.Text.Blank

namespace Population.SourceFile

open Layout

def allLines (bytes : Text) : List Text :=
  bytes.splitOn 0x0a

theorem join_eq_lines_append (before : List Text) {rest : List Text} (hrest : rest ≠ []) :
    Text.join [0x0a] (before ++ rest) = Text.lines before ++ Text.join [0x0a] rest := by
  induction before with
  | nil => rfl
  | cons line before ih =>
      obtain ⟨next, others, hnext⟩ := List.exists_cons_of_ne_nil (List.append_ne_nil_of_right_ne_nil before hrest)
      rw [Text.join, List.cons_append, hnext, List.intercalate_cons_cons, ← hnext]
      rw [Text.join] at ih
      rw [ih, Text.lines, Text.lines, List.flatMap_cons, show Text.ofString "\n" = [0x0a] from rfl]
      simp only [List.append_assoc]

theorem physicalLines_lines {texts : List Text} (h : ∀ t ∈ texts, 0x0a ∉ t) : physicalLines (Text.lines texts) = texts := by
  have hbytes : Text.lines texts = Text.join [0x0a] (texts ++ [[]]) := by
    rw [join_eq_lines_append texts (List.cons_ne_nil [] []), Text.join, List.intercalate_singleton, List.append_nil]
  have hsplit : Text.splitByte 0x0a (Text.lines texts) = texts ++ [[]] := by
    rw [hbytes]
    refine List.splitOn_intercalate 0x0a (fun t ht => ?_) (by simp)
    rcases List.mem_append.mp ht with ht | ht
    · exact h t ht
    · simp [List.mem_singleton.mp ht]
  simp [physicalLines, hsplit]

/-- A line with content that holds no comment. -/
structure Plain (t : Text) : Prop where
  feed : 0x0a ∉ t
  comment : 0x23 ∉ t
  content : t.trim ≠ []

theorem exists_stripComment_append {t : Text} (h : 0x23 ∉ t) : ∃ e, Text.IsBlank e ∧ t = stripComment t ++ e := by
  have hwhole : t.takeWhile (· != 0x23) = t := by
    refine List.takeWhile_eq_self_iff.mpr fun b hb => ?_
    simpa using ne_of_mem_of_not_mem hb h
  obtain ⟨e, he, ht⟩ := Text.exists_trimRight isTrailing t
  have hspace : e.AllSpace := by
    intro b hb
    have htrailing := he b hb
    simp only [isTrailing, Text.isBlankOrTab, Bool.or_eq_true, beq_iff_eq] at htrailing
    rcases htrailing with (rfl | rfl) | rfl <;> rfl
  refine ⟨e, hspace.isBlank, ?_⟩
  rw [stripComment, hwhole]
  exact ht

theorem trim_stripComment {t : Text} (h : 0x23 ∉ t) : (stripComment t).trim = t.trim := by
  obtain ⟨e, he, ht⟩ := exists_stripComment_append h
  rw [ht, Text.trim_append_blank he, ← ht]

theorem Plain.stripComment_ne_nil {t : Text} (h : Plain t) : stripComment t ≠ [] := by
  intro hempty
  apply h.content
  rw [← trim_stripComment h.comment, hempty, Text.trimmed_nil.trim]

theorem linesFrom_plain {number offset : Nat} {texts : List Text} (h : ∀ t ∈ texts, Plain t) :
    (linesFrom number offset texts).map (·.text) = texts.map stripComment := by
  induction texts generalizing number offset with
  | nil => rfl
  | cons t rest ih =>
      obtain ⟨ht, hrest⟩ := List.forall_mem_cons.mp h
      rw [linesFrom, stripComment_dropReturn, if_neg (by simpa using ht.stripComment_ne_nil), List.map_cons, ih hrest,
        List.map_cons]

theorem contentLines_lines {texts : List Text} (h : ∀ t ∈ texts, Plain t) :
    (contentLines (Text.lines texts)).map (·.text) = (texts.takeWhile isReadable).map stripComment := by
  rw [contentLines_eq, physicalLines_lines fun t ht => (h t ht).feed]
  exact linesFrom_plain fun t ht => h t ((List.takeWhile_sublist isReadable).subset ht)

/-- The lines with content, as their numbers and what is left of them without comments. -/
def listing (number : Nat) (texts : List Text) : List (Nat × Text) :=
  (texts.zipIdx number).filterMap fun (line, n) =>
    if stripComment line = [] then none else some (n, stripComment line)

theorem listing_cons (number : Nat) (line : Text) (rest : List Text) : listing number (line :: rest) =
    if stripComment line = [] then listing (number + 1) rest
    else (number, stripComment line) :: listing (number + 1) rest := by
  rw [listing, List.zipIdx_cons, List.filterMap_cons]
  split <;> simp_all [listing]

theorem linesFrom_listing (number offset : Nat) (texts : List Text) :
    (linesFrom number offset texts).map (fun l => (l.number, l.text)) = listing number texts := by
  induction texts generalizing number offset with
  | nil => rfl
  | cons line rest ih =>
      rw [linesFrom, listing_cons, stripComment_dropReturn]
      by_cases hempty : stripComment line = [] <;> simp [hempty, ih]

theorem listing_append (number : Nat) (texts more : List Text) :
    listing number (texts ++ more) = listing number texts ++ listing (number + texts.length) more := by
  rw [listing, List.zipIdx_append, List.filterMap_append]
  rfl

theorem listing_eq_nil_iff {number : Nat} {texts : List Text} :
    listing number texts = [] ↔ ∀ line ∈ texts, stripComment line = [] := by
  induction texts generalizing number with
  | nil => simp [listing]
  | cons line rest ih =>
      rw [listing_cons, List.forall_mem_cons]
      by_cases hempty : stripComment line = [] <;> simp [hempty, ih]

/-- The line feed at the end of a file does not begin another line. -/
theorem allLines_eq (bytes : Text) :
    allLines bytes = physicalLines bytes ∨ allLines bytes = physicalLines bytes ++ [[]] := by
  rw [physicalLines]
  split
  next h =>
      obtain ⟨front, hfront⟩ := List.getLast?_eq_some_iff.mp h
      rw [hfront, List.dropLast_concat]
      exact .inr hfront
  next => exact .inl rfl

theorem listing_readable (bytes : Text) : listing 1 ((physicalLines bytes).takeWhile isReadable) =
    listing 1 ((allLines bytes).takeWhile isReadable) := by
  have hempty : listing (1 + (physicalLines bytes).length) [[]] = [] :=
    listing_eq_nil_iff.mpr (by decide)
  rcases allLines_eq bytes with h | h
  · rw [h]
  · rw [h, List.takeWhile_append]
    split
    next hall =>
        rw [(List.takeWhile_prefix isReadable).eq_of_length hall, listing_append,
          List.takeWhile_eq_self_iff.mpr (by decide), hempty, List.append_nil]
    next => rfl

theorem contentLines_listing (bytes : Text) : (contentLines bytes).map (fun l => (l.number, l.text)) =
    listing 1 ((allLines bytes).takeWhile isReadable) := by
  rw [contentLines_eq, linesFrom_listing, listing_readable]

/-- The lines that are read are those with content before the first line above the limit. All content of a file is read
if and only if there is none from such a line on. -/
theorem contentLines_listing_iff (bytes : Text) :
    (contentLines bytes).map (fun l => (l.number, l.text)) = listing 1 ((allLines bytes).takeWhile isReadable) ∧
      ((contentLines bytes).map (fun l => (l.number, l.text)) = listing 1 (allLines bytes) ↔
        ∀ line ∈ (allLines bytes).dropWhile isReadable, stripComment line = []) := by
  refine ⟨contentLines_listing bytes, ?_⟩
  have hwhole := listing_append 1 ((allLines bytes).takeWhile isReadable) ((allLines bytes).dropWhile isReadable)
  rw [List.takeWhile_append_dropWhile] at hwhole
  rw [contentLines_listing, hwhole, List.self_eq_append_right, listing_eq_nil_iff]

def behindLongComment : Text :=
  Text.join [0x0a] [List.replicate (lineLimit + 1) 0x23, "domain", []]

/-- The line behind the comment is lost. -/
theorem contentLines_not_listing : (contentLines behindLongComment).map (fun l => (l.number, l.text)) = [] ∧
    listing 1 (allLines behindLongComment) = [(2, Text.ofString "domain")] := by
  have hlines : allLines behindLongComment = [List.replicate (lineLimit + 1) 0x23, "domain", []] := by
    refine List.splitOn_intercalate 0x0a ?_ (by simp)
    simp only [List.forall_mem_cons, List.mem_replicate]
    decide
  have hlong : ¬ isReadable (List.replicate (lineLimit + 1) 0x23) = true := by simp [isReadable]
  have hcomment : stripComment (List.replicate (lineLimit + 1) 0x23) = [] := stripComment_comment [] _
  constructor
  · rw [contentLines_listing, hlines, List.takeWhile_cons_of_neg hlong]
    rfl
  · rw [hlines, listing_cons, if_pos hcomment]
    decide

end Population.SourceFile

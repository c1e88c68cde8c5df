import Mathlib.Algebra.BigOperators.Group.List.Basic
import Mathlib.Algebra.GroupWithZero.Nat
import Population.Proofs.Pairing
import Population.Proofs.Source.Content

/-!
The carriage return at the end of a line is not counted, so an offset is short by one byte for each line before it that
ends in one.
-/
namespace Population

namespace SourceFile

variable {bytes : Text} {l : Line}

/-- Whether a line of a number starts at a position: behind as many line feeds, with the last of them right before it. -/
def StartsAt (bytes : Text) (number position : Nat) : Prop :=
  ∃ before rest, bytes = before ++ rest ∧ before.length = position ∧ before.count 0x0a + 1 = number ∧
    ∀ b ∈ before.getLast?, b = 0x0a

theorem StartsAt.le {number p q : Nat} (h : StartsAt bytes number p) (h' : StartsAt bytes number q) : p ≤ q := by
  obtain ⟨before, rest, rfl, rfl, hcount, hlast⟩ := h
  obtain ⟨before', rest', heq, rfl, hcount', -⟩ := h'
  rcases List.append_eq_append_iff.mp heq with ⟨more, rfl, -⟩ | ⟨more, rfl, -⟩
  · simp
  · -- What lies between the positions ends in a line feed, so it would be counted on one side only.
    rcases List.eq_nil_or_concat more with rfl | ⟨front, b, rfl⟩
    · simp
    · obtain rfl : b = 0x0a := hlast b (by simp)
      simp only [List.count_append, List.concat_eq_append, List.count_singleton_self] at hcount hcount'
      omega

theorem StartsAt.unique {number p q : Nat} (h : StartsAt bytes number p) (h' : StartsAt bytes number q) : p = q :=
  Nat.le_antisymm (h.le h') (h'.le h)

/-- How many bytes the offsets count for lines. -/
def advance (texts : List Text) : Nat :=
  (texts.map fun line => (dropReturn line).length + 1).sum

def endsInReturn (line : Text) : Bool :=
  line.getLast? = some 0x0d

theorem length_dropReturn (line : Text) :
    line.length = (dropReturn line).length + if endsInReturn line then 1 else 0 := by
  rw [dropReturn]
  by_cases h : line.getLast? = some 0x0d
  · obtain ⟨front, rfl⟩ := List.getLast?_eq_some_iff.mp h
    simp [endsInReturn]
  · simp [endsInReturn, h]

theorem isPrefix_dropReturn (line : Text) : dropReturn line <+: line := by
  rw [dropReturn]
  split
  next => exact List.dropLast_prefix line
  next => exact List.prefix_refl line

theorem length_lines (texts : List Text) : (Text.lines texts).length = advance texts + texts.countP endsInReturn := by
  have hfeed : (Text.ofString "\n").length = 1 := rfl
  induction texts with
  | nil => rfl
  | cons line rest ih =>
      have hline := length_dropReturn line
      rw [Text.lines] at ih ⊢
      rw [List.flatMap_cons, List.length_append, ih, List.length_append, hfeed, hline, List.countP_cons, advance,
        advance, List.map_cons, List.sum_cons]
      omega

theorem mem_linesFrom {number offset : Nat} {texts : List Text} (h : l ∈ linesFrom number offset texts) :
    ∃ before line after, texts = before ++ line :: after ∧ l.number = number + before.length ∧
      l.offset = offset + advance before ∧ l.raw = dropReturn line := by
  induction texts generalizing number offset with
  | nil => cases h
  | cons line rest ih =>
      rw [linesFrom] at h
      have hlater : l ∈ linesFrom (number + 1) (offset + (dropReturn line).length + 1) rest →
          ∃ before line' after, line :: rest = before ++ line' :: after ∧ l.number = number + before.length ∧
            l.offset = offset + advance before ∧ l.raw = dropReturn line' := by
        intro hl
        obtain ⟨before, line', after, rfl, hnumber, hoffset, hraw⟩ := ih hl
        refine ⟨line :: before, line', after, rfl, ?_, ?_, hraw⟩
        · rw [hnumber, List.length_cons]
          omega
        · rw [hoffset, advance, advance, List.map_cons, List.sum_cons]
          omega
      split at h
      next => exact hlater h
      next =>
          rcases List.mem_cons.mp h with rfl | hl
          · exact ⟨[], line, rest, rfl, rfl, rfl, rfl⟩
          · exact hlater hl

theorem mem_contentLines (h : l ∈ contentLines bytes) :
    ∃ before line after, allLines bytes = before ++ line :: after ∧ l.number = before.length + 1 ∧
      l.offset = advance before ∧ l.raw = dropReturn line := by
  rw [contentLines_eq] at h
  obtain ⟨before, line, after, htexts, hnumber, hoffset, hraw⟩ := mem_linesFrom h
  obtain ⟨unread, hunread⟩ := List.takeWhile_prefix (l := physicalLines bytes) isReadable
  rw [htexts] at hunread
  rw [Nat.add_comm] at hnumber
  rw [Nat.zero_add] at hoffset
  rcases allLines_eq bytes with hall | hall
  · exact ⟨before, line, after ++ unread, by rw [hall, ← hunread]; simp, hnumber, hoffset, hraw⟩
  · exact ⟨before, line, after ++ unread ++ [[]], by rw [hall, ← hunread]; simp, hnumber, hoffset, hraw⟩

theorem feed_not_mem_allLines {line : Text} (h : line ∈ allLines bytes) : 0x0a ∉ line := by
  rw [allLines] at h
  induction bytes generalizing line with
  | nil =>
      rw [List.splitOn_nil, List.mem_singleton] at h
      simp [h]
  | cons b bytes ih =>
      obtain ⟨first, rest, hsplit⟩ := List.exists_cons_of_ne_nil (List.splitOn_ne_nil 0x0a bytes)
      rw [List.splitOn_cons_eq_if_modifyHead, hsplit] at h
      rw [hsplit] at ih
      by_cases hb : b = 0x0a
      · rw [if_pos (by simp [hb])] at h
        rcases List.mem_cons.mp h with rfl | h
        · simp
        · exact ih h
      · rw [if_neg (by simpa using hb), List.modifyHead_cons] at h
        rcases List.mem_cons.mp h with rfl | h
        · have hfirst := ih List.mem_cons_self
          simp [hfirst, Ne.symm hb]
        · exact ih (List.mem_cons_of_mem first h)

theorem prefix_join (line : Text) (rest : List Text) : line <+: Text.join [0x0a] (line :: rest) := by
  cases rest with
  | nil => simp [Text.join]
  | cons next rest =>
      rw [Text.join, List.intercalate_cons_cons, List.append_assoc]
      exact List.prefix_append _ _

theorem eq_lines_append {before rest : List Text} (h : allLines bytes = before ++ rest) (hrest : rest ≠ []) :
    bytes = Text.lines before ++ Text.join [0x0a] rest := by
  rw [← join_eq_lines_append before hrest, ← h]
  exact (List.intercalate_splitOn 0x0a).symm

/-- A line starts behind the lines before it, each with its line feed. -/
theorem startsAt_lines {before rest : List Text} (h : allLines bytes = before ++ rest) (hrest : rest ≠ []) :
    StartsAt bytes (before.length + 1) (Text.lines before).length := by
  have hfree : ∀ line ∈ before, 0x0a ∉ line := by
    intro line hline
    have hmem : line ∈ allLines bytes := h ▸ List.mem_append_left rest hline
    exact feed_not_mem_allLines hmem
  refine ⟨Text.lines before, _, eq_lines_append h hrest, rfl, ?_, ?_⟩
  · have hfeed : (Text.ofString "\n").count 0x0a = 1 := by decide
    clear h
    induction before with
    | nil => rfl
    | cons line before ih =>
        obtain ⟨hline, hothers⟩ := List.forall_mem_cons.mp hfree
        have hcount := ih hothers
        rw [Text.lines] at hcount ⊢
        rw [List.flatMap_cons, List.count_append, List.count_append, List.count_eq_zero_of_not_mem hline, hfeed,
          List.length_cons]
        omega
  · intro b hb
    rcases List.eq_nil_or_concat before with rfl | ⟨front, line, rfl⟩
    · cases hb
    · rw [Text.lines, List.concat_eq_append, List.flatMap_append, List.flatMap_singleton, ← List.append_assoc] at hb
      change b ∈ (_ ++ [0x0a]).getLast? at hb
      simpa [eq_comm] using hb

end SourceFile

/-- What it means for the offset of a line to be true: the line starts there, its bytes are found there, and looking up
its number finds the offset. -/
structure Line.LocatedIn (l : Line) (f : SourceFile) : Prop where
  start : SourceFile.StartsAt f.bytes l.number l.offset
  slice : (f.bytes.drop l.offset).take l.raw.length = l.raw
  found : f.offset l.number = l.offset

namespace SourceFile

variable {bytes : Text} {l : Line}

theorem offset_of_mem (name : Text) (h : l ∈ contentLines bytes) : (ofBytes name bytes).offset l.number = l.offset := by
  have hnodup : ((contentLines bytes).map (·.number)).Nodup :=
    (List.pairwise_map.mpr ((contentLines_ascending bytes).imp Nat.ne_of_lt))
  have hfind : (contentLines bytes).find? (fun k => (k.number : Int) = l.number) = some l := by
    rw [← (find?_key_iff hnodup).mpr ⟨h, rfl⟩]
    simp only [Int.natCast_inj]
  rw [offset, ofBytes]
  dsimp only
  rw [hfind]

def linesBefore (bytes : Text) (number : Nat) : List Text :=
  (allLines bytes).take (number - 1)

/-- An offset is short by one byte for each line before that ends in a carriage return. It is true if and only if there
is no such line. -/
theorem offset_true_iff (name : Text) (h : l ∈ contentLines bytes) :
    StartsAt bytes l.number (l.offset + (linesBefore bytes l.number).countP endsInReturn) ∧
      (l.LocatedIn (ofBytes name bytes) ↔ ∀ line ∈ linesBefore bytes l.number, line.getLast? ≠ some 0x0d) := by
  obtain ⟨before, line, after, hall, hnumber, hoffset, hraw⟩ := mem_contentLines h
  have hbefore : linesBefore bytes l.number = before := by
    rw [linesBefore, hall, hnumber, Nat.add_sub_cancel, List.take_left]
  have hstart : StartsAt bytes l.number (l.offset + before.countP endsInReturn) := by
    rw [hnumber, hoffset, ← length_lines]
    exact startsAt_lines hall (List.cons_ne_nil line after)
  rw [hbefore]
  refine ⟨hstart, ?_⟩
  have hreturns : before.countP endsInReturn = 0 ↔ ∀ line ∈ before, line.getLast? ≠ some 0x0d := by
    simp [List.countP_eq_zero, endsInReturn]
  rw [← hreturns]
  constructor
  · intro hlocated
    -- the line starts in one place only, so nothing is lacking
    have hunique := hlocated.start.unique hstart
    omega
  · intro hnone
    rw [hnone, Nat.add_zero] at hstart
    refine ⟨hstart, ?_, offset_of_mem name h⟩
    have hposition : l.offset = (Text.lines before).length := by rw [hoffset, length_lines, hnone, Nat.add_zero]
    have hraw' : l.raw <+: Text.join [0x0a] (line :: after) := by
      rw [hraw]
      exact (isPrefix_dropReturn line).trans (prefix_join line after)
    change (bytes.drop l.offset).take l.raw.length = l.raw
    rw [eq_lines_append hall (List.cons_ne_nil line after), hposition, List.drop_left]
    exact (List.prefix_iff_eq_take.mp hraw').symm

def commented : Text :=
  "# header comment\ndomain\n\n  Air Traffic Control / ATC # trailing\n"

def commentedLine : Line :=
  ⟨4, 25, "  Air Traffic Control / ATC # trailing", "  Air Traffic Control / ATC"⟩

theorem offset_true_commented :
    commentedLine ∈ contentLines commented ∧ commentedLine.LocatedIn (ofBytes "atc.mi" commented) := by
  have hmem : commentedLine ∈ contentLines commented := by decide +kernel
  exact ⟨hmem, (offset_true_iff "atc.mi" hmem).2.mpr (by decide +kernel)⟩

/-- The offset of the line is seven, but it starts behind eight bytes. -/
theorem offset_not_true :
    ¬ ∀ l ∈ contentLines "domain\r\nAir Traffic / ATC\r\n",
      l.LocatedIn (ofBytes "atc.mi" "domain\r\nAir Traffic / ATC\r\n") := by
  intro h
  have hslice := (h ⟨2, 7, "Air Traffic / ATC", "Air Traffic / ATC"⟩ (by decide +kernel)).slice
  revert hslice
  decide +kernel

end SourceFile

end Population

import Population.Source.Line

namespace Population.SourceFile

/-- The lines read so far, last first, have falling numbers, all of them below the next. -/
def Reading.Falls (r : Reading) : Prop :=
  0 < r.next ∧ (∀ l ∈ r.seen, 0 < l.number ∧ l.number < r.next) ∧
    r.seen.Pairwise fun l l' => l'.number < l.number

theorem Reading.add_falls {r : Reading} (h : r.Falls) (raw : Text) : (r.add raw).Falls := by
  obtain ⟨hpos, hbelow, hfalls⟩ := h
  have hbelow' : ∀ l ∈ r.seen, 0 < l.number ∧ l.number < r.next + 1 := by
    intro l hl
    exact ⟨(hbelow l hl).1, Nat.lt_succ_of_lt (hbelow l hl).2⟩
  simp only [Reading.Falls, Reading.add]
  split
  next => exact ⟨Nat.succ_pos _, hbelow', hfalls⟩
  next =>
    refine ⟨Nat.succ_pos _, ?_, List.pairwise_cons.mpr ⟨fun l hl => (hbelow l hl).2, hfalls⟩⟩
    intro l hl
    rcases List.mem_cons.mp hl with rfl | hl
    · exact ⟨hpos, Nat.lt_succ_self _⟩
    · exact hbelow' l hl

theorem foldl_add_falls {r : Reading} (h : r.Falls) (raws : List Text) : (raws.foldl Reading.add r).Falls := by
  induction raws generalizing r with
  | nil => exact h
  | cons raw rest ih => exact ih (Reading.add_falls h raw)

theorem contentLines_falls (bytes : Text) :
    ∃ r : Reading, r.Falls ∧ contentLines bytes = r.seen.reverse :=
  ⟨_, foldl_add_falls ⟨Nat.one_pos, by simp, List.Pairwise.nil⟩ _, rfl⟩

theorem contentLines_ascending (bytes : Text) :
    (contentLines bytes).Pairwise fun l l' => l.number < l'.number := by
  obtain ⟨r, ⟨-, -, hfalls⟩, heq⟩ := contentLines_falls bytes
  rw [heq]
  exact List.pairwise_reverse.mpr hfalls

theorem contentLines_number_pos {bytes : Text} {l : Line} (hl : l ∈ contentLines bytes) : 0 < l.number := by
  obtain ⟨r, ⟨-, hbelow, -⟩, heq⟩ := contentLines_falls bytes
  rw [heq] at hl
  exact (hbelow l (List.mem_reverse.mp hl)).1

def isReadable (line : Text) : Bool :=
  line.length ≤ lineLimit

/-- The lines that reading makes of texts, the first of which has a number and an offset. -/
def linesFrom (number offset : Nat) : List Text → List Line
  | [] => []
  | line :: rest =>
    let raw := dropReturn line
    let later := linesFrom (number + 1) (offset + raw.length + 1) rest
    if (stripComment raw).isEmpty then later else ⟨number, offset, raw, stripComment raw⟩ :: later

theorem foldl_add_eq (texts : List Text) (r : Reading) :
    ((texts.map dropReturn).foldl Reading.add r).seen.reverse =
      r.seen.reverse ++ linesFrom r.next r.offset texts := by
  induction texts generalizing r with
  | nil => simp [linesFrom]
  | cons line rest ih =>
      rw [List.map_cons, List.foldl_cons, ih, Reading.add, linesFrom]
      dsimp only
      split
      next => rfl
      next => simp

theorem contentLines_eq (bytes : Text) :
    contentLines bytes = linesFrom 1 0 ((physicalLines bytes).takeWhile isReadable) := by
  have h := foldl_add_eq ((physicalLines bytes).takeWhile isReadable) ⟨1, 0, []⟩
  exact h

end Population.SourceFile

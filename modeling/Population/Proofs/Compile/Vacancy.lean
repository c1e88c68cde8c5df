import Population.Proofs.Compile.Location
import Population.Proofs.Source.Content

/-!
Three kinds of blanks are taken off a line where it is read, and all white space characters where its text is needed;
so a line of other white space is kept as a line with an empty text, and no statement is empty.
-/
namespace Population

namespace SourceFile

open Layout

/-- What stands before the comment of a line. -/
def uncommented (line : Text) : Text :=
  line.takeWhile (· != 0x23)

/-- A line of white space characters, with or without a comment behind them. -/
def IsVacant (line : Text) : Prop :=
  (uncommented line).IsBlank

instance instDecidableIsVacant (line : Text) : Decidable (IsVacant line) :=
  inferInstanceAs (Decidable (uncommented line).IsBlank)

/-- A line of blanks, tabs and carriage returns, with or without a comment behind them. -/
def IsBare (line : Text) : Prop :=
  ∀ b ∈ uncommented line, isTrailing b = true

instance instDecidableIsBare (line : Text) : Decidable (IsBare line) :=
  List.decidableBAll _ (uncommented line)

theorem stripComment_eq_nil_iff {line : Text} : stripComment line = [] ↔ IsBare line := by
  change Text.trimRight isTrailing (uncommented line) = [] ↔ _
  rw [Text.trimRight, List.reverse_eq_nil_iff, List.dropWhile_eq_nil_iff, IsBare]
  simp only [List.mem_reverse]

theorem stripComment_uncommented (line : Text) : stripComment (uncommented line) = stripComment line := by
  have hall : (uncommented line).takeWhile (· != 0x23) = uncommented line :=
    List.takeWhile_eq_self_iff.mpr fun b hb => List.mem_takeWhile_imp (p := (· != 0x23)) hb
  rw [stripComment, stripComment, hall, uncommented]

theorem trim_stripComment_eq_nil_iff {line : Text} : (stripComment line).trim = [] ↔ IsVacant line := by
  have hcomment : 0x23 ∉ uncommented line := by
    intro h
    simpa using List.mem_takeWhile_imp h
  rw [← stripComment_uncommented, trim_stripComment hcomment, Text.trim_eq_nil_iff, IsVacant]

/-- White space stands alone on a line only in the forms that are taken off it. -/
def Clean (bytes : Text) : Prop :=
  ∀ line ∈ (allLines bytes).takeWhile isReadable, IsVacant line → IsBare line

instance instDecidableClean (bytes : Text) : Decidable (Clean bytes) :=
  List.decidableBAll _ ((allLines bytes).takeWhile isReadable)

/-- Whether no line of white space is kept. -/
def IgnoresVacant (f : SourceFile) : Prop :=
  ∀ line number, (line, number) ∈ (allLines f.bytes).zipIdx 1 → IsVacant line → ∀ l ∈ f.lines, l.number ≠ number

variable {bytes : Text}

theorem mem_listing {number n : Nat} {text : Text} {texts : List Text} :
    (n, text) ∈ listing number texts ↔
      ∃ line, (line, n) ∈ texts.zipIdx number ∧ stripComment line = text ∧ ¬ IsBare line := by
  simp only [← stripComment_eq_nil_iff, listing, List.mem_filterMap]
  constructor
  · rintro ⟨⟨line, k⟩, hmem, hsome⟩
    split at hsome
    next => cases hsome
    next hne =>
        cases hsome
        exact ⟨line, hmem, rfl, hne⟩
  · rintro ⟨line, hmem, rfl, hne⟩
    exact ⟨(line, n), hmem, if_neg hne⟩

theorem mem_contentLines_iff {n : Nat} {text : Text} :
    (∃ l ∈ contentLines bytes, l.number = n ∧ l.text = text) ↔
      ∃ line, (line, n) ∈ ((allLines bytes).takeWhile isReadable).zipIdx 1 ∧ stripComment line = text ∧ ¬ IsBare line := by
  rw [← mem_listing, ← contentLines_listing, List.mem_map]
  simp only [Prod.mk.injEq]

theorem mem_zipIdx_readable {line : Text} {n : Nat} (h : (line, n) ∈ ((allLines bytes).takeWhile isReadable).zipIdx 1) :
    (line, n) ∈ (allLines bytes).zipIdx 1 := by
  obtain ⟨rest, hrest⟩ := List.takeWhile_prefix (l := allLines bytes) isReadable
  rw [← hrest, List.zipIdx_append]
  exact List.mem_append_left _ h

theorem mem_readable_iff {line : Text} : line ∈ (allLines bytes).takeWhile isReadable ↔
    ∃ n, (line, n) ∈ ((allLines bytes).takeWhile isReadable).zipIdx 1 := by
  conv_lhs => rw [← List.zipIdx_map_fst 1 ((allLines bytes).takeWhile isReadable), List.mem_map]
  simp only [Prod.exists, exists_and_right, exists_eq_right]

theorem contentLines_trimmed_iff (bytes : Text) : (∀ l ∈ contentLines bytes, l.trimmed ≠ []) ↔ Clean bytes := by
  constructor
  · intro h line hline hvacant
    by_contra hbare
    obtain ⟨n, hn⟩ := mem_readable_iff.mp hline
    obtain ⟨l, hl, -, htext⟩ := mem_contentLines_iff.mpr ⟨line, hn, rfl, hbare⟩
    apply h l hl
    rw [Line.trimmed, htext]
    exact trim_stripComment_eq_nil_iff.mpr hvacant
  · intro h l hl htrim
    obtain ⟨line, hmem, htext, hbare⟩ := mem_contentLines_iff.mp ⟨l, hl, rfl, rfl⟩
    apply hbare
    apply h line (mem_readable_iff.mpr ⟨_, hmem⟩)
    rw [← trim_stripComment_eq_nil_iff, htext]
    exact htrim

theorem exists_kept_line {l : Line} {line : Text} (hl : l ∈ contentLines bytes)
    (h : (line, l.number) ∈ (allLines bytes).zipIdx 1) :
    line ∈ (allLines bytes).takeWhile isReadable ∧ ¬ IsBare line := by
  obtain ⟨line', hmem, -, hbare⟩ := mem_contentLines_iff.mp ⟨l, hl, rfl, rfl⟩
  have hread := (List.mk_mem_zipIdx_iff_le_and_getElem?_sub.mp (mem_zipIdx_readable hmem)).2
  have hline := (List.mk_mem_zipIdx_iff_le_and_getElem?_sub.mp h).2
  obtain rfl : line' = line := Option.some.inj (hread.symm.trans hline)
  exact ⟨mem_readable_iff.mpr ⟨_, hmem⟩, hbare⟩

theorem ignoresVacant_iff (name bytes : Text) : (ofBytes name bytes).IgnoresVacant ↔ Clean bytes := by
  constructor
  · intro h line hline hvacant
    by_contra hbare
    obtain ⟨n, hn⟩ := mem_readable_iff.mp hline
    obtain ⟨l, hl, hnumber, -⟩ := mem_contentLines_iff.mpr ⟨line, hn, rfl, hbare⟩
    exact h line n (mem_zipIdx_readable hn) hvacant l hl hnumber
  · rintro h line n hn hvacant l hl rfl
    obtain ⟨hread, hbare⟩ := exists_kept_line hl hn
    exact hbare (h line hread hvacant)

end SourceFile

namespace Check

theorem line_nil (w w' : Walker) : line w [] ≠ .ok w' := by
  intro h
  have hheader : Section.header? [] = none := by decide
  have hnone : ∀ home : Section, ∀ m, Statement.matchLine home.name [] ≠ .ok m := by
    intro home m hm
    have hmatched : (Statement.matchLine home.name []).toOption.isSome := by simp [hm, Except.toOption]
    revert hmatched
    cases home <;> decide +kernel
  rw [line, hheader] at h
  obtain ⟨⟨home, w₁⟩, -, h⟩ := bind_ok_iff.mp h
  obtain ⟨m, hm, -⟩ := bind_ok_iff.mp h
  exact hnone home m (mapError_ok_iff.mp hm)

theorem lines_trimmed {name : Text} {w w' : Walker} {ls : List Line} (h : lines name w ls = .ok w') :
    ∀ l ∈ ls, l.trimmed ≠ [] := by
  induction ls generalizing w with
  | nil => nofun
  | cons l rest ih =>
      rw [lines] at h
      split at h
      next w₁ hw =>
          refine List.forall_mem_cons.mpr ⟨fun htrim => ?_, ih h⟩
          rw [htrim] at hw
          exact line_nil w w₁ hw
      next => cases h

end Check

namespace Compiled

variable {s : Schema} {fs : List SourceFile} {g : Fault}

/-- The text of a fault is that of a content line, even where its line is looked for in the wrong file. -/
theorem fault_text (hfs : ∀ f ∈ fs, f = .ofBytes f.name f.bytes)
    (hg : Check.files fs = .error g ∨ (build s fs).ending = .faulty g) :
    ∃ f ∈ fs, ∃ l ∈ f.lines, g.line = l.number ∧ g.text = l.trimmed := by
  rcases hg with hg | hg
  · obtain ⟨f, hf, l, hl, ho⟩ := Check.files_error_placed hg
    simp only [Origin.mk.injEq] at ho
    exact ⟨f, hf, l, hl, ho.2⟩
  · obtain ⟨before, f, after, out, h, rfl, hbefore, hadd, hfault⟩ := build_faulty hg
    have hnumbers : ∀ f' ∈ before ++ f :: after, ∀ l ∈ f'.lines, 0 < l.number := by
      intro f' hf' l hl
      rw [hfs f' hf'] at hl
      exact SourceFile.contentLines_number_pos hl
    have htail : out.script.TailIn (PlacedIn (before ++ f :: after)) := by
      intro tail htail
      obtain ⟨f', hf', hplaces⟩ := Output.ofFiles_tailIn hbefore tail htail
      exact ⟨f', List.mem_append_left _ hf', hplaces⟩
    obtain ⟨o, ⟨f', hf', l, hl, rfl⟩, hline, htext, -⟩ := Output.addFile_error hnumbers (by simp) htail hadd hfault
    exact ⟨f', hf', l, hl, hline, htext⟩

open SourceFile in
/-- Every line that is kept has a text, and every line of white space is ignored, if and only if white space stands alone
on lines as blanks, tabs and carriage returns only. Then no fault has an empty text; and files that pass the check are
such files. -/
theorem vacant_ignored_iff (hfs : ∀ f ∈ fs, f = .ofBytes f.name f.bytes) :
    ((∀ f ∈ fs, ∀ l ∈ f.lines, l.trimmed ≠ []) ↔ ∀ f ∈ fs, Clean f.bytes) ∧
    ((∀ f ∈ fs, f.IgnoresVacant) ↔ ∀ f ∈ fs, Clean f.bytes) ∧
    ((∀ f ∈ fs, Clean f.bytes) →
      ∀ s g, Check.files fs = .error g ∨ (build s fs).ending = .faulty g → g.text ≠ []) ∧
    (Check.files fs = .ok () → ∀ f ∈ fs, Clean f.bytes) := by
  have htrimmed : ∀ f ∈ fs, (∀ l ∈ f.lines, l.trimmed ≠ []) ↔ Clean f.bytes := by
    intro f hf
    have hlines : f.lines = contentLines f.bytes := congrArg SourceFile.lines (hfs f hf)
    rw [hlines]
    exact contentLines_trimmed_iff f.bytes
  have hignores : ∀ f ∈ fs, f.IgnoresVacant ↔ Clean f.bytes := by
    intro f hf
    rw [hfs f hf]
    exact ignoresVacant_iff f.name f.bytes
  refine ⟨forall₂_congr htrimmed, forall₂_congr hignores, fun hclean s g hg => ?_, fun hchecked f hf => ?_⟩
  · obtain ⟨f, hf, l, hl, -, htext⟩ := fault_text hfs hg
    rw [htext]
    exact (htrimmed f hf).mpr (hclean f hf) l hl
  · obtain ⟨w, hw, -⟩ := map_ok_iff.mp (Check.files_ok hchecked f hf)
    exact (htrimmed f hf).mp (Check.lines_trimmed hw)

/-- White space and a comment alone on lines, and a statement that is at fault. -/
def spacedOut : List SourceFile :=
  [.ofBytes "air_traffic.mi" "domain\n \t\r\n   # the domain\nAir Traffic\n"]

theorem vacant_ignored_spacedOut : (∀ f ∈ spacedOut, SourceFile.Clean f.bytes) ∧
    (∀ f ∈ spacedOut, f.IgnoresVacant) ∧
    ∃ g, Check.files spacedOut = .error g ∧ g.line = 4 ∧ g.text ≠ [] := by
  have hread : ∀ f ∈ spacedOut, f = .ofBytes f.name f.bytes := by
    intro f hf
    cases List.mem_singleton.mp hf
    rfl
  have hclean : ∀ f ∈ spacedOut, SourceFile.Clean f.bytes := by decide +kernel
  obtain ⟨-, hignores, hfaults, -⟩ := vacant_ignored_iff hread
  have hcheck : Check.files spacedOut = .error ⟨.syntactic, "air_traffic.mi", 4, "Air Traffic",
      "statement not recognized in section \"domain\"", none⟩ := by
    decide +kernel
  exact ⟨hclean, hignores.mpr hclean, _, hcheck, rfl, hfaults hclean .standard _ (.inl hcheck)⟩

/-- A vertical tab alone on a line, and a no-break space before a comment. -/
def strayBlanks : SourceFile :=
  .ofBytes "air_traffic.mi" "domain\n\x0b\n\u00a0# the domain\nAir Traffic / ATC\n"

theorem vacant_not_ignored :
    SourceFile.IsVacant [0x0b] ∧ SourceFile.IsVacant "\u00a0# the domain" ∧
    strayBlanks.lines.map Line.trimmed = [Text.ofString "domain", [], [], Text.ofString "Air Traffic / ATC"] ∧
    ∃ g, Check.file strayBlanks = .error g ∧ g.line = 2 ∧ g.text = [] := by
  have hcheck : Check.file strayBlanks = .error ⟨.syntactic, "air_traffic.mi", 2, [],
      "statement not recognized in section \"domain\"", none⟩ := by
    decide +kernel
  exact ⟨by decide +kernel, by decide +kernel, by decide +kernel, _, hcheck, rfl, rfl⟩

end Compiled

end Population

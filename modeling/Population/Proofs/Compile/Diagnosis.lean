import Population.Proofs.Compile.Location
import Population.Proofs.Source.Offset

namespace Population

/-- The bytes of a region are a text. -/
def Region.Spans (r : Region) (bytes text : Text) : Prop :=
  ∃ before after, bytes = before ++ (text ++ after) ∧ r.startByte = before.length ∧
    r.endByte = before.length + text.length

/-- Whether a line begins with its own text: it is not indented, or all of its text also begins the white space
character in front of it, which a text of valid characters does not. -/
def Line.Flush (l : Line) : Prop :=
  l.text.trimStart = l.text ∨ ∃ c ∈ Text.blankCodes, c <+: l.text ∧ l.trimmed <+: c

namespace Fault

/-- The faults that checking or building gives for a content line of a file. -/
inductive ReportedFor (f : SourceFile) (g : Fault) : Prop
  | check (h : Check.file f = .error g)
  | build {s : Schema} {fs : List SourceFile} (hf : f ∈ fs) (h : (Compiled.build s fs).ending = .faulty g)
      (hplace : f.Places ⟨g.file, g.line, g.text⟩)

variable {f : SourceFile} {g : Fault}

theorem ReportedFor.places (h : g.ReportedFor f) : f.Places ⟨g.file, g.line, g.text⟩ := by
  cases h with
  | check h =>
      have hfiles : Check.files [f] = .error g := bind_error_iff.mpr (.inl h)
      obtain ⟨f', hf', hplaces⟩ := Check.files_error_placed hfiles
      cases List.mem_singleton.mp hf'
      exact hplaces
  | build _ _ hplace => exact hplace

theorem ReportedFor.of_build {s : Schema} (hread : f = .ofBytes f.name f.bytes)
    (h : (Compiled.build s [f]).ending = .faulty g) : g.ReportedFor f := by
  have hnumbers : ∀ f' ∈ [f], ∀ l ∈ f'.lines, 0 < l.number := by
    intro f' hf' l hl
    cases List.mem_singleton.mp hf'
    rw [hread] at hl
    exact SourceFile.contentLines_number_pos hl
  obtain ⟨f', hf', hplaces⟩ := Compiled.build_fault_placed hnumbers (.inr (List.pairwise_singleton _ _)) h
  cases List.mem_singleton.mp hf'
  exact .build List.mem_cons_self h hplaces

end Fault

namespace SourceFile

variable {bytes : Text} {l : Line}

theorem text_of_mem_linesFrom {number offset : Nat} {texts : List Text} (h : l ∈ linesFrom number offset texts) :
    l.text = stripComment l.raw := by
  induction texts generalizing number offset with
  | nil => cases h
  | cons line rest ih =>
      rw [linesFrom] at h
      split at h
      next => exact ih h
      next =>
          rcases List.mem_cons.mp h with rfl | h
          · rfl
          · exact ih h

theorem isPrefix_text (h : l ∈ contentLines bytes) : l.text <+: l.raw := by
  rw [contentLines_eq] at h
  obtain ⟨e, -, he⟩ := Text.exists_trimRight Layout.isTrailing (l.raw.takeWhile (· != 0x23))
  rw [text_of_mem_linesFrom h]
  exact List.IsPrefix.trans ⟨e, he.symm⟩ (List.takeWhile_prefix _)

/-- Where no line ends in a carriage return, a line that was read stands in the file at its offset. -/
theorem exists_split (h : l ∈ contentLines bytes) (hreturns : ∀ line ∈ allLines bytes, line.getLast? ≠ some 0x0d) :
    StartsAt bytes l.number l.offset ∧
      ∃ before after, bytes = before ++ (l.raw ++ after) ∧ before.length = l.offset := by
  obtain ⟨before, line, after, hall, hnumber, hoffset, hraw⟩ := mem_contentLines h
  have hnone : before.countP endsInReturn = 0 := by
    refine List.countP_eq_zero.mpr fun x hx => ?_
    have hx : x ∈ allLines bytes := by
      rw [hall]
      exact List.mem_append_left _ hx
    simpa [endsInReturn] using hreturns x hx
  have hlength : (Text.lines before).length = l.offset := by
    rw [length_lines, hnone, hoffset, Nat.add_zero]
  obtain ⟨rest, hrest⟩ := (isPrefix_dropReturn line).trans (prefix_join line after)
  refine ⟨?_, Text.lines before, rest, ?_, hlength⟩
  · rw [hnumber, ← hlength]
    exact startsAt_lines hall (List.cons_ne_nil line after)
  · rw [hraw, hrest]
    exact eq_lines_append hall (List.cons_ne_nil line after)

end SourceFile

theorem Line.flush_iff (l : Line) : l.Flush ↔ l.trimmed <+: l.text := by
  constructor
  · rintro (h | ⟨c, -, hc, htrim⟩)
    · rw [← h]
      exact Text.trim_front l.text
    · exact htrim.trans hc
  · intro h
    by_cases hindent : Text.dropCode? Text.blankCodes l.text = none
    · exact .inl (Text.strip_of_none hindent)
    · simp only [Text.dropCode?_eq_none_iff, not_forall, not_not] at hindent
      obtain ⟨c, hc, hprefix⟩ := hindent
      refine .inr ⟨c, hc, hprefix, ?_⟩
      rcases List.prefix_or_prefix_of_prefix h hprefix with h | h
      · exact h
      · exact absurd h (Text.dropCode?_eq_none_iff.mp (Text.trimmed_trim l.text).start c hc)

theorem Region.spans_iff {r : Region} {before raw after t : Text} (hstart : r.startByte = before.length)
    (hend : r.endByte = before.length + t.length) (hlength : t.length ≤ raw.length) :
    r.Spans (before ++ (raw ++ after)) t ↔ t <+: raw := by
  constructor
  · rintro ⟨before', after', heq, hstart', -⟩
    have hbefore : before.length = before'.length := Int.ofNat.inj (hstart.symm.trans hstart')
    obtain ⟨-, hrest⟩ := List.append_inj heq hbefore
    have hprefix : t <+: raw ++ after := ⟨after', hrest.symm⟩
    exact List.prefix_of_prefix_length_le hprefix (List.prefix_append raw after) hlength
  · rintro ⟨tail, rfl⟩
    exact ⟨before, tail ++ after, by rw [List.append_assoc], hstart, hend⟩

namespace Fault

variable {f : SourceFile} {g : Fault}

theorem subject_of_placed (hname : f.name ≠ []) (hfile : g.file = f.name) (hline : 0 < g.line) (offset : Int) :
    (g.diagnostic offset).subject =
      some ⟨f.name, g.line, offset, g.text.length + 1, offset + g.text.length⟩ := by
  simp [diagnostic, hfile, hname, hline]

theorem subject_of_nameless (hname : g.file = []) (offset : Int) : (g.diagnostic offset).subject = none := by
  simp [diagnostic, hname]

/-- The range of a fault in a file begins where its line begins, is as long as its text and does not leave the file. If
no line ends in a carriage return, the bytes of the range are the text of the fault if and only if the file has a name
and the line is not indented. -/
theorem diagnostic_spans_iff (hread : f = .ofBytes f.name f.bytes)
    (hreturns : ∀ line ∈ SourceFile.allLines f.bytes, line.getLast? ≠ some 0x0d) (hg : g.ReportedFor f) :
    ∃ l ∈ f.lines, g.line = l.number ∧ g.text = l.trimmed ∧
      (f.name ≠ [] → ∃ (r : Region) (start : Nat), (g.diagnostic (f.offset g.line)).subject = some r ∧
        SourceFile.StartsAt f.bytes l.number start ∧ start + g.text.length ≤ f.bytes.length ∧
        r.startByte = start ∧ r.endByte = start + g.text.length) ∧
      ((∃ r, (g.diagnostic (f.offset g.line)).subject = some r ∧ r.Spans f.bytes g.text) ↔
        f.name ≠ [] ∧ l.Flush) := by
  obtain ⟨l, hl, ho⟩ := hg.places
  obtain ⟨hfile, hline, htext⟩ : g.file = f.name ∧ g.line = l.number ∧ g.text = l.trimmed := by
    simpa only [Origin.mk.injEq] using ho
  have hmem : l ∈ SourceFile.contentLines f.bytes := by
    rw [hread] at hl
    exact hl
  have hpos : 0 < g.line := by
    have := SourceFile.contentLines_number_pos hmem
    omega
  have hoffset : f.offset g.line = l.offset := by
    rw [hread, hline]
    exact SourceFile.offset_of_mem f.name hmem
  -- without carriage returns the offset is where the line stands
  obtain ⟨hstart, before, after, hbytes, hbefore⟩ := SourceFile.exists_split hmem hreturns
  have hraw : l.text <+: l.raw := SourceFile.isPrefix_text hmem
  have hlength : g.text.length ≤ l.raw.length := by
    rw [htext]
    exact (Text.trim_within l.text).length_le.trans hraw.length_le
  refine ⟨l, hl, hline, htext, fun hname => ?_, ?_⟩
  · refine ⟨_, l.offset, subject_of_placed hname hfile hpos _, hstart, ?_, by rw [hoffset], by rw [hoffset]⟩
    rw [hbytes, List.length_append, List.length_append, hbefore]
    omega
  · by_cases hname : f.name = []
    · simp [subject_of_nameless (hfile.trans hname), hname]
    -- the region has the length of the text, so it holds the text if the line begins with it
    · have hspans : Region.Spans ⟨f.name, g.line, f.offset g.line, g.text.length + 1, f.offset g.line + g.text.length⟩
          f.bytes g.text ↔ g.text <+: l.raw := by
        rw [hbytes]
        exact Region.spans_iff (by rw [hoffset, hbefore]) (by rw [hoffset, hbefore]) hlength
      have hflush : l.Flush ↔ g.text <+: l.raw := by
        rw [l.flush_iff, htext]
        refine ⟨fun h => h.trans hraw, fun h => ?_⟩
        exact List.prefix_of_prefix_length_le h hraw (Text.trim_within l.text).length_le
      rw [subject_of_placed hname hfile hpos]
      simp [hspans, hflush, hname]

/-- A floor above its ceiling, on a line that is not indented. -/
def lowCeiling : SourceFile :=
  .ofBytes "air_traffic.mi" "domain\n  Air Traffic / ATC # the first\nsubsystem\nAir Field / AF 50-1\n"

theorem diagnostic_spans_lowCeiling :
    ∃ g, (Compiled.build .standard [lowCeiling]).ending = .faulty g ∧ g.text = "Air Field / AF 50-1" ∧
      (∀ line ∈ SourceFile.allLines lowCeiling.bytes, line.getLast? ≠ some 0x0d) ∧
      ∃ r, (g.diagnostic (lowCeiling.offset g.line)).subject = some r ∧ r.Spans lowCeiling.bytes g.text := by
  have hending : (Compiled.build .standard [lowCeiling]).ending = .faulty ⟨.semantic, "air_traffic.mi", 4,
      "Air Field / AF 50-1", "subsystem \"Air Field\" range 50-1 has floor above ceiling", none⟩ := by
    decide +kernel
  have hreturns : ∀ line ∈ SourceFile.allLines lowCeiling.bytes, line.getLast? ≠ some 0x0d := by decide +kernel
  obtain ⟨l, hl, hline, -, -, hspans⟩ := diagnostic_spans_iff rfl hreturns (.of_build rfl hending)
  have hflush : ∀ l ∈ lowCeiling.lines, (4 : Int) = l.number → l.text.trimStart = l.text := by decide +kernel
  exact ⟨_, hending, rfl, hreturns, hspans.mpr ⟨by decide, .inl (hflush l hl hline)⟩⟩

/-- A statement that is at fault, on a line that is indented. -/
def indented : SourceFile :=
  .ofBytes "air_traffic.mi" "domain\n  Air Traffic\n"

/-- The range holds the indentation, and not the end of the text. -/
theorem diagnostic_not_spans :
    ∃ g r, Check.file indented = .error g ∧ g.line = 2 ∧ g.text = "Air Traffic" ∧
      (g.diagnostic (indented.offset g.line)).subject = some r ∧ r.startByte = 7 ∧ r.endByte = 18 ∧
      (indented.bytes.drop 7).take 11 = "  Air Traff" ∧ ¬ r.Spans indented.bytes g.text := by
  have hcheck : Check.file indented = .error ⟨.syntactic, "air_traffic.mi", 2, "Air Traffic",
      "statement not recognized in section \"domain\"", none⟩ := by
    decide +kernel
  have hslice : (indented.bytes.drop 7).take 11 = "  Air Traff" := by decide +kernel
  refine ⟨_, ⟨"air_traffic.mi", 2, 7, 12, 18⟩, hcheck, rfl, rfl, by decide +kernel, rfl, rfl, hslice, ?_⟩
  rintro ⟨before, after, heq, hstart, -⟩
  have hbefore : before.length = 7 := (Int.ofNat.inj hstart).symm
  rw [heq, ← hbefore, List.drop_left, show (11 : Nat) = (Text.ofString "Air Traffic").length from rfl,
    List.take_left] at hslice
  revert hslice
  decide

end Fault

end Population

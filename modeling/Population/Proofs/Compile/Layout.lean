import Population.Proofs.Compile.Alongside
import Population.Proofs.Schema.Standard
import Population.Proofs.Source.Layout

namespace Population

/-- The numbers of content lines at the same place among those of two texts. -/
def Layout.Renumbers (bytes bytes' : Text) (n n' : Int) : Prop :=
  ∃ (i : Nat) (l l' : Line), (SourceFile.contentLines bytes)[i]? = some l ∧
    (SourceFile.contentLines bytes')[i]? = some l' ∧ n = l.number ∧ n' = l'.number

section

variable {N : Int → Int → Prop}

theorem Check.line_unplaced {w : Walker} {text : Text} {f : Fault} (h : Check.line w text = .error f) :
    f.Unplaced := by
  rw [line] at h
  split at h
  next => exact unplaced_of_mapError WalkError.fault_unplaced (map_error_iff.mp h)
  next =>
      rcases bind_error_iff.mp h with h | ⟨⟨home, w⟩, -, h⟩
      · exact unplaced_of_mapError WalkError.fault_unplaced h
      · rcases bind_error_iff.mp h with h | ⟨m, -, h⟩
        · exact unplaced_of_mapError MatchError.fault_unplaced h
        · exact absurd h pure_ne_error

theorem Check.lines_parallel {ls ls' : List Line} (hls : List.Forall₂ (Line.Alike N) ls ls') (name : Text)
    (w : Walker) : Parallel (Fault.Alike N N) (· = ·) (lines name w ls) (lines name w ls') := by
  induction hls generalizing w with
  | nil => exact .ok rfl
  | @cons l l' _ _ hl _ ih =>
      rw [lines, lines, hl.2]
      cases hline : line w l.trimmed with
      | ok w => exact ih w
      | error f => exact .error ((line_unplaced hline).alike.locate hl.1 _ _)

theorem Check.file_parallel {f f' : SourceFile} (hf : f.Alike N f') :
    Parallel (Fault.Alike N N) (· = ·) (file f) (file f') := by
  rw [file, file, hf.name]
  exact (lines_parallel hf.lines f.name .start).map fun _ _ _ => rfl

/-- Files that differ in the numbers of their lines only are compiled alike. -/
theorem Compiled.compile_parallel (s : Schema) (hN : KeepsPlace N) {fs fs' : List SourceFile}
    (hfs : List.Forall₂ (SourceFile.Alike N) fs fs') : (compile s fs).Alike N [] (compile s fs') := by
  have hcheck := Parallel.forM hfs fun _ _ hf => Check.file_parallel hf
  have hempty : Script.empty.Behind N [] Script.empty := ⟨[], .nil, rfl⟩
  rw [compile, compile, Check.files, Check.files]
  generalize fs.forM Check.file = r, fs'.forM Check.file = r' at hcheck
  cases hcheck with
  | ok => exact ofBuild_parallel rfl s hN hempty hfs
  | error hfault => exact ⟨hempty, .faulty hfault⟩

end

namespace Layout

variable {bytes bytes' : Text}

theorem renumbers_keepsPlace : KeepsPlace (Renumbers bytes bytes') := by
  rintro _ _ ⟨i, l, l', hl, hl', rfl, rfl⟩
  have hpos := SourceFile.contentLines_number_pos (List.mem_of_getElem? hl)
  have hpos' := SourceFile.contentLines_number_pos (List.mem_of_getElem? hl')
  omega

theorem ofBytes_alike (name : Text) (h : (SourceFile.contentLines bytes').map Line.trimmed =
    (SourceFile.contentLines bytes).map Line.trimmed) :
    (SourceFile.ofBytes name bytes).Alike (Renumbers bytes bytes') (.ofBytes name bytes') := by
  have hlength : (SourceFile.contentLines bytes).length = (SourceFile.contentLines bytes').length := by
    simpa using congrArg List.length h.symm
  refine ⟨rfl, List.forall₂_of_length_eq_of_get hlength fun i hi hi' => ?_⟩
  have hl : (SourceFile.contentLines bytes)[i]? = some ((SourceFile.contentLines bytes).get ⟨i, hi⟩) :=
    List.getElem?_eq_getElem hi
  have hl' : (SourceFile.contentLines bytes')[i]? = some ((SourceFile.contentLines bytes').get ⟨i, hi'⟩) :=
    List.getElem?_eq_getElem hi'
  refine ⟨⟨i, _, _, hl, hl', rfl, rfl⟩, ?_⟩
  have hat := congrArg (·[i]?) h
  rw [List.getElem?_map, List.getElem?_map, hl, hl'] at hat
  exact Option.some.inj hat

end Layout

namespace Compiled

open Layout

/-- Texts that differ in their layout only are checked and compiled alike. -/
theorem compile_relaid (s : Schema) (name : Text) {bytes bytes' : Text}
    (hedits : Relation.ReflTransGen Edit bytes bytes') (hfits : Fits bytes) (hfits' : Fits bytes') :
    (SourceFile.contentLines bytes').map Line.trimmed = (SourceFile.contentLines bytes).map Line.trimmed ∧
    Parallel (Fault.Alike (Renumbers bytes bytes') (Renumbers bytes bytes')) (· = ·)
      (Check.file (.ofBytes name bytes)) (Check.file (.ofBytes name bytes')) ∧
    List.Forall₂ (Command.Alike (Renumbers bytes bytes')) (compile s [.ofBytes name bytes]).script.commands
      (compile s [.ofBytes name bytes']).script.commands ∧
    (compile s [.ofBytes name bytes]).ending.Alike (Renumbers bytes bytes') (compile s [.ofBytes name bytes']).ending := by
  have hsame : (SourceFile.contentLines bytes').map Line.trimmed =
      (SourceFile.contentLines bytes).map Line.trimmed := by
    rw [SourceFile.contentLines_trimmed hfits, SourceFile.contentLines_trimmed hfits', SourceFile.contents_edits hedits]
  have hfile := ofBytes_alike name hsame
  obtain ⟨⟨cs, hcs, hscript⟩, hending⟩ := compile_parallel s renumbers_keepsPlace (.cons hfile .nil)
  rw [List.nil_append] at hscript
  exact ⟨hsame, Check.file_parallel hfile, hscript ▸ hcs, hending⟩

def pilots : List Text :=
  ["domain", "Air Traffic / ATC", "subsystem", "Air Field / AF 1-50", "classes", "Pilot / P", "relationships"]

def repeated : List Text :=
  ["Pilot / is flown by >> Pilot", "R1 : Pilot / knows >> Pilot"]

/-- A relationship that is declared twice, under a heading and with its first line as it is given. -/
def twiceDeclared (heading : List Text) (first : Text) : Text :=
  Text.join [0x0a] (heading ++ pilots ++ first :: repeated)

theorem twiceDeclared_reshaped (heading : List Text) {first first' : Text} (h : Reshaped first first')
    (hheading : ∀ l ∈ heading, 0x0a ∉ l) (hfirst : 0x0a ∉ first) (hfirst' : 0x0a ∉ first') :
    Edit (twiceDeclared heading first) (twiceDeclared heading first') := by
  have hlines {line : Text} (hline : 0x0a ∉ line) : ∀ l ∈ heading ++ pilots ++ line :: repeated, 0x0a ∉ l := by
    intro l hl
    rcases List.mem_append.mp hl with hl | hl
    · rcases List.mem_append.mp hl with hl | hl
      · exact hheading l hl
      · exact (by decide : ∀ l ∈ pilots, 0x0a ∉ l) l hl
    · rcases List.mem_cons.mp hl with rfl | hl
      · exact hline
      · exact (by decide : ∀ l ∈ repeated, 0x0a ∉ l) l hl
  exact .lines (.reshape _ _ h) (hlines hfirst) (hlines hfirst')

theorem twiceDeclared_edits : Relation.ReflTransGen Edit (twiceDeclared [] "R1 : Pilot / flies >> Pilot")
    (twiceDeclared ["  # air traffic"] "\tR1 : Pilot / flies >> Pilot # first\r") := by
  have hheading : Edit (twiceDeclared [] "R1 : Pilot / flies >> Pilot")
      (twiceDeclared ["  # air traffic"] "R1 : Pilot / flies >> Pilot") :=
    .lines (.insert [] _ (Idle.comment (show IsMargin "  " by decide) " air traffic")) (by decide) (by decide)
  have hmargins : Reshaped ("R1 : Pilot / flies >> Pilot" : Text) "\tR1 : Pilot / flies >> Pilot " :=
    .margins "R1 : Pilot / flies >> Pilot" (show IsMargin [] by decide) (show IsMargin "\t" by decide)
      (show IsMargin [] by decide) (show IsMargin " " by decide) (.inl rfl)
  have hcomment : Reshaped ("\tR1 : Pilot / flies >> Pilot " : Text) "\tR1 : Pilot / flies >> Pilot # first" :=
    .comment "\tR1 : Pilot / flies >> Pilot " " first" (.inl rfl)
  have hreturn : Reshaped ("\tR1 : Pilot / flies >> Pilot # first" : Text) "\tR1 : Pilot / flies >> Pilot # first\r" :=
    .carriageReturn _
  have hindented := twiceDeclared_reshaped ["  # air traffic"] hmargins (by decide) (by decide) (by decide)
  have hcommented := twiceDeclared_reshaped ["  # air traffic"] hcomment (by decide) (by decide) (by decide)
  have hreturned := twiceDeclared_reshaped ["  # air traffic"] hreturn (by decide) (by decide) (by decide)
  exact (((Relation.ReflTransGen.single hheading).tail hindented).tail hcommented).tail hreturned

theorem compile_relaid_twiceDeclared : ∃ bytes bytes', Relation.ReflTransGen Edit bytes bytes' ∧ Fits bytes ∧
    Fits bytes' ∧
    (compile Schema.standard [.ofBytes "m.mi" bytes]).fault.map (fun f => (f.line, f.summary)) =
      some (10, ("relationship R1 already declared on line 8" : Text)) ∧
    (compile Schema.standard [.ofBytes "m.mi" bytes']).fault.map (fun f => (f.line, f.summary)) =
      some (11, ("relationship R1 already declared on line 9" : Text)) ∧
    (SourceFile.contentLines bytes').map Line.trimmed = (SourceFile.contentLines bytes).map Line.trimmed ∧
    Parallel (Fault.Alike (Renumbers bytes bytes') (Renumbers bytes bytes')) (· = ·)
      (Check.file (.ofBytes "m.mi" bytes)) (Check.file (.ofBytes "m.mi" bytes')) ∧
    List.Forall₂ (Command.Alike (Renumbers bytes bytes')) (compile Schema.standard [.ofBytes "m.mi" bytes]).script.commands
      (compile Schema.standard [.ofBytes "m.mi" bytes']).script.commands ∧
    (compile Schema.standard [.ofBytes "m.mi" bytes]).ending.Alike (Renumbers bytes bytes')
      (compile Schema.standard [.ofBytes "m.mi" bytes']).ending := by
  have hfits : Fits (twiceDeclared [] "R1 : Pilot / flies >> Pilot") := by decide +kernel
  have hfits' : Fits (twiceDeclared ["  # air traffic"] "\tR1 : Pilot / flies >> Pilot # first\r") := by
    decide +kernel
  exact ⟨_, _, twiceDeclared_edits, hfits, hfits', by decide +kernel, by decide +kernel,
    compile_relaid Schema.standard "m.mi" twiceDeclared_edits hfits hfits'⟩

end Compiled

end Population

import Population.Proofs.Script.Blocks
import Population.Proofs.Splitting

/-!
A block is read from its end, for a command is judged by those before it only.
-/
namespace Population

def numbersOf (cs : List Command) : List (Option Value) :=
  (cs.filter (·.call.name ∈ relationshipCalls)).map (·.value? "rnum")

def classesOf (cs : List Command) : List (Option Value) :=
  valuesOf "new_class" "name" cs

def subsystemsOf (cs : List Command) : List (Option Value) :=
  valuesOf "new_subsystem" "name" cs

/-- A formalization has as many classes as attributes at both ends, at least one; its relationship and its classes
were made before. -/
structure Formalized (before : List Command) (c : Command) : Prop where
  rnum : ∃ rnum : Int, c.value? "rnum" = some (.ofInt rnum) ∧ some (.ofInt rnum) ∈ numbersOf before
  columns : ∃ refClasses refAttrs toClasses toAttrs : List Text,
    c.value? "ref_classes" = some (.texts refClasses) ∧ c.value? "ref_attrs" = some (.texts refAttrs) ∧
    c.value? "to_classes" = some (.texts toClasses) ∧ c.value? "to_attrs" = some (.texts toAttrs) ∧
    refClasses.length ≠ 0 ∧ refAttrs.length = refClasses.length ∧ toClasses.length = refClasses.length ∧
    toAttrs.length = refClasses.length ∧ ∀ cls ∈ refClasses ++ toClasses, some (.text cls) ∈ classesOf before

/-- An attribute that a command gives a class: one of its own, or one that refers to others. -/
inductive Attributed (cls attr : Text) (c : Command) : Prop
  | own (hc : c.call.name = ("new_ind_attr" : Text)) (hcls : c.value? "class" = some (.text cls))
      (hattr : c.value? "name" = some (.text attr))
  | reference {refClasses refAttrs : List Text} {i : Nat} (hc : c.call.name = Analyzer.formalizeCall)
      (hclasses : c.value? "ref_classes" = some (.texts refClasses))
      (hattrs : c.value? "ref_attrs" = some (.texts refAttrs)) (hcls : refClasses[i]? = some cls)
      (hattr : refAttrs[i]? = some attr)

structure Fits (before : List Command) (c : Command) : Prop where
  subsystem : c.call.name = ("new_subsystem" : Text) → c.value? "name" ∉ subsystemsOf before
  cls : c.call.name = ("new_class" : Text) → c.value? "name" ∉ classesOf before
  relationship : c.call.name ∈ relationshipCalls → c.value? "rnum" ∉ numbersOf before
  formalization : c.call.name = Analyzer.formalizeCall → Formalized before c
  identification : c.call.name = Analyzer.addIdCall → ∃ cls attr, c.value? "class" = some (.text cls) ∧
    c.value? "attr" = some (.text attr) ∧ some (.text cls) ∈ classesOf before ∧ ∃ d ∈ before, Attributed cls attr d
  eviction : c.call.name = Analyzer.removeIdCall →
    ∃ cls, c.value? "class" = some (.text cls) ∧ some (.text cls) ∈ classesOf before

structure Integrity (block : List Command) : Prop where
  subsystems : (subsystemsOf block).Nodup
  classes : (classesOf block).Nodup
  numbers : (numbersOf block).Nodup
  formalizations : ∀ before c after, block = before ++ c :: after → c.call.name = Analyzer.formalizeCall →
    Formalized before c
  identifications : ∀ before c after, block = before ++ c :: after → c.call.name = Analyzer.addIdCall →
    ∃ cls attr, c.value? "class" = some (.text cls) ∧ c.value? "attr" = some (.text attr) ∧
      some (.text cls) ∈ classesOf before ∧ ∃ d ∈ before, Attributed cls attr d
  evictions : ∀ before c after, block = before ++ c :: after → c.call.name = Analyzer.removeIdCall →
    ∃ cls, c.value? "class" = some (.text cls) ∧ some (.text cls) ∈ classesOf before

theorem numbersOf_append (cs ds : List Command) : numbersOf (cs ++ ds) = numbersOf cs ++ numbersOf ds := by
  simp [numbersOf]

theorem nodup_snoc {α : Type} {l : List α} {p : Prop} [Decidable p] {x : α} (hl : l.Nodup) (hx : p → x ∉ l) :
    (l ++ if p then [x] else []).Nodup := by
  split
  next h => exact List.nodup_append.mpr ⟨hl, by simp, fun a ha b hb => by
      rw [List.mem_singleton.mp hb]
      rintro rfl
      exact hx h ha⟩
  next => rwa [List.append_nil]

theorem subsystemsOf_snoc (block : List Command) (c : Command) : subsystemsOf (block ++ [c]) =
    subsystemsOf block ++ if c.call.name = ("new_subsystem" : Text) then [c.value? "name"] else [] := by
  rw [subsystemsOf, valuesOf_append, valuesOf_singleton]
  rfl

theorem classesOf_snoc (block : List Command) (c : Command) : classesOf (block ++ [c]) =
    classesOf block ++ if c.call.name = ("new_class" : Text) then [c.value? "name"] else [] := by
  rw [classesOf, valuesOf_append, valuesOf_singleton]
  rfl

theorem numbersOf_snoc (block : List Command) (c : Command) : numbersOf (block ++ [c]) =
    numbersOf block ++ if c.call.name ∈ relationshipCalls then [c.value? "rnum"] else [] := by
  by_cases h : c.call.name ∈ relationshipCalls <;> simp [numbersOf, h]

theorem Integrity.snoc {block : List Command} {c : Command} (h : Integrity block) (hc : Fits block c) :
    Integrity (block ++ [c]) where
  subsystems := by
    rw [subsystemsOf_snoc]
    exact nodup_snoc h.subsystems hc.subsystem
  classes := by
    rw [classesOf_snoc]
    exact nodup_snoc h.classes hc.cls
  numbers := by
    rw [numbersOf_snoc]
    exact nodup_snoc h.numbers hc.relationship
  formalizations := forall_split_snoc h.formalizations hc.formalization
  identifications := forall_split_snoc h.identifications hc.identification
  evictions := forall_split_snoc h.evictions hc.eviction

/-- The calls of commands that make something with a name of its own. -/
def makingCalls : List Text :=
  "new_subsystem" :: "new_class" :: relationshipCalls

theorem fits_of_other {before : List Command} {c : Command} (hm : c.call.name ∉ makingCalls)
    (hd : c.call.name ∉ derivedCalls) : Fits before c where
  subsystem h := (hm (by rw [h]; decide)).elim
  cls h := (hm (by rw [h]; decide)).elim
  relationship h := (hm (List.mem_cons_of_mem _ (List.mem_cons_of_mem _ h))).elim
  formalization h := (hd (by rw [h]; decide)).elim
  identification h := (hd (by rw [h]; decide)).elim
  eviction h := (hd (by rw [h]; decide)).elim

theorem not_making_of_derived {name : Text} (h : name ∈ derivedCalls) : name ∉ makingCalls := by
  have hall : ∀ name ∈ derivedCalls, name ∉ makingCalls := by decide
  exact hall name h

/-- A derived command makes nothing, so only what it refers to matters. -/
theorem fits_of_derived {before : List Command} {c : Command} (hc : c.call.name ∈ derivedCalls)
    (hf : c.call.name = Analyzer.formalizeCall → Formalized before c)
    (hi : c.call.name = Analyzer.addIdCall → ∃ cls attr, c.value? "class" = some (.text cls) ∧
      c.value? "attr" = some (.text attr) ∧ some (.text cls) ∈ classesOf before ∧ ∃ d ∈ before, Attributed cls attr d)
    (he : c.call.name = Analyzer.removeIdCall →
      ∃ cls, c.value? "class" = some (.text cls) ∧ some (.text cls) ∈ classesOf before) : Fits before c where
  subsystem hs := (not_making_of_derived hc (by rw [hs]; decide)).elim
  cls hs := (not_making_of_derived hc (by rw [hs]; decide)).elim
  relationship hs := (not_making_of_derived hc (List.mem_cons_of_mem _ (List.mem_cons_of_mem _ hs))).elim
  formalization := hf
  identification := hi
  eviction := he

theorem fits_of_formalized {before : List Command} {c : Command} (hc : c.call.name = Analyzer.formalizeCall)
    (hf : Formalized before c) : Fits before c := by
  refine fits_of_derived (by rw [hc]; decide) (fun _ => hf) ?_ ?_ <;>
    · rw [hc]
      intro hother
      exact absurd hother (by decide)

theorem fits_of_added {before : List Command} {c : Command} {cls attr : Text} (hc : c.call.name = Analyzer.addIdCall)
    (hcls : c.value? "class" = some (.text cls)) (hattr : c.value? "attr" = some (.text attr))
    (hmem : some (.text cls) ∈ classesOf before) (hd : ∃ d ∈ before, Attributed cls attr d) : Fits before c := by
  refine fits_of_derived (by rw [hc]; decide) ?_ (fun _ => ⟨cls, attr, hcls, hattr, hmem, hd⟩) ?_ <;>
    · rw [hc]
      intro hother
      exact absurd hother (by decide)

theorem fits_of_removed {before : List Command} {c : Command} {cls : Text} (hc : c.call.name = Analyzer.removeIdCall)
    (hcls : c.value? "class" = some (.text cls)) (hmem : some (.text cls) ∈ classesOf before) : Fits before c := by
  refine fits_of_derived (by rw [hc]; decide) ?_ ?_ fun _ => ⟨cls, hcls, hmem⟩ <;>
    · rw [hc]
      intro hother
      exact absurd hother (by decide)

theorem valuesOf_mono {call field : Text} {v : Option Value} {before : List Command} (more : List Command)
    (h : v ∈ valuesOf call field before) : v ∈ valuesOf call field (before ++ more) := by
  rw [valuesOf_append]
  exact List.mem_append_left _ h

theorem Formalized.mono {before : List Command} {c : Command} (h : Formalized before c) (more : List Command) :
    Formalized (before ++ more) c := by
  refine ⟨?_, ?_⟩
  · obtain ⟨rnum, hrnum, hmem⟩ := h.rnum
    rw [numbersOf_append]
    exact ⟨rnum, hrnum, List.mem_append_left _ hmem⟩
  · obtain ⟨rc, ra, tc, ta, hrc, hra, htc, hta, hne, hl₁, hl₂, hl₃, hall⟩ := h.columns
    exact ⟨rc, ra, tc, ta, hrc, hra, htc, hta, hne, hl₁, hl₂, hl₃, fun cls hcls => valuesOf_mono more (hall cls hcls)⟩

theorem Fits.mono {before : List Command} {c : Command} (h : Fits before c) (hc : c.call.name ∈ derivedCalls)
    (more : List Command) : Fits (before ++ more) c := by
  refine fits_of_derived hc (fun hs => (h.formalization hs).mono more) (fun hs => ?_) fun hs => ?_
  · obtain ⟨cls, attr, hcls, hattr, hmem, d, hd, hda⟩ := h.identification hs
    exact ⟨cls, attr, hcls, hattr, valuesOf_mono more hmem, d, List.mem_append_left _ hd, hda⟩
  · obtain ⟨cls, hcls, hmem⟩ := h.eviction hs
    exact ⟨cls, hcls, valuesOf_mono more hmem⟩

theorem Integrity.append_derived {block cs : List Command} (h : Integrity block)
    (hcs : ∀ c ∈ cs, c.call.name ∈ derivedCalls ∧ Fits block c) : Integrity (block ++ cs) := by
  induction cs generalizing block with
  | nil => rwa [List.append_nil]
  | cons c rest ih =>
      obtain ⟨⟨-, hc⟩, hrest⟩ := List.forall_mem_cons.mp hcs
      rw [← List.singleton_append, ← List.append_assoc]
      exact ih (h.snoc hc) fun d hd => ⟨(hrest d hd).1, (hrest d hd).2.mono (hrest d hd).1 [c]⟩

/-- A relationship that gets further values and keeps its number makes what it made before. -/
theorem made_continued (block : List Command) {tail c : Command} (hcall : c.call = tail.call)
    (hname : tail.call.name ∈ relationshipCalls) (hrnum : c.value? "rnum" = tail.value? "rnum") :
    subsystemsOf (block ++ [c]) = subsystemsOf (block ++ [tail]) ∧
      classesOf (block ++ [c]) = classesOf (block ++ [tail]) ∧ numbersOf (block ++ [c]) = numbersOf (block ++ [tail]) := by
  have hother : ∀ call ∈ relationshipCalls, call ≠ ("new_subsystem" : Text) ∧ call ≠ ("new_class" : Text) := by decide
  obtain ⟨hsubsystem, hclass⟩ := hother _ hname
  refine ⟨?_, ?_, ?_⟩
  · rw [subsystemsOf_snoc, subsystemsOf_snoc, hcall, if_neg hsubsystem, if_neg hsubsystem]
  · rw [classesOf_snoc, classesOf_snoc, hcall, if_neg hclass, if_neg hclass]
  · rw [numbersOf_snoc, numbersOf_snoc, hcall, hrnum]

theorem Integrity.continued {block : List Command} {tail c : Command} (h : Integrity (block ++ [tail]))
    (hcall : c.call = tail.call) (hname : tail.call.name ∈ relationshipCalls)
    (hrnum : c.value? "rnum" = tail.value? "rnum") : Integrity (block ++ [c]) := by
  obtain ⟨hsubsystems, hclasses, hnumbers⟩ := made_continued block hcall hname hrnum
  have hderived : c.call.name ∉ derivedCalls := by
    have hall : ∀ call ∈ relationshipCalls, call ∉ derivedCalls := by decide
    rw [hcall]
    exact hall _ hname
  -- what holds of a derived command is about those before it, and the last one is not derived
  have hsplit {P : List Command → Command → Prop} (hP : ∀ before d after, block ++ [tail] = before ++ d :: after → P before d) :
      ∀ before d after, block = before ++ d :: after → P before d := by
    intro before d after hblock
    refine hP before d (after ++ [tail]) ?_
    rw [hblock, List.append_assoc, List.cons_append]
  constructor
  · rw [hsubsystems]
    exact h.subsystems
  · rw [hclasses]
    exact h.classes
  · rw [hnumbers]
    exact h.numbers
  · refine forall_split_snoc (hsplit h.formalizations) fun hc => (hderived ?_).elim
    rw [hc]
    decide
  · refine forall_split_snoc (hsplit h.identifications) fun hc => (hderived ?_).elim
    rw [hc]
    decide
  · refine forall_split_snoc (hsplit h.evictions) fun hc => (hderived ?_).elim
    rw [hc]
    decide

end Population

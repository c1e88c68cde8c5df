import Mathlib.Data.List.Infix
import Population.Model.Target
import Population.Proofs.Outcome
import Population.Proofs.Text.Blank
import Population.Proofs.Text.Cutting

/-!
A target is read back from what it prints as, unless its subsystem ends in a colon: the colons behind the subsystem are
then taken one byte too early.
-/
namespace Population.Target

variable {raw rest : Text} {subsystem : Option Text} {t : Target}

/-- A part of a target: no blanks at its ends, and something between them. -/
structure IsPart (part : Text) : Prop where
  trimmed : part.Trimmed
  ne_nil : part ≠ []

/-- What the parts of a target that was read have in common: they hold no separator that would be looked for in them. -/
structure Apart (t : Target) : Prop where
  subsystem : ∀ s, t.subsystem = some s → IsPart s ∧ ¬ [0x3a, 0x3a] <:+: s
  cls : IsPart t.cls
  cls_bytes : 0x2e ∉ t.cls ∧ 0x3a ∉ t.cls
  attr : IsPart t.attr
  attr_bytes : 0x2e ∉ t.attr ∧ 0x3a ∉ t.attr

def place (t : Target) : Text :=
  t.cls ++ 0x2e :: t.attr

theorem splitSubsystem_ok_iff : splitSubsystem raw = .ok (subsystem, rest) ↔
    (Text.cut [0x3a, 0x3a] raw.trim = none ∧ subsystem = none ∧ rest = raw.trim) ∨
      ∃ s, Text.cut [0x3a, 0x3a] raw.trim = some (s, rest) ∧ s.trim ≠ [] ∧ subsystem = some s.trim := by
  rw [splitSubsystem, show Text.ofString "::" = [0x3a, 0x3a] from rfl]
  cases Text.cut [0x3a, 0x3a] raw.trim with
  | none =>
      constructor
      · rintro ⟨⟩
        exact .inl ⟨rfl, rfl, rfl⟩
      · rintro (⟨-, rfl, rfl⟩ | ⟨s, hcut, -⟩)
        · rfl
        · cases hcut
  | some parts =>
      obtain ⟨s, after⟩ := parts
      dsimp only
      split
      next hblank =>
          refine ⟨nofun, ?_⟩
          rintro (⟨hcut, -⟩ | ⟨s', hcut, hne, -⟩)
          · cases hcut
          · cases hcut
            exact absurd (List.isEmpty_iff.mp hblank) hne
      next hblank =>
          constructor
          · rintro ⟨⟩
            exact .inr ⟨s, rfl, fun hs => hblank (List.isEmpty_iff.mpr hs), rfl⟩
          · rintro (⟨hcut, -⟩ | ⟨s', hcut, -, rfl⟩)
            · cases hcut
            · cases hcut
              rfl

theorem parse_ok_iff : parse raw = .ok t ↔ ∃ rest cls attr, splitSubsystem raw = .ok (t.subsystem, rest) ∧
    Text.cut [0x2e] rest = some (cls, attr) ∧ t.cls = cls.trim ∧ t.attr = attr.trim ∧
    t.cls ≠ [] ∧ t.attr ≠ [] ∧ 0x2e ∉ t.attr ∧ 0x3a ∉ rest := by
  rw [parse, bind_ok_iff, show Text.ofString "." = [0x2e] from rfl]
  constructor
  · rintro ⟨⟨subsystem, rest⟩, hsplit, h⟩
    dsimp only at h
    split at h
    next => exact absurd h throw_ne_ok
    next cls attr hcut =>
        split at h
        next => exact absurd h throw_ne_ok
        next hgood =>
            cases pure_ok_iff.mp h
            simp only [Bool.or_eq_true, List.isEmpty_iff, decide_eq_true_eq, not_or] at hgood
            obtain ⟨⟨⟨hcls, hattr⟩, hdot⟩, hcolon⟩ := hgood
            exact ⟨rest, cls, attr, hsplit, hcut, rfl, rfl, hcls, hattr, hdot, hcolon⟩
  · rintro ⟨rest, cls, attr, hsplit, hcut, hcls, hattr, hcls', hattr', hdot, hcolon⟩
    refine ⟨(t.subsystem, rest), hsplit, ?_⟩
    obtain ⟨subsystem, c, a⟩ := t
    dsimp only at hcls hattr hcls' hattr' hdot ⊢
    subst hcls hattr
    rw [hcut]
    simp [hcls', hattr', hdot, hcolon]

theorem isPart_trim {part : Text} (h : part.trim ≠ []) : IsPart part.trim :=
  ⟨Text.trimmed_trim part, h⟩

theorem parse_apart (h : parse raw = .ok t) : t.Apart := by
  obtain ⟨rest, cls, attr, hsplit, hcut, hcls, hattr, hcls', hattr', hdot, hcolon⟩ := parse_ok_iff.mp h
  have hfree : ¬ [0x2e] <:+: cls := Text.not_infix_of_cut (List.cons_ne_nil _ _) hcut
  obtain ⟨rfl, -⟩ := (Text.cut_eq_some_iff (List.cons_ne_nil _ _)).mp hcut
  have hclsdot : 0x2e ∉ cls := fun hmem => hfree ((List.singleton_infix_iff 0x2e cls).mpr hmem)
  have hbytes : 0x3a ∉ cls ∧ 0x3a ∉ attr := by
    simp only [List.mem_append, List.mem_cons, not_or] at hcolon
    exact ⟨hcolon.1, hcolon.2.2⟩
  rw [hcls] at hcls'
  rw [hattr] at hattr' hdot
  constructor
  · intro s hs
    rcases splitSubsystem_ok_iff.mp hsplit with ⟨-, hnone, -⟩ | ⟨u, hu, hne, hsome⟩
    · rw [hs] at hnone
      cases hnone
    · cases hs.symm.trans hsome
      have hfree : ¬ [0x3a, 0x3a] <:+: u := Text.not_infix_of_cut (List.cons_ne_nil _ _) hu
      exact ⟨isPart_trim hne, fun hinner => hfree (hinner.trans (Text.trim_within u))⟩
  · rw [hcls]
    exact isPart_trim hcls'
  · rw [hcls]
    exact ⟨fun hmem => hclsdot ((Text.trim_within cls).subset hmem), fun hmem => hbytes.1 ((Text.trim_within cls).subset hmem)⟩
  · rw [hattr]
    exact isPart_trim hattr'
  · rw [hattr]
    exact ⟨hdot, fun hmem => hbytes.2 ((Text.trim_within attr).subset hmem)⟩

theorem toText_eq (t : Target) : t.toText = match t.subsystem with
    | none => t.place
    | some s => s ++ (0x3a :: 0x3a :: t.place) := by
  rw [toText, show Text.ofString "." = [0x2e] from rfl, show Text.ofString "::" = [0x3a, 0x3a] from rfl]
  cases t.subsystem <;> simp [place]

theorem Apart.trimmed (h : t.Apart) : t.toText.Trimmed := by
  have hdot : ∀ code ∈ Text.blankCodes, 0x2e ∉ code := Text.not_mem_blankCodes rfl
  have hcolon : ∀ code ∈ Text.blankCodes, 0x3a ∉ code := Text.not_mem_blankCodes rfl
  rw [toText_eq]
  cases hs : t.subsystem with
  | none => exact .span hdot hdot h.cls.trimmed h.attr.trimmed rfl
  | some s =>
      refine .span (v := s ++ (0x3a :: 0x3a :: t.cls)) hcolon hdot (h.subsystem s hs).1.trimmed h.attr.trimmed ?_
      simp [place]

theorem Apart.cut_place (h : t.Apart) : Text.cut [0x2e] t.place = some (t.cls, t.attr) :=
  Text.cut_byte h.cls_bytes.1 t.attr

theorem Apart.colon_not_mem (h : t.Apart) : 0x3a ∉ t.place := by
  simp [place, h.cls_bytes.2, h.attr_bytes.2]

theorem Apart.parse_of_split (h : t.Apart) (hsplit : splitSubsystem raw = .ok (t.subsystem, t.place)) :
    parse raw = .ok t :=
  parse_ok_iff.mpr ⟨t.place, t.cls, t.attr, hsplit, h.cut_place, h.cls.trimmed.trim.symm, h.attr.trimmed.trim.symm,
    h.cls.ne_nil, h.attr.ne_nil, h.attr_bytes.1, h.colon_not_mem⟩

/-- Two colons are found behind a text that has none and does not end in a colon. -/
theorem cut_colons {s : Text} (hinner : ¬ [0x3a, 0x3a] <:+: s) (hlast : s.getLast? ≠ some 0x3a) (rest : Text) :
    Text.cut [0x3a, 0x3a] (s ++ (0x3a :: 0x3a :: rest)) = some (s, rest) := by
  induction s with
  | nil => simp [Text.cut_cons]
  | cons b s ih =>
      have hhere : ¬ [0x3a, 0x3a].isPrefixOf (b :: (s ++ (0x3a :: 0x3a :: rest))) := by
        intro hprefix
        cases s with
        | nil =>
            obtain rfl : 0x3a = b := by simpa using hprefix
            exact hlast rfl
        | cons c s =>
            obtain ⟨rfl, rfl⟩ : 0x3a = b ∧ 0x3a = c := by simpa using hprefix
            exact hinner ⟨[], s, rfl⟩
      have hrest : s.getLast? ≠ some 0x3a := by
        intro hend
        rw [List.getLast?_cons, hend] at hlast
        exact hlast rfl
      rw [List.cons_append, Text.cut_cons, if_neg hhere, ih (fun hs => hinner (List.infix_cons hs)) hrest]
      rfl

def EndsInColon (t : Target) : Prop :=
  ∃ s, t.subsystem = some s ∧ s.getLast? = some 0x3a

theorem Apart.parse_of_trim (h : t.Apart) (hlast : ¬ t.EndsInColon) (hraw : raw.trim = t.toText) : parse raw = .ok t := by
  refine h.parse_of_split (splitSubsystem_ok_iff.mpr ?_)
  rw [hraw, toText_eq]
  cases hs : t.subsystem with
  | none => exact .inl ⟨Text.cut_eq_none_of_not_mem List.mem_cons_self h.colon_not_mem, rfl, rfl⟩
  | some s =>
      obtain ⟨hpart, hinner⟩ := h.subsystem s hs
      refine .inr ⟨s, cut_colons hinner (fun hend => hlast ⟨s, hs, hend⟩) t.place, ?_, ?_⟩
      · rw [hpart.trimmed.trim]
        exact hpart.ne_nil
      · rw [hpart.trimmed.trim]

theorem Apart.parse_toText (h : t.Apart) (hlast : ¬ t.EndsInColon) : parse t.toText = .ok t :=
  h.parse_of_trim hlast h.trimmed.trim

/-- A text is cut at its first two colons, so a third one is left to what follows, which must not have any. -/
theorem Apart.parse_toText_refused (h : t.Apart) (hlast : t.EndsInColon) : ∃ e, parse t.toText = .error e := by
  obtain ⟨s, hs, hend⟩ := hlast
  obtain ⟨front, rfl⟩ := List.getLast?_eq_some_iff.mp hend
  have htext : t.toText = front ++ ([0x3a, 0x3a] ++ 0x3a :: t.place) := by
    rw [toText_eq, hs]
    simp
  cases hparse : parse t.toText with
  | error e => exact ⟨e, rfl⟩
  | ok t' =>
      obtain ⟨rest, -, -, hsplit, -, -, -, -, -, -, hcolon⟩ := parse_ok_iff.mp hparse
      rw [splitSubsystem_ok_iff, h.trimmed.trim] at hsplit
      exfalso
      rcases hsplit with ⟨-, -, rfl⟩ | ⟨u, hcut, -⟩
      · simp [htext] at hcolon
      · obtain ⟨heq, hfirst⟩ := (Text.cut_eq_some_iff (List.cons_ne_nil _ _)).mp hcut
        have hle : u.length ≤ front.length := hfirst front (0x3a :: t.place) htext
        have hthird : 0x3a :: t.place <:+ t.toText := ⟨front ++ [0x3a, 0x3a], by simp [htext]⟩
        have hrest : rest <:+ t.toText := ⟨u ++ [0x3a, 0x3a], by simp [heq]⟩
        have hlong : (0x3a :: t.place).length ≤ rest.length := by
          have hlength := congrArg List.length (heq.symm.trans htext)
          simp only [List.length_append, List.length_cons, List.length_nil] at hlength ⊢
          omega
        exact hcolon ((List.suffix_of_suffix_length_le hthird hrest hlong).subset List.mem_cons_self)

/-- A target that was read prints as a text that reads as the same target, unless its subsystem ends in a colon. That
text is no target then. -/
theorem parse_toText_iff (h : parse raw = .ok t) :
    (parse t.toText = .ok t ↔ ¬ t.EndsInColon) ∧ ((∃ e, parse t.toText = .error e) ↔ t.EndsInColon) := by
  have hapart := parse_apart h
  by_cases hlast : t.EndsInColon
  · obtain ⟨e, he⟩ := hapart.parse_toText_refused hlast
    simp [he, hlast]
  · simp [hapart.parse_toText hlast, hlast]

def northField : Target :=
  ⟨some "North: Field.1", "Runway", "Number"⟩

theorem parse_toText_northField : parse " North: Field.1 :: Runway . Number" = .ok northField ∧
    northField.toText = "North: Field.1::Runway.Number" ∧ parse northField.toText = .ok northField := by
  have hread : parse " North: Field.1 :: Runway . Number" = .ok northField := by decide +kernel
  refine ⟨hread, rfl, (parse_toText_iff hread).1.mpr ?_⟩
  rintro ⟨s, hs, hend⟩
  cases hs
  exact absurd hend (by decide)

/-- The blank behind the first colon is lost, and with it what kept that colon apart from the two others. -/
theorem parse_toText_not_same : parse "A: ::B.c" = .ok ⟨some "A:", "B", "c"⟩ ∧
    toText ⟨some "A:", "B", "c"⟩ = "A:::B.c" ∧ parse "A:::B.c" = .error (.malformed "A:::B.c") := by
  decide +kernel

end Population.Target

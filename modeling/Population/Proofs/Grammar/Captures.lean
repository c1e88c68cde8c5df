import Population.Grammar.Statement
import Population.Proofs.Grammar.Preference

namespace Population

namespace Pattern

/-- The groups of a pattern with what stands inside them. -/
def inners : Pattern → List (Text × Pattern)
  | .empty | .byte _ | .run _ _ => []
  | .seq p q | .alt p q => inners p ++ inners q
  | .optional p | .many p => inners p
  | .group name p => inners p ++ [(name, p)]

/-- The lists of names that the captures of a spelling can have, if nothing with a group is repeated. -/
def captureNames : Pattern → List (List Text)
  | .empty | .byte _ | .run _ _ | .many _ => [[]]
  | .seq p q => (captureNames p).flatMap fun ns => (captureNames q).map (ns ++ ·)
  | .alt p q => captureNames p ++ captureNames q
  | .optional p => captureNames p ++ [[]]
  | .group name p => (captureNames p).map (· ++ [name])

def repeatsNoGroup : Pattern → Bool
  | .empty | .byte _ | .run _ _ => true
  | .seq p q | .alt p q => repeatsNoGroup p && repeatsNoGroup q
  | .optional p | .group _ p => repeatsNoGroup p
  | .many p => (inners p).isEmpty

theorem Spells.inner {p : Pattern} {t : Text} {cs : List Capture} (h : p.Spells t cs) {c : Capture}
    (hc : c ∈ cs) : ∃ q ds, (c.name, q) ∈ p.inners ∧ q.Spells c.text ds := by
  induction p generalizing t cs with
  | empty | byte | run =>
      obtain ⟨-, rfl⟩ := h
      cases hc
  | seq p q ihp ihq =>
      obtain ⟨t₁, t₂, cs₁, cs₂, -, rfl, hp, hq⟩ := h
      rcases List.mem_append.mp hc with hc | hc
      · obtain ⟨r, ds, hr, hs⟩ := ihp hp hc
        exact ⟨r, ds, List.mem_append_left _ hr, hs⟩
      · obtain ⟨r, ds, hr, hs⟩ := ihq hq hc
        exact ⟨r, ds, List.mem_append_right _ hr, hs⟩
  | alt p q ihp ihq =>
      rcases h with h | h
      · obtain ⟨r, ds, hr, hs⟩ := ihp h hc
        exact ⟨r, ds, List.mem_append_left _ hr, hs⟩
      · obtain ⟨r, ds, hr, hs⟩ := ihq h hc
        exact ⟨r, ds, List.mem_append_right _ hr, hs⟩
  | optional p ih =>
      rcases h with h | ⟨-, rfl⟩
      · exact ih h hc
      · cases hc
  | many p ih =>
      obtain ⟨parts, -, -, rfl, hall⟩ := h
      obtain ⟨part, hpart, hc⟩ := List.mem_flatMap.mp hc
      exact ih (hall part hpart) hc
  | group name p ih =>
      -- the capture is one from inside, or the group itself
      obtain ⟨inner, rfl, hp⟩ := h
      rcases List.mem_append.mp hc with hc | hc
      · obtain ⟨r, ds, hr, hs⟩ := ih hp hc
        exact ⟨r, ds, List.mem_append_left _ hr, hs⟩
      · rw [List.mem_singleton.mp hc]
        exact ⟨p, inner, List.mem_append_right _ (List.mem_singleton.mpr rfl), hp⟩

theorem Spells.eq_nil {p : Pattern} {t : Text} {cs : List Capture} (h : p.Spells t cs)
    (hp : p.inners = []) : cs = [] := by
  refine List.eq_nil_iff_forall_not_mem.mpr fun c hc => ?_
  obtain ⟨q, ds, hq, -⟩ := h.inner hc
  rw [hp] at hq
  cases hq

theorem Spells.names {p : Pattern} {t : Text} {cs : List Capture} (h : p.Spells t cs)
    (hp : p.repeatsNoGroup = true) : cs.map (·.name) ∈ p.captureNames := by
  induction p generalizing t cs with
  | empty | byte | run =>
      obtain ⟨-, rfl⟩ := h
      exact List.mem_singleton.mpr rfl
  | seq p q ihp ihq =>
      obtain ⟨t₁, t₂, cs₁, cs₂, -, rfl, hsp, hsq⟩ := h
      rw [repeatsNoGroup, Bool.and_eq_true] at hp
      refine List.mem_flatMap.mpr ⟨_, ihp hsp hp.1, List.mem_map.mpr ⟨_, ihq hsq hp.2, ?_⟩⟩
      exact List.map_append.symm
  | alt p q ihp ihq =>
      rw [repeatsNoGroup, Bool.and_eq_true] at hp
      rcases h with h | h
      · exact List.mem_append_left _ (ihp h hp.1)
      · exact List.mem_append_right _ (ihq h hp.2)
  | optional p ih =>
      rcases h with h | ⟨-, rfl⟩
      · exact List.mem_append_left _ (ih h hp)
      · exact List.mem_append_right _ (List.mem_singleton.mpr rfl)
  | many p =>
      rw [h.eq_nil (List.isEmpty_iff.mp hp)]
      exact List.mem_singleton.mpr rfl
  | group name p ih =>
      obtain ⟨inner, rfl, hs⟩ := h
      exact List.mem_map.mpr ⟨_, ih hs hp, by simp⟩

theorem spells_literal {w t : Text} {cs : List Capture} :
    (Pattern.literal w).Spells t cs ↔ t = w ∧ cs = [] := by
  induction w generalizing t cs with
  | nil => exact .rfl
  | cons b w ih =>
      constructor
      · rintro ⟨t₁, t₂, cs₁, cs₂, rfl, rfl, ⟨⟨x, hx, rfl⟩, rfl⟩, hw⟩
        obtain ⟨rfl, rfl⟩ := ih.mp hw
        have hxb : b = x := by simpa only [ByteClass.holds, List.any_cons, List.any_nil, Bool.or_false,
          beq_iff_eq] using hx
        exact ⟨by rw [hxb]; rfl, rfl⟩
      · rintro ⟨rfl, rfl⟩
        exact ⟨[b], w, [], [], rfl, rfl, ⟨⟨b, by simp [ByteClass.holds], rfl⟩, rfl⟩, ih.mpr ⟨rfl, rfl⟩⟩

end Pattern

namespace Statement

def arrowHead : Pattern :=
  .all [.literal ">", .optional (.literal ">"), .optional (.literal "0")]

theorem spells_arrowHead {t : Text} {cs : List Capture} (h : arrowHead.Spells t cs) :
    t ∈ Capture.multiplicities.map (·.1) := by
  obtain ⟨t₁, t', cs₁, cs', rfl, -, h₁, t₂, t'', cs₂, cs'', rfl, -, h₂, t₃, t''', cs₃, -, rfl, -, h₃, rfl, -⟩ := h
  obtain ⟨rfl, -⟩ := Pattern.spells_literal.mp h₁
  simp only [Pattern.Spells, Pattern.spells_literal] at h₂ h₃
  rcases h₂ with ⟨rfl, -⟩ | ⟨rfl, -⟩ <;> rcases h₃ with ⟨rfl, -⟩ | ⟨rfl, -⟩ <;> decide

theorem spells_digits {t : Text} {cs : List Capture} (h : digits.Spells t cs) :
    t ≠ [] ∧ ∀ b ∈ t, Text.isDigit b := by
  obtain ⟨t₁, t₂, -, -, rfl, -, ⟨⟨b, hb, rfl⟩, -⟩, hall, -⟩ := h
  refine ⟨by simp, fun x hx => ?_⟩
  rcases List.mem_cons.mp hx with rfl | hx
  · exact hb
  · exact hall x hx

theorem forms_multiplicity : ∀ f ∈ forms, ∀ p ∈ f.patterns, ∀ g ∈ p.inners,
    g.1 ∈ Capture.multiplicityNames → g.2 = arrowHead := by
  decide +kernel

/-- The names of captures that are numbers. -/
def numberNames : List Text :=
  ["rnum", "floor", "ceiling", "cnum"]

theorem forms_number : ∀ f ∈ forms, ∀ p ∈ f.patterns, ∀ g ∈ p.inners,
    g.1 ∈ numberNames → g.2 = digits := by
  decide +kernel

theorem forms_repeatsNoGroup : ∀ f ∈ forms, ∀ p ∈ f.patterns, p.repeatsNoGroup = true := by
  decide +kernel

end Statement

def Form.captureNames (f : Form) : List (List Text) :=
  f.patterns.flatMap Pattern.captureNames

namespace Statement

theorem matchLine_spells {home text : Text} {m : Matched} (h : matchLine home text = .ok m) :
    m.form ∈ formsOf home ∧ ∃ p ∈ m.form.patterns, ∃ raw, p.Spells text raw ∧
      m.captures = raw.map fun c => ⟨c.name, c.text.trim⟩ := by
  rw [matchLine] at h
  split at h
  next m' hm =>
    cases h
    obtain ⟨f, hf, hform⟩ := List.exists_of_findSome?_eq_some hm
    obtain ⟨cs, hcs, rfl⟩ := Option.map_eq_some_iff.mp hform
    obtain ⟨p, hp, hpattern⟩ := List.exists_of_findSome?_eq_some hcs
    obtain ⟨spans, hspans, rfl⟩ := Option.map_eq_some_iff.mp hpattern
    exact ⟨hf, p, hp, _, Pattern.match?_spells hspans, by simp⟩
  next => cases h

theorem mem_forms_of_matchLine {home text : Text} {m : Matched} (h : matchLine home text = .ok m) :
    m.form ∈ forms ∧ m.form.home.name = home := by
  have hf := (matchLine_spells h).1
  simpa [formsOf] using hf

theorem matchLine_names {home text : Text} {m : Matched} (h : matchLine home text = .ok m) :
    m.captures.map (·.name) ∈ m.form.captureNames := by
  obtain ⟨-, p, hp, raw, hs, hcs⟩ := matchLine_spells h
  have hn := hs.names (forms_repeatsNoGroup _ (mem_forms_of_matchLine h).1 p hp)
  rw [hcs, List.map_map]
  exact List.mem_flatMap.mpr ⟨p, hp, hn⟩

/-- A capture holds, without blanks around it, a text that a group of its name spells. -/
theorem matchLine_inner {home text : Text} {m : Matched} (h : matchLine home text = .ok m) {c : Capture}
    (hc : c ∈ m.captures) : ∃ p ∈ m.form.patterns, ∃ q, (c.name, q) ∈ p.inners ∧
      ∃ raw ds, q.Spells raw ds ∧ c.text = raw.trim := by
  obtain ⟨-, p, hp, raw, hs, hcs⟩ := matchLine_spells h
  rw [hcs] at hc
  obtain ⟨c', hc', rfl⟩ := List.mem_map.mp hc
  obtain ⟨q, ds, hq, hs'⟩ := hs.inner hc'
  exact ⟨p, hp, q, hq, c'.text, ds, hs', rfl⟩

end Statement

namespace Capture

theorem writeMultiplicities_ok {cs : List Capture}
    (h : ∀ c ∈ cs, c.name ∈ multiplicityNames → (multiplicity? c.text).isSome) :
    (writeMultiplicities cs).2 = none := by
  induction cs with
  | nil => rfl
  | cons c rest ih =>
      have hrest := ih fun d hd => h d (List.mem_cons_of_mem c hd)
      by_cases hc : c.name ∈ multiplicityNames
      · obtain ⟨x, hx⟩ := Option.isSome_iff_exists.mp (h c List.mem_cons_self hc)
        simp only [writeMultiplicities, hc, if_true, hx]
        exact hrest
      · simp only [writeMultiplicities, hc, if_false]
        exact hrest

/-- Every arrow head is in the table of multiplicities, and has no blanks around it. -/
theorem multiplicity?_arrowHead : ∀ t ∈ multiplicities.map (·.1), (multiplicity? t.trim).isSome := by
  decide +kernel

end Capture

/-- The transform of a form never fails on a line that the form accepts. -/
theorem Statement.transform_ok {home text : Text} {m : Matched} (h : matchLine home text = .ok m) :
    (Capture.transform m.form.transform m.captures).2 = none := by
  cases m.form.transform with
  | none | flags => rfl
  | multiplicity =>
      refine Capture.writeMultiplicities_ok fun c hc hname => ?_
      obtain ⟨p, hp, q, hq, raw, ds, hs, htext⟩ := matchLine_inner h hc
      rw [show q = arrowHead from forms_multiplicity _ (mem_forms_of_matchLine h).1 p hp _ hq hname] at hs
      rw [htext]
      exact Capture.multiplicity?_arrowHead raw (spells_arrowHead hs)

end Population

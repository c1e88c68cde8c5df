import Mathlib.Computability.RegularExpressions
import Population.Proofs.Grammar.Section

namespace Population.Section

open RegularExpression Computability

def word (home : Section) : RegularExpression Text :=
  char home.name

def optional (r : RegularExpression Text) : RegularExpression Text :=
  1 + r

/-- The sections about the classes of a subsystem. -/
def classPart : RegularExpression Text :=
  word .classes * optional (word .relationships) * optional (word .lifecycles) * optional (word .cloops) *
    optional (word .lineages)

def domainPart : RegularExpression Text :=
  word .domain * optional (word .types) * star (word .subsystem * classPart) * word .subsystem *
    optional classPart * optional (word .bridges)

def wholeScript : RegularExpression Text :=
  optional (word .model) * star domainPart

/-- What may follow the last section about a subsystem that ends its domain. -/
def domainEnd : RegularExpression Text :=
  optional (word .bridges) * star domainPart

/-- The subsystems of a domain, up to the end of a script. -/
def subsystems : RegularExpression Text :=
  star (word .subsystem * classPart) * word .subsystem * optional classPart * domainEnd

/-- What may follow a section, up to the end of a script. -/
def rest : Option Section → RegularExpression Text
  | none => wholeScript
  | some .model => star domainPart
  | some .domain => optional (word .types) * subsystems
  | some .types => subsystems
  | some .subsystem => domainEnd + classPart * (domainEnd + subsystems)
  | some .classes => optional (word .relationships) * (optional (word .lifecycles) * (optional (word .cloops) *
      (optional (word .lineages) * (domainEnd + subsystems))))
  | some .relationships => optional (word .lifecycles) * (optional (word .cloops) *
      (optional (word .lineages) * (domainEnd + subsystems)))
  | some .lifecycles => optional (word .cloops) * (optional (word .lineages) * (domainEnd + subsystems))
  | some .cloops => optional (word .lineages) * (domainEnd + subsystems)
  | some .lineages => domainEnd + subsystems
  | some .bridges => star domainPart

variable {l m : Language Text} {a x : Text} {w : List Text}

theorem kstar_mul (l m : Language Text) : l∗ * m = m + l * (l∗ * m) := by
  nth_rewrite 1 [← Language.one_add_self_mul_kstar_eq_kstar l]
  rw [add_mul, one_mul, mul_assoc]

theorem cons_mem_word_mul : x :: w ∈ ({[a]} : Language Text) * m ↔ x = a ∧ w ∈ m := by
  rw [Language.mem_mul]
  constructor
  · rintro ⟨u, rfl, v, hv, heq⟩
    obtain ⟨rfl, rfl⟩ := List.cons.inj heq
    exact ⟨rfl, hv⟩
  · rintro ⟨rfl, hw⟩
    exact ⟨[x], rfl, w, hw, rfl⟩

theorem cons_mem_optional_mul : x :: w ∈ (1 + {[a]} : Language Text) * m ↔ x = a ∧ w ∈ m ∨ x :: w ∈ m := by
  rw [add_mul, one_mul, Language.mem_add, cons_mem_word_mul, or_comm]

theorem matches_domains : (star domainPart).matches' = (1 + word .domain * rest (some .domain)).matches' := by
  have h := (Language.one_add_self_mul_kstar_eq_kstar domainPart.matches').symm
  simp only [domainPart, rest, subsystems, domainEnd, matches'_add, matches'_mul, matches'_star, matches'_epsilon,
    mul_assoc] at h ⊢
  exact h

theorem matches_subsystems : subsystems.matches' = (word .subsystem * rest (some .subsystem)).matches' := by
  have h := kstar_mul (word .subsystem * classPart).matches' (word .subsystem * optional classPart * domainEnd).matches'
  simp only [rest, subsystems, optional, matches'_add, matches'_mul, matches'_star, matches'_epsilon, mul_add, add_mul,
    mul_assoc, one_mul, add_assoc] at h ⊢
  exact h

theorem cons_mem_domains_iff : x :: w ∈ (star domainPart).matches' ↔
    x = Section.domain.name ∧ w ∈ (rest (some .domain)).matches' := by
  rw [matches_domains, matches'_add, matches'_mul, Language.mem_add, word, matches'_char, cons_mem_word_mul,
    matches'_epsilon, Language.mem_one]
  simp

theorem cons_mem_subsystems_iff : x :: w ∈ subsystems.matches' ↔
    x = Section.subsystem.name ∧ w ∈ (rest (some .subsystem)).matches' := by
  rw [matches_subsystems, matches'_mul, word, matches'_char, cons_mem_word_mul]

theorem cons_mem_optional_iff {home : Section} {r : RegularExpression Text} :
    x :: w ∈ (optional (word home) * r).matches' ↔ x = home.name ∧ w ∈ r.matches' ∨ x :: w ∈ r.matches' := by
  rw [matches'_mul, optional, matches'_add, word, matches'_char, matches'_epsilon, cons_mem_optional_mul]

theorem cons_mem_domainEnd_iff : x :: w ∈ domainEnd.matches' ↔
    x = Section.bridges.name ∧ w ∈ (rest (some .bridges)).matches' ∨
      x = Section.domain.name ∧ w ∈ (rest (some .domain)).matches' := by
  rw [domainEnd, cons_mem_optional_iff, cons_mem_domains_iff]
  rfl

theorem cons_mem_classPart_iff : x :: w ∈ (classPart * (domainEnd + subsystems)).matches' ↔
    x = Section.classes.name ∧ w ∈ (rest (some .classes)).matches' := by
  simp only [classPart, rest, matches'_mul, mul_assoc, word, matches'_char, cons_mem_word_mul]

def Continued (current : Option Section) : Prop :=
  ∀ x w, x :: w ∈ (rest current).matches' ↔ ∃ next ∈ following current, x = next.name ∧ w ∈ (rest (some next)).matches'

/-- A section that may be left out is followed by what may stand in its place. -/
theorem Continued.optional {current : Option Section} {home : Section} (h : Continued (some home))
    (hrest : rest current = optional (word home) * rest (some home))
    (hfollowing : following current = home :: following (some home)) : Continued current := by
  intro x w
  rw [hrest, cons_mem_optional_iff, h x w, hfollowing, List.exists_mem_cons_iff]

theorem continued_lineages : Continued (some .lineages) := by
  intro x w
  rw [rest, matches'_add, Language.mem_add, cons_mem_domainEnd_iff, cons_mem_subsystems_iff]
  simp [following, closing, or_comm, or_assoc]

theorem continued_cloops : Continued (some .cloops) :=
  continued_lineages.optional rfl rfl

theorem continued_lifecycles : Continued (some .lifecycles) :=
  continued_cloops.optional rfl rfl

theorem continued_relationships : Continued (some .relationships) :=
  continued_lifecycles.optional rfl rfl

theorem continued_subsystem : Continued (some .subsystem) := by
  intro x w
  rw [rest, matches'_add, Language.mem_add, cons_mem_domainEnd_iff, cons_mem_classPart_iff]
  simp [following, or_comm, or_left_comm]

theorem continued_types : Continued (some .types) := by
  intro x w
  rw [rest, cons_mem_subsystems_iff]
  simp [following]

theorem continued_model : Continued (some .model) := by
  intro x w
  rw [rest, cons_mem_domains_iff]
  simp [following]

theorem continued (current : Option Section) : Continued current := by
  cases current with
  | none => exact continued_model.optional rfl rfl
  | some home =>
      cases home with
      | model => exact continued_model
      | domain => exact continued_types.optional rfl rfl
      | types => exact continued_types
      | subsystem => exact continued_subsystem
      | classes => exact continued_relationships.optional rfl rfl
      | relationships => exact continued_relationships
      | lifecycles => exact continued_lifecycles
      | cloops => exact continued_cloops
      | lineages => exact continued_lineages
      | bridges => exact continued_model

theorem nil_mem_rest {current : Option Section} (h : (rest current).matchEpsilon = true) : [] ∈ (rest current).matches' :=
  (rmatch_iff_matches' _ _).mp h

theorem exists_mem_rest (current : Option Section) : ∃ w, w ∈ (rest current).matches' := by
  have hsubsystem : [] ∈ (rest (some .subsystem)).matches' := nil_mem_rest rfl
  cases current with
  | none => exact ⟨[], nil_mem_rest rfl⟩
  | some home =>
      cases home with
      | domain =>
          refine ⟨[Section.subsystem.name], (continued _ _ _).mpr ⟨.subsystem, ?_, rfl, hsubsystem⟩⟩
          decide
      | types =>
          refine ⟨[Section.subsystem.name], (continued _ _ _).mpr ⟨.subsystem, ?_, rfl, hsubsystem⟩⟩
          decide
      | _ => exact ⟨[], nil_mem_rest rfl⟩

theorem followFrom_ok_iff {current : Option Section} (index : Nat) (words : List Text) :
    followFrom index current words = .ok () ↔ ∃ word ∈ (rest current).matches', words <+: word := by
  induction words generalizing index current with
  | nil =>
      obtain ⟨word, hword⟩ := exists_mem_rest current
      exact ⟨fun _ => ⟨word, hword, List.nil_prefix⟩, fun _ => rfl⟩
  | cons x words ih =>
      have hword : (∃ word ∈ (rest current).matches', x :: words <+: word) ↔
          ∃ next, step current x = .ok next ∧ ∃ word ∈ (rest (some next)).matches', words <+: word := by
        simp only [step_ok_iff]
        constructor
        · rintro ⟨_, hmem, more, rfl⟩
          obtain ⟨next, hnext, hx, hmem⟩ := (continued _ _ _).mp hmem
          exact ⟨next, ⟨hnext, hx⟩, words ++ more, hmem, more, rfl⟩
        · rintro ⟨next, ⟨hnext, hx⟩, word, hmem, hprefix⟩
          exact ⟨x :: word, (continued _ _ _).mpr ⟨next, hnext, hx, hmem⟩, List.cons_prefix_cons.mpr ⟨rfl, hprefix⟩⟩
      rw [hword, followFrom]
      cases step current x with
      | error e => simp
      | ok next => simp [ih]

/-- A sequence of names is accepted if it is a beginning of a whole script, and is otherwise rejected at the first name
with which it is none. -/
theorem checkSequence_language (words : List Text) :
    (checkSequence words = .ok () ↔ ∃ word ∈ wholeScript.matches', words <+: word) ∧
    ∀ i e, checkSequence words = .error (i, e) → i < words.length ∧ checkSequence (words.take i) = .ok () ∧
      checkSequence (words.take (i + 1)) = .error (i, e) := by
  refine ⟨followFrom_ok_iff 0 words, fun i e h => ?_⟩
  obtain ⟨before, x, after, rfl, rfl, hbefore, herror⟩ := followFrom_error h
  have hnext : (before ++ x :: after).take (before.length + 1) = before ++ [x] := by
    rw [List.take_length_add_append, List.take_succ_cons, List.take_zero]
  rw [Nat.zero_add] at herror ⊢
  rw [List.take_left, hnext]
  exact ⟨by simp, hbefore, herror⟩

/-- Loops come behind lifecycles. -/
def lateLifecycles : List Text :=
  ["domain", "subsystem", "classes", "subsystem", "classes", "cloops", "lifecycles", "bridges"]

theorem checkSequence_language_lateLifecycles :
    checkSequence lateLifecycles = .error (6, .cannotFollow .lifecycles .cloops) ∧
    checkSequence (lateLifecycles.take 6) = .ok () ∧ (∃ word ∈ wholeScript.matches', lateLifecycles.take 6 <+: word) ∧
    ¬ ∃ word ∈ wholeScript.matches', lateLifecycles.take 7 <+: word := by
  have hrejected : checkSequence lateLifecycles = .error (6, .cannotFollow .lifecycles .cloops) := by decide
  obtain ⟨-, haccepted, hnext⟩ := (checkSequence_language lateLifecycles).2 _ _ hrejected
  refine ⟨hrejected, haccepted, (checkSequence_language _).1.mp haccepted, fun hword => ?_⟩
  rw [← (checkSequence_language _).1, hnext] at hword
  cases hword

end Population.Section

import Population.Grammar.Capture
import Population.Grammar.Pattern

namespace Population.Pattern

/-- A text that a pattern spells, and the captures of its groups in the order in which they close. -/
def Spells : Pattern → Text → List Capture → Prop
  | .empty, t, cs => t = [] ∧ cs = []
  | .byte c, t, cs => (∃ b, c.holds b ∧ t = [b]) ∧ cs = []
  | .run c _, t, cs => (∀ b ∈ t, c.holds b) ∧ cs = []
  | .seq p q, t, cs => ∃ t₁ t₂ cs₁ cs₂, t = t₁ ++ t₂ ∧ cs = cs₁ ++ cs₂ ∧ p.Spells t₁ cs₁ ∧ q.Spells t₂ cs₂
  | .alt p q, t, cs => p.Spells t cs ∨ q.Spells t cs
  | .optional p, t, cs => p.Spells t cs ∨ (t = [] ∧ cs = [])
  | .many p, t, cs => ∃ parts : List (Text × List Capture), parts ≠ [] ∧ t = parts.flatMap (·.1) ∧
      cs = parts.flatMap (·.2) ∧ ∀ part ∈ parts, p.Spells part.1 part.2
  | .group name p, t, cs => ∃ inner, cs = inner ++ [⟨name, t⟩] ∧ p.Spells t inner

end Population.Pattern

import Population.Proofs.Compile.Lines

namespace Population.Building

variable {b b' : Building} {m : Matched} {c : Command}

/-- A build whose file has not named a domain. -/
structure Outside (b : Building) : Prop where
  scope : b.scope = .empty
  analyzer : b.analyzer = .idle
  closed : b.out.script.lastOpen = none

/-- A build whose script ends with the block of a domain. -/
structure Inside (b : Building) (before block : List Command) : Prop where
  commands : b.out.script.commands = before ++ block
  block : ∃ d cur, block = d :: cur ∧ d.opensDomain = true ∧ ∀ c ∈ cur, c.opensDomain = false

theorem Begins.opensDomain (h : Begins b b' m c) : c.opensDomain = decide (m.form.kind = .domain) := by
  exact decide_eq_decide.mpr (StatementKind.begins_calls h.call).1

namespace Inside

variable {before block : List Command} (h : Inside b before block)
include h

theorem blocks_eq : blocks b.out.script.commands = blocks before ++ [block] := by
  obtain ⟨d, cur, rfl, hd, hcur⟩ := h.block
  rw [h.commands, blocks_append before hd hcur]

theorem append {cs : List Command} (hcs : ∀ c ∈ cs, c.opensDomain = false)
    (hscript : b'.out.script.commands = b.out.script.commands ++ cs) : Inside b' before (block ++ cs) := by
  obtain ⟨d, cur, rfl, hd, hcur⟩ := h.block
  refine ⟨?_, d, cur ++ cs, rfl, hd, List.forall_mem_append.mpr ⟨hcur, hcs⟩⟩
  rw [hscript, h.commands, List.append_assoc]

theorem begins (hc : Begins b b' m c) (hk : m.form.kind ≠ .domain) : Inside b' before (block ++ [c]) := by
  refine h.append (List.forall_mem_singleton.mpr ?_) (by rw [hc.script]; rfl)
  rw [hc.opensDomain, decide_eq_false hk]

theorem continued {tail : Command} (hopen : b.out.script.lastOpen = some tail)
    (hscript : b'.out.script = b.out.script.replaceLast c) (hcall : c.call = tail.call)
    (htail : tail.opensDomain = false) :
    ∃ block₀, block = block₀ ++ [tail] ∧ Inside b' before (block₀ ++ [c]) := by
  obtain ⟨d, cur, rfl, hd, hcur⟩ := h.block
  obtain ⟨commands, hlast, -⟩ := Script.lastOpen_some hopen
  have hcommands := h.commands
  rcases List.eq_nil_or_concat cur with rfl | ⟨cur, last, rfl⟩
  · rw [hlast] at hcommands
    obtain ⟨-, htd⟩ := List.append_inj' hcommands rfl
    cases htd
    rw [hd] at htail
    cases htail
  · rw [List.concat_eq_append] at *
    rw [hlast, ← List.cons_append, ← List.append_assoc] at hcommands
    obtain ⟨rfl, htl⟩ := List.append_inj' hcommands rfl
    cases htl
    obtain ⟨hcur, -⟩ := List.forall_mem_append.mp hcur
    refine ⟨d :: cur, rfl, ⟨?_, d, cur ++ [c], rfl, hd, ?_⟩⟩
    · rw [hscript, Script.replaceLast, hlast, List.dropLast_concat, List.append_assoc]
    · refine List.forall_mem_append.mpr ⟨hcur, List.forall_mem_singleton.mpr ?_⟩
      rw [Command.opensDomain, hcall]
      exact htail

end Inside

theorem inside_of_domain (hc : Begins b b' m c) (hk : m.form.kind = .domain) :
    Inside b' b.out.script.commands [c] := by
  refine ⟨by rw [hc.script]; rfl, c, [], rfl, ?_, nofun⟩
  rw [hc.opensDomain, decide_eq_true hk]

namespace Outside

variable (h : b.Outside)
include h

theorem extends_nil {walker : Walker} (hext : { b with walker }.Extends b' []) :
    b'.Outside ∧ b'.out.script.commands = b.out.script.commands := by
  have hcommands : b'.out.script.commands = b.out.script.commands := by rw [hext.commands, List.append_nil]
  refine ⟨⟨hext.scope.trans h.scope, hext.analyzer.trans h.analyzer, ?_⟩, hcommands⟩
  rw [Script.lastOpen, hcommands]
  exact h.closed

theorem closes {walker : Walker} (hcloses : Closes { b with walker } b') :
    b'.Outside ∧ b'.out.script.commands = b.out.script.commands := by
  cases hcloses with
  | idle _ hext => exact h.extends_nil hext
  | emits hactive =>
      rw [show ({ b with walker } : Building).analyzer = .idle from h.analyzer] at hactive
      cases hactive

theorem statement (he : Effect b b' m) : m.form.kind = .domain ∨
    (m.form.kind = .typeDef ∨ m.form.kind = .bridge) ∧ b'.Outside ∧ ∃ c, Begins b b' m c := by
  have hnone : ¬ b.scope.domain.isSome := by
    rw [h.scope]
    exact Bool.false_ne_true
  cases he with
  | domain hk => exact .inl hk
  | plain hk hc hs ha =>
      refine .inr ⟨hk, ⟨hs.trans h.scope, ha.trans h.analyzer, ?_⟩, _, hc⟩
      have hf : ¬ Statement.Opening m.form := by
        rcases hk with hk | hk <;> simp [Statement.Opening, hk]
      rw [hc.script, Script.lastOpen_append, if_pos (hc.completed hf)]
  | subsystem _ _ hd | classDef _ _ hd | relationship _ _ hd => exact absurd hd hnone
  | ownAttribute _ _ _ _ hcls | reference _ _ _ _ hcls =>
      rw [h.analyzer] at hcls
      cases hcls
  | continued _ hopen =>
      rw [h.closed] at hopen
      cases hopen

end Outside

end Population.Building

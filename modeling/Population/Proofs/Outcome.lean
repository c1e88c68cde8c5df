import Population.Text.Basic

namespace Population

variable {ε δ α β : Type}

@[simp] theorem bind_ok_iff {r : Except ε α} {next : α → Except ε β} {y : β} :
    r >>= next = .ok y ↔ ∃ x, r = .ok x ∧ next x = .ok y := by
  cases r with
  | error e => exact ⟨fun h => (nomatch h), fun ⟨_, h, _⟩ => (nomatch h)⟩
  | ok x => exact ⟨fun h => ⟨x, rfl, h⟩, fun ⟨_, rfl, h⟩ => h⟩

@[simp] theorem bind_error_iff {r : Except ε α} {next : α → Except ε β} {e : ε} :
    r >>= next = .error e ↔ r = .error e ∨ ∃ x, r = .ok x ∧ next x = .error e := by
  cases r with
  | error e' =>
      refine ⟨fun h => .inl (by cases h; rfl), ?_⟩
      rintro (h | ⟨_, h, -⟩) <;> cases h
      rfl
  | ok x =>
      refine ⟨fun h => .inr ⟨x, rfl, h⟩, ?_⟩
      rintro (h | ⟨_, hx, h⟩)
      · cases h
      · cases hx
        exact h

@[simp] theorem pure_ok_iff {x y : α} : (pure x : Except ε α) = .ok y ↔ x = y :=
  ⟨fun h => by cases h; rfl, fun h => by rw [h]; rfl⟩

@[simp] theorem pure_ne_error {x : α} {e : ε} : (pure x : Except ε α) ≠ .error e :=
  nofun

@[simp] theorem throw_ne_ok {e : ε} {x : α} : (throw e : Except ε α) ≠ .ok x :=
  nofun

@[simp] theorem throw_error_iff {e e' : ε} : (throw e : Except ε α) = .error e' ↔ e = e' :=
  ⟨fun h => by cases h; rfl, fun h => by rw [h]; rfl⟩

@[simp] theorem mapError_ok_iff {r : Except ε α} {g : ε → δ} {x : α} :
    r.mapError g = .ok x ↔ r = .ok x := by
  cases r with
  | error e => exact ⟨nofun, nofun⟩
  | ok y => exact ⟨fun h => by cases h; rfl, fun h => by cases h; rfl⟩

@[simp] theorem mapError_error_iff {r : Except ε α} {g : ε → δ} {d : δ} :
    r.mapError g = .error d ↔ ∃ e, r = .error e ∧ g e = d := by
  cases r with
  | error e => exact ⟨fun h => ⟨e, rfl, by cases h; rfl⟩, fun ⟨_, he, h⟩ => by cases he; rw [← h]; rfl⟩
  | ok y => exact ⟨nofun, nofun⟩

@[simp] theorem map_ok_iff {r : Except ε α} {g : α → β} {y : β} :
    r.map g = .ok y ↔ ∃ x, r = .ok x ∧ g x = y := by
  cases r with
  | error e => exact ⟨nofun, nofun⟩
  | ok x => exact ⟨fun h => ⟨x, rfl, by cases h; rfl⟩, fun ⟨_, hx, h⟩ => by cases hx; rw [← h]; rfl⟩

@[simp] theorem map_error_iff {r : Except ε α} {g : α → β} {e : ε} :
    r.map g = .error e ↔ r = .error e := by
  cases r with
  | error e' => exact ⟨fun h => by cases h; rfl, fun h => by cases h; rfl⟩
  | ok x => exact ⟨nofun, nofun⟩

/-- What every step keeps, while something else follows the items on its own, is kept by all of them. -/
theorem foldlM_follows {σ : Type} {step : β → α → Except ε β} (follow : σ → α → σ) (Kept : σ → β → Prop)
    {items : List α} {r : σ} {b b' : β} (h : items.foldlM step b = .ok b') (hb : Kept r b)
    (hstep : ∀ r b a b', Kept r b → step b a = .ok b' → Kept (follow r a) b') : Kept (items.foldl follow r) b' := by
  induction items generalizing b r with
  | nil => exact (pure_ok_iff.mp h) ▸ hb
  | cons a rest ih =>
      rw [List.foldlM_cons] at h
      obtain ⟨c, hc, hrest⟩ := bind_ok_iff.mp h
      exact ih hrest (hstep r b a c hb hc)

theorem foldlM_keeps {step : β → α → Except ε β} (Kept : β → Prop) {items : List α} {b b' : β}
    (h : items.foldlM step b = .ok b') (hb : Kept b)
    (hstep : ∀ b a b', Kept b → step b a = .ok b' → Kept b') : Kept b' :=
  foldlM_follows (r := ()) (fun r _ => r) (fun _ => Kept) h hb fun _ => hstep

theorem foldlM_keeps_of_mem {step : β → α → Except ε β} (Kept : β → Prop) {items : List α} {b b' : β}
    (h : items.foldlM step b = .ok b') (hb : Kept b)
    (hstep : ∀ b, ∀ a ∈ items, ∀ b', Kept b → step b a = .ok b' → Kept b') : Kept b' := by
  induction items generalizing b with
  | nil => exact (pure_ok_iff.mp h) ▸ hb
  | cons a rest ih =>
      rw [List.foldlM_cons] at h
      obtain ⟨c, hc, hrest⟩ := bind_ok_iff.mp h
      have hkept : Kept c := hstep b a List.mem_cons_self c hb hc
      exact ih hrest hkept fun b x hx => hstep b x (List.mem_cons_of_mem _ hx)

theorem foldlM_mapError_ok_iff {step : β → α → Except ε β} {g : α → ε → δ} {items : List α} {b b' : β} :
    items.foldlM (fun b a => (step b a).mapError (g a)) b = .ok b' ↔ items.foldlM step b = .ok b' := by
  induction items generalizing b with
  | nil => rw [List.foldlM_nil, List.foldlM_nil, pure_ok_iff, pure_ok_iff]
  | cons a rest ih => simp only [List.foldlM_cons, bind_ok_iff, mapError_ok_iff, ih]

theorem forM_ok_iff {check : α → Except ε Unit} {items : List α} :
    items.forM check = .ok () ↔ ∀ x ∈ items, check x = .ok () := by
  induction items with
  | nil => exact ⟨nofun, fun _ => rfl⟩
  | cons x rest ih =>
      rw [List.forall_mem_cons, ← ih]
      constructor
      · intro h
        obtain ⟨⟨⟩, hx, hrest⟩ := bind_ok_iff.mp h
        exact ⟨hx, hrest⟩
      · rintro ⟨hx, hrest⟩
        exact bind_ok_iff.mpr ⟨(), hx, hrest⟩

theorem forM_error {check : α → Except ε Unit} {items : List α} {e : ε} (h : items.forM check = .error e) :
    ∃ x ∈ items, check x = .error e := by
  induction items with
  | nil => cases h
  | cons x rest ih =>
      rcases bind_error_iff.mp h with hx | ⟨_, -, hrest⟩
      · exact ⟨x, List.mem_cons_self, hx⟩
      · obtain ⟨y, hy, he⟩ := ih hrest
        exact ⟨y, List.mem_cons_of_mem _ hy, he⟩

theorem foldlM_error {step : β → α → Except ε β} {items : List α} {b : β} {e : ε}
    (h : items.foldlM step b = .error e) :
    ∃ before a after c, items = before ++ a :: after ∧ before.foldlM step b = .ok c ∧ step c a = .error e := by
  induction items generalizing b with
  | nil => exact absurd h pure_ne_error
  | cons a rest ih =>
      rw [List.foldlM_cons] at h
      rcases bind_error_iff.mp h with h | ⟨c, hc, h⟩
      · exact ⟨[], a, rest, b, rfl, rfl, h⟩
      · obtain ⟨before, a', after, c', rfl, hbefore, herr⟩ := ih h
        refine ⟨a :: before, a', after, c', rfl, ?_, herr⟩
        rw [List.foldlM_cons]
        exact bind_ok_iff.mpr ⟨c, hc, hbefore⟩

end Population

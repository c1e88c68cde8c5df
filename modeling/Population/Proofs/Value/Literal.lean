import Population.Proofs.Number.Readback
import Population.Proofs.Text.Ends
import Population.Proofs.Text.Joining
import Population.Proofs.Text.Quoting
import Population.Value.Basic

namespace Population

namespace Value

variable {v w : Value} {r r' : Text} {ts ts' : List Text}

/-- Texts, truth values, whole numbers and lists of texts. -/
inductive Plain : Value → Prop
  | text (t : Text) : Plain (.text t)
  | bool (b : Bool) : Plain (.bool b)
  | number {n : Number} (h : n.Held) (hwhole : n.isWhole = true) : Plain (.number n)
  | texts (ts : List Text) : Plain (.texts ts)

theorem literalAll_texts (ts : List Text) : literalAll (ts.map .text) = ts.map Text.quoted := by
  induction ts with
  | nil => rfl
  | cons t ts ih =>
      rw [List.map_cons, literalAll, ih]
      rfl

theorem literal_texts (ts : List Text) (r : Text) :
    (texts ts).literal ++ r = 0x5b :: (Text.join ", " (ts.map Text.quoted) ++ 0x5d :: r) := by
  rw [texts, literal, literalAll_texts, List.append_assoc, List.append_assoc]
  rfl

def typeOf (b : UInt8) : ValueType :=
  if b = 0x22 then .text else if b = 0x5b then .list .text else if b = 0x74 ∨ b = 0x66 then .bool else .number

theorem number_numeral {n : Number} (h : n.Held) (hwhole : n.isWhole = true) :
    n.toText ≠ [] ∧ ∀ b ∈ n.toText, Text.isNumeral b = true := by
  have hsign (negative : Bool) : ∀ b ∈ Number.sign negative, Text.isNumeral b = true := by
    cases negative <;> decide +kernel
  cases h with
  | zero negative => cases negative <;> decide +kernel
  | infinite negative => cases hwhole
  | @finite negative x h =>
      obtain ⟨k, -, htext⟩ := Number.exists_toText h (Number.exponent_of_isWhole h hwhole)
      rw [htext]
      refine ⟨fun hnil => Text.ofNat_ne_nil k (List.append_eq_nil_iff.mp hnil).2, fun b hb => ?_⟩
      rcases List.mem_append.mp hb with hb | hb
      · exact hsign negative b hb
      · rw [Text.isNumeral, Text.ofNat_digits hb]
        rfl

theorem literal_type (h : v.Plain) : ∃ b t, v.literal = b :: t ∧ typeOf b = v.type := by
  cases h with
  | text t => exact ⟨0x22, _, rfl, rfl⟩
  | bool b => cases b <;> exact ⟨_, _, rfl, rfl⟩
  | texts ts => exact ⟨0x5b, _, rfl, rfl⟩
  | @number n h hwhole =>
      obtain ⟨hne, hall⟩ := number_numeral h hwhole
      obtain ⟨b, t, htext⟩ := List.exists_cons_of_ne_nil hne
      refine ⟨b, t, htext, ?_⟩
      have hb := hall b (htext ▸ List.mem_cons_self)
      have hother : ∀ c : UInt8, Text.isNumeral c = false → b ≠ c := by
        rintro c hc rfl
        rw [hc] at hb
        cases hb
      simp [typeOf, hother 0x22 rfl, hother 0x5b rfl, hother 0x74 rfl, hother 0x66 rfl, Value.type]

theorem texts_cut
    (h : Text.join ", " (ts.map Text.quoted) ++ 0x5d :: r = Text.join ", " (ts'.map Text.quoted) ++ 0x5d :: r') :
    ts = ts' ∧ r = r' := by
  obtain ⟨hsame, hrest⟩ := Text.join_cut (R := Eq) (P := fun _ => True) rfl (by decide)
    (fun t t' r r' _ _ _ _ h => Text.quoted_cut h) (fun t r r' _ h => absurd (List.cons.inj h).1 (by decide))
    (fun _ _ => trivial) (fun _ _ => trivial) h
  exact ⟨List.forall₂_eq_eq_eq ▸ hsame, hrest⟩

theorem type_eq_of_literal (hv : v.Plain) (hw : w.Plain) (h : v.literal ++ r = w.literal ++ r') : v.type = w.type := by
  obtain ⟨b, t, hb, htype⟩ := literal_type hv
  obtain ⟨b', t', hb', htype'⟩ := literal_type hw
  rw [hb, hb', List.cons_append, List.cons_append] at h
  rw [← htype, ← htype', (List.cons.inj h).1]

/-- A written value is told from what is behind it. -/
theorem literal_cut (hv : v.Plain) (hw : w.Plain) (hr : Text.Stops r) (hr' : Text.Stops r')
    (h : v.literal ++ r = w.literal ++ r') : v.literal = w.literal ∧ r = r' := by
  have htype := type_eq_of_literal hv hw h
  cases hv with
  | text t =>
      cases hw <;> cases htype
      obtain ⟨rfl, hrest⟩ := Text.quoted_cut h
      exact ⟨rfl, hrest⟩
  | bool b =>
      cases hw <;> cases htype
      rename_i b'
      cases b <;> cases b'
      · exact ⟨rfl, List.append_cancel_left h⟩
      · exact absurd (List.cons.inj h).1 (by decide)
      · exact absurd (List.cons.inj h).1 (by decide)
      · exact ⟨rfl, List.append_cancel_left h⟩
  | number hn hnwhole =>
      cases hw <;> cases htype
      rename_i m hm hmwhole
      exact Text.cut_of_run (number_numeral hn hnwhole).2 (number_numeral hm hmwhole).2 hr hr' h
  | texts ts =>
      cases hw <;> cases htype
      rename_i ts'
      rw [literal_texts, literal_texts] at h
      obtain ⟨rfl, hrest⟩ := texts_cut (List.cons.inj h).2
      exact ⟨rfl, hrest⟩

theorem literal_feedless (h : v.Plain) : 0x0a ∉ v.literal := by
  cases h with
  | text t => exact Text.quoted_feedless t
  | bool b => cases b <;> decide
  | number h hwhole => exact fun hmem => absurd ((number_numeral h hwhole).2 _ hmem) (by decide)
  | texts ts =>
      have hjoin : 0x0a ∉ Text.join ", " (ts.map Text.quoted) :=
        Text.not_mem_join (by decide) (List.forall_mem_map.mpr fun t _ => Text.quoted_feedless t)
      rw [← List.append_nil (texts ts).literal, literal_texts]
      simpa using hjoin

def Blurred : Value → Prop
  | .number n => n.Blurred
  | _ => False

/-- What is written tells the value, unless it is a number that has its text in common with another one. -/
theorem literal_eq (hv : v.Plain) (hw : w.Plain) (h : v.literal = w.literal) : v = w ∨ v.Blurred := by
  have htype := type_eq_of_literal hv hw (congrArg (· ++ []) h)
  cases hv with
  | text t =>
      cases hw <;> cases htype
      exact .inl (congrArg _ (Text.quoted_injective h))
  | bool b =>
      cases hw <;> cases htype
      rename_i b'
      cases b <;> cases b' <;> first | exact .inl rfl | exact absurd h (by decide)
  | @number n hn hnwhole =>
      cases hw <;> cases htype
      rename_i m hm hmwhole
      rcases Number.eq_or_twins hn hnwhole hm hmwhole h with hsame | htwins
      · exact .inl (congrArg _ hsame)
      · exact .inr ⟨m, hm, htwins⟩
  | texts ts =>
      cases hw <;> cases htype
      rename_i ts'
      have h := congrArg (· ++ []) h
      rw [literal_texts, literal_texts] at h
      exact .inl (congrArg _ (texts_cut (List.cons.inj h).2).1)

theorem Blurred.exists_other (h : v.Blurred) : ∃ w, w.Plain ∧ w.literal = v.literal ∧ w ≠ v := by
  cases v with
  | number n =>
      obtain ⟨m, hm, htwins⟩ := h
      rcases htwins with htwins | htwins
      · have hsame := htwins.same
        exact ⟨.number m, .number hm htwins.whole.2, hsame.symm, fun heq => htwins.ne (Value.number.inj heq).symm⟩
      · have hsame := htwins.same
        exact ⟨.number m, .number hm htwins.whole.1, hsame, fun heq => htwins.ne (Value.number.inj heq)⟩
  | text t => exact h.elim
  | bool b => exact h.elim
  | list type items => exact h.elim
  | null type => exact h.elim

end Value

end Population

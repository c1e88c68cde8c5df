import Mathlib.Data.List.Forall2
import Population.Proofs.Grammar.Language

/-!
The matcher follows all ways to begin a text side by side and drops those that agree with an earlier one; what it finds
is the first way that takes the whole text. So whatever it finds is a spelling of the text, and it finds one if there
is one.
-/
namespace Population.Pattern

/-- A way to begin a text: the bytes that it takes, the groups that it closes and the text that it leaves. -/
structure Way where
  taken : Text
  spans : List Span
  rest : Text

namespace Way

def nothing (t : Text) : Way :=
  ⟨[], [], t⟩

def andThen (w v : Way) : Way :=
  ⟨w.taken ++ v.taken, w.spans ++ v.spans, v.rest⟩

def captures (t : Text) (w : Way) : List Capture :=
  w.spans.map fun s => ⟨s.name, s.of t⟩

def full (w : Way) : Bool :=
  w.rest.isEmpty

end Way

def runWays (c : ByteClass) (reluctant : Bool) : Text → List Way
  | [] => [.nothing []]
  | b :: t =>
    let further := if c.holds b then (runWays c reluctant t).map (Way.andThen ⟨[b], [], t⟩) else []
    if reluctant then .nothing (b :: t) :: further else further ++ [.nothing (b :: t)]

/-- The ways to repeat something, each time with at least one byte, rather once more than not. -/
def manyWays (once : Nat → Text → List Way) (pos : Nat) (t : Text) : List Way :=
  (once pos t).flatMap fun w =>
    if w.rest.length < t.length then (manyWays once (pos + w.taken.length) w.rest).map w.andThen ++ [w] else []
termination_by t.length

/-- The ways to begin a text with a pattern at a position, preferred ones first. -/
def ways : Pattern → (pos : Nat) → Text → List Way
  | .empty, _, t => [.nothing t]
  | .byte _, _, [] => []
  | .byte c, _, b :: t => if c.holds b then [⟨[b], [], t⟩] else []
  | .run c reluctant, _, t => runWays c reluctant t
  | .seq p q, pos, t => (ways p pos t).flatMap fun w => (ways q (pos + w.taken.length) w.rest).map w.andThen
  | .alt p q, pos, t => ways p pos t ++ ways q pos t
  | .optional p, pos, t => ways p pos t ++ [.nothing t]
  | .many p, pos, t => manyWays (ways p) pos t
  | .group name p, pos, t =>
    (ways p pos t).map fun w => { w with spans := w.spans ++ [⟨name, pos, pos + w.taken.length⟩] }

def first? (p : Pattern) (pos : Nat) (t : Text) : Option Way :=
  (p.ways pos t).find? Way.full

theorem runWays_spelled {c : ByteClass} {reluctant : Bool} {t : Text} {w : Way} (h : w ∈ runWays c reluctant t) :
    w.taken ++ w.rest = t ∧ (∀ b ∈ w.taken, c.holds b) ∧ w.spans = [] := by
  induction t generalizing w with
  | nil =>
      rw [List.mem_singleton.mp h]
      simp [Way.nothing]
  | cons b t ih =>
      have hcases : w = .nothing (b :: t) ∨
          (c.holds b ∧ ∃ v ∈ runWays c reluctant t, Way.andThen ⟨[b], [], t⟩ v = w) := by
        cases reluctant <;> by_cases hb : c.holds b <;> simp [runWays, hb] at h ⊢ <;> tauto
      rcases hcases with rfl | ⟨hb, v, hv, rfl⟩
      · simp [Way.nothing]
      · obtain ⟨rfl, hall, hspans⟩ := ih hv
        simpa [Way.andThen, hspans, hb] using hall

/-- What a way of a pattern takes is spelled by it, with the captures that its groups make. -/
def Spelled (p : Pattern) (t : Text) (pos : Nat) (w : Way) : Prop :=
  w.taken ++ w.rest = t.drop pos ∧ p.Spells w.taken (w.captures t)

theorem drop_taken {t : Text} {pos : Nat} {w : Way} (h : w.taken ++ w.rest = t.drop pos) :
    t.drop (pos + w.taken.length) = w.rest := by
  rw [← List.drop_drop, ← h, List.drop_left]

theorem Spelled.andThen {p q : Pattern} {t : Text} {pos : Nat} {w v : Way} (hw : p.Spelled t pos w)
    (hv : q.Spelled t (pos + w.taken.length) v) : (seq p q).Spelled t pos (w.andThen v) := by
  obtain ⟨htext, hs⟩ := hw
  obtain ⟨htext', hs'⟩ := hv
  rw [drop_taken htext] at htext'
  refine ⟨?_, w.taken, v.taken, _, _, rfl, List.map_append, hs, hs'⟩
  simp only [Way.andThen, List.append_assoc]
  rw [htext', htext]

theorem manyWays_spelled {p : Pattern} {T : Text} (hp : ∀ {pos w}, w ∈ p.ways pos (T.drop pos) → p.Spelled T pos w)
    {pos : Nat} {t : Text} (ht : t = T.drop pos) {w : Way} (h : w ∈ manyWays p.ways pos t) :
    (many p).Spelled T pos w := by
  fun_induction manyWays p.ways pos t generalizing w with
  | case1 pos t ih =>
      obtain ⟨v, hv, hw⟩ := List.mem_flatMap.mp h
      have hsv := hp (ht ▸ hv)
      split at hw
      next hlt =>
        rcases List.mem_append.mp hw with hw | hw
        · obtain ⟨u, hu, rfl⟩ := List.mem_map.mp hw
          obtain ⟨htext, parts, -, htaken, hcaptures, hall⟩ := ih v hlt (drop_taken hsv.1).symm hu
          refine ⟨?_, (v.taken, v.captures T) :: parts, by simp, ?_, ?_, ?_⟩
          · rw [drop_taken hsv.1] at htext
            simp only [Way.andThen, List.append_assoc]
            rw [htext, hsv.1]
          · simp [Way.andThen, htaken]
          · simp only [List.flatMap_cons, ← hcaptures]
            exact List.map_append
          · intro part hpart
            rcases List.mem_cons.mp hpart with rfl | hpart
            · exact hsv.2
            · exact hall part hpart
        · rw [List.mem_singleton.mp hw]
          exact ⟨hsv.1, [(v.taken, v.captures T)], by simp, by simp, by simp, by simpa using hsv.2⟩
      next => cases hw

theorem ways_spelled (p : Pattern) {t : Text} {pos : Nat} {w : Way} (h : w ∈ p.ways pos (t.drop pos)) :
    p.Spelled t pos w := by
  induction p generalizing pos w with
  | empty =>
      rw [List.mem_singleton.mp h]
      exact ⟨rfl, rfl, rfl⟩
  | byte c =>
      cases ht : t.drop pos with
      | nil =>
          rw [ht] at h
          cases h
      | cons b rest =>
          rw [ht, ways] at h
          split at h
          next hb =>
            rw [List.mem_singleton.mp h]
            exact ⟨ht.symm, ⟨b, hb, rfl⟩, rfl⟩
          next => cases h
  | run c reluctant =>
      obtain ⟨htext, hall, hspans⟩ := runWays_spelled h
      exact ⟨htext, hall, by simp [Way.captures, hspans]⟩
  | seq p q ihp ihq =>
      obtain ⟨w, hw, hwv⟩ := List.mem_flatMap.mp h
      obtain ⟨v, hv, rfl⟩ := List.mem_map.mp hwv
      have hsw := ihp hw
      -- the second part goes on where the first one has stopped
      rw [← drop_taken hsw.1] at hv
      exact hsw.andThen (ihq hv)
  | alt p q ihp ihq =>
      rcases List.mem_append.mp h with h | h
      · exact ⟨(ihp h).1, .inl (ihp h).2⟩
      · exact ⟨(ihq h).1, .inr (ihq h).2⟩
  | optional p ih =>
      rcases List.mem_append.mp h with h | h
      · exact ⟨(ih h).1, .inl (ih h).2⟩
      · rw [List.mem_singleton.mp h]
        exact ⟨rfl, .inr ⟨rfl, rfl⟩⟩
  | many p ih => exact manyWays_spelled ih rfl h
  | group name p ih =>
      obtain ⟨w, hw, rfl⟩ := List.mem_map.mp h
      obtain ⟨htext, hs⟩ := ih hw
      refine ⟨htext, w.captures t, ?_, hs⟩
      have hspan : (⟨name, pos, pos + w.taken.length⟩ : Span).of t = w.taken := by
        rw [Span.of, ← htext, Nat.add_sub_cancel_left, List.take_left]
      simp [Way.captures, hspan]

theorem ways_text {p : Pattern} {pos : Nat} {t : Text} {w : Way} (h : w ∈ p.ways pos t) :
    w.taken ++ w.rest = t := by
  -- Positions are counted from the front of a whole text, so the text is put behind as many bytes.
  have hdrop : (List.replicate pos 0 ++ t).drop pos = t := by simp
  have hs := @ways_spelled p (List.replicate pos 0 ++ t) pos w (by rwa [hdrop])
  rw [← hdrop]
  exact hs.1

def canBeEmpty : Pattern → Bool
  | .empty | .run _ _ | .optional _ => true
  | .byte _ => false
  | .seq p q => canBeEmpty p && canBeEmpty q
  | .alt p q => canBeEmpty p || canBeEmpty q
  | .many p | .group _ p => canBeEmpty p

/-- Whether nothing is repeated that can be empty. -/
def solid : Pattern → Bool
  | .empty | .byte _ | .run _ _ => true
  | .seq p q | .alt p q => solid p && solid q
  | .optional p | .group _ p => solid p
  | .many p => solid p && !canBeEmpty p

theorem Spells.ne_nil {p : Pattern} {t : Text} {cs : List Capture} (h : p.Spells t cs)
    (hp : p.canBeEmpty = false) : t ≠ [] := by
  induction p generalizing t cs with
  | empty | run | optional => cases hp
  | byte c =>
      obtain ⟨⟨b, -, rfl⟩, -⟩ := h
      simp
  | seq p q ihp ihq =>
      obtain ⟨t₁, t₂, cs₁, cs₂, rfl, -, hs₁, hs₂⟩ := h
      rcases Bool.and_eq_false_iff.mp hp with hp | hp
      · exact List.append_ne_nil_of_left_ne_nil (ihp hs₁ hp) t₂
      · exact List.append_ne_nil_of_right_ne_nil t₁ (ihq hs₂ hp)
  | alt p q ihp ihq =>
      obtain ⟨hp, hq⟩ := Bool.or_eq_false_iff.mp hp
      rcases h with h | h
      · exact ihp h hp
      · exact ihq h hq
  | many p ih =>
      obtain ⟨parts, hne, rfl, -, hall⟩ := h
      obtain ⟨part, rest, rfl⟩ := List.exists_cons_of_ne_nil hne
      exact List.append_ne_nil_of_left_ne_nil (ih (hall part List.mem_cons_self) hp) _
  | group name p ih =>
      obtain ⟨inner, -, hs⟩ := h
      exact ih hs hp

theorem exists_runWays {c : ByteClass} (reluctant : Bool) {u : Text} (hu : ∀ b ∈ u, c.holds b) (r : Text) :
    ∃ w ∈ runWays c reluctant (u ++ r), w.taken = u ∧ w.rest = r := by
  induction u with
  | nil =>
      refine ⟨.nothing r, ?_, rfl, rfl⟩
      cases r <;> cases reluctant <;> simp [runWays]
  | cons b u ih =>
      obtain ⟨w, hw, hu', rfl⟩ := ih fun x hx => hu x (List.mem_cons_of_mem b hx)
      have hb : c.holds b = true := hu b List.mem_cons_self
      refine ⟨Way.andThen ⟨[b], [], u ++ w.rest⟩ w, ?_, by simp [Way.andThen, hu'], rfl⟩
      have hmem := List.mem_map_of_mem (f := Way.andThen ⟨[b], [], u ++ w.rest⟩) hw
      cases reluctant <;> simp only [List.cons_append, runWays, hb, if_true, Bool.false_eq_true, if_false]
      · exact List.mem_append_left _ hmem
      · exact List.mem_cons_of_mem _ hmem

theorem mem_ways_seq {p q : Pattern} {pos : Nat} {t : Text} {w v : Way} (hw : w ∈ p.ways pos t)
    (hv : v ∈ q.ways (pos + w.taken.length) w.rest) : w.andThen v ∈ (seq p q).ways pos t :=
  List.mem_flatMap.mpr ⟨w, hw, List.mem_map_of_mem hv⟩

theorem exists_manyWays {p : Pattern} (hp : p.canBeEmpty = false)
    (hways : ∀ {u : Text} {cs : List Capture}, p.Spells u cs → ∀ pos r,
      ∃ w ∈ p.ways pos (u ++ r), w.taken = u ∧ w.rest = r)
    {parts : List (Text × List Capture)} (hne : parts ≠ []) (hall : ∀ part ∈ parts, p.Spells part.1 part.2)
    (pos : Nat) (r : Text) :
    ∃ w ∈ manyWays p.ways pos (parts.flatMap (·.1) ++ r), w.taken = parts.flatMap (·.1) ∧ w.rest = r := by
  induction parts generalizing pos with
  | nil => exact absurd rfl hne
  | cons part rest ih =>
      have hpart := hall part List.mem_cons_self
      obtain ⟨w, hw, htaken, hrest⟩ := hways hpart pos (rest.flatMap (·.1) ++ r)
      -- a part is not empty, so each turn leaves less
      have hlt : w.rest.length < ((part :: rest).flatMap (·.1) ++ r).length := by
        have := List.length_pos_of_ne_nil (hpart.ne_nil hp)
        simp only [hrest, List.flatMap_cons, List.append_assoc, List.length_append]
        omega
      rw [← List.append_assoc, ← List.flatMap_cons (f := fun part : Text × List Capture => part.1)] at hw
      by_cases hnil : rest = []
      · subst hnil
        refine ⟨w, ?_, by simpa using htaken, by simpa using hrest⟩
        rw [manyWays]
        exact List.mem_flatMap.mpr ⟨w, hw, by rw [if_pos hlt]; simp⟩
      · obtain ⟨v, hv, htaken', hrest'⟩ :=
          ih hnil (fun part hpart => hall part (List.mem_cons_of_mem _ hpart)) (pos + w.taken.length)
        rw [← hrest] at hv
        refine ⟨w.andThen v, ?_, by simp [Way.andThen, htaken, htaken'], hrest'⟩
        rw [manyWays]
        refine List.mem_flatMap.mpr ⟨w, hw, ?_⟩
        rw [if_pos hlt]
        exact List.mem_append_left _ (List.mem_map_of_mem hv)

theorem Spells.exists_way {p : Pattern} (hp : p.solid = true) {u : Text} {cs : List Capture} (h : p.Spells u cs)
    (pos : Nat) (r : Text) : ∃ w ∈ p.ways pos (u ++ r), w.taken = u ∧ w.rest = r := by
  induction p generalizing u cs pos r with
  | empty =>
      obtain ⟨rfl, -⟩ := h
      exact ⟨.nothing r, List.mem_singleton.mpr rfl, rfl, rfl⟩
  | byte c =>
      obtain ⟨⟨b, hb, rfl⟩, -⟩ := h
      exact ⟨⟨[b], [], r⟩, by simp [ways, hb], rfl, rfl⟩
  | run c reluctant => exact exists_runWays reluctant h.1 r
  | seq p q ihp ihq =>
      obtain ⟨u₁, u₂, cs₁, cs₂, rfl, -, hs₁, hs₂⟩ := h
      obtain ⟨hp, hq⟩ := Bool.and_eq_true_iff.mp hp
      obtain ⟨w, hw, htaken, hrest⟩ := ihp hp hs₁ pos (u₂ ++ r)
      obtain ⟨v, hv, htaken', hrest'⟩ := ihq hq hs₂ (pos + w.taken.length) r
      -- what the first part leaves begins with what the second part spells
      rw [← hrest] at hv
      rw [← List.append_assoc] at hw
      exact ⟨w.andThen v, mem_ways_seq hw hv, by simp [Way.andThen, htaken, htaken'], hrest'⟩
  | alt p q ihp ihq =>
      obtain ⟨hp, hq⟩ := Bool.and_eq_true_iff.mp hp
      rcases h with h | h
      · obtain ⟨w, hw, hwu⟩ := ihp hp h pos r
        exact ⟨w, List.mem_append_left _ hw, hwu⟩
      · obtain ⟨w, hw, hwu⟩ := ihq hq h pos r
        exact ⟨w, List.mem_append_right _ hw, hwu⟩
  | optional p ih =>
      rcases h with h | ⟨rfl, -⟩
      · obtain ⟨w, hw, hwu⟩ := ih hp h pos r
        exact ⟨w, List.mem_append_left _ hw, hwu⟩
      · exact ⟨.nothing r, List.mem_append_right _ (List.mem_singleton.mpr rfl), rfl, rfl⟩
  | many p ih =>
      obtain ⟨parts, hne, rfl, -, hall⟩ := h
      simp only [solid, Bool.and_eq_true, Bool.not_eq_true'] at hp
      exact exists_manyWays hp.2 (fun hs pos r => ih hp.1 hs pos r) hne hall pos r
  | group name p ih =>
      obtain ⟨inner, -, hs⟩ := h
      obtain ⟨w, hw, hwu⟩ := ih hp hs pos r
      exact ⟨_, List.mem_map_of_mem hw, hwu⟩

/-- The groups of all the ways in which a branch can go on to the end of a text, preferred ones first. -/
def Branch.completions : (pos : Nat) → Text → Branch → List (List Span)
  | _, [], b => b.spans?.toList
  | pos, x :: t, b => (b.step (pos + 1) x).flatMap (completions (pos + 1) t)

/-- Branches that have the same left to match, one by one. -/
def AgreeAll : List Branch → List Branch → Prop :=
  List.Forall₂ fun b c => b.agrees c = true

theorem enter_agree {pos pos' : Nat} (p : Pattern) (pending : List Pending) {after after' : Marks → List Branch}
    (hafter : ∀ m m', AgreeAll (after m) (after' m')) (m m' : Marks) :
    AgreeAll (enter pos p pending after m) (enter pos' p pending after' m') := by
  induction p generalizing pending after after' m m' with
  | empty => exact hafter m m'
  | byte c => exact .cons (by simp [Branch.agrees]) .nil
  | run c reluctant =>
      cases reluctant
      · exact .cons (by simp [Branch.agrees]) (hafter m m')
      · exact List.rel_append (hafter m m') (.cons (by simp [Branch.agrees]) .nil)
  | seq p q ihp ihq => exact ihp _ (fun m m' => ihq pending hafter m m') m m'
  | alt p q ihp ihq => exact List.rel_append (ihp pending hafter m m') (ihq pending hafter m m')
  | optional p ih => exact List.rel_append (ih pending hafter m m') (hafter m m')
  | many p ih => exact ih _ (fun _ _ => .nil) m m'
  | group name p ih => exact ih _ (fun m m' => hafter _ _) _ _

theorem resume_agree {pos pos' : Nat} (pending : List Pending) (m m' : Marks) :
    AgreeAll (resume pos pending m) (resume pos' pending m') := by
  induction pending generalizing m m' with
  | nil => exact .cons rfl .nil
  | cons next rest ih =>
      cases next with
      | pattern p => exact enter_agree p rest ih m m'
      | again p => exact List.rel_append (enter_agree p _ (fun _ _ => .nil) m m') (ih m m')
      | close => exact ih _ _

theorem Branch.step_agree {pos pos' : Nat} {x : UInt8} {b c : Branch} (h : b.agrees c = true) :
    AgreeAll (b.step pos x) (c.step pos' x) := by
  cases b with
  | waiting k pending m =>
      cases c with
      | waiting k' pending' m' =>
          simp only [Branch.agrees, Bool.and_eq_true, decide_eq_true_eq] at h
          obtain ⟨rfl, rfl⟩ := h
          simp only [Branch.step]
          split
          next => exact resume_agree pending m m'
          next => exact .nil
      | complete m' => cases h
  | complete m =>
      cases c with
      | waiting => cases h
      | complete => exact .nil

theorem flatMap_eq_nil_of_agree {f g : Branch → List (List Span)} {bs cs : List Branch} (h : AgreeAll bs cs)
    (hfg : ∀ b c, b.agrees c = true → (f b = [] ↔ g c = [])) : bs.flatMap f = [] ↔ cs.flatMap g = [] := by
  induction h with
  | nil => exact .rfl
  | cons hbc _ ih => simp only [List.flatMap_cons, List.append_eq_nil_iff, hfg _ _ hbc, ih]

/-- Of two branches that agree one can go on to the end if the other can. -/
theorem Branch.completions_agree {pos pos' : Nat} {t : Text} {b c : Branch} (h : b.agrees c = true) :
    b.completions pos t = [] ↔ c.completions pos' t = [] := by
  induction t generalizing pos pos' b c with
  | nil => cases b <;> cases c <;> simp_all [Branch.agrees, Branch.completions, Branch.spans?]
  | cons x t ih => exact flatMap_eq_nil_of_agree (step_agree h) fun _ _ => ih

/-- Pruning loses no first element of what the branches give, as long as branches that agree are all without
anything or none of them is. -/
theorem head?_flatMap_prune {f : Branch → List (List Span)}
    (hf : ∀ b c, b.agrees c = true → (f b = [] ↔ f c = [])) (branches : List Branch) :
    ((prune branches).flatMap f).head? = (branches.flatMap f).head? := by
  have hfold (branches kept : List Branch) :
      ((branches.foldl (fun kept b => if kept.any (·.agrees b) then kept else b :: kept) kept).reverse.flatMap
        f).head? =
        ((kept.reverse ++ branches).flatMap f).head? := by
    induction branches generalizing kept with
    | nil => simp
    | cons b rest ih =>
        rw [List.foldl_cons, ih]
        split
        next hany =>
          obtain ⟨c, hc, hagree⟩ := List.any_eq_true.mp hany
          by_cases hb : f b = []
          · simp [hb]
          · -- The branch that is dropped comes after one that gives something as well.
            have hkept : kept.reverse.flatMap f ≠ [] := by
              intro hnil
              have := List.flatMap_eq_nil_iff.mp hnil c (List.mem_reverse.mpr hc)
              exact hb ((hf c b hagree).mp this)
            simp only [List.flatMap_append, List.head?_append_of_ne_nil _ hkept]
        next => simp
  exact hfold branches []

theorem follow_eq {pos : Nat} {branches : List Branch} {t : Text} :
    follow pos branches t = (branches.flatMap (Branch.completions pos t)).head? := by
  induction t generalizing pos branches with
  | nil => simp [follow, Branch.completions, List.head?_flatMap]
  | cons x t ih =>
      rw [follow, ih, head?_flatMap_prune fun b c => Branch.completions_agree]
      split
      next h => simp [List.isEmpty_iff.mp h]
      next => simp only [List.flatMap_assoc, Branch.completions]

def Marks.add (m : Marks) (spans : List Span) : Marks :=
  { m with closed := spans.reverse ++ m.closed }

@[simp] theorem Marks.add_nil (m : Marks) : m.add [] = m := rfl

@[simp] theorem Marks.add_append (m : Marks) (spans more : List Span) :
    m.add (spans ++ more) = (m.add spans).add more := by
  simp [Marks.add]

theorem Marks.closeAt_add (m : Marks) (name : Text) (pos stop : Nat) (spans : List Span) :
    ((m.openAt name pos).add spans).closeAt stop = m.add (spans ++ [⟨name, pos, stop⟩]) := by
  simp [Marks.add, Marks.openAt, Marks.closeAt]

/-- How a way goes on to the end of the text: with `after` if it took nothing, and else with what is pending. -/
def Way.onward (pos : Nat) (pending : List Pending) (after : Marks → List Branch) (m : Marks) (w : Way) :
    List (List Span) :=
  if w.taken = [] then (after (m.add w.spans)).flatMap (Branch.completions pos w.rest)
  else (resume (pos + w.taken.length) pending (m.add w.spans)).flatMap
    (Branch.completions (pos + w.taken.length) w.rest)

theorem Way.onward_andThen {pos : Nat} {pending : List Pending} {after : Marks → List Branch} {m : Marks}
    (w v : Way) : (w.andThen v).onward pos pending after m =
      if w.taken = [] then v.onward pos pending after (m.add w.spans)
      else v.onward (pos + w.taken.length) pending (resume (pos + w.taken.length) pending) (m.add w.spans) := by
  by_cases hw : w.taken = [] <;> by_cases hv : v.taken = [] <;>
    simp [Way.onward, Way.andThen, hw, hv, Nat.add_assoc]

theorem enter_run {c : ByteClass} {reluctant : Bool} {pos : Nat} {pending : List Pending}
    {after : Marks → List Branch} {m : Marks} {t : Text} :
    (enter pos (.run c reluctant) pending after m).flatMap (Branch.completions pos t) =
      (runWays c reluctant t).flatMap (Way.onward pos pending after m) := by
  induction t generalizing pos after with
  | nil => cases reluctant <;> simp [enter, runWays, Branch.completions, Branch.spans?, Way.onward, Way.nothing]
  | cons b t ih =>
      have hfurther : (Branch.waiting c (.pattern (.run c reluctant) :: pending) m).completions pos (b :: t) =
          (if c.holds b then (runWays c reluctant t).map (Way.andThen ⟨[b], [], t⟩) else []).flatMap
            (Way.onward pos pending after m) := by
        simp only [Branch.completions, Branch.step]
        split
        next =>
          rw [resume, ih, List.flatMap_map]
          refine List.flatMap_congr fun w _ => ?_
          rw [Way.onward_andThen, if_neg (by simp)]
          rfl
        next => rfl
      cases reluctant <;> simp [enter, runWays, hfurther, Way.onward, Way.nothing]

/-- The ways to go into a pattern and on to the end of the text are those of the pattern itself, each gone on with. -/
theorem enter_completions (p : Pattern) {pos : Nat} {pending : List Pending} {after : Marks → List Branch}
    {m : Marks} {t : Text} :
    (enter pos p pending after m).flatMap (Branch.completions pos t) =
      (p.ways pos t).flatMap (Way.onward pos pending after m) := by
  induction p generalizing pos pending after m t with
  | empty => simp [enter, ways, Way.onward, Way.nothing]
  | byte c =>
      cases t with
      | nil => simp [enter, ways, Branch.completions, Branch.spans?]
      | cons b t =>
          by_cases hb : c.holds b <;> simp [enter, ways, Branch.completions, Branch.step, Way.onward, hb]
  | run c reluctant => exact enter_run
  | seq p q ihp ihq =>
      rw [enter, ihp, ways, List.flatMap_assoc]
      refine List.flatMap_congr fun w hw => ?_
      simp only [List.flatMap_map, Way.onward_andThen]
      split
      next htaken =>
        rw [Way.onward, if_pos htaken, ihq]
        simp [htaken]
      next htaken => rw [Way.onward, if_neg htaken, resume, ihq]
  | alt p q ihp ihq => simp only [enter, ways, List.flatMap_append, ihp, ihq]
  | optional p ih => simp [enter, ways, ih, Way.onward, Way.nothing]
  | many p ih =>
      simp only [enter, ways]
      -- each turn takes a byte, so the text that is left gets shorter
      fun_induction manyWays p.ways pos t generalizing m after with
      | case1 pos t ihmany =>
          rw [ih, List.flatMap_assoc]
          refine List.flatMap_congr fun w hw => ?_
          have htext := congrArg List.length (ways_text hw)
          rw [List.length_append] at htext
          -- a turn that takes nothing ends the repetition
          by_cases htaken : w.taken = []
          · rw [if_neg (by simp [htaken] at htext; omega), Way.onward, if_pos htaken]
            rfl
          · have hlt : w.rest.length < t.length := by
              have := List.length_pos_of_ne_nil htaken
              omega
            rw [Way.onward, if_neg htaken, resume, List.flatMap_append, ihmany w hlt, if_pos hlt, List.flatMap_append,
              List.flatMap_map]
            congr 1
            · refine List.flatMap_congr fun v _ => ?_
              rw [Way.onward_andThen, if_neg htaken]
            · simp [Way.onward, htaken]
  | group name p ih =>
      rw [enter, ih, ways, List.flatMap_map]
      refine List.flatMap_congr fun w _ => ?_
      by_cases htaken : w.taken = [] <;>
        simp [Way.onward, htaken, resume, Marks.closeAt_add]

/-- The matcher finds the groups of the first way to take the whole text. -/
theorem match?_eq (p : Pattern) (t : Text) : p.match? t = (p.first? 0 t).map (·.spans) := by
  have honward (w : Way) : w.onward 0 [] (fun m => [.complete m]) .none = if w.full then [w.spans] else [] := by
    cases hrest : w.rest <;>
      simp [Way.onward, Way.full, hrest, resume, Branch.completions, Branch.spans?, Branch.step, Marks.add, Marks.none]
  rw [match?, follow_eq, head?_flatMap_prune fun b c => Branch.completions_agree, enter_completions,
    List.head?_flatMap, first?]
  induction p.ways 0 t with
  | nil => rfl
  | cons w rest ih =>
      rw [List.findSome?_cons, List.find?_cons, honward, ih]
      cases w.full <;> rfl

theorem first?_some {p : Pattern} {pos : Nat} {t : Text} {w : Way} (h : p.first? pos t = some w) :
    w ∈ p.ways pos t ∧ w.rest = [] :=
  ⟨List.mem_of_find?_eq_some h, by simpa [Way.full] using List.find?_some h⟩

theorem first?_spells {p : Pattern} (t : Text) (pos : Nat) {w : Way} (h : p.first? pos (t.drop pos) = some w) :
    p.Spells (t.drop pos) (w.captures t) := by
  obtain ⟨hw, hrest⟩ := first?_some h
  obtain ⟨htext, hs⟩ := ways_spelled p hw
  rw [hrest, List.append_nil] at htext
  rwa [htext] at hs

/-- What the matcher finds are the captures of a spelling of the whole text. -/
theorem match?_spells {p : Pattern} {t : Text} {spans : List Span} (h : p.match? t = some spans) :
    p.Spells t (spans.map fun s => ⟨s.name, s.of t⟩) := by
  rw [match?_eq] at h
  obtain ⟨w, hw, rfl⟩ := Option.map_eq_some_iff.mp h
  exact first?_spells t 0 hw

end Population.Pattern

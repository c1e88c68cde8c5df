import Mathlib.Data.List.Forall2
import Population.Proofs.Text.Blank

namespace Population.Text

theorem join_cons_cons (sep x y : Text) (ys : List Text) : join sep (x :: y :: ys) = x ++ (sep ++ join sep (y :: ys)) := by
  simp [join, List.intercalate]

theorem not_mem_join {sep : Text} {ts : List Text} {b : UInt8} (hsep : b ∉ sep) (h : ∀ t ∈ ts, b ∉ t) : b ∉ join sep ts := by
  induction ts with
  | nil => simp [join]
  | cons t ts ih =>
      obtain ⟨ht, hts⟩ := List.forall_mem_cons.mp h
      cases ts with
      | nil => simpa [join] using ht
      | cons next rest =>
          rw [join_cons_cons]
          simp [ht, hsep, ih hts]

theorem join_cons_append (t : Text) (ts : List Text) (r : Text) :
    join ", " (t :: ts) ++ r = t ++ if ts.isEmpty then r else 0x2c :: 0x20 :: (join ", " ts ++ r) := by
  cases ts with
  | nil => rw [join, List.intercalate_singleton]; rfl
  | cons t' ts =>
      rw [join_cons_cons, List.append_assoc, List.append_assoc]
      rfl

theorem lines_cons (t : Text) (ts : List Text) : lines (t :: ts) = t ++ 0x0a :: lines ts := by
  rw [lines, List.flatMap_cons, List.append_assoc]
  rfl

theorem splitOn_lines {ts : List Text} (h : ∀ t ∈ ts, 0x0a ∉ t) : (lines ts).splitOn 0x0a = ts ++ [[]] := by
  induction ts with
  | nil => rfl
  | cons t ts ih =>
      obtain ⟨ht, hts⟩ := List.forall_mem_cons.mp h
      rw [lines_cons, splitOn_append_left ht, List.splitOn_cons_eq_if_modifyHead, if_pos (beq_self_eq_true _), ih hts,
        List.modifyHead_cons, List.append_nil, List.cons_append]

theorem lines_injective {ts ts' : List Text} (h : ∀ t ∈ ts, 0x0a ∉ t) (h' : ∀ t ∈ ts', 0x0a ∉ t)
    (heq : lines ts = lines ts') : ts = ts' := by
  have hsplit := congrArg (List.splitOn 0x0a) heq
  rw [splitOn_lines h, splitOn_lines h'] at hsplit
  exact List.append_cancel_right hsplit

def isNumeral (b : UInt8) : Bool :=
  isDigit b || b == 0x2d

def Stops (r : Text) : Prop :=
  ∀ b ∈ r.head?, isNumeral b = false

theorem stops_cons {b : UInt8} (h : isNumeral b = false) (r : Text) : Stops (b :: r) :=
  fun _ hb => Option.some.inj hb ▸ h

variable {α : Type} {enc : α → Text} {R : α → α → Prop} {P : α → Prop} {close : UInt8} {as bs : List α} {r r' : Text}

/-- Parts that are told from what is behind them are told apart when they are joined and closed. -/
theorem join_cut (hclose : isNumeral close = false) (hcomma : close ≠ 0x2c)
    (hcut : ∀ a b r r', P a → P b → Stops r → Stops r' → enc a ++ r = enc b ++ r' → R a b ∧ r = r')
    (hfirst : ∀ a r r', P a → enc a ++ r ≠ close :: r') (has : ∀ a ∈ as, P a) (hbs : ∀ b ∈ bs, P b)
    (h : join ", " (as.map enc) ++ close :: r = join ", " (bs.map enc) ++ close :: r') :
    List.Forall₂ R as bs ∧ r = r' := by
  have hstops (cs : List α) (r : Text) :
      Stops (if (cs.map enc).isEmpty then close :: r else 0x2c :: 0x20 :: (join ", " (cs.map enc) ++ close :: r)) := by
    split
    next => exact stops_cons hclose r
    next => exact stops_cons rfl _
  -- the separator starts with a comma, so it can be told from the closing byte
  induction as generalizing bs with
  | nil =>
      cases bs with
      | nil => exact ⟨.nil, (List.cons.inj h).2⟩
      | cons b bs =>
          rw [List.map_cons, join_cons_append] at h
          exact absurd h.symm (hfirst b _ _ (hbs b List.mem_cons_self))
  | cons a as ih =>
      obtain ⟨ha, has⟩ := List.forall_mem_cons.mp has
      cases bs with
      | nil =>
          rw [List.map_cons, join_cons_append] at h
          exact absurd h (hfirst a _ _ ha)
      | cons b bs =>
          obtain ⟨hb, hrest⟩ := List.forall_mem_cons.mp hbs
          rw [List.map_cons, List.map_cons, join_cons_append, join_cons_append] at h
          obtain ⟨hab, htail⟩ := hcut a b _ _ ha hb (hstops as r) (hstops bs r') h
          cases as with
          | nil =>
              cases bs with
              | nil => exact ⟨.cons hab .nil, (List.cons.inj htail).2⟩
              | cons b' bs => exact absurd (List.cons.inj htail).1 hcomma
          | cons a' as =>
              cases bs with
              | nil => exact absurd (List.cons.inj htail).1.symm hcomma
              | cons b' bs =>
                  have hnext := (List.cons.inj (List.cons.inj htail).2).2
                  exact (ih has hrest hnext).imp_left (.cons hab)

end Population.Text

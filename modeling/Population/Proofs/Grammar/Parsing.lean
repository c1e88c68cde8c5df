import Mathlib.Data.List.TakeWhile
import Population.Proofs.Grammar.Captures
import Population.Proofs.Text.Ends

/-!
A sequence reads what its parts read wherever the text can be cut in one way only, and where it cannot, as the first
part prefers.
-/
namespace Population

def Capture.trimmed (cs : List Capture) : List Capture :=
  cs.map fun c => ⟨c.name, c.text.trim⟩

theorem Capture.trimmed_append (cs ds : List Capture) : trimmed (cs ++ ds) = trimmed cs ++ trimmed ds :=
  List.map_append

def ByteClass.avoids (c : ByteClass) (ks : Text) : Bool :=
  ks.all (!c.holds ·)

/-- How many of the bytes `ks` every byte of a class is, if that is one number. -/
def ByteClass.marks? (ks : Text) (c : ByteClass) : Option Nat :=
  if c.avoids ks then some 0
  else match c with
    | .oneOf bytes => if bytes.all (· ∈ ks) then some 1 else none
    | _ => none

namespace Pattern

/-- How many bytes of `ks` stand in every text that a pattern spells, if that is one number. -/
def marks? (ks : Text) : Pattern → Option Nat
  | .empty => some 0
  | .byte c => c.marks? ks
  | .run c _ => if c.avoids ks then some 0 else none
  | .seq p q => (marks? ks p).bind fun n => (marks? ks q).map (n + ·)
  | .alt p q => if marks? ks p = marks? ks q then marks? ks p else none
  | .optional p | .many p => if marks? ks p = some 0 then some 0 else none
  | .group _ p => marks? ks p

def spaceBytes : Text :=
  [0x20, 0x09, 0x0a, 0x0c, 0x0d]

/-- Whether no text that a pattern spells starts with white space. -/
def firm : Pattern → Bool
  | .empty => true
  | .byte c | .run c _ => c.avoids spaceBytes
  | .seq p q => firm p && (firm q || !canBeEmpty p)
  | .alt p q => firm p && firm q
  | .optional p | .group _ p => firm p
  | .many p => firm p && !canBeEmpty p

theorem avoids_not_mem {c : ByteClass} {ks : Text} (hc : c.avoids ks = true) {b : UInt8} (hb : c.holds b = true) :
    b ∉ ks := by
  intro hk
  simpa [hb] using List.all_eq_true.mp hc b hk

theorem countP_of_avoids {c : ByteClass} {ks t : Text} (hc : c.avoids ks = true) (ht : ∀ b ∈ t, c.holds b) :
    t.countP (· ∈ ks) = 0 := by
  refine List.countP_eq_zero.mpr fun b hb => ?_
  simpa using avoids_not_mem hc (ht b hb)

theorem countP_of_marks? {c : ByteClass} {ks : Text} {n : Nat} (hc : c.marks? ks = some n) {b : UInt8}
    (hb : c.holds b = true) : [b].countP (· ∈ ks) = n := by
  by_cases havoid : c.avoids ks = true
  · rw [countP_of_avoids havoid (by simpa using hb)]
    simpa [ByteClass.marks?, havoid] using hc
  · cases c with
    | word | space | digit | either => simp [ByteClass.marks?, havoid] at hc
    | oneOf bytes =>
        simp only [ByteClass.marks?, havoid, Bool.false_eq_true, if_false] at hc
        split at hc
        next hall =>
          obtain ⟨x, hx, hxb⟩ := List.any_eq_true.mp hb
          obtain rfl : x = b := by simpa using hxb
          have hk : x ∈ ks := by simpa using List.all_eq_true.mp hall x hx
          simpa [hk] using hc
        next => cases hc

theorem Spells.countP {ks : Text} {p : Pattern} {t : Text} {cs : List Capture} (h : p.Spells t cs) {n : Nat}
    (hp : p.marks? ks = some n) : t.countP (· ∈ ks) = n := by
  induction p generalizing t cs n with
  | empty =>
      obtain ⟨rfl, -⟩ := h
      exact Option.some.inj hp
  | byte c =>
      obtain ⟨⟨b, hb, rfl⟩, -⟩ := h
      exact countP_of_marks? hp hb
  | run c reluctant =>
      rw [marks?] at hp
      split at hp
      next hc =>
        rw [countP_of_avoids hc h.1]
        exact Option.some.inj hp
      next => cases hp
  | seq p q ihp ihq =>
      obtain ⟨t₁, t₂, cs₁, cs₂, rfl, -, hs₁, hs₂⟩ := h
      obtain ⟨i, hi, hij⟩ := Option.bind_eq_some_iff.mp hp
      obtain ⟨j, hj, rfl⟩ := Option.map_eq_some_iff.mp hij
      rw [List.countP_append, ihp hs₁ hi, ihq hs₂ hj]
  | alt p q ihp ihq =>
      rw [marks?] at hp
      split at hp
      next heq =>
        rcases h with h | h
        · exact ihp h hp
        · exact ihq h (heq ▸ hp)
      next => cases hp
  | optional p ih =>
      rw [marks?] at hp
      split at hp
      next hzero =>
        rcases h with h | ⟨rfl, -⟩
        · rw [ih h hzero]
          exact Option.some.inj hp
        · exact Option.some.inj hp
      next => cases hp
  | many p ih =>
      rw [marks?] at hp
      split at hp
      next hzero =>
        -- what is repeated has no mark, so any number of times it has none
        obtain ⟨parts, -, rfl, -, hall⟩ := h
        obtain rfl := Option.some.inj hp
        refine List.countP_eq_zero.mpr fun b hb => ?_
        obtain ⟨part, hpart, hb⟩ := List.mem_flatMap.mp hb
        exact List.countP_eq_zero.mp (ih (hall part hpart) hzero) b hb
      next => cases hp
  | group name p ih =>
      obtain ⟨inner, -, hs⟩ := h
      exact ih hs hp

theorem not_isSpace_of_avoids {c : ByteClass} (hc : c.avoids spaceBytes = true) {b : UInt8}
    (hb : c.holds b = true) : Text.isSpace b = false := by
  rw [Bool.eq_false_iff]
  intro hspace
  have hmem : b ∈ spaceBytes := by simpa [spaceBytes] using Text.isSpace_cases hspace
  exact avoids_not_mem hc hb hmem

theorem Spells.first_not_space {p : Pattern} {t : Text} {cs : List Capture} (h : p.Spells t cs)
    (hp : p.firm = true) : ∀ b ∈ t.head?, Text.isSpace b = false := by
  induction p generalizing t cs with
  | empty =>
      obtain ⟨rfl, -⟩ := h
      simp
  | byte c =>
      obtain ⟨⟨b, hb, rfl⟩, -⟩ := h
      simpa using not_isSpace_of_avoids hp hb
  | run c reluctant => exact fun b hb => not_isSpace_of_avoids hp (h.1 b (List.mem_of_mem_head? hb))
  | seq p q ihp ihq =>
      obtain ⟨t₁, t₂, cs₁, cs₂, rfl, -, hs₁, hs₂⟩ := h
      simp only [firm, Bool.and_eq_true, Bool.or_eq_true, Bool.not_eq_true'] at hp
      -- the first part may be empty, and then the second part is firm too
      cases t₁ with
      | nil =>
          rcases hp.2 with hq | hempty
          · exact ihq hs₂ hq
          · exact absurd rfl (hs₁.ne_nil hempty)
      | cons b t₁ => simpa using ihp hs₁ hp.1
  | alt p q ihp ihq =>
      obtain ⟨hp, hq⟩ := Bool.and_eq_true_iff.mp hp
      rcases h with h | h
      · exact ihp h hp
      · exact ihq h hq
  | optional p ih =>
      rcases h with h | ⟨rfl, -⟩
      · exact ih h hp
      · simp
  | many p ih =>
      obtain ⟨parts, hne, rfl, -, hall⟩ := h
      simp only [firm, Bool.and_eq_true, Bool.not_eq_true'] at hp
      obtain ⟨part, rest, rfl⟩ := List.exists_cons_of_ne_nil hne
      have hpart := hall part List.mem_cons_self
      obtain ⟨b, t, ht⟩ := List.exists_cons_of_ne_nil (hpart.ne_nil hp.2)
      have hb := ih hpart hp.1
      rw [List.flatMap_cons, ht]
      rwa [ht] at hb
  | group name p ih =>
      obtain ⟨inner, -, hs⟩ := h
      exact ih hs hp

/-- What the matcher makes of a text with a pattern, wherever the text stands. -/
def Reads (p : Pattern) (t : Text) (cs : List Capture) : Prop :=
  ∀ (whole : Text) (pos : Nat), whole.drop pos = t →
    ∃ w, p.first? pos t = some w ∧ Capture.trimmed (w.captures whole) = cs

theorem Reads.spells {p : Pattern} {t : Text} {cs : List Capture} (h : p.Reads t cs) : ∃ ds, p.Spells t ds := by
  obtain ⟨w, hw, -⟩ := h t 0 rfl
  exact ⟨_, first?_spells t 0 hw⟩

theorem Reads.match? {p : Pattern} {t : Text} {cs : List Capture} (h : p.Reads t cs) :
    (p.match? t).map (fun spans => spans.map fun s => (⟨s.name, (s.of t).trim⟩ : Capture)) = some cs := by
  obtain ⟨w, hw, rfl⟩ := h t 0 rfl
  rw [match?_eq, hw]
  simp [Capture.trimmed, Way.captures]

theorem Spells.exists_first? {p : Pattern} (hp : p.solid = true) {t : Text} {cs : List Capture}
    (h : p.Spells t cs) (pos : Nat) : ∃ w, p.first? pos t = some w := by
  obtain ⟨w, hw, -, hrest⟩ := h.exists_way hp pos []
  rw [List.append_nil] at hw
  exact Option.isSome_iff_exists.mp (List.find?_isSome.mpr ⟨w, hw, by simp [Way.full, hrest]⟩)

/-- A text that a pattern spells with the same captures however it does is read with these. -/
theorem Reads.of_spells {p : Pattern} (hp : p.solid = true) {t : Text} {cs : List Capture}
    (hex : ∃ ds, p.Spells t ds) (hall : ∀ ds, p.Spells t ds → Capture.trimmed ds = cs) : p.Reads t cs := by
  rintro whole pos rfl
  obtain ⟨ds, hds⟩ := hex
  obtain ⟨w, hw⟩ := hds.exists_first? hp pos
  exact ⟨w, hw, hall _ (first?_spells whole pos hw)⟩

theorem first?_seq (p q : Pattern) (pos : Nat) (t : Text) : (seq p q).first? pos t =
    (p.ways pos t).findSome? fun w => (q.first? (pos + w.taken.length) w.rest).map w.andThen := by
  rw [first?, ways, List.find?_flatMap]
  congr 1
  funext w
  rw [List.find?_map, first?]
  rfl

/-- A sequence reads what its parts read, if they do so whichever of its ways the first part takes: one that leaves
something the second part spells, while no way before it does. -/
theorem Reads.seq_of_ways {p q : Pattern} {t : Text} {cs ds : List Capture} (hp : p.solid = true)
    (hq : q.solid = true) (hex : ∃ u y us, t = u ++ y ∧ p.Spells u us ∧ q.Reads y ds)
    (hall : ∀ (whole : Text) (pos : Nat), whole.drop pos = t → ∀ earlier w later,
      p.ways pos t = earlier ++ w :: later → (∀ v ∈ earlier, ∀ es, ¬ q.Spells v.rest es) →
      (∃ es, q.Spells w.rest es) → Capture.trimmed (w.captures whole) = cs ∧ q.Reads w.rest ds) :
    (seq p q).Reads t (cs ++ ds) := by
  intro whole pos hdrop
  obtain ⟨u, y, us, hsplit, hu, hy⟩ := hex
  obtain ⟨es, hes⟩ := hy.spells
  have hseq : (seq p q).Spells t (us ++ es) := ⟨u, y, us, es, hsplit, rfl, hu, hes⟩
  obtain ⟨v, hv⟩ := hseq.exists_first? (by rw [solid, hp, hq]; rfl) pos
  -- the matcher takes the first way of the first part that the second part can follow
  obtain ⟨earlier, w, later, hways, hfirst, hnone⟩ := List.findSome?_eq_some_iff.mp (first?_seq p q pos t ▸ hv)
  obtain ⟨x, hx, rfl⟩ := Option.map_eq_some_iff.mp hfirst
  have hw : w ∈ p.ways pos t := by simp [hways]
  have htext := (@ways_spelled p whole pos w (hdrop ▸ hw)).1
  have hrest := drop_taken htext
  obtain ⟨hcs, hread⟩ := hall whole pos hdrop earlier w later hways
    (fun v hv es hes => by
      obtain ⟨x, hx⟩ := hes.exists_first? hq (pos + v.taken.length)
      have := hnone v hv
      rw [hx] at this
      cases this)
    ⟨_, hrest ▸ first?_spells whole _ (hrest.symm ▸ hx)⟩
  obtain ⟨x', hx', hds⟩ := hread whole _ hrest
  obtain rfl : x = x' := Option.some.inj (hx.symm.trans hx')
  refine ⟨_, hv, ?_⟩
  rw [show (w.andThen x).captures whole = w.captures whole ++ x.captures whole from List.map_append,
    Capture.trimmed_append, hcs, hds]

/-- A sequence reads what its parts read wherever the text is cut. -/
theorem Reads.seq {p q : Pattern} {t : Text} {cs ds : List Capture} (hp : p.solid = true) (hq : q.solid = true)
    (hex : ∃ u y us, t = u ++ y ∧ p.Spells u us ∧ q.Reads y ds)
    (hall : ∀ u y us es, t = u ++ y → p.Spells u us → q.Spells y es →
      Capture.trimmed us = cs ∧ q.Reads y ds) : (Pattern.seq p q).Reads t (cs ++ ds) := by
  refine .seq_of_ways hp hq hex fun whole pos hdrop earlier w later hways _ hes => ?_
  obtain ⟨htext, hs⟩ := @ways_spelled p whole pos w (by rw [hdrop, hways]; simp)
  obtain ⟨es, hes⟩ := hes
  exact hall _ _ _ es (hdrop.symm.trans htext.symm) hs hes

theorem Reads.congr {p q : Pattern} (h : ∀ pos t, p.ways pos t = q.ways pos t) {t : Text} {cs : List Capture}
    (hq : q.Reads t cs) : p.Reads t cs := by
  intro whole pos hdrop
  rw [first?, h]
  exact hq whole pos hdrop

theorem Reads.optional {p : Pattern} {t : Text} {cs : List Capture} (h : p.Reads t cs) :
    (Pattern.optional p).Reads t cs := by
  intro whole pos hdrop
  obtain ⟨w, hw, hcs⟩ := h whole pos hdrop
  refine ⟨w, ?_, hcs⟩
  rw [first?] at hw ⊢
  rw [ways, List.find?_append, hw]
  rfl

theorem ways_seq_assoc (p q r : Pattern) (pos : Nat) (t : Text) :
    (Pattern.seq (.seq p q) r).ways pos t = (Pattern.seq p (.seq q r)).ways pos t := by
  simp only [ways, List.flatMap_assoc, List.flatMap_map, List.map_flatMap, List.map_map]
  refine List.flatMap_congr fun w _ => List.flatMap_congr fun v _ => ?_
  simp only [Way.andThen, List.length_append, Nat.add_assoc]
  refine List.map_congr_left fun x _ => ?_
  simp [Way.andThen]

theorem ways_seq_empty (p : Pattern) (pos : Nat) (t : Text) : (Pattern.seq p .empty).ways pos t = p.ways pos t := by
  have hid (w : Way) : w.andThen (.nothing w.rest) = w := by simp [Way.andThen, Way.nothing]
  simp [ways, hid]

theorem ways_all_seq (ps : List Pattern) (q : Pattern) (pos : Nat) (t : Text) :
    (Pattern.seq (.all ps) q).ways pos t = (ps.foldr .seq q).ways pos t := by
  induction ps generalizing pos t with
  | nil =>
      have hid : (Way.nothing t).andThen = id := rfl
      rw [show Pattern.all [] = .empty from rfl, ways, ways, List.flatMap_singleton, hid, List.map_id]
      rfl
  | cons p ps ih =>
      rw [show Pattern.all (p :: ps) = .seq p (.all ps) from rfl, ways_seq_assoc, List.foldr_cons, ways, ways]
      refine List.flatMap_congr fun w _ => ?_
      rw [← ih]

/-- A text that a pattern reads with certain captures, whatever white space it takes with it. -/
structure Holds (p : Pattern) (x : Text) (cs : List Capture) : Prop where
  solid : p.solid = true
  spelled : ∃ ds, p.Spells x ds
  last : ∀ b ∈ x.getLast?, Text.isSpace b = false
  captures : ∀ s ds, s.AllSpace → p.Spells (x ++ s) ds → Capture.trimmed ds = cs

/-- A text that is a sign between white space. Whatever else the sign could be is as long, and starts with the only
byte of `ks` in it. -/
structure Gap (sign : Pattern) (ks g : Text) : Prop where
  solid : sign.solid = true
  firm : sign.firm = true
  filled : sign.canBeEmpty = false
  clear : ∀ b ∈ ks, Text.isSpace b = false
  marks : sign.marks? ks = some 1
  around : ∃ s m s', g = s ++ (m ++ s') ∧ s.AllSpace ∧ s'.AllSpace ∧ sign.Spells m [] ∧
    ∀ u cs, sign.Spells u cs → cs = [] ∧ u.length = m.length ∧ ∃ b ∈ u.head?, b ∈ ks

theorem Holds.group {name : Text} {p : Pattern} (hp : p.solid = true) (hinner : p.inners = []) {x : Text}
    (hx : x.Bounded) (hs : ∃ ds, p.Spells x ds) : (group name p).Holds x [⟨name, x⟩] where
  solid := hp
  spelled := by
    obtain ⟨ds, hds⟩ := hs
    exact ⟨_, ds, rfl, hds⟩
  last := hx.last_not_space
  captures := by
    rintro s ds hspace ⟨inner, rfl, hs⟩
    rw [hs.eq_nil hinner]
    simp [Capture.trimmed, hx.trim_append hspace]

theorem Holds.captures_of_front {p : Pattern} {x u s r : Text} {cs us : List Capture} (h : p.Holds x cs)
    (hs : s.AllSpace) (hr : r.AllSpace) (hfront : u ++ r = x ++ s) (hu : p.Spells u us) :
    Capture.trimmed us = cs := by
  obtain ⟨a, rfl, rfl⟩ := Text.eq_append_of_space h.last hr hfront
  exact h.captures a us (fun b hb => hs b (List.mem_append_left _ hb)) hu

theorem Holds.reads {p : Pattern} {x : Text} {cs : List Capture} (h : p.Holds x cs) : p.Reads x cs := by
  refine .of_spells h.solid h.spelled fun ds hds => ?_
  exact h.captures [] ds Text.allSpace_nil (by rwa [List.append_nil])

theorem Reads.last {p : Pattern} {x : Text} {cs : List Capture} (h : p.Holds x cs) :
    (Pattern.seq p .empty).Reads x cs :=
  .congr (ways_seq_empty p) h.reads

theorem Reads.spaced {q : Pattern} {s y : Text} {cs : List Capture} (hs : s.AllSpace) (hq : q.solid = true)
    (hfirm : q.firm = true) (h : q.Reads y cs) : (Pattern.seq Statement.spaces q).Reads (s ++ y) cs := by
  obtain ⟨es, hes⟩ := h.spells
  refine @Reads.seq _ _ _ [] cs rfl hq ⟨s, y, [], rfl, ⟨hs, rfl⟩, h⟩ ?_
  rintro r y' _ es' hsplit ⟨hr, rfl⟩ hy'
  obtain ⟨-, rfl⟩ := Text.cut_of_run (k := Text.isSpace) hs hr (hes.first_not_space hfirm)
    (hy'.first_not_space hfirm) hsplit
  exact ⟨rfl, h⟩

theorem Reads.sign {sign q : Pattern} {m y : Text} {cs : List Capture} (hsign : sign.solid = true)
    (hm : sign.Spells m []) (honly : ∀ u us, sign.Spells u us → us = [] ∧ u.length = m.length) (hq : q.solid = true)
    (h : q.Reads y cs) : (Pattern.seq sign q).Reads (m ++ y) cs := by
  refine @Reads.seq _ _ _ [] cs hsign hq ⟨m, y, [], rfl, hm, h⟩ ?_
  intro u y' us es hsplit hu _
  obtain ⟨rfl, hlength⟩ := honly u us hu
  obtain ⟨-, rfl⟩ := List.append_inj hsplit hlength.symm
  exact ⟨rfl, h⟩

theorem spells_around {sign : Pattern} {t : Text} {cs : List Capture} :
    (Statement.around sign).Spells t cs ↔
      ∃ s m s', t = s ++ (m ++ s') ∧ s.AllSpace ∧ s'.AllSpace ∧ sign.Spells m cs := by
  constructor
  · rintro ⟨s, t', _, _, rfl, rfl, ⟨hs, rfl⟩, m, t'', cs, _, rfl, rfl, hm, s', _, _, _, rfl, rfl, ⟨hs', rfl⟩, rfl, rfl⟩
    exact ⟨s, m, s', by simp, hs, hs', by simpa using hm⟩
  · rintro ⟨s, m, s', rfl, hs, hs', hm⟩
    exact ⟨s, m ++ s', [], cs, rfl, rfl, ⟨hs, rfl⟩, m, s', cs, [], rfl, by simp, hm, s', [], [], [], by simp, rfl,
      ⟨hs', rfl⟩, rfl, rfl⟩

theorem Gap.around_solid {sign q : Pattern} {ks g : Text} (hg : Gap sign ks g) (hq : q.solid = true) :
    (Pattern.seq (Statement.around sign) q).solid = true := by
  simp [Statement.around, Statement.spaces, Pattern.all, Pattern.solid, hg.solid, hq]

theorem Reads.around {sign q : Pattern} {ks g r y : Text} {cs : List Capture} (hg : Gap sign ks g) (hr : r.AllSpace)
    (hq : q.solid = true) (hfirm : q.firm = true) (h : q.Reads y cs) :
    (Pattern.seq (Statement.around sign) q).Reads (r ++ (g.dropWhile Text.isSpace ++ y)) cs := by
  obtain ⟨s, m, s', rfl, hs, hs', hm, honly⟩ := hg.around
  obtain ⟨-, -, b, hb, hk⟩ := honly m _ hm
  have hcore : (s ++ (m ++ s')).dropWhile Text.isSpace = m ++ s' := by
    refine hs.dropWhile fun c hc => ?_
    rw [Option.mem_unique hc (List.mem_head?_append_of_mem_head? hb)]
    exact hg.clear b hk
  have hbehind := Reads.spaced hs' hq hfirm h
  have hsign := Reads.sign hg.solid hm (fun u us hu => ⟨(honly u us hu).1, (honly u us hu).2.1⟩)
    (by simpa [Pattern.solid, Statement.spaces] using hq) hbehind
  rw [hcore, List.append_assoc]
  refine .congr (ways_all_seq _ q) (.spaced hr ?_ ?_ hsign)
  · simp [Pattern.solid, Statement.spaces, hg.solid, hq]
  · simp [Pattern.firm, hg.firm, hg.filled]

theorem Gap.countP_space {sign : Pattern} {ks g s : Text} (hg : Gap sign ks g) (hs : s.AllSpace) :
    s.countP (· ∈ ks) = 0 := by
  refine List.countP_eq_zero.mpr fun b hb hk => ?_
  have hspace := hs b hb
  rw [hg.clear b (by simpa using hk)] at hspace
  cases hspace

/-- A text is cut in front of a gap only, up to white space, if it is fixed how many of the bytes that start the sign
are to stand before it, or how many are to stand behind it. -/
theorem Gap.cut {sign q : Pattern} {ks g x y u z : Text} {es : List Capture} (hg : Gap sign ks g)
    (hcount : u.countP (· ∈ ks) = x.countP (· ∈ ks) ∨
      ∀ y' es', q.Spells y' es' → y'.countP (· ∈ ks) = y.countP (· ∈ ks))
    (hz : (Pattern.seq (Statement.around sign) q).Spells z es) (h : x ++ (g ++ y) = u ++ z) :
    ∃ s r : Text, s.AllSpace ∧ r.AllSpace ∧ u ++ r = x ++ s ∧ z = r ++ (g.dropWhile Text.isSpace ++ y) ∧
      ∃ s' r' y' es', s'.AllSpace ∧ r'.AllSpace ∧ q.Spells y' es' ∧ r' ++ y' = s' ++ y := by
  obtain ⟨s, m, s', rfl, hs, hs', hm, honly⟩ := hg.around
  obtain ⟨_, y', _, es', rfl, rfl, haround, hy'⟩ := hz
  obtain ⟨r, k, r', rfl, hr, hr', hk⟩ := spells_around.mp haround
  have hsigns := (hm.countP hg.marks).trans (hk.countP hg.marks).symm
  obtain ⟨-, hlength, b, hb, hbk⟩ := honly k _ hk
  obtain ⟨-, -, c, hc, hck⟩ := honly m _ hm
  obtain ⟨k, rfl⟩ := List.head?_eq_some_iff.mp hb
  obtain ⟨m, rfl⟩ := List.head?_eq_some_iff.mp hc
  have hcut : (x ++ s) ++ c :: (m ++ (s' ++ y)) = (u ++ r) ++ b :: (k ++ (r' ++ y')) := by
    simpa using h
  -- as many bytes of the sign stand in front on both sides, so the sign is the same one
  have hfronts : (x ++ s).countP (· ∈ ks) = (u ++ r).countP (· ∈ ks) := by
    have htotal := congrArg (List.countP (· ∈ ks)) hcut
    simp only [List.countP_append, List.countP_cons, hg.countP_space hs, hg.countP_space hr, hg.countP_space hs',
      hg.countP_space hr'] at htotal hsigns ⊢
    rcases hcount with hcount | hcount
    · rw [hcount]
    · have := hcount y' es' hy'
      omega
  obtain ⟨hfront, rfl, hrest⟩ := Text.cut_of_countP_left (k := (· ∈ ks)) (by simpa using hck)
    (by simpa using hbk) hfronts hcut
  refine ⟨s, r, hs, hr, hfront.symm, ?_, s', r', y', es', hs', hr', hy', ?_⟩
  · rw [hs.dropWhile (by simpa using hg.clear c hck)]
    simp [hrest]
  · exact (List.append_inj hrest (by simpa using hlength.symm)).2.symm

/-- The field behind the last gap of a text is one that the pattern behind the sign spells. -/
theorem Gap.last {sign p : Pattern} {ks g x y u z : Text} {es : List Capture} (hg : Gap sign ks g)
    (hfirm : p.firm = true) (hmarks : p.marks? ks = some 0) (hy : ∀ b ∈ y.head?, Text.isSpace b = false)
    (hcount : y.countP (· ∈ ks) = 0) (hz : (Pattern.seq (Statement.around sign) p).Spells z es)
    (h : x ++ (g ++ y) = u ++ z) :
    ∃ s r ds, s.AllSpace ∧ r.AllSpace ∧ u ++ r = x ++ s ∧ p.Spells y ds := by
  obtain ⟨s, r, hs, hr, hfront, -, s', r', y', ds, hs', hr', hy', hrest⟩ :=
    hg.cut (.inr fun y' es' hy' => (hy'.countP hmarks).trans hcount.symm) hz h
  obtain ⟨-, rfl⟩ := Text.cut_of_run (k := Text.isSpace) hr' hs' (hy'.first_not_space hfirm) hy hrest
  exact ⟨s, r, ds, hs, hr, hfront, hy'⟩

theorem Reads.field {p sign q : Pattern} {ks x g y : Text} {cs ds : List Capture} (hp : p.Holds x cs)
    (hg : Gap sign ks g) (hmarks : (p.marks? ks).isSome ∨ (q.marks? ks).isSome) (hq : q.solid = true)
    (hfirm : q.firm = true) (h : q.Reads y ds) :
    (Pattern.seq p (.seq (Statement.around sign) q)).Reads (x ++ (g ++ y)) (cs ++ ds) := by
  obtain ⟨us, hus⟩ := hp.spelled
  obtain ⟨es, hes⟩ := h.spells
  refine Reads.seq hp.solid (hg.around_solid hq) ⟨x, g ++ y, us, rfl, hus, ?_⟩ ?_
  · have hread := Reads.around hg (r := g.takeWhile Text.isSpace) (fun b hb => List.mem_takeWhile_imp hb) hq hfirm h
    rwa [← List.append_assoc, List.takeWhile_append_dropWhile] at hread
  · intro u z us' zs hsplit hu hz
    have hcount : u.countP (· ∈ ks) = x.countP (· ∈ ks) ∨
        ∀ y' es', q.Spells y' es' → y'.countP (· ∈ ks) = y.countP (· ∈ ks) := by
      rcases hmarks with hn | hn <;> obtain ⟨n, hn⟩ := Option.isSome_iff_exists.mp hn
      · exact .inl ((hu.countP hn).trans (hus.countP hn).symm)
      · exact .inr fun y' es' hy' => (hy'.countP hn).trans (hes.countP hn).symm
    obtain ⟨s, r, hs, hr, hfront, rfl, -⟩ := hg.cut hcount hz hsplit
    exact ⟨hp.captures_of_front hs hr hfront hu, .around hg hr hq hfirm h⟩

end Pattern

end Population

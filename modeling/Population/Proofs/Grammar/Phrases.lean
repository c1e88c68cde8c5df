import Population.Proofs.Grammar.Fields
import Population.Proofs.Text.Cutting
import Population.Proofs.Text.Joining

/-!
These parts of statements have an end that no sign behind them fixes: a part that may be missing, an arrow head that
takes a `0` rather than leave it to a name, and an alias that ends before the first number that a range can start with.
-/
namespace Population.Statement

open Pattern

theorem allSpace_blank : Text.AllSpace " " :=
  List.all_eq_true.mp rfl

def nameWith (field : Text) (q : Pattern) : Pattern :=
  .all [named field, .optional (.seq slash q)]

theorem slash_countP {q : Pattern} {t : Text} {cs : List Capture} (h : (Pattern.seq slash q).Spells t cs) :
    t.countP (· ∈ Text.ofString "/") ≠ 0 := by
  obtain ⟨u, y, us, es, rfl, -, hu, -⟩ := h
  have hslash : slash.marks? "/" = some 1 := rfl
  rw [List.countP_append, hu.countP hslash]
  omega

theorem named_countP {field x : Text} {cs : List Capture} (h : (named field).Spells x cs) :
    x.countP (· ∈ Text.ofString "/") = 0 :=
  h.countP (by rfl : (named []).marks? "/" = some 0)

theorem reads_name_alone (field : Text) {x : Text} (hx : x.IsName) {q : Pattern} (hq : q.solid = true) :
    (nameWith field q).Reads x [⟨field, x⟩] := by
  have hname := holds_named field hx
  obtain ⟨us, hus⟩ := hname.spelled
  have hsolid : (Pattern.optional (.seq slash q)).solid = true := by
    simpa [Pattern.solid, hq] using (by rfl : slash.solid = true)
  have hnone : (Pattern.seq (.optional (.seq slash q)) .empty).Reads [] [] := by
    refine .congr (ways_seq_empty _) (.of_spells hsolid ⟨[], .inr ⟨rfl, rfl⟩⟩ ?_)
    rintro ds (hds | ⟨-, rfl⟩)
    · exact absurd rfl (slash_countP hds)
    · rfl
  refine @Reads.seq _ _ _ [⟨field, x⟩] [] hname.solid (by simpa [Pattern.solid] using hsolid)
    ⟨x, [], us, by simp, hus, hnone⟩ ?_
  rintro u _ us' _ hsplit hu ⟨y, _, es, _, rfl, rfl, hy, rfl, rfl⟩
  rw [List.append_nil] at hsplit ⊢
  rcases hy with hy | ⟨rfl, rfl⟩
  · have hcount := named_countP hus
    rw [hsplit, List.countP_append] at hcount
    exact absurd (Nat.add_eq_zero_iff.mp hcount).2 (slash_countP hy)
  · rw [List.append_nil] at hsplit
    subst hsplit
    exact ⟨hname.captures [] us' Text.allSpace_nil (by rwa [List.append_nil]), hnone⟩

theorem reads_name_with (field : Text) {x y : Text} (hx : x.IsName) {q : Pattern} {cs : List Capture}
    (hq : q.solid = true) (hfirm : q.firm = true) (h : q.Reads y cs) :
    (nameWith field q).Reads (x ++ (" / " ++ y)) (⟨field, x⟩ :: cs) := by
  have hname := holds_named field hx
  obtain ⟨us, hus⟩ := hname.spelled
  have hread {r : Text} (hr : r.AllSpace) : (Pattern.seq (.optional (.seq slash q)) .empty).Reads
      (r ++ ((Text.ofString " / ").dropWhile Text.isSpace ++ y)) cs :=
    .congr (ways_seq_empty _) (.optional (.around gap_slash hr hq hfirm h))
  refine @Reads.seq _ _ _ [⟨field, x⟩] cs hname.solid ?_ ⟨x, " / " ++ y, us, rfl, hus, hread allSpace_blank⟩ ?_
  · simpa [Pattern.solid, hq] using (by rfl : slash.solid = true)
  rintro u _ us' _ hsplit hu ⟨z, _, es, _, rfl, rfl, hz, rfl, rfl⟩
  rw [List.append_nil] at hsplit ⊢
  rcases hz with hz | ⟨rfl, rfl⟩
  · obtain ⟨s, r, hs, hr, hfront, rfl, -⟩ :=
      gap_slash.cut (.inl ((named_countP hu).trans (named_countP hus).symm)) hz hsplit
    exact ⟨hname.captures_of_front hs hr hfront hu, hread hr⟩
  · have hcount := named_countP hu
    rw [List.append_nil] at hsplit
    rw [← hsplit] at hcount
    simp only [List.countP_append, Nat.add_eq_zero_iff] at hcount
    exact absurd hcount.2.1 (by decide)

theorem multiplicity_cases {m : Text} (hm : m ∈ Capture.multiplicities.map (·.1)) :
    m = [0x3e] ∨ m = [0x3e, 0x3e] ∨ m = [0x3e, 0x30] ∨ m = [0x3e, 0x3e, 0x30] := by
  have hheads : Capture.multiplicities.map (·.1) = [[0x3e], [0x3e, 0x3e], [0x3e, 0x30], [0x3e, 0x3e, 0x30]] := rfl
  simpa only [hheads, List.mem_cons, List.not_mem_nil, or_false] using hm

/-- The multiplicity takes as much of an arrow head as there is. -/
theorem ways_multiplicity (name : Text) {m : Text} (hm : m ∈ Capture.multiplicities.map (·.1)) (y : Text)
    (pos : Nat) : ((multiplicity name).ways pos (m ++ (" " ++ y))).head? =
      some ⟨m, [⟨name, pos, pos + m.length⟩], " " ++ y⟩ := by
  have hpattern : multiplicity name = .group name (.all [.literal [0x3e], .optional (.literal [0x3e]),
      .optional (.literal [0x30])]) := rfl
  have hblank : Text.ofString " " = [0x20] := rfl
  rw [hpattern, hblank]
  rcases multiplicity_cases hm with rfl | rfl | rfl | rfl <;>
    simp [ways, Pattern.all, Pattern.literal, ByteClass.holds, Way.andThen, Way.nothing]

theorem multiplicity_trim {m : Text} (hm : m ∈ Capture.multiplicities.map (·.1)) : m.trim = m := by
  rcases multiplicity_cases hm with rfl | rfl | rfl | rfl <;> exact Text.trim_signs _ (by simp)

theorem multiplicity_head {m : Text} (hm : m ∈ Capture.multiplicities.map (·.1)) : m.head? = some 0x3e := by
  rcases multiplicity_cases hm with rfl | rfl | rfl | rfl <;> rfl

theorem spells_multiplicity (name : Text) {m : Text} (hm : m ∈ Capture.multiplicities.map (·.1)) :
    (multiplicity name).Spells m [⟨name, m⟩] := by
  have hways := List.mem_of_mem_head? (ways_multiplicity name hm [] 0)
  obtain ⟨-, inner, -, hs⟩ := @ways_spelled (multiplicity name) (m ++ (Text.ofString " " ++ [])) 0 _ hways
  obtain rfl := hs.eq_nil rfl
  exact ⟨[], rfl, hs⟩

/-- An arrow head and the name behind it, which the arrow head leaves as little of as it can. -/
theorem reads_arrowHead (mult object : Text) {m x : Text} (hm : m ∈ Capture.multiplicities.map (·.1))
    (hx : x.IsName) : (Pattern.all [multiplicity mult, spaces, named object]).Reads (m ++ (" " ++ x))
      [⟨mult, m⟩, ⟨object, x⟩] := by
  have hobject : (Pattern.all [spaces, named object]).Reads (" " ++ x) [⟨object, x⟩] :=
    .spaced allSpace_blank rfl rfl (.last (holds_named object hx))
  refine @Reads.seq_of_ways _ _ _ [⟨mult, m⟩] [⟨object, x⟩] rfl rfl
    ⟨m, " " ++ x, _, rfl, spells_multiplicity mult hm, hobject⟩ ?_
  intro whole pos hdrop earlier w later hways hnone _
  obtain ⟨others, hfirst⟩ := List.head?_eq_some_iff.mp (ways_multiplicity mult hm x pos)
  rw [hfirst] at hways
  cases earlier with
  | nil =>
      obtain ⟨rfl, -⟩ := List.cons.inj hways
      refine ⟨?_, hobject⟩
      have hspan : (⟨mult, pos, pos + m.length⟩ : Span).of whole = m := by
        rw [Span.of, hdrop, Nat.add_sub_cancel_left, List.take_left]
      simp [Capture.trimmed, Way.captures, hspan, multiplicity_trim hm]
  | cons v earlier =>
      -- The way that takes the whole arrow head leaves the name, so no other way is taken before it.
      obtain ⟨rfl, -⟩ := List.cons.inj hways
      obtain ⟨es, hes⟩ := hobject.spells
      exact absurd hes (hnone _ List.mem_cons_self es)

theorem reads_phrase (phrase mult object : Text) {p m x : Text} (hp : p.IsName)
    (hm : m ∈ Capture.multiplicities.map (·.1)) (hx : x.IsName) :
    (Pattern.all [named phrase, multiplicity mult, spaces, named object]).Reads (p ++ (" " ++ (m ++ (" " ++ x))))
      [⟨phrase, p⟩, ⟨mult, m⟩, ⟨object, x⟩] := by
  have hhead := reads_arrowHead mult object hm hx
  have hphrase := holds_named phrase hp
  have hspelled : (named phrase).Spells (p ++ " ") [⟨phrase, p ++ " "⟩] :=
    ⟨[], rfl, spells_name_append hp allSpace_blank⟩
  have hmarks : (named phrase).marks? ">" = some 0 := (by rfl : (named []).marks? ">" = some 0)
  refine @Reads.seq _ _ _ [⟨phrase, p⟩] [⟨mult, m⟩, ⟨object, x⟩] rfl rfl
    ⟨p ++ " ", _, _, by simp, hspelled, hhead⟩ ?_
  rintro u _ us _ hsplit hu ⟨m', y, _, _, rfl, -, ⟨_, -, hm'⟩, hy⟩
  obtain ⟨k, rfl⟩ := List.head?_eq_some_iff.mp (multiplicity_head hm)
  obtain ⟨k', rfl⟩ := List.head?_eq_some_iff.mp (multiplicity_head (spells_arrowHead hm'))
  have hcut : (p ++ Text.ofString " ") ++ 0x3e :: (k ++ (Text.ofString " " ++ x)) = u ++ 0x3e :: (k' ++ y) := by
    simpa using hsplit
  obtain ⟨rfl, -, hrest⟩ := Text.cut_of_countP_left (k := (· ∈ Text.ofString ">")) (by rfl)
    (by rfl) ((hspelled.countP hmarks).trans (hu.countP hmarks).symm) hcut
  refine ⟨hphrase.captures " " us allSpace_blank hu, ?_⟩
  rw [List.cons_append, ← hrest]
  exact hhead

theorem reads_superclass {x : Text} (hx : x.IsName) :
    (Pattern.all [named "superclass", spaces, .literal "<"]).Reads (x ++ " <") [⟨"superclass", x⟩] := by
  have hname := holds_named "superclass" hx
  obtain ⟨us, hus⟩ := hname.spelled
  have hread {r : Text} (hr : r.AllSpace) : (Pattern.all [spaces, .literal "<"]).Reads (r ++ "<") [] := by
    refine .spaced hr (by rfl) (by rfl) (.congr (ways_seq_empty _) (.of_spells (by rfl) ?_ ?_))
    · exact ⟨[], spells_literal.mpr ⟨rfl, rfl⟩⟩
    · intro ds hds
      rw [(spells_literal.mp hds).2]
      rfl
  refine @Reads.seq _ _ _ [⟨"superclass", x⟩] [] hname.solid (by rfl)
    ⟨x, " <", us, rfl, hus, hread allSpace_blank⟩ ?_
  rintro u _ us' _ hsplit hu ⟨r, _, _, _, rfl, rfl, ⟨hr, rfl⟩, _, _, _, _, rfl, rfl, hless, rfl, rfl⟩
  obtain ⟨rfl, rfl⟩ := spells_literal.mp hless
  have hfront : (u ++ r) ++ Text.ofString "<" = (x ++ Text.ofString " ") ++ Text.ofString "<" := by
    rw [show Text.ofString " <" = Text.ofString " " ++ Text.ofString "<" from rfl] at hsplit
    simpa using hsplit.symm
  refine ⟨hname.captures_of_front allSpace_blank hr (List.append_cancel_right hfront) hu, ?_⟩
  rw [List.append_nil]
  exact hread hr

theorem runWays_ascending (c : ByteClass) (t : Text) :
    (runWays c true t).Pairwise fun w v => w.taken.length ≤ v.taken.length := by
  induction t with
  | nil => simp [runWays]
  | cons b t ih =>
      simp only [runWays, if_true]
      refine List.Pairwise.cons (fun v _ => Nat.zero_le _) ?_
      split
      next => exact ih.map _ fun w v hwv => by simpa [Way.andThen] using hwv
      next => exact .nil

/-- A reluctant name is tried with few bytes before it is tried with more. -/
theorem ways_reluctantName_ascending (field : Text) (pos : Nat) (t : Text) :
    ((group field reluctantName).ways pos t).Pairwise fun w v => w.taken.length ≤ v.taken.length := by
  rw [ways, reluctantName, ways, List.pairwise_map]
  cases t with
  | nil => exact .nil
  | cons b t =>
      simp only [ways]
      split
      next =>
        rw [List.flatMap_singleton, List.pairwise_map]
        exact (runWays_ascending nameByte t).imp fun hwv => by simpa [Way.andThen] using hwv
      next => exact .nil

/-- What stands behind the alias of a subsystem. -/
def range : Pattern :=
  .all [spaces, .optional (.seq (.literal "/") spaces), .group "floor" digits, around (.literal "-"),
    .group "ceiling" digits]

theorem reads_range {f c : Text} (hf : f.IsDigits) (hc : c.IsDigits) :
    range.Reads (" " ++ (f ++ ("-" ++ c))) [⟨"floor", f⟩, ⟨"ceiling", c⟩] := by
  have hbounds := Reads.field (holds_digits "floor" hf) gap_dash (.inl (by rfl)) (by rfl)
    (by rfl) (.last (holds_digits "ceiling" hc))
  refine .spaced allSpace_blank (by rfl) (by rfl) ?_
  refine @Reads.seq _ _ _ [] _ (by rfl) (by rfl) ⟨[], _, [], rfl, .inr ⟨rfl, rfl⟩, hbounds⟩ ?_
  rintro u y us es hsplit (hu | ⟨rfl, rfl⟩) -
  · obtain ⟨_, _, _, _, rfl, -, hslash, -⟩ := hu
    obtain ⟨rfl, -⟩ := spells_literal.mp hslash
    obtain ⟨b, f, rfl⟩ := List.exists_cons_of_ne_nil hf.ne_nil
    have hb := hf.digits b List.mem_cons_self
    rw [(List.cons.inj hsplit).1] at hb
    exact absurd hb (by decide)
  · exact ⟨rfl, (show _ = y from hsplit) ▸ hbounds⟩

/-- White space and digits do not spell the end of a name, white space and digits. -/
theorem floor_behind {v f s f' : Text} (hv : ∀ b ∈ v.getLast?, Text.isSpace b = false) (hne : v ≠ [])
    (hs : s.AllSpace) (hf' : ∀ b ∈ f', Text.isDigit b = true) : v ++ (" " ++ f) ≠ s ++ f' := by
  intro h
  rcases List.append_eq_append_iff.mp h with ⟨e, rfl, -⟩ | ⟨e, -, he⟩
  · obtain ⟨x, hx⟩ := Option.isSome_iff_exists.mp (List.getLast?_isSome.mpr hne)
    have hspace := hs x (List.mem_append_left _ (List.mem_of_getLast? hx))
    rw [hv x hx] at hspace
    cases hspace
  · have hdigit := hf' 0x20 (he ▸ List.mem_append_right _ List.mem_cons_self)
    exact absurd hdigit (by decide)

/-- Nothing of an alias is left to what stands behind it. -/
theorem range_behind {a f c u z : Text} {es : List Capture} (ha : a.IsName) (hf : f.IsDigits)
    (hz : range.Spells z es) (h : a ++ (" " ++ (f ++ ("-" ++ c))) = u ++ z) : a.length ≤ u.length := by
  rcases List.append_eq_append_iff.mp h with ⟨v, rfl, -⟩ | ⟨v, rfl, hbehind⟩
  · simp
  by_cases hne : v = []
  · simp [hne]
  exfalso
  have hlast : ∀ b ∈ v.getLast?, Text.isSpace b = false := by
    have := ha.last_not_space
    rwa [List.getLast?_append_of_ne_nil _ hne] at this
  have hbytes : ∀ b ∈ v, nameByte.holds b = true :=
    fun b hb => holds_nameByte.mpr (ha.bytes b (List.mem_append_right u hb))
  obtain ⟨s, _, _, _, rfl, -, ⟨hs, -⟩, o, _, _, _, rfl, -, ho, f', _, _, _, rfl, -, ⟨_, -, hf'⟩, _, c', _, _, rfl, -,
    hd, -⟩ := hz
  obtain ⟨r, _, r', rfl, hr, -, hdash⟩ := spells_around.mp hd
  obtain ⟨rfl, -⟩ := spells_literal.mp hdash
  have hdigits := (spells_digits hf').2
  -- the dash is the only one on either side, so what stands before it is the same
  have hcut : (v ++ (Text.ofString " " ++ f)) ++ 0x2d :: c = (s ++ (o ++ (f' ++ r))) ++ 0x2d :: (r' ++ c') := by
    rw [show Text.ofString "-" = [0x2d] from rfl] at hbehind
    simpa using hbehind.symm
  have hfront {ks : Text} (hks : nameByte.avoids ks = true) :
      (v ++ (Text.ofString " " ++ f)).countP (· ∈ ks) = 0 := by
    refine countP_of_avoids hks fun b hb => ?_
    simp only [List.mem_append] at hb
    rcases hb with hb | hb | hb
    · exact hbytes b hb
    · exact holds_nameByte.mpr (.inr (allSpace_blank b hb))
    · exact holds_nameByte.mpr (.inl (Text.isWord_of_isDigit (hf.digits b hb)))
  have hdashes : (s ++ (o ++ (f' ++ r))).countP (· ∈ Text.ofString "-") = 0 := by
    have hoptional := ho.countP (by rfl : (Pattern.optional (.seq (.literal "/") spaces)).marks? "-" = some 0)
    have hfloor := hf'.countP (by rfl : digits.marks? "-" = some 0)
    simp [gap_dash.countP_space hs, gap_dash.countP_space hr, hoptional, hfloor]
  obtain ⟨hsplit, -⟩ := Text.cut_of_countP_left (k := (· ∈ Text.ofString "-")) (by rfl) (by rfl)
    ((hfront (by rfl)).trans hdashes.symm) hcut
  -- what stands before the dash has no slash, so the part with a slash is left out
  rcases ho with ⟨_, _, _, _, rfl, -, hslash, -⟩ | ⟨rfl, -⟩
  · obtain ⟨rfl, -⟩ := spells_literal.mp hslash
    have hslashes : List.countP (· ∈ Text.ofString "/") _ = 0 := hfront (by rfl)
    rw [hsplit, List.countP_eq_zero] at hslashes
    exact hslashes 0x2f (by simp [show Text.ofString "/" = [0x2f] from rfl]) (by rfl)
  · have hend : ∀ b ∈ (v ++ (Text.ofString " " ++ f)).getLast?, Text.isSpace b = false := by
      rw [← List.append_assoc, List.getLast?_append_of_ne_nil _ hf.ne_nil]
      exact hf.bounded.last_not_space
    have hspaced : (s ++ f') ++ r = (v ++ (Text.ofString " " ++ f)) ++ [] := by simpa using hsplit.symm
    obtain ⟨e, he, hnil⟩ := Text.eq_append_of_space hend hr hspaced
    obtain ⟨rfl, -⟩ := List.append_eq_nil_iff.mp hnil.symm
    exact floor_behind hlast hne hs hdigits (by simpa using he.symm)

/-- The alias of a subsystem ends before the white space in front of the range. -/
theorem reads_alias {a f c : Text} (ha : a.IsName) (hf : f.IsDigits) (hc : c.IsDigits) :
    (Pattern.seq (.group "alias" reluctantName) range).Reads (a ++ (" " ++ (f ++ ("-" ++ c))))
      [⟨"alias", a⟩, ⟨"floor", f⟩, ⟨"ceiling", c⟩] := by
  have hrange := reads_range hf hc
  have halias : (group "alias" reluctantName).Holds a [⟨"alias", a⟩] :=
    .group rfl rfl ha.toBounded ⟨[], spells_name ha true⟩
  obtain ⟨us, hus⟩ := halias.spelled
  refine @Reads.seq_of_ways _ _ _ [⟨"alias", a⟩] _ rfl (by rfl) ⟨a, _, us, rfl, hus, hrange⟩ ?_
  intro whole pos hdrop earlier w later hways hnone hes
  obtain ⟨es, hes⟩ := hes
  obtain ⟨htext, hw⟩ := @ways_spelled _ whole pos w (by rw [hdrop, hways]; simp)
  rw [hdrop] at htext
  have hlower := range_behind ha hf hes htext.symm
  -- The way that takes the alias is there, and it is not one of those before.
  obtain ⟨v, hv, hvtaken, hvrest⟩ := hus.exists_way rfl pos (" " ++ (f ++ ("-" ++ c)))
  have hupper : w.taken.length ≤ a.length := by
    have hsorted := ways_reluctantName_ascending "alias" pos (a ++ (" " ++ (f ++ ("-" ++ c))))
    rw [hways] at hv hsorted
    rcases List.mem_append.mp hv with hv | hv
    · obtain ⟨ds, hds⟩ := hrange.spells
      exact absurd (hvrest ▸ hds) (hnone v hv ds)
    · rcases List.mem_cons.mp hv with rfl | hv
      · rw [hvtaken]
      · rw [← hvtaken]
        exact List.rel_of_pairwise_cons (List.pairwise_append.mp hsorted).2.1 hv
  obtain ⟨htaken, hrest⟩ := List.append_inj htext (Nat.le_antisymm hupper hlower)
  refine ⟨?_, hrest ▸ hrange⟩
  exact halias.captures [] _ Text.allSpace_nil (by rwa [List.append_nil, ← htaken])

def barred : Pattern :=
  .all [.literal "|", spaces, nameText]

theorem bounded_join {sep x : Text} {xs : List Text} (h : ∀ y ∈ x :: xs, y.Bounded) :
    (Text.join sep (x :: xs)).Bounded := by
  induction xs generalizing x with
  | nil => simpa [Text.join, List.intercalate] using h x List.mem_cons_self
  | cons y ys ih =>
      have hrest := ih fun z hz => h z (List.mem_cons_of_mem x hz)
      rw [Text.join_cons_cons]
      exact (h x List.mem_cons_self).append sep hrest

theorem spells_barred {x s : Text} (hx : x.IsName) (hs : s.AllSpace) : barred.Spells ("| " ++ (x ++ s)) [] :=
  ⟨"|", " " ++ (x ++ s), [], [], rfl, rfl, spells_literal.mpr ⟨rfl, rfl⟩, " ", x ++ s, [], [], rfl, rfl,
    ⟨allSpace_blank, rfl⟩, x ++ s, [], [], [], by simp, rfl, spells_name_append hx hs, rfl, rfl⟩

theorem spells_many_barred {x : Text} {xs : List Text} (h : ∀ y ∈ x :: xs, y.IsName) :
    (Pattern.many barred).Spells ("| " ++ Text.join " | " (x :: xs)) [] := by
  induction xs generalizing x with
  | nil =>
      have hx := spells_barred (h x List.mem_cons_self) Text.allSpace_nil
      exact ⟨[(Text.ofString "| " ++ (x ++ []), [])], by simp, by simp [Text.join, List.intercalate], rfl,
        by simpa using hx⟩
  | cons y ys ih =>
      obtain ⟨parts, -, htext, hcaptures, hall⟩ := ih fun z hz => h z (List.mem_cons_of_mem x hz)
      refine ⟨(Text.ofString "| " ++ (x ++ Text.ofString " "), []) :: parts, by simp, ?_, hcaptures, ?_⟩
      · rw [List.flatMap_cons, ← htext, Text.join_cons_cons]
        simp only [List.append_assoc]
        rfl
      · intro part hpart
        rcases List.mem_cons.mp hpart with rfl | hpart
        · exact spells_barred (h x List.mem_cons_self) allSpace_blank
        · exact hall part hpart

theorem reads_subclasses {x y : Text} {ys : List Text} (h : ∀ z ∈ x :: y :: ys, z.IsName) :
    (Pattern.group "subclasses" (.seq nameText (.many barred))).Reads (Text.join " | " (x :: y :: ys))
      [⟨"subclasses", Text.join " | " (x :: y :: ys)⟩] := by
  refine (Holds.group (by rfl) (by rfl) (bounded_join fun z hz => (h z hz).toBounded) ⟨[], ?_⟩).reads
  have hrest := spells_many_barred fun z hz => h z (List.mem_cons_of_mem x hz)
  refine ⟨x ++ " ", _, [], [], ?_, rfl, spells_name_append (h x List.mem_cons_self) allSpace_blank, hrest⟩
  rw [Text.join_cons_cons, List.append_assoc]
  rfl

theorem bar_not_mem {x s s' : Text} (hx : x.IsName) (hs : s.AllSpace) (hs' : s'.AllSpace) :
    0x7c ∉ s ++ (x ++ s') := by
  have hbar : nameByte.holds 0x7c = false := by decide
  intro hmem
  rw [← Bool.not_eq_true, holds_nameByte] at hbar
  simp only [List.mem_append] at hmem
  rcases hmem with hb | hb | hb
  · exact hbar (.inr (hs _ hb))
  · exact hbar (hx.bytes _ hb)
  · exact hbar (.inr (hs' _ hb))

theorem splitAround_join {x : Text} {xs : List Text} (h : ∀ y ∈ x :: xs, y.IsName) {s : Text} (hs : s.AllSpace) :
    (Text.splitAround "|" (s ++ Text.join " | " (x :: xs))).map Text.trim = x :: xs := by
  have hx := h x List.mem_cons_self
  induction xs generalizing x s with
  | nil =>
      have hbar := bar_not_mem hx hs Text.allSpace_nil
      have hnone : Text.cut "|" (s ++ (x ++ [])) = none := Text.cut_eq_none_of_not_mem List.mem_cons_self hbar
      rw [show Text.join " | " [x] = x ++ [] by simp [Text.join, List.intercalate], Text.splitAround, hnone]
      simpa using hx.trim_between hs Text.allSpace_nil
  | cons y ys ih =>
      have hcut : Text.cut "|" (s ++ Text.join " | " (x :: y :: ys)) =
          some (s ++ (x ++ " "), " " ++ Text.join " | " (y :: ys)) := by
        have hbar := Text.cut_byte (bar_not_mem hx hs allSpace_blank) (" " ++ Text.join " | " (y :: ys))
        rw [Text.join_cons_cons]
        simp only [List.append_assoc] at hbar
        exact hbar
      rw [Text.splitAround, hcut]
      simp only
      rw [if_pos, List.map_cons, hx.trim_between hs allSpace_blank,
        ih (fun z hz => h z (List.mem_cons_of_mem x hz)) allSpace_blank (h y (by simp))]
      simp only [Text.join_cons_cons, List.length_append]
      have : (Text.ofString " | ").length = 3 := rfl
      have : (Text.ofString " ").length = 1 := rfl
      omega

theorem split_join {x : Text} {xs : List Text} (h : ∀ y ∈ x :: xs, y.IsName) :
    Capture.split "|" (Text.join " | " (x :: xs)) = x :: xs := by
  have hsplit := splitAround_join h Text.allSpace_nil
  rw [Capture.split, show (Text.ofString "|").isEmpty = false from rfl]
  simp only [Bool.false_eq_true, if_false]
  rw [List.nil_append] at hsplit
  rw [hsplit, List.filter_eq_self.mpr]
  intro y hy
  simpa using (h y hy).ne_nil

theorem splitAround_head {sep : Text} {w : UInt8} {t : Text} (h : ¬ sep.isPrefixOf (w :: t)) :
    ∃ u rest, Text.splitAround sep (w :: t) = (w :: u) :: rest := by
  rw [Text.splitAround]
  split
  next => exact ⟨t, [], rfl⟩
  next piece rest hcut =>
      rw [Text.cut_cons, if_neg h] at hcut
      obtain ⟨⟨u, _⟩, -, ⟨⟩⟩ := Option.map_eq_some_iff.mp hcut
      split
      next => exact ⟨u, _, rfl⟩
      next => exact ⟨t, [], rfl⟩

theorem split_ne_nil {w : UInt8} (hw : Text.isWord w = true) (t : Text) : Capture.split "|" (w :: t) ≠ [] := by
  have hbar : ¬ (Text.ofString "|").isPrefixOf (w :: t) := by
    rw [show Text.ofString "|" = [0x7c] from rfl]
    intro hprefix
    obtain rfl : 0x7c = w := by simpa using hprefix
    cases hw
  obtain ⟨u, rest, hsplit⟩ := splitAround_head hbar
  obtain ⟨u', htrim⟩ := Text.trim_cons_of_isWord hw u
  rw [Capture.split, show (Text.ofString "|").isEmpty = false from rfl]
  simp only [Bool.false_eq_true, if_false, hsplit, List.map_cons, htrim]
  simp

theorem forms_kind_subclasses : ∀ f ∈ forms, f.kind = .subclasses → f = subclassesForm := by
  intro f hf hk
  simp only [forms, List.mem_cons, List.not_mem_nil, or_false] at hf
  rcases hf with rfl | rfl | rfl | rfl | rfl | rfl | rfl | rfl | rfl | rfl | rfl
  all_goals first | rfl | exact absurd hk (by decide)

/-- A line of subclasses is captured as a whole, and names at least one. -/
theorem captures_subclasses {home text : Text} {m : Matched} (hm : matchLine home text = .ok m)
    (hk : m.form.kind = .subclasses) : m.form = subclassesForm ∧
      ∃ t, m.captures = [⟨"subclasses", t⟩] ∧ Capture.split "|" t ≠ [] := by
  have hform := forms_kind_subclasses _ (mem_forms_of_matchLine hm).1 hk
  obtain ⟨-, p, hp, raw, hspells, hcs⟩ := matchLine_spells hm
  rw [hform] at hp
  cases List.mem_singleton.mp hp
  obtain ⟨inner, rfl, hinner⟩ := hspells
  have hnil : inner = [] := hinner.eq_nil rfl
  subst hnil
  refine ⟨hform, text.trim, hcs, ?_⟩
  obtain ⟨t₁, t₂, cs₁, cs₂, rfl, -, hname, -⟩ := hinner
  obtain ⟨w, hw, hword⟩ := spells_nameText_head hname
  obtain ⟨rest, rfl⟩ := List.head?_eq_some_iff.mp hw
  obtain ⟨t', htrim⟩ := Text.trim_cons_of_isWord hword (rest ++ t₂)
  rw [List.cons_append, htrim]
  exact split_ne_nil hword t'

end Population.Statement

import Population.Proofs.Model.Consistency
import Population.Proofs.Model.Identifier

namespace Population

namespace Identifier

/-- Whether a tag names the identifier of a number: `I` alone names the first, and otherwise each digit after it names
one. -/
def names (tag : Text) (n : Nat) : Bool :=
  match tag.trim with
  | [0x49] => n == 1
  | 0x49 :: digits => digits.any (·.toNat == 0x30 + n)
  | _ => false

/-- A group has the attributes that are tagged, given with their tags in the order of their lines. -/
structure Records (g : Group) (lines : List (Text × Text)) : Prop where
  bound : ∀ line ∈ lines, ∀ n, names line.2 n → n ≤ g.length
  highest : g ≠ [] → ∃ line ∈ lines, names line.2 g.length
  attributes : ∀ index, g[index]?.getD [] =
    ((lines.filter fun line => names line.2 (index + 1)).map (·.1)).eraseDups
  unreserved : ∀ attrs ∈ g, placeholder ∉ attrs

theorem eraseDups_snoc (l : List Text) (x : Text) : (l ++ [x]).eraseDups = put x l.eraseDups := by
  by_cases h : x ∈ l <;> simp [List.eraseDups_append, List.removeAll, List.eraseDups_cons, put, h]

variable {attr : Text} {g : Group} {index n : Nat}

theorem length_addAt (attr : Text) (index : Nat) (g : Group) :
    (addAt attr index g).length = max g.length (index + 1) := by
  induction index generalizing g with
  | zero =>
      cases g with
      | nil => rfl
      | cons => simp [addAt]
  | succ index ih => cases g <;> simp [addAt, ih]

variable {numbers : List Int}

theorem length_addAll (attr : Text) (g : Group) (bound : Nat) (hpos : ∀ k ∈ numbers, 1 ≤ k) :
    (numbers.foldl (fun g k => addAt attr (k - 1).toNat g) g).length ≤ bound ↔
      g.length ≤ bound ∧ ∀ k ∈ numbers, k ≤ bound := by
  induction numbers generalizing g with
  | nil => simp
  | cons k rest ih =>
      obtain ⟨hk, hrest⟩ := List.forall_mem_cons.mp hpos
      have hreach : (k - 1).toNat + 1 ≤ bound ↔ k ≤ bound := by omega
      rw [List.foldl_cons, ih _ hrest, length_addAt, Nat.max_le, hreach, List.forall_mem_cons, and_assoc]

theorem length_addAll_cases (attr : Text) (g : Group) (hpos : ∀ k ∈ numbers, 1 ≤ k) :
    ((numbers.foldl (fun g k => addAt attr (k - 1).toNat g) g).length : Int) ∈ numbers ∨
      (numbers.foldl (fun g k => addAt attr (k - 1).toNat g) g).length = g.length := by
  induction numbers generalizing g with
  | nil => exact .inr rfl
  | cons k rest ih =>
      obtain ⟨hk, hrest⟩ := List.forall_mem_cons.mp hpos
      rw [List.foldl_cons, List.mem_cons]
      rcases ih (addAt attr (k - 1).toNat g) hrest with hlater | hkept
      · exact .inl (.inr hlater)
      · rw [hkept, length_addAt]
        by_cases hhigh : k ≤ g.length
        · right
          omega
        · left
          left
          omega

theorem digit_ok_iff {tag : Text} {b : UInt8} (h : ∃ k, digit tag b = .ok k) :
    digit tag b = .ok (n : Int) ↔ b.toNat = 0x30 + n := by
  obtain ⟨k, hk⟩ := h
  obtain ⟨hlow, -⟩ := Analyzer.digit_range hk
  have hvalue : k = b.toNat - 0x30 := by
    rw [digit] at hk
    split at hk
    next => cases hk
    next =>
        split at hk
        next => cases hk
        next =>
            cases hk
            rfl
  rw [hk, Except.ok.injEq]
  omega

theorem parseTag_names {tag : Text} (h : parseTag tag = .ok numbers) : (n : Int) ∈ numbers ↔ names tag n := by
  rw [parseTag] at h
  split at h
  next htag =>
      cases h
      simp only [names, htag, List.mem_singleton, beq_iff_eq]
      omega
  next digits hmore htag =>
      have hnames : names tag n = digits.any (·.toNat == 0x30 + n) := by
        cases digits with
        | nil => exact absurd rfl hmore
        | cons d ds => simp only [names, htag]
      obtain ⟨ks, hks, h⟩ := bind_ok_iff.mp h
      cases pure_ok_iff.mp h
      have hread := mapM_ok_iff.mp hks
      simp only [hnames, List.mem_mergeSort, List.mem_eraseDups, List.any_eq_true, beq_iff_eq]
      constructor
      · intro hn
        obtain ⟨b, hb, hdigit⟩ := partner_of_right hread hn
        exact ⟨b, hb, (digit_ok_iff ⟨_, hdigit⟩).mp hdigit⟩
      · rintro ⟨b, hb, hvalue⟩
        obtain ⟨k, hk, hdigit⟩ := partner_of_left hread hb
        have hn := (digit_ok_iff ⟨k, hdigit⟩).mpr hvalue
        rw [hdigit] at hn
        rwa [← Except.ok.inj hn]
  next => cases h

theorem names_nil (n : Nat) : names [] n = false := by
  rw [names, show Text.trim [] = [] from by decide +kernel]

theorem records_nil : Records [] [] :=
  ⟨nofun, fun h => absurd rfl h, fun _ => rfl, nofun⟩

namespace Records

variable {lines : List (Text × Text)} {tag : Text}

/-- A line whose tag names nothing leaves no trace. -/
theorem unnamed (h : Records g lines) (htag : ∀ n, names tag n = false) : Records g (lines ++ [(attr, tag)]) := by
  constructor
  · intro line hline n hn
    rcases List.mem_append.mp hline with hline | hline
    · exact h.bound line hline n hn
    · rw [List.mem_singleton.mp hline, htag] at hn
      cases hn
  · intro hne
    obtain ⟨line, hline, hn⟩ := h.highest hne
    exact ⟨line, List.mem_append_left _ hline, hn⟩
  · intro index
    rw [h.attributes, List.filter_append, List.filter_cons_of_neg (by simp [htag]), List.filter_nil, List.append_nil]
  · exact h.unreserved

/-- The lines of a group after the tag of one more line is merged into it. -/
theorem addAll (h : Records g lines) (hattr : attr ≠ placeholder) (hpos : ∀ k ∈ numbers, 1 ≤ k)
    (hnames : ∀ n : Nat, (n : Int) ∈ numbers ↔ names tag n) :
    Records (numbers.foldl (fun g k => Identifier.addAt attr (k - 1).toNat g) g) (lines ++ [(attr, tag)]) := by
  -- the group afterwards is known by its length and by what stands at each index
  obtain ⟨hgrows, hreached⟩ := (length_addAll attr g _ hpos).mp (Nat.le_refl _)
  have hhighest := length_addAll_cases attr g hpos
  have hslot (index : Nat) := getD_addAll attr g index hpos
  generalize numbers.foldl (fun g k => Identifier.addAt attr (k - 1).toNat g) g = g' at hgrows hreached hhighest hslot
  constructor
  · intro line hline n hn
    rcases List.mem_append.mp hline with hline | hline
    · exact Nat.le_trans (h.bound line hline n hn) hgrows
    · rw [List.mem_singleton.mp hline] at hn
      exact Int.ofNat_le.mp (hreached n ((hnames n).mpr hn))
  · intro hne
    rcases hhighest with hnew | hold
    · exact ⟨(attr, tag), by simp, (hnames _).mp hnew⟩
    · have hg : g ≠ [] := by
        rintro rfl
        exact hne (List.length_eq_zero_iff.mp hold)
      obtain ⟨line, hline, hn⟩ := h.highest hg
      exact ⟨line, List.mem_append_left _ hline, hold ▸ hn⟩
  -- the attributes at an index get one more if the tag names it
  · intro index
    rw [hslot, List.filter_append, List.map_append, h.attributes]
    by_cases hnamed : names tag (index + 1) = true
    · have hone : [(attr, tag)].filter (fun line => names line.2 (index + 1)) = [(attr, tag)] := by simp [hnamed]
      rw [if_pos ((hnames _).mpr hnamed), hone, List.map_singleton, eraseDups_snoc]
    · have hnone : [(attr, tag)].filter (fun line => names line.2 (index + 1)) = [] := by simp [hnamed]
      rw [if_neg fun hmem => hnamed ((hnames _).mp hmem), hnone, List.map_nil, List.append_nil]
  · refine (forall_mem_iff_getD List.not_mem_nil).mpr fun index => ?_
    have hold : placeholder ∉ g[index]?.getD [] := (forall_mem_iff_getD List.not_mem_nil).mp h.unreserved index
    rw [hslot]
    split
    next =>
        rw [mem_put]
        rintro (hmem | he)
        · exact hold hmem
        · exact hattr he.symm
    next => exact hold

end Records

end Identifier

namespace Analyzer

open Identifier

theorem tagged_records {c : ModelClass} {attr tag : Text} {group : Group} {lines : List (Text × Text)}
    (h : tagged c attr tag = .ok group) (hc : Records c.identifiers lines) :
    Records group (lines ++ [(attr, tag)]) := by
  rw [tagged] at h
  split at h
  next => cases h
  next hattr =>
      split at h
      next hempty =>
          cases h
          rw [List.isEmpty_iff.mp hempty]
          exact hc.unnamed names_nil
      next =>
          split at h
          next => cases h
          next numbers hnumbers =>
              have hmerge := mapError_ok_iff.mp h
              rw [merge, if_neg hattr] at hmerge
              split at hmerge
              next => cases hmerge
              next hfind =>
                  cases hmerge
                  have hpos : ∀ k ∈ numbers, 1 ≤ k := by simpa using List.find?_eq_none.mp hfind
                  exact hc.addAll hattr hpos fun n => parseTag_names hnumbers

theorem passing_kinds : ∀ kind ∈ passing,
    kind ≠ some .domain ∧ kind ≠ some .ownAttribute ∧ kind ≠ some .reference := by
  decide

/-- A model, and the statements that it has accepted since its domain was named. -/
structure Reading where
  analyzer : Analyzer
  accepted : List Statement

def Reading.next (r : Reading) (action : Action) : Reading where
  analyzer := r.analyzer.perform action
  accepted := match action with
    | .finalize => r.accepted
    | .handle st =>
      if (r.analyzer.handle st).2.isSome then r.accepted
      else if st.kind = some .domain then []
      else r.accepted ++ [st]

def read (actions : List Action) : Reading :=
  actions.foldl Reading.next ⟨idle, []⟩

/-- The attributes and references that stand in a class, each with its tag. -/
def linesOf (cls : Text) (sts : List Statement) : List (Text × Text) :=
  (sts.filter fun st => (st.kind = some .ownAttribute ∨ st.kind = some .reference) ∧
    st.scope.text .innerClass = cls).map fun st => (st.text "name", st.text "id")

theorem linesOf_snoc_other {cls : Text} {sts : List Statement} {st : Statement}
    (h : (st.kind = some .ownAttribute ∨ st.kind = some .reference) → st.scope.text .innerClass ≠ cls) :
    linesOf cls (sts ++ [st]) = linesOf cls sts := by
  have hnone : ¬ ((st.kind = some .ownAttribute ∨ st.kind = some .reference) ∧ st.scope.text .innerClass = cls) :=
    fun ⟨hkind, hcls⟩ => h hkind hcls
  simp [linesOf, hnone]

theorem linesOf_snoc {cls : Text} {sts : List Statement} {st : Statement}
    (hkind : st.kind = some .ownAttribute ∨ st.kind = some .reference) (hcls : st.scope.text .innerClass = cls) :
    linesOf cls (sts ++ [st]) = linesOf cls sts ++ [(st.text "name", st.text "id")] := by
  simp [linesOf, hkind, hcls]

theorem linesOf_eq_nil {cls : Text} {sts : List Statement} (h : ∀ st ∈ sts,
    (st.kind = some .ownAttribute ∨ st.kind = some .reference) → st.scope.text .innerClass ≠ cls) :
    linesOf cls sts = [] := by
  have hnone : sts.filter (fun st => (st.kind = some .ownAttribute ∨ st.kind = some .reference) ∧
      st.scope.text .innerClass = cls) = [] := by
    apply List.filter_eq_nil_iff.mpr
    intro st hst hkeep
    obtain ⟨hkind, hcls⟩ := of_decide_eq_true hkeep
    exact h st hst hkind hcls
  rw [linesOf, hnone, List.map_nil]

/-- The classes have what the accepted statements tag, and these stand in classes. -/
structure Tallied (a : Analyzer) (accepted : List Statement) : Prop where
  orderly : a.Orderly
  home : ∀ st ∈ accepted, (st.kind = some .ownAttribute ∨ st.kind = some .reference) →
    st.scope.text .innerClass ∈ a.classes.map (·.name)
  records : ∀ c ∈ a.classes, Records c.identifiers (linesOf c.name accepted)

namespace Tallied

variable {a a' : Analyzer} {accepted : List Statement} {st : Statement} (h : Tallied a accepted)
include h

theorem congr (ha : a'.Orderly) (hclasses : a'.classes = a.classes) : Tallied a' accepted :=
  ⟨ha, by rw [hclasses]; exact h.home, by rw [hclasses]; exact h.records⟩

theorem other (hkind : st.kind ≠ some .ownAttribute ∧ st.kind ≠ some .reference) : Tallied a (accepted ++ [st]) := by
  have hnot : ¬ (st.kind = some .ownAttribute ∨ st.kind = some .reference) := by
    rintro (hown | href)
    · exact hkind.1 hown
    · exact hkind.2 href
  refine ⟨h.orderly, ?_, ?_⟩
  · intro x hx hx'
    rcases List.mem_append.mp hx with hx | hx
    · exact h.home x hx hx'
    · rw [List.mem_singleton.mp hx] at hx'
      exact absurd hx' hnot
  · intro c hc
    rw [linesOf_snoc_other fun hkind => absurd hkind hnot]
    exact h.records c hc

/-- No accepted line stands in a class before that is declared. -/
theorem classDef {c : ModelClass} (hnew : a.class? c.name = none) (hc : c.identifiers = []) :
    Tallied { a with classes := a.classes ++ [c] } accepted := by
  have hfresh : c.name ∉ a.classes.map (·.name) := by
    rw [← isSome_class?_iff, hnew]
    simp
  refine ⟨h.orderly.classDef hnew, ?_, ?_⟩
  · intro st hst hkind
    rw [List.map_append]
    exact List.mem_append_left _ (h.home st hst hkind)
  · intro d hd
    rcases List.mem_append.mp hd with hd | hd
    · exact h.records d hd
    · rw [List.mem_singleton.mp hd, hc, linesOf_eq_nil]
      · exact records_nil
      · rintro st hst hkind he
        exact hfresh (he ▸ h.home st hst hkind)

theorem tagged {c : ModelClass} {group : Group} (hkind : st.kind = some .ownAttribute ∨ st.kind = some .reference)
    (hc : a.currentClass st = .ok c) (hg : Analyzer.tagged c (st.text "name") (st.text "id") = .ok group) :
    Tallied (a.setIdentifiers c.name group) (accepted ++ [st]) := by
  obtain ⟨hclass, hscope, -⟩ := currentClass_ok hc
  have hnames := map_name_setIdentifiers a c.name group
  refine ⟨h.orderly.setIdentifiers c.name group, ?_, ?_⟩
  · intro x hx hx'
    rw [hnames]
    rcases List.mem_append.mp hx with hx | hx
    · exact h.home x hx hx'
    · rw [List.mem_singleton.mp hx, hscope, ← isSome_class?_iff, hclass]
      rfl
  · intro d hd
    obtain ⟨d, hmem, rfl⟩ := List.mem_map.mp hd
    by_cases hname : d.name = c.name
    · obtain rfl : d = c := by
        have hfound : a.class? c.name = some d := (find?_key_iff h.orderly.classes).mpr ⟨hmem, hname⟩
        rw [hclass] at hfound
        exact (Option.some.inj hfound).symm
      rw [if_pos rfl, linesOf_snoc hkind hscope]
      exact tagged_records hg (h.records d hmem)
    · rw [if_neg hname, linesOf_snoc_other fun _ he => hname (he.symm.trans hscope)]
      exact h.records d hmem

end Tallied

theorem Tallied.next {r : Reading} (h : Tallied r.analyzer r.accepted) (action : Action) :
    Tallied (r.next action).analyzer (r.next action).accepted := by
  cases action with
  | finalize =>
      refine h.congr h.orderly.finalize ?_
      rcases finalize_state r.analyzer with ⟨-, hfinal⟩ | ⟨-, hfinal⟩ <;> rw [Reading.next, perform, hfinal]
  | handle st =>
      have hhandled := handle_handled r.analyzer st
      have horderly := h.orderly.handle st
      simp only [Reading.next, perform]
      generalize (r.analyzer.handle st).1 = a', (r.analyzer.handle st).2 = e at hhandled horderly
      -- an accepted statement joins the others, whether it tags something or not, unless it opens a new domain
      have hrecords (hdomain : st.kind ≠ some .domain) (ht : Tallied a' (r.accepted ++ [st])) :
          Tallied a' (if (none : Option AnalysisError).isSome then r.accepted
            else if st.kind = some .domain then [] else r.accepted ++ [st]) := by
        simpa [hdomain] using ht
      cases hhandled with
      | refused e => exact h
      | untagged => exact h.congr horderly rfl
      | domain hkind =>
          simp only [Option.isSome_none, Bool.false_eq_true, if_false, hkind, if_true]
          exact ⟨horderly, nofun, nofun⟩
      | passed hkind =>
          obtain ⟨hdomain, hline⟩ := passing_kinds st.kind hkind
          exact hrecords hdomain (h.other hline)
      | subsystem hkind => exact hrecords (by simp [hkind]) ((h.congr horderly rfl).other (by simp [hkind]))
      | classDef hkind number hnew => exact hrecords (by simp [hkind]) ((h.classDef hnew rfl).other (by simp [hkind]))
      | relationship hkind =>
          have hnot : st.kind ≠ some .domain ∧ st.kind ≠ some .ownAttribute ∧ st.kind ≠ some .reference := by
            rcases hkind with hkind | hkind <;> simp [hkind]
          exact hrecords hnot.1 ((h.congr horderly rfl).other hnot.2)
      | ownAttribute hkind hc hg => exact hrecords (by simp [hkind]) (h.tagged (.inl hkind) hc hg)
      | reference hkind rnum hc ht hg =>
          have hreferring := h.congr (h.orderly.referring_class hc rnum ht) rfl
          exact hrecords (by simp [hkind]) (hreferring.tagged (.inr hkind) hc hg)

theorem read_tallied (actions : List Action) : Tallied (read actions).analyzer (read actions).accepted := by
  have hrun (r : Reading) (h : Tallied r.analyzer r.accepted) :
      Tallied (actions.foldl Reading.next r).analyzer (actions.foldl Reading.next r).accepted := by
    induction actions generalizing r with
    | nil => exact h
    | cons action rest ih => exact ih (r.next action) (h.next action)
  exact hrun ⟨idle, []⟩ ⟨orderly_idle, nofun, nofun⟩

theorem read_analyzer (actions : List Action) : (read actions).analyzer = reach actions := by
  have hrun (r : Reading) : (actions.foldl Reading.next r).analyzer = actions.foldl perform r.analyzer := by
    induction actions generalizing r with
    | nil => rfl
    | cons action rest ih => exact ih (r.next action)
  exact hrun ⟨idle, []⟩

theorem handle_refused {a : Analyzer} {st : Statement} {e : AnalysisError} (h : (a.handle st).2 = some e) :
    (a.handle st).1.classes = a.classes := by
  have hhandled := handle_handled a st
  rw [h] at hhandled
  generalize (a.handle st).1 = a' at hhandled
  cases hhandled with
  | refused | untagged => rfl

/-- The identifiers of every class have exactly what its accepted lines tag, and a refused statement changes none. -/
theorem reach_groups (actions : List Action) :
    (∀ c ∈ (reach actions).classes, Records c.identifiers (linesOf c.name (read actions).accepted)) ∧
    ∀ st e, ((reach actions).handle st).2 = some e →
      ((reach actions).handle st).1.classes = (reach actions).classes := by
  have h := read_tallied actions
  rw [read_analyzer] at h
  exact ⟨h.records, fun st e => handle_refused⟩

def pilotLine (kind : StatementKind) (name tag : Text) : Statement where
  kind := some kind
  fields := [⟨"name", .text name⟩, ⟨"id", .text tag⟩]
  scope := ⟨some (.text "ATC"), some (.text "Air Field"), some (.text "Pilot")⟩
  origin := ⟨"atc.mi", 1, []⟩

/-- A class with attributes, the third of which is refused. -/
def pilotLines : List Action :=
  [.handle (pilotLine .domain "ATC" []), .handle (pilotLine .classDef "Pilot" []),
    .handle (pilotLine .ownAttribute "Name" "I"), .handle (pilotLine .ownAttribute "Number" "I2"),
    .handle (pilotLine .ownAttribute placeholder "I"), .handle (pilotLine .ownAttribute "Name" "I22")]

def pilotTags : List (Text × Text) :=
  [("Name", "I"), ("Number", "I2"), ("Name", "I22")]

def pilotClass : ModelClass where
  name := "Pilot"
  subsystem := "Air Field"
  number := 0
  identifiers := [["Name"], ["Number", "Name"]]
  origin := ⟨"atc.mi", 1, []⟩

theorem reach_groups_pilot : Records pilotClass.identifiers pilotTags ∧
    ((reach pilotLines).handle (pilotLine .ownAttribute "Rank" "I0")).2 = some (.identifier (.belowOne 0 "I0")) ∧
    ((reach pilotLines).handle (pilotLine .ownAttribute "Rank" "I0")).1.classes = [pilotClass] := by
  obtain ⟨hgroups, hunchanged⟩ := reach_groups pilotLines
  have hclasses : (reach pilotLines).classes = [pilotClass] := by decide +kernel
  have hlines : linesOf pilotClass.name (read pilotLines).accepted = pilotTags := by decide +kernel
  have hrefused : ((reach pilotLines).handle (pilotLine .ownAttribute "Rank" "I0")).2 =
      some (.identifier (.belowOne 0 "I0")) := by
    decide +kernel
  rw [hclasses] at hgroups hunchanged
  have hrecords := hgroups pilotClass (List.mem_singleton_self pilotClass)
  rw [hlines] at hrecords
  exact ⟨hrecords, hrefused, hunchanged _ _ hrefused⟩

end Analyzer

end Population

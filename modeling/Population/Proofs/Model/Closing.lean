import Mathlib.Data.List.Sort
import Population.Proofs.Model.Consistency
import Population.Proofs.Script.Values

namespace Population.Analyzer

variable {a : Analyzer}

def Reachable (a : Analyzer) : Prop :=
  ∃ actions, a = reach actions

/-- What is named in a domain is in the domain. -/
structure Closable (a : Analyzer) : Prop where
  dependencies : ∀ d ∈ a.dependencies, (a.subsystem? d.source).isSome ∧ (a.subsystem? d.target).isSome
  numbers : ∀ rnum, a.referencesOf rnum ≠ [] → (a.relationship? rnum).isSome
  targets : ∀ r ∈ a.references, ∃ c, a.class? r.target.cls = some c ∧
    ∀ subsystem, r.target.subsystem = some subsystem → c.subsystem = subsystem

def formalizeParams : List Text :=
  ["rnum", "ref_classes", "ref_attrs", "to_classes", "to_attrs", "constrained", "domain"]

/-- The command that formalizes a relationship lists what its references say, in the order of their lines. -/
structure Gathers (a : Analyzer) (rnum : Int) (e : Emission) : Prop where
  call : e.call = formalizeCall
  number : valueOf e.fields "rnum" = some (.ofInt rnum)
  refClasses : valueOf e.fields "ref_classes" = some (.texts ((a.referencesOf rnum).map (·.fromClass)))
  refAttrs : valueOf e.fields "ref_attrs" = some (.texts ((a.referencesOf rnum).map (·.fromAttr)))
  toClasses : valueOf e.fields "to_classes" = some (.texts ((a.referencesOf rnum).map (·.target.cls)))
  toAttrs : valueOf e.fields "to_attrs" = some (.texts ((a.referencesOf rnum).map (·.target.attr)))
  constrained : valueOf e.fields "constrained" =
    if ∃ r ∈ a.referencesOf rnum, r.constrained = true then some (.bool true) else none
  domain : valueOf e.fields "domain" = some (.text a.domain)
  params : (e.fields.map (·.name)).Sublist formalizeParams
  origin : (a.referencesOf rnum).head?.map (·.origin) = some e.origin

/-- The attributes of a group with the numbers of their identifiers: by number, and those of a number as they are
stored. -/
structure Numbers (g : Identifier.Group) (tags : List (Nat × Text)) : Prop where
  ascending : tags.Pairwise fun x y => x.1 ≤ y.1
  positive : ∀ x ∈ tags, 1 ≤ x.1
  stored : ∀ index, (tags.filter (·.1 = index + 1)).map (·.2) = g[index]?.getD []

/-- A command about an attribute of an identifier of a class. -/
def Concerns (a : Analyzer) (c : ModelClass) (call : Text) (tag : Nat × Text) (e : Emission) : Prop :=
  e = ⟨call, [⟨"class", .text c.name⟩, ⟨"id_num", .ofInt tag.1⟩, ⟨"attr", .text tag.2⟩, ⟨"domain", .text a.domain⟩],
    c.origin⟩

/-- The commands that identify a class: one for each attribute of each identifier, and one for the placeholder. -/
def Identifies (a : Analyzer) (c : ModelClass) (es : List Emission) : Prop :=
  ∃ tags added removed, es = added ++ [removed] ∧ Numbers c.identifiers tags ∧
    List.Forall₂ (a.Concerns c addIdCall) tags added ∧ a.Concerns c removeIdCall (1, Identifier.placeholder) removed

/-- The commands that are derived from a domain: one for each relationship with references, by number, and then those
of each class, in the order of their lines. -/
def Derives (a : Analyzer) (es : List Emission) : Prop :=
  ∃ rnums rels ids, es = rels ++ ids.flatten ∧
    rnums.Pairwise (· < ·) ∧ (∀ rnum, rnum ∈ rnums ↔ a.referencesOf rnum ≠ []) ∧
    List.Forall₂ a.Gathers rnums rels ∧ List.Forall₂ a.Identifies a.classes ids

section Dependencies

variable {g g' : Graph} {d : Dependency} {ds : List Dependency}

theorem connect_cons_iff : connect g (d :: ds) = (g', none) ↔
    (d.source ≠ d.target ∧ d.source ∈ g.nodes ∧ d.target ∈ g.nodes) ∧
      connect (g.link d.source d.target) ds = (g', none) := by
  rw [connect]
  split
  next htarget =>
      simp [htarget]
  next =>
      split
      next g'' hadded =>
          obtain ⟨hne, hsource, htarget, rfl⟩ := Graph.addEdge_ok_iff.mp hadded
          simp [hne, hsource, htarget]
      next e hrefused =>
          constructor
          · intro h
            cases h
          · rintro ⟨⟨hne, hsource, htarget⟩, -⟩
            have hadded := Graph.addEdge_ok_iff.mpr ⟨hne, hsource, htarget, rfl⟩
            rw [hrefused] at hadded
            cases hadded

theorem exists_connect_iff : (∃ g', connect g ds = (g', none)) ↔
    ∀ d ∈ ds, d.source ≠ d.target ∧ d.source ∈ g.nodes ∧ d.target ∈ g.nodes := by
  induction ds generalizing g with
  | nil => simp [connect]
  | cons d rest ih => simp only [connect_cons_iff, exists_and_left, ih, Graph.link_nodes, List.forall_mem_cons]

theorem mem_connect {e : Edge} (h : connect g ds = (g', none)) :
    e ∈ g'.edges ↔ e ∈ g.edges ∨ ∃ d ∈ ds, e = ⟨d.source, d.target⟩ := by
  induction ds generalizing g with
  | nil =>
      cases h
      simp
  | cons d rest ih =>
      obtain ⟨-, hrest⟩ := connect_cons_iff.mp h
      rw [ih hrest, Graph.mem_link, or_assoc, List.exists_mem_cons_iff]

end Dependencies

theorem checkTarget_ok_iff {r : PendingReference} : a.checkTarget r = .ok () ↔
    ∃ c, a.class? r.target.cls = some c ∧
      ∀ subsystem, r.target.subsystem = some subsystem → c.subsystem = subsystem := by
  rw [checkTarget]
  cases a.class? r.target.cls with
  | none => simp
  | some c =>
      cases r.target.subsystem with
      | none => simp
      | some subsystem => by_cases hc : c.subsystem = subsystem <;> simp [hc]

theorem formalization_values (a : Analyzer) (rnum : Int) (first : PendingReference) (refs : List PendingReference) :
    valueOf (a.formalization rnum first refs).fields "rnum" = some (.ofInt rnum) ∧
    valueOf (a.formalization rnum first refs).fields "ref_classes" = some (.texts (refs.map (·.fromClass))) ∧
    valueOf (a.formalization rnum first refs).fields "ref_attrs" = some (.texts (refs.map (·.fromAttr))) ∧
    valueOf (a.formalization rnum first refs).fields "to_classes" = some (.texts (refs.map (·.target.cls))) ∧
    valueOf (a.formalization rnum first refs).fields "to_attrs" = some (.texts (refs.map (·.target.attr))) ∧
    valueOf (a.formalization rnum first refs).fields "domain" = some (.text a.domain) := by
  refine ⟨rfl, rfl, rfl, rfl, rfl, ?_⟩
  rw [formalization]
  simp only
  split <;> rfl

theorem formalization_constrained (a : Analyzer) (rnum : Int) (first : PendingReference)
    (refs : List PendingReference) : valueOf (a.formalization rnum first refs).fields "constrained" =
      if ∃ r ∈ refs, r.constrained = true then some (.bool true) else none := by
  simp only [formalization, List.any_eq_true]
  split <;> rfl

theorem formalization_params (a : Analyzer) (rnum : Int) (first : PendingReference) (refs : List PendingReference) :
    ((a.formalization rnum first refs).fields.map (·.name)).Sublist formalizeParams := by
  simp only [formalization]
  split
  next => exact .refl formalizeParams
  next => exact .append (.refl (formalizeParams.take 5)) (List.sublist_cons_self _ _)

theorem formalization_gathers {rnum : Int} {first : PendingReference}
    (hfirst : (a.referencesOf rnum).head? = some first) :
    a.Gathers rnum (a.formalization rnum first (a.referencesOf rnum)) := by
  obtain ⟨hrnum, hrc, hra, htc, hta, hdomain⟩ := formalization_values a rnum first (a.referencesOf rnum)
  exact ⟨rfl, hrnum, hrc, hra, htc, hta, formalization_constrained .., hdomain, formalization_params .., by
    rw [hfirst]
    rfl⟩

def listed (number : Nat) : Identifier.Group → List (Nat × Text)
  | [] => []
  | attrs :: rest => attrs.map (number, ·) ++ listed (number + 1) rest

theorem zipIdx_listed (g : Identifier.Group) (i : Nat) :
    (g.zipIdx i).flatMap (fun (attrs, i) => attrs.map fun attr => (i + 1, attr)) = listed (i + 1) g := by
  induction g generalizing i with
  | nil => rfl
  | cons attrs rest ih => rw [List.zipIdx_cons, List.flatMap_cons, ih, listed]

theorem listed_ge {number : Nat} {g : Identifier.Group} : ∀ x ∈ listed number g, number ≤ x.1 := by
  induction g generalizing number with
  | nil => nofun
  | cons attrs rest ih =>
      intro x hx
      rcases List.mem_append.mp hx with hx | hx
      · obtain ⟨attr, -, rfl⟩ := List.mem_map.mp hx
        exact Nat.le_refl number
      · exact Nat.le_of_succ_le (ih x hx)

theorem listed_ascending (number : Nat) (g : Identifier.Group) :
    (listed number g).Pairwise fun x y => x.1 ≤ y.1 := by
  induction g generalizing number with
  | nil => exact .nil
  | cons attrs rest ih =>
      refine List.pairwise_append.mpr ⟨?_, ih (number + 1), ?_⟩
      · exact List.pairwise_map.mpr (List.pairwise_of_forall fun _ _ => Nat.le_refl number)
      · intro x hx y hy
        obtain ⟨attr, -, rfl⟩ := List.mem_map.mp hx
        exact Nat.le_of_succ_le (listed_ge y hy)

theorem listed_stored (number index : Nat) (g : Identifier.Group) :
    ((listed number g).filter (·.1 = number + index)).map (·.2) = g[index]?.getD [] := by
  induction g generalizing number index with
  | nil => rfl
  | cons attrs rest ih =>
      rw [listed, List.filter_append, List.map_append]
      cases index with
      | zero =>
          -- the attributes of later identifiers have higher numbers
          have hlater : (listed (number + 1) rest).filter (·.1 = number + 0) = [] := by
            apply List.filter_eq_nil_iff.mpr
            intro x hx
            have hge := listed_ge x hx
            simp
            omega
          rw [hlater]
          simp [List.filter_map, Function.comp_def]
      | succ index =>
          have hnext := ih (number + 1) index
          rw [Nat.add_right_comm] at hnext
          have hhere : (attrs.map (number, ·)).filter (·.1 = number + (index + 1)) = [] := by
            simp [List.filter_map, Function.comp_def]
          rw [hhere]
          simpa [Nat.add_assoc] using hnext

theorem listed_numbers (g : Identifier.Group) : Numbers g (listed 1 g) where
  ascending := listed_ascending 1 g
  positive := listed_ge
  stored index := by
    have h := listed_stored 1 index g
    rwa [Nat.add_comm] at h

theorem identification_identifies (c : ModelClass) : a.Identifies c (a.identification c) := by
  refine ⟨listed 1 c.identifiers, (listed 1 c.identifiers).map fun tag => idCommand addIdCall a c tag.1 tag.2,
    idCommand removeIdCall a c 1 Identifier.placeholder, ?_, listed_numbers c.identifiers, ?_, rfl⟩
  · rw [identification, ← zipIdx_listed, List.map_flatMap]
    simp only [List.map_map, Function.comp_def]
  · exact List.forall₂_map_right_iff.mpr (List.forall₂_same.mpr fun _ _ => rfl)

theorem pendingNumbers_ascending (a : Analyzer) : a.pendingNumbers.Pairwise (· < ·) := by
  have hsorted : a.pendingNumbers.Pairwise (· ≤ ·) := List.pairwise_mergeSort' (· ≤ ·) _
  have hdistinct : a.pendingNumbers.Pairwise (· ≠ ·) := a.nodup_pendingNumbers
  exact (hsorted.and hdistinct).imp fun ⟨hle, hne⟩ => lt_of_le_of_ne hle hne

theorem exists_first {rnum : Int} (h : rnum ∈ a.pendingNumbers) : ∃ first, (a.referencesOf rnum).head? = some first :=
  ⟨_, List.head?_eq_some_head (referencesOf_ne_nil_iff.mpr h)⟩

theorem exists_formalize_iff {rnum : Int} (h : rnum ∈ a.pendingNumbers) : (∃ e, a.formalize rnum = .ok e) ↔
    (a.relationship? rnum).isSome ∧ ∀ r ∈ a.referencesOf rnum, a.checkTarget r = .ok () := by
  obtain ⟨first, hfirst⟩ := exists_first h
  simp only [formalize_ok_iff hfirst, exists_and_left, exists_eq, and_true]

theorem formalize_gathers {rnum : Int} {e : Option Emission} (hrnum : rnum ∈ a.pendingNumbers)
    (h : a.formalize rnum = .ok e) : ∃ x, e = some x ∧ a.Gathers rnum x := by
  obtain ⟨first, hfirst⟩ := exists_first hrnum
  obtain ⟨-, -, rfl⟩ := (formalize_ok_iff hfirst).mp h
  exact ⟨_, rfl, formalization_gathers hfirst⟩

theorem exists_emissions_iff : (∃ es, a.emissions = .ok es) ↔
    ∀ rnum ∈ a.pendingNumbers, ∃ e, a.formalize rnum = .ok e := by
  rw [← exists_partners_iff]
  constructor
  · rintro ⟨es, h⟩
    obtain ⟨rels, hrels, -⟩ := bind_ok_iff.mp h
    exact ⟨rels, mapM_ok_iff.mp hrels⟩
  · rintro ⟨rels, hrels⟩
    exact ⟨_, bind_ok_iff.mpr ⟨rels, mapM_ok_iff.mpr hrels, rfl⟩⟩

theorem emissions_derives {es : List Emission} (h : a.emissions = .ok es) : a.Derives es := by
  obtain ⟨rels, hrels, h⟩ := bind_ok_iff.mp h
  refine ⟨a.pendingNumbers, rels.filterMap id, a.classes.map a.identification, ?_, a.pendingNumbers_ascending,
    ?_, ?_, ?_⟩
  · rw [← pure_ok_iff.mp h, List.flatMap_def]
  · exact fun rnum => referencesOf_ne_nil_iff.symm
  · exact partners_some (mapM_ok_iff.mp hrels) fun rnum hrnum e he => formalize_gathers hrnum he
  · exact List.forall₂_map_right_iff.mpr (List.forall₂_same.mpr fun c _ => identification_identifies c)

theorem Orderly.exists_connect_iff (h : a.Orderly) : (∃ graph, connect a.graph a.dependencies = (graph, none)) ↔
    ∀ d ∈ a.dependencies, (a.subsystem? d.source).isSome ∧ (a.subsystem? d.target).isSome := by
  rw [Analyzer.exists_connect_iff]
  apply forall₂_congr
  intro d hd
  obtain ⟨hne, -⟩ := h.dependencies d hd
  rw [h.nodes, isSome_subsystem?_iff, isSome_subsystem?_iff]
  exact ⟨And.right, fun hends => ⟨hne, hends⟩⟩

theorem Orderly.exists_finalize_iff (h : a.Orderly) (hactive : a.active = true) :
    (∃ es, a.finalize.2 = .ok es) ↔ a.Closable := by
  -- what is derived does not depend on the edges, so the graph can be looked at on its own
  simp only [finalize_ok_iff hactive, exists_and_left, exists_and_right]
  rw [h.exists_connect_iff, exists_emissions_iff]
  constructor
  · rintro ⟨hends, hformalized⟩
    have hpending (rnum : Int) (hne : a.referencesOf rnum ≠ []) :=
      have hrnum := referencesOf_ne_nil_iff.mp hne
      (exists_formalize_iff hrnum).mp (hformalized rnum hrnum)
    refine ⟨hends, fun rnum hne => (hpending rnum hne).1, ?_⟩
    intro r hr
    have hmem : r ∈ a.referencesOf r.rnum := mem_referencesOf.mpr ⟨hr, rfl⟩
    exact checkTarget_ok_iff.mp ((hpending r.rnum (List.ne_nil_of_mem hmem)).2 r hmem)
  · intro hclosable
    refine ⟨hclosable.dependencies, ?_⟩
    intro rnum hrnum
    refine (exists_formalize_iff hrnum).mpr ⟨hclosable.numbers rnum (referencesOf_ne_nil_iff.mpr hrnum), ?_⟩
    intro r hr
    exact checkTarget_ok_iff.mpr (hclosable.targets r (mem_referencesOf.mp hr).1)

/-- An edge is listed if it is in the graph, for its ends are nodes. -/
theorem Orderly.mem_edgeList (h : a.Orderly) (hactive : a.active = true) {graph : Graph}
    (hconnect : connect a.graph a.dependencies = (graph, none)) {e : Edge} :
    e ∈ graph.edgeList ↔ ∃ d ∈ a.dependencies, e = ⟨d.source, d.target⟩ := by
  have hnodes : graph.nodes = a.graph.nodes := by
    rw [← connect_nodes a.graph a.dependencies, hconnect]
  rw [Graph.mem_edgeList, mem_connect hconnect, h.edges hactive, hnodes]
  constructor
  · rintro ⟨-, he | he⟩
    · cases he
    · exact he
  · rintro ⟨d, hd, rfl⟩
    obtain ⟨-, hsource, -⟩ := Analyzer.exists_connect_iff.mp ⟨graph, hconnect⟩ d hd
    exact ⟨hsource, .inr ⟨d, hd, rfl⟩⟩

/-- Closing a domain succeeds if what is named in it is there, and derives what the domain says then. It leaves the
domain as it is but for its graph, and there is nothing more to close. -/
theorem finalize_exact (h : a.Reachable) (hactive : a.active = true) :
    ((∃ es, a.finalize.2 = .ok es) ↔ a.Closable) ∧
    (∀ es, a.finalize.2 = .ok es → a.Derives es ∧
      ∀ e, e ∈ a.finalize.1.graph.edgeList ↔ ∃ d ∈ a.dependencies, e = ⟨d.source, d.target⟩) ∧
    a.finalize.1 = { a with active := false, graph := a.finalize.1.graph } ∧
    a.finalize.1.finalize = (a.finalize.1, .ok []) := by
  obtain ⟨actions, rfl⟩ := h
  have horderly := reach_orderly actions
  generalize reach actions = a at horderly hactive
  have hstate : a.finalize.1 = { a with active := false, graph := (connect a.graph a.dependencies).1 } := by
    rcases finalize_state a with ⟨hidle, -⟩ | ⟨-, hclosed⟩
    · rw [hactive] at hidle
      cases hidle
    · exact hclosed
  refine ⟨horderly.exists_finalize_iff hactive, ?_, ?_, ?_⟩
  · intro es hes
    obtain ⟨graph, hconnect, hemissions⟩ := (finalize_ok_iff hactive).mp hes
    refine ⟨emissions_derives hemissions, fun e => ?_⟩
    rw [hstate, hconnect]
    exact horderly.mem_edgeList hactive hconnect
  · rw [hstate]
  · rw [hstate]
    rfl

def lineIn (subsystem cls : Text) (kind : StatementKind) (fields : List Field) : Action :=
  .handle ⟨some kind, fields, ⟨some (.text "ATC"), some (.text subsystem), some (.text cls)⟩, ⟨"atc.mi", 1, []⟩⟩

/-- A domain with two references, one of which crosses from one subsystem to the other. -/
def twoSubsystems : List Action :=
  [lineIn [] [] .domain [⟨"name", .text "ATC"⟩],
    lineIn "Air Field" [] .subsystem [⟨"name", .text "Air Field"⟩, ⟨"floor", .ofInt 1⟩, ⟨"ceiling", .ofInt 50⟩],
    lineIn "Hangar" [] .subsystem [⟨"name", .text "Hangar"⟩, ⟨"floor", .ofInt 51⟩, ⟨"ceiling", .ofInt 99⟩],
    lineIn "Air Field" "Pilot" .classDef [],
    lineIn "Air Field" "Pilot" .ownAttribute [⟨"name", .text "Name"⟩, ⟨"id", .text "I"⟩],
    lineIn "Air Field" "Pilot" .reference [⟨"name", .text "Tail"⟩, ⟨"to_attrs", .text "Hangar::Aircraft.Tail"⟩,
      ⟨"rnum", .ofInt 2⟩, ⟨"id", .text "I2"⟩],
    lineIn "Air Field" "Pilot" .reference [⟨"name", .text "Tutor"⟩, ⟨"to_attrs", .text "Pilot.Name"⟩,
      ⟨"rnum", .ofInt 1⟩, ⟨"constrained", .bool true⟩],
    lineIn "Hangar" "Aircraft" .classDef [],
    lineIn "Hangar" "Aircraft" .ownAttribute [⟨"name", .text "Tail"⟩, ⟨"id", .text "I"⟩],
    lineIn [] [] .activePerspective [⟨"rnum", .ofInt 1⟩, ⟨"a_class", .text "Pilot"⟩, ⟨"p_class", .text "Pilot"⟩],
    lineIn [] [] .activePerspective [⟨"rnum", .ofInt 2⟩, ⟨"a_class", .text "Pilot"⟩, ⟨"p_class", .text "Aircraft"⟩]]

theorem finalize_exact_twoSubsystems : (reach twoSubsystems).active = true ∧ (reach twoSubsystems).Closable ∧
    (∃ es, (reach twoSubsystems).finalize.2 = .ok es ∧ (reach twoSubsystems).Derives es) ∧
    ⟨"Air Field", "Hangar"⟩ ∈ (reach twoSubsystems).finalize.1.graph.edgeList := by
  have hactive : (reach twoSubsystems).active = true := by decide +kernel
  have hcrossing : (reach twoSubsystems).dependencies = [⟨"Air Field", "Hangar", ⟨"atc.mi", 1, []⟩⟩] := by
    decide +kernel
  have hnumbers : ∀ r ∈ (reach twoSubsystems).references, ((reach twoSubsystems).relationship? r.rnum).isSome := by
    decide +kernel
  have htargets : ∀ r ∈ (reach twoSubsystems).references, (reach twoSubsystems).checkTarget r = .ok () := by
    decide +kernel
  have hclosable : (reach twoSubsystems).Closable := by
    refine ⟨by decide +kernel, fun rnum hne => ?_, fun r hr => checkTarget_ok_iff.mp (htargets r hr)⟩
    obtain ⟨r, hr⟩ := List.exists_mem_of_ne_nil _ hne
    obtain ⟨hmem, rfl⟩ := mem_referencesOf.mp hr
    exact hnumbers r hmem
  obtain ⟨hcloses, hderives, -⟩ := finalize_exact ⟨twoSubsystems, rfl⟩ hactive
  obtain ⟨es, hes⟩ := hcloses.mpr hclosable
  obtain ⟨hes', hedges⟩ := hderives es hes
  refine ⟨hactive, hclosable, ⟨es, hes, hes'⟩, (hedges _).mpr ?_⟩
  rw [hcrossing]
  exact ⟨_, List.mem_singleton_self _, rfl⟩

end Population.Analyzer

import Population.Proofs.Model.Analysis
import Population.Proofs.Model.Graph
import Population.Proofs.Model.Target

namespace Population

inductive Analyzer.Action
  | handle (st : Statement)
  | finalize

namespace Analyzer

def perform (a : Analyzer) : Action → Analyzer
  | .handle st => (a.handle st).1
  | .finalize => a.finalize.1

def reach (actions : List Action) : Analyzer :=
  actions.foldl perform idle

/-- The lists of a model, read as tables: classes and subsystems by name, references and relationships by number. -/
structure Consistent (a : Analyzer) : Prop where
  classOrder : (a.classes.map (·.name)).Nodup
  classes : ∀ name c, a.class? name = some c ↔ c ∈ a.classes ∧ c.name = name
  pending : ∀ rnum, rnum ∈ a.pendingNumbers ↔ a.referencesOf rnum ≠ []
  referring : ∀ rnum, ∀ r ∈ a.referencesOf rnum, (a.class? r.fromClass).isSome
  declared : ∀ rnum r, a.relationship? rnum = some r ↔ r ∈ a.declared ∧ r.rnum = rnum
  ends : ∀ r ∈ a.declared, (∃ active passive, r.ends = .association active passive) ∨
    ∃ superclass, r.ends = .generalization superclass
  last : ∀ r, a.last = some r → a.relationship? r.rnum = some r
  subsystems : ∀ name s, a.subsystem? name = some s ↔ s ∈ a.subsystems ∧ s.name = name
  ranges : ∀ s ∈ a.subsystems, s.floor ≤ s.ceiling
  nodes : a.graph.nodes.Nodup ∧ ∀ name, name ∈ a.graph.nodes ↔ (a.subsystem? name).isSome
  dependencies : ∀ d ∈ a.dependencies, d.source ≠ d.target ∧ d.target ≠ []

/-- What each action keeps of the lists themselves. A graph has no edges before its domain is closed. -/
structure Orderly (a : Analyzer) : Prop where
  classes : (a.classes.map (·.name)).Nodup
  referring : ∀ r ∈ a.references, r.fromClass ∈ a.classes.map (·.name)
  declared : (a.declared.map (·.rnum)).Nodup
  last : ∀ r, a.last = some r → r ∈ a.declared
  subsystems : (a.subsystems.map (·.name)).Nodup
  ranges : ∀ s ∈ a.subsystems, s.floor ≤ s.ceiling
  nodes : a.graph.nodes = a.subsystems.map (·.name)
  dependencies : ∀ d ∈ a.dependencies, d.source ≠ d.target ∧ d.target ≠ []
  edges : a.active = true → a.graph.edges = []

variable {a a' : Analyzer} {st : Statement}

theorem isSome_class?_iff {name : Text} : (a.class? name).isSome ↔ name ∈ a.classes.map (·.name) :=
  find?_key_isSome

theorem isSome_subsystem?_iff {name : Text} : (a.subsystem? name).isSome ↔ name ∈ a.subsystems.map (·.name) :=
  find?_key_isSome

theorem map_name_setIdentifiers (a : Analyzer) (name : Text) (group : Identifier.Group) :
    (a.setIdentifiers name group).classes.map (·.name) = a.classes.map (·.name) := by
  rw [setIdentifiers, List.map_map]
  apply List.map_congr_left
  intro c _
  by_cases hc : c.name = name <;> simp [hc]

theorem mem_referencesOf {rnum : Int} {r : PendingReference} :
    r ∈ a.referencesOf rnum ↔ r ∈ a.references ∧ r.rnum = rnum := by
  simp [referencesOf]

theorem referencesOf_ne_nil_iff {rnum : Int} : a.referencesOf rnum ≠ [] ↔ rnum ∈ a.pendingNumbers := by
  simp only [mem_pendingNumbers, ← mem_referencesOf]
  exact ⟨List.exists_mem_of_ne_nil _, fun ⟨r, hr⟩ => List.ne_nil_of_mem hr⟩

theorem parse_subsystem {raw : Text} {t : Target} (h : Target.parse raw = .ok t) : t.subsystem ≠ some [] :=
  fun hs => ((Target.parse_apart h).subsystem [] hs).1.ne_nil rfl

theorem parseList_subsystem {raw : Text} {targets : List Target} (h : Target.parseList raw = .ok targets) :
    ∀ t ∈ targets, t.subsystem ≠ some [] := by
  obtain ⟨ts, hts, h⟩ := bind_ok_iff.mp h
  split at h
  next => exact absurd h throw_ne_ok
  next =>
      cases pure_ok_iff.mp h
      intro t ht
      obtain ⟨raw, -, hraw⟩ := partner_of_right (mapM_ok_iff.mp hts) ht
      exact parse_subsystem hraw

theorem parseList_ne_nil {raw : Text} {targets : List Target} (h : Target.parseList raw = .ok targets) :
    targets ≠ [] := by
  obtain ⟨ts, -, h⟩ := bind_ok_iff.mp h
  split at h
  next => exact absurd h throw_ne_ok
  next hne =>
      cases pure_ok_iff.mp h
      simpa using hne

theorem crossing_ends {targets : List Target} (h : ∀ t ∈ targets, t.subsystem ≠ some []) :
    ∀ d ∈ crossing st targets, d.source ≠ d.target ∧ d.target ≠ [] := by
  intro d hd
  obtain ⟨t, ht, hd⟩ := List.mem_filterMap.mp hd
  have hne := h t ht
  split at hd
  next => cases hd
  next subsystem hsubsystem =>
      split at hd
      next => cases hd
      next hother =>
          cases hd
          refine ⟨fun he => hother he.symm, ?_⟩
          rintro rfl
          exact hne hsubsystem

theorem connect_nodes (g : Graph) (ds : List Dependency) : (connect g ds).1.nodes = g.nodes := by
  induction ds generalizing g with
  | nil => rfl
  | cons d rest ih =>
      rw [connect]
      split
      next => rfl
      next =>
          split
          next g' hg =>
              obtain ⟨-, -, -, rfl⟩ := Graph.addEdge_ok_iff.mp hg
              rw [ih, Graph.link_nodes]
          next => rfl

theorem finalize_state (a : Analyzer) : (a.active = false ∧ a.finalize.1 = a) ∨
    (a.active = true ∧ a.finalize.1 = { a with active := false, graph := (connect a.graph a.dependencies).1 }) := by
  rw [finalize]
  cases hactive : a.active with
  | false => exact .inl ⟨rfl, rfl⟩
  | true =>
      rcases connect a.graph a.dependencies with ⟨graph, refused⟩
      cases refused <;> exact .inr ⟨rfl, rfl⟩

theorem orderly_opened (domain : Text) : (opened domain).Orderly :=
  ⟨.nil, nofun, .nil, nofun, .nil, nofun, rfl, nofun, fun _ => rfl⟩

theorem orderly_idle : idle.Orderly :=
  ⟨.nil, nofun, .nil, nofun, .nil, nofun, rfl, nofun, fun _ => rfl⟩

namespace Orderly

variable (h : a.Orderly)
include h

theorem setIdentifiers (name : Text) (group : Identifier.Group) : (a.setIdentifiers name group).Orderly := by
  have hnames := map_name_setIdentifiers a name group
  exact { h with
    classes := by rw [hnames]; exact h.classes
    referring := by rw [hnames]; exact h.referring }

theorem referring_class {c : ModelClass} (hc : a.currentClass st = .ok c) (rnum : Int) {targets : List Target}
    (ht : Target.parseList (st.text "to_attrs") = .ok targets) : (a.referring st c rnum targets).Orderly := by
  obtain ⟨hclass, -, -⟩ := currentClass_ok hc
  have hmem : c.name ∈ a.classes.map (·.name) := isSome_class?_iff.mp (by rw [hclass]; rfl)
  refine { h with referring := ?_, dependencies := ?_ }
  · intro r hr
    rcases List.mem_append.mp hr with hr | hr
    · exact h.referring r hr
    · obtain ⟨target, -, rfl⟩ := List.mem_map.mp hr
      exact hmem
  · intro d hd
    rcases List.mem_append.mp hd with hd | hd
    · exact h.dependencies d hd
    · exact crossing_ends (parseList_subsystem ht) d hd

theorem subsystem {floor ceiling : Int} (hrange : floor ≤ ceiling) {name : Text} (hnew : a.subsystem? name = none) :
    Orderly { a with subsystems := a.subsystems ++ [⟨name, floor, ceiling⟩], graph := a.graph.addNode name } := by
  -- the nodes are the names of the subsystems, so this one is new too
  have hnode : name ∉ a.graph.nodes := by
    rw [h.nodes, ← isSome_subsystem?_iff, hnew]
    simp
  refine { h with subsystems := ?_, ranges := ?_, nodes := ?_, edges := ?_ }
  · exact nodup_map_snoc h.subsystems hnew
  · exact List.forall_mem_append.mpr ⟨h.ranges, List.forall_mem_singleton.mpr hrange⟩
  · rw [Graph.addNode_of_not_mem hnode, h.nodes, List.map_append]
    rfl
  · rw [Graph.addNode_of_not_mem hnode]
    exact h.edges

theorem classDef {c : ModelClass} (hnew : a.class? c.name = none) : Orderly { a with classes := a.classes ++ [c] } := by
  refine { h with classes := nodup_map_snoc h.classes hnew, referring := ?_ }
  intro r hr
  rw [List.map_append]
  exact List.mem_append_left _ (h.referring r hr)

theorem relationship {r : Relationship} (hnew : a.relationship? r.rnum = none) :
    Orderly { a with declared := a.declared ++ [r], last := some r } := by
  refine { h with declared := nodup_map_snoc h.declared hnew, last := ?_ }
  intro x hx
  cases hx
  exact List.mem_append_right _ (List.mem_singleton_self r)

theorem handle (st : Statement) : (a.handle st).1.Orderly := by
  have hhandled := handle_handled a st
  generalize (a.handle st).1 = a', (a.handle st).2 = e at hhandled
  cases hhandled with
  | refused | passed => exact h
  | domain => exact orderly_opened _
  | subsystem _ hrange hnew => exact h.subsystem hrange hnew
  | classDef _ number hnew => exact h.classDef hnew
  | ownAttribute => exact h.setIdentifiers _ _
  | reference _ rnum hc ht => exact (h.referring_class hc rnum ht).setIdentifiers _ _
  | untagged _ rnum hc ht => exact h.referring_class hc rnum ht
  | relationship _ ends hnew => exact h.relationship hnew

theorem finalize : a.finalize.1.Orderly := by
  rcases finalize_state a with ⟨-, hfinal⟩ | ⟨-, hfinal⟩
  · rw [hfinal]
    exact h
  · rw [hfinal]
    exact { h with nodes := (connect_nodes _ _).trans h.nodes, edges := nofun }

theorem actions (actions : List Action) : (actions.foldl perform a).Orderly := by
  induction actions generalizing a with
  | nil => exact h
  | cons action rest ih =>
      cases action with
      | handle st => exact ih (h.handle st)
      | finalize => exact ih h.finalize

theorem consistent : a.Consistent where
  classOrder := h.classes
  classes name c := find?_key_iff h.classes
  pending rnum := referencesOf_ne_nil_iff.symm
  referring rnum r hr := isSome_class?_iff.mpr (h.referring r (mem_referencesOf.mp hr).1)
  declared rnum r := find?_key_iff h.declared
  ends r _ := by
    cases r.ends with
    | association active passive => exact .inl ⟨active, passive, rfl⟩
    | generalization superclass => exact .inr ⟨superclass, rfl⟩
  last r hr := (find?_key_iff h.declared).mpr ⟨h.last r hr, rfl⟩
  subsystems name s := find?_key_iff h.subsystems
  ranges := h.ranges
  nodes := by
    rw [h.nodes]
    exact ⟨h.subsystems, fun name => isSome_subsystem?_iff.symm⟩
  dependencies := h.dependencies

end Orderly

theorem reach_orderly (actions : List Action) : (reach actions).Orderly :=
  orderly_idle.actions actions

/-- Whatever is done with a model, and however much of it fails, its tables agree with each other. -/
theorem reach_consistent (actions : List Action) : (reach actions).Consistent :=
  (reach_orderly actions).consistent

end Analyzer

end Population

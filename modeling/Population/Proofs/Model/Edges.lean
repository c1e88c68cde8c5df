import Population.Proofs.Model.Graph
import Population.Proofs.Splitting

namespace Population.Graph

variable {g : Graph} {additions : List Addition} {addition : Addition} {source target node id : Text} {e f : Edge}

@[simp] theorem addNode_edges (g : Graph) (node : Text) : (g.addNode node).edges = g.edges := by
  rw [addNode]
  split <;> rfl

theorem mem_addNode : id ∈ (g.addNode node).nodes ↔ id ∈ g.nodes ∨ id = node := by
  by_cases h : node ∈ g.nodes
  · rw [addNode, if_pos h]
    exact (or_iff_left_of_imp fun heq => heq ▸ h).symm
  · rw [addNode_of_not_mem h, List.mem_append, List.mem_singleton]

/-- An edge that is added changes the graph only if both its ends are there and differ. -/
theorem add_edge_cases (g : Graph) (source target : Text) :
    (source ≠ target ∧ source ∈ g.nodes ∧ target ∈ g.nodes ∧ g.add (.edge source target) = g.link source target) ∨
    ((source = target ∨ source ∉ g.nodes ∨ target ∉ g.nodes) ∧ g.add (.edge source target) = g) := by
  cases h : g.addEdge source target with
  | ok g' =>
      obtain ⟨hne, hsource, htarget, rfl⟩ := addEdge_ok_iff.mp h
      exact .inl ⟨hne, hsource, htarget, by rw [add, h]⟩
  | error error => exact .inr ⟨addEdge_error_iff.mp ⟨error, h⟩, by rw [add, h]⟩

theorem mem_add_nodes : id ∈ (g.add addition).nodes ↔ id ∈ g.nodes ∨ addition = .node id := by
  cases addition with
  | node node =>
      rw [add, mem_addNode, Addition.node.injEq]
      exact or_congr_right eq_comm
  | edge source target =>
      rcases add_edge_cases g source target with ⟨-, -, -, h⟩ | ⟨-, h⟩ <;> simp [h]

theorem mem_add_edges : ⟨source, target⟩ ∈ (g.add addition).edges ↔ ⟨source, target⟩ ∈ g.edges ∨
    addition = .edge source target ∧ source ≠ target ∧ source ∈ g.nodes ∧ target ∈ g.nodes := by
  cases addition with
  | node node => simp [add]
  | edge source' target' =>
      rcases add_edge_cases g source' target' with ⟨hne, hsource, htarget, h⟩ | ⟨hrefused, h⟩
      · rw [h, mem_link]
        refine or_congr_right ⟨fun heq => ?_, fun hnew => ?_⟩
        · cases heq
          exact ⟨rfl, hne, hsource, htarget⟩
        · cases hnew.1
          rfl
      · rw [h]
        refine (or_iff_left fun hnew => ?_).symm
        obtain ⟨heq, hne, hsource, htarget⟩ := hnew
        cases heq
        rcases hrefused with heq | hout | hout
        · exact absurd heq hne
        · exact absurd hsource hout
        · exact absurd htarget hout

theorem nodup_add_edges (h : g.edges.Nodup) (addition : Addition) : (g.add addition).edges.Nodup := by
  cases addition with
  | node node => rwa [add, addNode_edges]
  | edge source target =>
      rcases add_edge_cases g source target with ⟨-, -, -, hadd⟩ | ⟨-, hadd⟩
      · rw [hadd, link]
        split
        next => exact h
        next hnew => exact List.concat_eq_append ▸ h.concat hnew
      · rwa [hadd]

/-- An edge was added between two different nodes at a time at which both of them were there. -/
def Drawn (additions : List Addition) (source target : Text) : Prop :=
  source ≠ target ∧ ∃ before later, additions = before ++ .edge source target :: later ∧
    .node source ∈ before ∧ .node target ∈ before

theorem drawn_snoc_iff : Drawn (additions ++ [addition]) source target ↔ Drawn additions source target ∨
    addition = .edge source target ∧ source ≠ target ∧ .node source ∈ additions ∧ .node target ∈ additions := by
  constructor
  · rintro ⟨hne, before, later, hsplit, hsource, htarget⟩
    rcases snoc_eq_append_cons_iff.mp hsplit with ⟨rfl, heq, -⟩ | ⟨between, -, rfl⟩
    · exact .inr ⟨heq.symm, hne, hsource, htarget⟩
    · exact .inl ⟨hne, before, between, rfl, hsource, htarget⟩
  · rintro (⟨hne, before, later, rfl, hsource, htarget⟩ | ⟨rfl, hne, hsource, htarget⟩)
    · exact ⟨hne, before, later ++ [addition], by simp, hsource, htarget⟩
    · exact ⟨hne, additions, [], rfl, hsource, htarget⟩

theorem built_append (additions more : List Addition) : built (additions ++ more) = more.foldl add (built additions) :=
  List.foldl_append

theorem built_snoc (additions : List Addition) (addition : Addition) :
    built (additions ++ [addition]) = (built additions).add addition :=
  built_append additions [addition]

theorem mem_built_nodes : id ∈ (built additions).nodes ↔ .node id ∈ additions := by
  induction additions using List.reverseRecOn with
  | nil => simp [built, empty]
  | append_singleton additions addition ih =>
      rw [built_snoc, mem_add_nodes, ih, List.mem_append, List.mem_singleton]
      exact or_congr_right eq_comm

theorem mem_built_edges : ⟨source, target⟩ ∈ (built additions).edges ↔ Drawn additions source target := by
  induction additions using List.reverseRecOn with
  | nil => simp [built, empty, Drawn]
  | append_singleton additions addition ih =>
      rw [built_snoc, mem_add_edges, drawn_snoc_iff, ih, mem_built_nodes, mem_built_nodes]

theorem nodup_built_edges (additions : List Addition) : (built additions).edges.Nodup := by
  induction additions using List.reverseRecOn with
  | nil => exact .nil
  | append_singleton additions addition ih =>
      rw [built_snoc]
      exact nodup_add_edges ih addition

theorem mem_predecessors {previous : Text} : previous ∈ g.predecessors node ↔ ⟨previous, node⟩ ∈ g.edges := by
  rw [predecessors, Text.mem_sort, List.mem_map]
  constructor
  · rintro ⟨e, he, rfl⟩
    obtain ⟨he, htarget⟩ := List.mem_filter.mp he
    rw [decide_eq_true_eq] at htarget
    rwa [← htarget]
  · intro hmem
    exact ⟨_, List.mem_filter.mpr ⟨hmem, by simp⟩, rfl⟩

def NeededBy (g : Graph) (target source : Text) : Prop :=
  ∃ ids, g.dependents target = .ok ids ∧ source ∈ ids

theorem Wired.neededBy_iff (h : g.Wired) : g.NeededBy target source ↔ ⟨source, target⟩ ∈ g.edges := by
  rw [NeededBy, dependents]
  by_cases htarget : target ∈ g.nodes
  · simp [htarget, mem_predecessors]
  · rw [if_neg htarget]
    exact ⟨nofun, fun hmem => absurd (h.edges _ hmem).2.2 htarget⟩

/-- An edge is listed before another one: by the place of its source among the nodes, then by its target. -/
def Precedes (g : Graph) (e f : Edge) : Prop :=
  [e.source, f.source].Sublist g.nodes ∨ e.source = f.source ∧ e.target < f.target

/-- The edges at a node have different other ends, if an edge is told by its two ends. -/
theorem nodup_otherEnds {near far : Edge → Text} (hends : ∀ e f, near e = near f → far e = far f → e = f)
    (h : g.edges.Nodup) (node : Text) : ((g.edges.filter (near · = node)).map far).Nodup := by
  refine (h.filter _).map_on fun e he f hf hfar => hends e f ?_ hfar
  rw [of_decide_eq_true (List.mem_filter.mp he).2, of_decide_eq_true (List.mem_filter.mp hf).2]

theorem nodup_targets (h : g.edges.Nodup) (node : Text) : ((g.edges.filter (·.source = node)).map (·.target)).Nodup :=
  nodup_otherEnds (fun ⟨_, _⟩ ⟨_, _⟩ hsource htarget => Edge.mk.injEq _ _ _ _ ▸ ⟨hsource, htarget⟩) h node

theorem nodup_sources (h : g.edges.Nodup) (node : Text) : ((g.edges.filter (·.target = node)).map (·.source)).Nodup :=
  nodup_otherEnds (fun ⟨_, _⟩ ⟨_, _⟩ htarget hsource => Edge.mk.injEq _ _ _ _ ▸ ⟨hsource, htarget⟩) h node

theorem successors_pairwise_lt (h : g.edges.Nodup) (node : Text) : (g.successors node).Pairwise (· < ·) :=
  Text.sort_pairwise_lt (nodup_targets h node)

theorem edgeList_pairwise_precedes (h : g.edges.Nodup) : g.edgeList.Pairwise g.Precedes := by
  refine List.pairwise_flatMap.mpr ⟨fun source _ => ?_, List.pairwise_iff_forall_sublist.mpr fun hsources => ?_⟩
  · exact List.pairwise_map.mpr ((successors_pairwise_lt h source).imp fun hlt => .inr ⟨rfl, hlt⟩)
  · intro e he f hf
    obtain ⟨_, -, rfl⟩ := List.mem_map.mp he
    obtain ⟨_, -, rfl⟩ := List.mem_map.mp hf
    exact .inl hsources

theorem Wired.not_precedes_self (h : g.Wired) (e : Edge) : ¬ g.Precedes e e := by
  rintro (htwice | ⟨-, hlt⟩)
  · exact List.nodup_iff_sublist.mp h.nodes e.source htwice
  · exact List.lt_irrefl _ hlt

theorem Wired.nodup_edgeList (h : g.Wired) (hedges : g.edges.Nodup) : g.edgeList.Nodup :=
  (edgeList_pairwise_precedes hedges).imp fun {e f} hprec => by
    rintro rfl
    exact h.not_precedes_self e hprec

end Population.Graph

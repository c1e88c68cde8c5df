import Mathlib.Data.List.Nodup
import Mathlib.Tactic.SplitIfs
import Population.Model.Graph
import Population.Proofs.Outcome
import Population.Proofs.Text.Order

namespace Population.Graph

variable {g g' : Graph} {source target node : Text} {e : Edge}

/-- A graph with an edge, whatever its ends are. -/
def link (g : Graph) (source target : Text) : Graph :=
  if ⟨source, target⟩ ∈ g.edges then g else { g with edges := g.edges ++ [⟨source, target⟩] }

@[simp] theorem link_nodes (g : Graph) (source target : Text) : (g.link source target).nodes = g.nodes := by
  rw [link]
  split <;> rfl

theorem mem_link : e ∈ (g.link source target).edges ↔ e ∈ g.edges ∨ e = ⟨source, target⟩ := by
  rw [link]
  split
  next h =>
      constructor
      · exact .inl
      · rintro (he | rfl)
        · exact he
        · exact h
  next => simp

theorem addEdge_eq (g : Graph) (source target : Text) : g.addEdge source target =
    if source = target then .error (.selfEdge source)
    else if source ∉ g.nodes then .error (.noSource source)
    else if target ∉ g.nodes then .error (.noDestination target)
    else .ok (g.link source target) := by
  rw [addEdge, link]
  by_cases hold : ⟨source, target⟩ ∈ g.edges
  · simp only [if_pos hold]
  · simp only [if_neg hold]

theorem addEdge_ok_iff : g.addEdge source target = .ok g' ↔
    source ≠ target ∧ source ∈ g.nodes ∧ target ∈ g.nodes ∧ g' = g.link source target := by
  rw [addEdge_eq]
  split_ifs with hself hsource htarget
  · simp [hself]
  · simp [hself, hsource, htarget, eq_comm]
  · simp [htarget]
  · simp [hsource]

theorem addEdge_error_iff : (∃ error, g.addEdge source target = .error error) ↔
    source = target ∨ source ∉ g.nodes ∨ target ∉ g.nodes := by
  rw [addEdge_eq]
  split_ifs with hself hsource htarget
  · simp [hself]
  · simp [hself, hsource, htarget]
  · simp [htarget]
  · simp [hsource]

theorem addNode_of_not_mem (h : node ∉ g.nodes) : g.addNode node = { g with nodes := g.nodes ++ [node] } :=
  if_neg h

theorem mem_edgeList : e ∈ g.edgeList ↔ e.source ∈ g.nodes ∧ e ∈ g.edges := by
  simp only [edgeList, successors, List.mem_flatMap, List.mem_map, Text.mem_sort, List.mem_filter, decide_eq_true_eq]
  constructor
  · rintro ⟨source, hsource, _, ⟨e, ⟨he, rfl⟩, rfl⟩, rfl⟩
    exact ⟨hsource, he⟩
  · rintro ⟨hsource, he⟩
    exact ⟨e.source, hsource, e.target, ⟨e, ⟨he, rfl⟩, rfl⟩, rfl⟩

theorem mem_successors {next : Text} : next ∈ g.successors node ↔ ⟨node, next⟩ ∈ g.edges := by
  rw [successors, Text.mem_sort, List.mem_map]
  constructor
  · rintro ⟨e, he, rfl⟩
    obtain ⟨he, hsource⟩ := List.mem_filter.mp he
    rw [decide_eq_true_eq] at hsource
    rwa [← hsource]
  · intro hmem
    exact ⟨_, List.mem_filter.mpr ⟨hmem, by simp⟩, rfl⟩

inductive Addition
  | node (id : Text)
  | edge (source target : Text)

/-- A graph after a call. An edge that is refused leaves it as it was. -/
def add (g : Graph) : Addition → Graph
  | .node id => g.addNode id
  | .edge source target => match g.addEdge source target with
    | .ok g' => g'
    | .error _ => g

def built (additions : List Addition) : Graph :=
  additions.foldl add empty

/-- Nodes are there once, and edges go from one of them to another. -/
structure Wired (g : Graph) : Prop where
  nodes : g.nodes.Nodup
  edges : ∀ e ∈ g.edges, e.source ≠ e.target ∧ e.source ∈ g.nodes ∧ e.target ∈ g.nodes

theorem Wired.addNode (h : g.Wired) (id : Text) : (g.addNode id).Wired := by
  by_cases hid : id ∈ g.nodes
  · rwa [Graph.addNode, if_pos hid]
  · rw [addNode_of_not_mem hid]
    refine ⟨List.concat_eq_append ▸ h.nodes.concat hid, fun e he => ?_⟩
    obtain ⟨hne, hsource, htarget⟩ := h.edges e he
    exact ⟨hne, List.mem_append_left _ hsource, List.mem_append_left _ htarget⟩

theorem Wired.addEdge (h : g.Wired) (hadd : g.addEdge source target = .ok g') : g'.Wired := by
  obtain ⟨hne, hsource, htarget, rfl⟩ := addEdge_ok_iff.mp hadd
  refine ⟨by rw [link_nodes]; exact h.nodes, fun e he => ?_⟩
  rw [link_nodes]
  rcases mem_link.mp he with he | rfl
  · exact h.edges e he
  · exact ⟨hne, hsource, htarget⟩

theorem Wired.add (h : g.Wired) (addition : Addition) : (g.add addition).Wired := by
  cases addition with
  | node id => exact h.addNode id
  | edge source target =>
      rw [Graph.add]
      split
      next g' hadd => exact h.addEdge hadd
      next => exact h

theorem built_wired (additions : List Addition) : (built additions).Wired :=
  List.foldlRecOn additions Graph.add ⟨.nil, nofun⟩ fun _ h addition _ => h.add addition

def Depends (g : Graph) (source target : Text) : Prop :=
  ∃ ids, g.dependencies source = .ok ids ∧ target ∈ ids

theorem Wired.depends_iff (h : g.Wired) : g.Depends source target ↔ ⟨source, target⟩ ∈ g.edges := by
  rw [Depends, dependencies]
  by_cases hsource : source ∈ g.nodes
  · simp [hsource, mem_successors]
  · rw [if_neg hsource]
    exact ⟨nofun, fun hmem => absurd (h.edges _ hmem).2.1 hsource⟩

end Population.Graph

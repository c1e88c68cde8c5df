import Mathlib.Logic.Function.Basic
import Population.Proofs.Model.Edges

/-!
A graph can keep every edge twice, in the row of its source and in the row of its target, and be changed in place. Such
tables answer as the list of edges does, whatever was added or refused.
-/
namespace Population.Graph

/-- What is kept for a node: the other ends of its edges, in no order. -/
structure Row where
  dependencies : List Text
  dependents : List Text

structure Tables where
  order : List Text
  rows : Text → Option Row

structure Row.IsFor (row : Row) (g : Graph) (id : Text) : Prop where
  nodup_dependencies : row.dependencies.Nodup
  nodup_dependents : row.dependents.Nodup
  mem_dependencies : ∀ target, target ∈ row.dependencies ↔ ⟨id, target⟩ ∈ g.edges
  mem_dependents : ∀ source, source ∈ row.dependents ↔ ⟨source, id⟩ ∈ g.edges

variable {g : Graph} {source target id : Text} {row : Row}

theorem Row.IsFor.sort_dependencies (h : row.IsFor g id) (hedges : g.edges.Nodup) :
    Text.sort row.dependencies = g.successors id := by
  refine Text.sort_congr h.nodup_dependencies (nodup_targets hedges id) fun target => ?_
  rw [h.mem_dependencies, ← mem_successors, Graph.successors, Text.mem_sort]

theorem Row.IsFor.sort_dependents (h : row.IsFor g id) (hedges : g.edges.Nodup) :
    Text.sort row.dependents = g.predecessors id := by
  refine Text.sort_congr h.nodup_dependents (nodup_sources hedges id) fun source => ?_
  rw [h.mem_dependents, ← mem_predecessors, Graph.predecessors, Text.mem_sort]

namespace Tables

def empty : Tables :=
  ⟨[], fun _ => none⟩

def addNode (t : Tables) (id : Text) : Tables :=
  if (t.rows id).isSome then t
  else { order := t.order ++ [id], rows := Function.update t.rows id (some ⟨[], []⟩) }

def alter (t : Tables) (id : Text) (change : Row → Row) : Tables :=
  { t with rows := Function.update t.rows id ((t.rows id).map change) }

def writeSource (source target : Text) (t : Tables) : Tables :=
  t.alter source fun row => { row with dependencies := row.dependencies.insert target }

def writeTarget (source target : Text) (t : Tables) : Tables :=
  t.alter target fun row => { row with dependents := row.dependents.insert source }

/-- Adds an edge in place. A failure does not take back what was written before it. -/
def addEdge (source target : Text) : ExceptT GraphError (StateM Tables) Unit := do
  if source = target then throw (.selfEdge source)
  if ((← get).rows source).isNone then throw (.noSource source)
  if ((← get).rows target).isNone then throw (.noDestination target)
  modify (writeSource source target)
  modify (writeTarget source target)

/-- Some of the ends that the row of a node holds, in bytewise order. -/
def answer (t : Tables) (ends : Row → List Text) (id : Text) : Except GraphError (List Text) :=
  match t.rows id with
  | some row => .ok (Text.sort (ends row))
  | none => .error (.noNode id)

def dependencies (t : Tables) : Text → Except GraphError (List Text) :=
  t.answer Row.dependencies

def dependents (t : Tables) : Text → Except GraphError (List Text) :=
  t.answer Row.dependents

def edgeList (t : Tables) : List Edge :=
  t.order.flatMap fun source =>
    match t.rows source with
    | some row => (Text.sort row.dependencies).map (⟨source, ·⟩)
    | none => []

def add (t : Tables) : Addition → Tables
  | .node id => t.addNode id
  | .edge source target => ((addEdge source target).run t).2

def built (additions : List Addition) : Tables :=
  additions.foldl add empty

variable {t : Tables}

theorem alter_rows (t : Tables) (id : Text) (change : Row → Row) (other : Text) :
    (t.alter id change).rows other = (t.rows other).map fun row => if other = id then change row else row := by
  by_cases h : other = id
  · subst h
    simp [alter]
  · simp [alter, h]

def link (t : Tables) (source target : Text) : Tables :=
  writeTarget source target (writeSource source target t)

def linkRow (source target id : Text) (row : Row) : Row where
  dependencies := if id = source then row.dependencies.insert target else row.dependencies
  dependents := if id = target then row.dependents.insert source else row.dependents

theorem link_rows (t : Tables) (source target id : Text) :
    (t.link source target).rows id = (t.rows id).map (linkRow source target id) := by
  rw [link, writeTarget, alter_rows, writeSource, alter_rows, Option.map_map]
  refine congrArg (Option.map · (t.rows id)) (funext fun row => ?_)
  simp only [Function.comp_apply, linkRow]
  split <;> split <;> rfl

theorem addEdge_run (t : Tables) (source target : Text) : (addEdge source target).run t =
    if source = target then (.error (.selfEdge source), t)
    else if (t.rows source).isNone then (.error (.noSource source), t)
    else if (t.rows target).isNone then (.error (.noDestination target), t)
    else (.ok (), t.link source target) := by
  have hread (next : Tables → ExceptT GraphError (StateM Tables) Unit) : (get >>= next).run t = (next t).run t := rfl
  by_cases hself : source = target
  · simp only [addEdge, if_pos hself]
    rfl
  by_cases hsource : (t.rows source).isNone
  · simp only [addEdge, if_neg hself, if_pos hsource, hread]
    rfl
  by_cases htarget : (t.rows target).isNone
  · simp only [addEdge, if_neg hself, if_neg hsource, if_pos htarget, hread]
    rfl
  · simp only [addEdge, if_neg hself, if_neg hsource, if_neg htarget, hread]
    rfl

theorem isFor_linkRow (h : row.IsFor g id) (source target : Text) :
    (linkRow source target id row).IsFor (g.link source target) id := by
  have hinsert {ids : List Text} {new n : Text} {p : Prop} [Decidable p] :
      n ∈ (if p then ids.insert new else ids) ↔ n ∈ ids ∨ p ∧ n = new := by
    by_cases hp : p <;> simp [hp, or_comm]
  have hnodup {ids : List Text} {new : Text} {p : Prop} [Decidable p] (hids : ids.Nodup) :
      (if p then ids.insert new else ids).Nodup := by
    split
    next => exact hids.insert
    next => exact hids
  refine ⟨hnodup h.nodup_dependencies, hnodup h.nodup_dependents, fun n => ?_, fun n => ?_⟩
  · rw [linkRow, hinsert, h.mem_dependencies, mem_link, Edge.mk.injEq]
  · rw [linkRow, hinsert, h.mem_dependents, mem_link, Edge.mk.injEq, and_comm]

structure Mirrors (t : Tables) (g : Graph) : Prop where
  order : t.order = g.nodes
  known : ∀ id, (t.rows id).isSome ↔ id ∈ g.nodes
  rows : ∀ id row, t.rows id = some row → row.IsFor g id

theorem Mirrors.link (h : t.Mirrors g) (source target : Text) :
    (t.link source target).Mirrors (g.link source target) := by
  refine ⟨?_, fun id => ?_, fun id row hrow => ?_⟩
  · rw [link_nodes]
    exact h.order
  · rw [link_nodes, link_rows, Option.isSome_map, h.known]
  · rw [link_rows] at hrow
    obtain ⟨old, hold, rfl⟩ := Option.map_eq_some_iff.mp hrow
    exact isFor_linkRow (h.rows id old hold) source target

theorem Mirrors.addNode (h : t.Mirrors g) (hg : g.Wired) (node : Text) : (t.addNode node).Mirrors (g.addNode node) := by
  by_cases hnode : node ∈ g.nodes
  · rwa [Tables.addNode, if_pos ((h.known node).mpr hnode), Graph.addNode, if_pos hnode]
  rw [Tables.addNode, if_neg (mt (h.known node).mp hnode)]
  refine ⟨?_, fun id => ?_, fun id row hrow => ?_⟩
  · rw [addNode_of_not_mem hnode, h.order]
  · rw [mem_addNode]
    by_cases hid : id = node
    · simp [hid]
    · simp [hid, h.known]
  · by_cases hid : id = node
    · -- no edge leads from or to a node that was not there
      subst hid
      obtain rfl : ⟨[], []⟩ = row := by simpa using hrow
      refine ⟨.nil, .nil, fun target => ?_, fun source => ?_⟩
      · rw [addNode_edges]
        exact iff_of_false List.not_mem_nil fun he => hnode (hg.edges _ he).2.1
      · rw [addNode_edges]
        exact iff_of_false List.not_mem_nil fun he => hnode (hg.edges _ he).2.2
    · obtain ⟨hdependencies, hdependents, hsuccessors, hpredecessors⟩ := h.rows id row (by simpa [hid] using hrow)
      refine ⟨hdependencies, hdependents, ?_, ?_⟩
      · rwa [addNode_edges]
      · rwa [addNode_edges]

theorem Mirrors.isNone_iff (h : t.Mirrors g) : (t.rows id).isNone ↔ id ∉ g.nodes := by
  rw [← h.known id, Option.not_isSome_iff_eq_none, Option.isNone_iff_eq_none]

theorem Mirrors.addEdge_run (h : t.Mirrors g) (source target : Text) : (addEdge source target).run t =
    match g.addEdge source target with
    | .error error => (.error error, t)
    | .ok _ => (.ok (), t.link source target) := by
  rw [Tables.addEdge_run, Graph.addEdge_eq]
  simp only [h.isNone_iff]
  split_ifs <;> rfl

theorem Mirrors.add (h : t.Mirrors g) (hg : g.Wired) (addition : Addition) : (t.add addition).Mirrors (g.add addition) := by
  cases addition with
  | node id => exact h.addNode hg id
  | edge source target =>
      rw [Tables.add, h.addEdge_run, Graph.add]
      cases hadd : g.addEdge source target with
      | error error => exact h
      | ok g' =>
          obtain ⟨-, -, -, rfl⟩ := addEdge_ok_iff.mp hadd
          exact h.link source target

theorem built_mirrors (additions : List Addition) : (built additions).Mirrors (Graph.built additions) := by
  induction additions using List.reverseRecOn with
  | nil => exact ⟨rfl, fun id => by simp [built, empty, Graph.built, Graph.empty], nofun⟩
  | append_singleton additions addition ih =>
      rw [built_snoc, built, List.foldl_append]
      exact ih.add (built_wired additions) addition

theorem Mirrors.answer_eq (h : t.Mirrors g) {ends : Row → List Text} {ids : List Text}
    (hends : ∀ row : Row, row.IsFor g id → Text.sort (ends row) = ids) :
    t.answer ends id = if id ∈ g.nodes then .ok ids else .error (.noNode id) := by
  rw [answer]
  cases hrow : t.rows id with
  | none => rw [if_neg (h.isNone_iff.mp (Option.isNone_iff_eq_none.mpr hrow))]
  | some row =>
      have hknown : id ∈ g.nodes := (h.known id).mp (Option.isSome_of_eq_some hrow)
      rw [if_pos hknown, ← hends row (h.rows id row hrow)]

theorem Mirrors.edgeList_eq (h : t.Mirrors g) (hedges : g.edges.Nodup) : t.edgeList = g.edgeList := by
  rw [edgeList, Graph.edgeList, h.order]
  refine List.flatMap_congr fun source hsource => ?_
  obtain ⟨row, hrow⟩ := Option.isSome_iff_exists.mp ((h.known source).mpr hsource)
  simp only [hrow, (h.rows source row hrow).sort_dependencies hedges]

theorem Mirrors.exists_row_iff (h : t.Mirrors g) {p : Row → Prop} {q : Prop}
    (hrow : ∀ row : Row, row.IsFor g id → (p row ↔ q)) (hknown : q → id ∈ g.nodes) :
    (∃ row, t.rows id = some row ∧ p row) ↔ q := by
  constructor
  · rintro ⟨row, hid, hp⟩
    exact (hrow row (h.rows id row hid)).mp hp
  · intro hq
    obtain ⟨row, hid⟩ := Option.isSome_iff_exists.mp ((h.known id).mpr (hknown hq))
    exact ⟨row, hid, (hrow row (h.rows id row hid)).mpr hq⟩

theorem Mirrors.bothEnds (h : t.Mirrors g) (hg : g.Wired) (source target : Text) :
    (∃ row, t.rows source = some row ∧ target ∈ row.dependencies) ↔
    ∃ row, t.rows target = some row ∧ source ∈ row.dependents := by
  have hsource : (∃ row, t.rows source = some row ∧ target ∈ row.dependencies) ↔ ⟨source, target⟩ ∈ g.edges :=
    h.exists_row_iff (fun _ hrow => hrow.mem_dependencies target) fun he => (hg.edges _ he).2.1
  have htarget : (∃ row, t.rows target = some row ∧ source ∈ row.dependents) ↔ ⟨source, target⟩ ∈ g.edges :=
    h.exists_row_iff (fun _ hrow => hrow.mem_dependents source) fun he => (hg.edges _ he).2.2
  exact hsource.trans htarget.symm

/-- Tables that hold each edge at both ends, answer as a graph does and refuse what it refuses. A failure leaves them as
they were. -/
structure Follows (t : Tables) (g : Graph) : Prop where
  order : t.order = g.nodes
  known : ∀ id, (t.rows id).isSome ↔ id ∈ t.order
  bothEnds : ∀ source target, (∃ row, t.rows source = some row ∧ target ∈ row.dependencies) ↔
    ∃ row, t.rows target = some row ∧ source ∈ row.dependents
  dependencies : t.dependencies = g.dependencies
  dependents : t.dependents = g.dependents
  edgeList : t.edgeList = g.edgeList
  addEdge : ∀ source target, (addEdge source target).run t =
    match g.addEdge source target with
    | .error error => (.error error, t)
    | .ok _ => (.ok (), t.link source target)

theorem Mirrors.follows (h : t.Mirrors g) (hg : g.Wired) (hedges : g.edges.Nodup) : t.Follows g where
  order := h.order
  known id := by rw [h.known, h.order]
  bothEnds := h.bothEnds hg
  dependencies := funext fun _ => h.answer_eq fun _ hrow => hrow.sort_dependencies hedges
  dependents := funext fun _ => h.answer_eq fun _ hrow => hrow.sort_dependents hedges
  edgeList := h.edgeList_eq hedges
  addEdge := h.addEdge_run

end Tables

/-- A graph holds the nodes and the edges that were added, tells the edges at both of their ends, and lists them in
order. -/
structure Holds (g : Graph) (additions : List Addition) : Prop where
  nodes : ∀ id, id ∈ g.nodes ↔ .node id ∈ additions
  nodesOnce : g.nodes.Nodup
  depends : ∀ source target, g.Depends source target ↔ Drawn additions source target
  neededBy : ∀ source target, g.NeededBy target source ↔ Drawn additions source target
  irreflexive : ∀ node, ¬ g.Depends node node
  listed : ∀ e, e ∈ g.edgeList ↔ Drawn additions e.source e.target
  listedOnce : g.edgeList.Nodup
  listedInOrder : g.edgeList.Pairwise g.Precedes

theorem built_holds (additions : List Addition) : (built additions).Holds additions where
  nodes _ := mem_built_nodes
  nodesOnce := (built_wired additions).nodes
  depends _ _ := (built_wired additions).depends_iff.trans mem_built_edges
  neededBy _ _ := (built_wired additions).neededBy_iff.trans mem_built_edges
  irreflexive _ hself := ((built_wired additions).edges _ ((built_wired additions).depends_iff.mp hself)).1 rfl
  listed e := by
    rw [mem_edgeList, and_iff_right_of_imp fun he => ((built_wired additions).edges e he).2.1]
    exact mem_built_edges
  listedOnce := (built_wired additions).nodup_edgeList (nodup_built_edges additions)
  listedInOrder := edgeList_pairwise_precedes (nodup_built_edges additions)

theorem built_of_refused {additions : List Addition} {error : GraphError}
    (h : (built additions).addEdge source target = .error error) (later : List Addition) :
    built (additions ++ .edge source target :: later) = built (additions ++ later) := by
  rw [built_append, built_append, List.foldl_cons, add, h]

/-- Whatever was added, and however much of it was refused, a graph holds just the nodes and the edges that could be
added, and so it does if every edge is kept at both of its ends and these are written one after the other. An edge is
refused if its ends are the same or one of them is not there yet, and this is as if it had not been tried. -/
theorem built_keeps_edges (additions : List Addition) :
    (built additions).Holds additions ∧ (Tables.built additions).Follows (built additions) ∧
    (∀ source target, (∃ error, (built additions).addEdge source target = .error error) ↔
      source = target ∨ .node source ∉ additions ∨ .node target ∉ additions) ∧
    ∀ source target error, (built additions).addEdge source target = .error error →
      ∀ later, built (additions ++ .edge source target :: later) = built (additions ++ later) := by
  refine ⟨built_holds additions, ?_, fun source target => ?_, fun source target error h => built_of_refused h⟩
  · exact (Tables.built_mirrors additions).follows (built_wired additions) (nodup_built_edges additions)
  · rw [addEdge_error_iff, mem_built_nodes, mem_built_nodes]

/-- Edges that are added before their ends are there, a second time, and from a node to itself. -/
def retried : List Addition :=
  [.node "c", .edge "c" "d", .node "a", .node "c", .node "d", .edge "c" "d", .edge "c" "a", .edge "c" "d", .edge "a" "a"]

theorem built_keeps_edges_retried : (built retried).Depends "c" "d" ∧ (built retried).NeededBy "d" "c" ∧
    ¬ (built retried).Depends "a" "a" ∧ (Tables.built retried).edgeList = (built retried).edgeList ∧
    (built retried).addEdge "d" "b" = .error (.noDestination "b") ∧
    built (retried ++ [.edge "d" "b", .node "b"]) = built (retried ++ [.node "b"]) := by
  obtain ⟨hholds, hfollows, -, hsame⟩ := built_keeps_edges retried
  have hdrawn : Drawn retried "c" "d" := by
    refine ⟨by decide, [.node "c", .edge "c" "d", .node "a", .node "c", .node "d"], _, rfl, ?_, ?_⟩ <;> simp
  have hrefused : (built retried).addEdge "d" "b" = .error (.noDestination "b") := by decide
  exact ⟨(hholds.depends _ _).mpr hdrawn, (hholds.neededBy _ _).mpr hdrawn, hholds.irreflexive _, hfollows.edgeList,
    hrefused, hsame "d" "b" _ hrefused [.node "b"]⟩

example : (built retried).edgeList = [⟨"c", "a"⟩, ⟨"c", "d"⟩] := by
  cbv

end Population.Graph

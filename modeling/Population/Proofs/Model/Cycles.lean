import Mathlib.Data.List.Chain
import Mathlib.Data.List.Perm.Subperm
import Mathlib.Logic.Relation
import Population.Proofs.Model.Graph

namespace Population.Graph

/-- The cycle that a path closes at one of its nodes. -/
def loop (path : List Text) (node : Text) : List Text :=
  node :: ((path.takeWhile (· ≠ node)).reverse ++ [node])

/-- The search through some nodes, one after another, with no bound on how deep it goes. -/
inductive Searched (g : Graph) : (path seen nodes : List Text) → Except (List Text) (List Text) → Prop
  | nothing {path seen} : Searched g path seen [] (.ok seen)
  | known {path seen node rest r} (hseen : node ∈ seen) (hrest : Searched g path seen rest r) :
      Searched g path seen (node :: rest) r
  | closed {path seen node rest} (hnew : node ∉ seen) (hpath : node ∈ path) :
      Searched g path seen (node :: rest) (.error (loop path node))
  | found {path seen node rest cycle} (hnew : node ∉ seen) (hpath : node ∉ path)
      (hbehind : Searched g (node :: path) seen (g.successors node) (.error cycle)) :
      Searched g path seen (node :: rest) (.error cycle)
  | finished {path seen seen' node rest r} (hnew : node ∉ seen) (hpath : node ∉ path)
      (hbehind : Searched g (node :: path) seen (g.successors node) (.ok seen'))
      (hrest : Searched g path (node :: seen') rest r) : Searched g path seen (node :: rest) r

variable {g : Graph} {path seen nodes : List Text} {node : Text}

theorem Searched.unique {r r' : Except (List Text) (List Text)} (h : g.Searched path seen nodes r)
    (h' : g.Searched path seen nodes r') : r = r' := by
  -- the search looks at one node at a time, and only one of its cases can hold of the node
  induction h generalizing r' with
  | nothing =>
      cases h'
      rfl
  | known hseen _ ih =>
      cases h' with
      | known _ hrest => exact ih hrest
      | closed hnew | found hnew | finished hnew => exact absurd hseen hnew
  | closed hnew hpath =>
      cases h' with
      | known hseen => exact absurd hseen hnew
      | closed => rfl
      | found _ hpath' | finished _ hpath' => exact absurd hpath hpath'
  | found hnew hpath _ ih =>
      cases h' with
      | known hseen => exact absurd hseen hnew
      | closed _ hpath' => exact absurd hpath' hpath
      | found _ _ hbehind => exact ih hbehind
      | finished _ _ hbehind => cases ih hbehind
  | finished hnew hpath _ _ ihbehind ihrest =>
      cases h' with
      | known hseen => exact absurd hseen hnew
      | closed _ hpath' => exact absurd hpath' hpath
      | found _ _ hbehind => cases ihbehind hbehind
      | finished _ _ hbehind hrest =>
          cases ihbehind hbehind
          exact ihrest hrest

/-- A path goes through a node once, so a search that may go deeper than there are nodes is not cut off. -/
theorem Wired.searched (h : g.Wired) (depth : Nat) (hpath : path.Nodup) (hpathsub : path ⊆ g.nodes)
    (hdepth : g.nodes.length < depth + path.length) (hnodes : nodes ⊆ g.nodes) :
    g.Searched path seen nodes (nodes.foldlM (visit g depth path) seen) := by
  induction depth generalizing path seen nodes with
  | zero =>
      -- a path has no more nodes than the graph, so the depth is not used up
      have hle := (List.subperm_of_subset hpath hpathsub).length_le
      omega
  | succ depth ihdepth =>
      induction nodes generalizing seen with
      | nil => exact .nothing
      | cons node rest ih =>
          obtain ⟨hnode, hrest⟩ := List.cons_subset.mp hnodes
          rw [List.foldlM_cons, visit]
          by_cases hseen : node ∈ seen
          · rw [if_pos hseen]
            exact .known hseen (ih hrest)
          rw [if_neg hseen]
          by_cases hmem : node ∈ path
          · rw [if_pos hmem]
            exact .closed hseen hmem
          rw [if_neg hmem]
          have hbehind : g.Searched (node :: path) seen (g.successors node)
              ((g.successors node).foldlM (visit g depth (node :: path)) seen) := by
            refine ihdepth (List.nodup_cons.mpr ⟨hmem, hpath⟩) (List.cons_subset.mpr ⟨hnode, hpathsub⟩) ?_ ?_
            · rw [List.length_cons]
              omega
            · intro next hnext
              exact (h.edges _ (mem_successors.mp hnext)).2.2
          cases hcase : (g.successors node).foldlM (visit g depth (node :: path)) seen with
          | error cycle =>
              rw [hcase] at hbehind
              exact .found hseen hmem hbehind
          | ok seen' =>
              rw [hcase] at hbehind
              exact .finished hseen hmem hbehind (ih hrest)

/-- A list of nodes that goes along edges from a node back to it, and through no node twice otherwise. -/
structure IsCycle (g : Graph) (cycle : List Text) : Prop where
  long : 3 ≤ cycle.length
  closed : cycle.head? = cycle.getLast?
  once : cycle.dropLast.Nodup
  linked : cycle.IsChain fun source target => ⟨source, target⟩ ∈ g.edgeList

/-- A path, its last node first, goes along edges and through no node twice. -/
structure IsPath (g : Graph) (path : List Text) : Prop where
  once : path.Nodup
  linked : path.IsChain fun target source => ⟨source, target⟩ ∈ g.edges

theorem IsPath.cons (h : g.IsPath path) (hnew : node ∉ path) (hlast : ∀ last ∈ path.head?, ⟨last, node⟩ ∈ g.edges) :
    g.IsPath (node :: path) :=
  ⟨List.nodup_cons.mpr ⟨hnew, h.once⟩, List.isChain_cons.mpr ⟨hlast, h.linked⟩⟩

theorem loop_append {front back : List Text} (h : node ∉ front) :
    loop (front ++ node :: back) node = node :: (front.reverse ++ [node]) := by
  have hfront : ∀ other ∈ front, decide (other ≠ node) = true :=
    fun other hother => decide_eq_true fun heq => h (heq ▸ hother)
  rw [loop, List.takeWhile_append_of_pos hfront, List.takeWhile_cons_of_neg (by simp), List.append_nil]

theorem Wired.isCycle_loop (h : g.Wired) (hpath : g.IsPath path) (hmem : node ∈ path)
    (hlast : ∀ last ∈ path.head?, ⟨last, node⟩ ∈ g.edges) : g.IsCycle (loop path node) := by
  obtain ⟨front, back, rfl, hfront⟩ := List.eq_append_cons_of_mem hmem
  rw [loop_append hfront, ← List.cons_append]
  cases front with
  | nil =>
      -- the edge that closes the cycle would go from the node to itself
      exact absurd rfl (h.edges _ (hlast node rfl)).1
  | cons last front =>
      have hprefix : (last :: front) ++ [node] <+: (last :: front) ++ node :: back := ⟨back, by simp⟩
      have hreverse : ((last :: front) ++ [node]).reverse = node :: (last :: front).reverse := List.reverse_concat
      have honce : (node :: (last :: front).reverse).Nodup :=
        hreverse ▸ List.nodup_reverse.mpr <| hpath.once.sublist hprefix.sublist
      have hlinked : (node :: (last :: front).reverse).IsChain fun source target => ⟨source, target⟩ ∈ g.edges :=
        hreverse ▸ List.isChain_reverse.mpr <| List.IsChain.infix hpath.linked hprefix.isInfix
      refine ⟨by simp, by rw [List.getLast?_concat]; rfl, by rwa [List.dropLast_concat], ?_⟩
      refine List.IsChain.imp (fun source target hedge => mem_edgeList.mpr ⟨(h.edges _ hedge).2.1, hedge⟩) ?_
      refine List.isChain_append.mpr ⟨hlinked, List.isChain_singleton _, ?_⟩
      rintro source hsource _ ⟨⟩
      rw [List.reverse_cons, ← List.cons_append, List.getLast?_concat] at hsource
      exact Option.some.inj hsource ▸ hlast last rfl

theorem Searched.isCycle (h : g.Wired) {r : Except (List Text) (List Text)} (hs : g.Searched path seen nodes r)
    (hpath : g.IsPath path) (hlast : ∀ last ∈ path.head?, ∀ node ∈ nodes, ⟨last, node⟩ ∈ g.edges) {cycle : List Text}
    (hr : r = .error cycle) : g.IsCycle cycle := by
  induction hs with
  | nothing => cases hr
  | known _ _ ih => exact ih hpath (fun last hl node hn => hlast last hl node (List.mem_cons_of_mem _ hn)) hr
  | closed _ hmem =>
      cases hr
      exact h.isCycle_loop hpath hmem fun last hl => hlast last hl _ List.mem_cons_self
  | found _ hout _ ih =>
      have hlinked := fun last hl => hlast last hl _ List.mem_cons_self
      refine ih (hpath.cons hout hlinked) ?_ hr
      rintro _ ⟨⟩ next hnext
      exact mem_successors.mp hnext
  | finished _ _ _ _ _ ihrest =>
      exact ihrest hpath (fun last hl node hn => hlast last hl node (List.mem_cons_of_mem _ hn)) hr

theorem IsCycle.depends {cycle : List Text} (h : g.IsCycle cycle) :
    ∃ node, Relation.TransGen (fun source target => ⟨source, target⟩ ∈ g.edges) node node := by
  obtain ⟨hlong, hclosed, -, hlinked⟩ := h
  match cycle with
  | first :: next :: rest =>
      have hedges : (first :: next :: rest).IsChain fun source target => ⟨source, target⟩ ∈ g.edges :=
        hlinked.imp fun _ _ hedge => (mem_edgeList.mp hedge).2
      obtain ⟨hfirst, hrest⟩ := List.isChain_cons_cons.mp hedges
      have hlast : (next :: rest).getLast (List.cons_ne_nil _ _) = first := by
        rw [List.head?_cons, List.getLast?_cons_cons, List.getLast?_eq_some_getLast (List.cons_ne_nil _ _)] at hclosed
        exact (Option.some.inj hclosed).symm
      exact ⟨first, .head' hfirst (List.relationReflTransGen_of_exists_isChain_cons rest hrest hlast)⟩

/-- A list of nodes each of which depends on those after it only. -/
def Settled (g : Graph) : List Text → Prop
  | [] => True
  | node :: rest => (∀ next ∈ g.successors node, next ∈ rest) ∧ g.Settled rest

theorem Settled.closed (h : g.Settled seen) {source target : Text} (hsource : source ∈ seen)
    (hedge : ⟨source, target⟩ ∈ g.edges) : target ∈ seen := by
  induction seen with
  | nil => cases hsource
  | cons node rest ih =>
      rcases List.mem_cons.mp hsource with rfl | hsource
      · exact List.mem_cons_of_mem _ (h.1 _ (mem_successors.mpr hedge))
      · exact List.mem_cons_of_mem _ (ih h.2 hsource)

theorem Settled.acyclic (h : g.Settled seen) (hnode : node ∈ seen) :
    ¬ Relation.TransGen (fun s t => ⟨s, t⟩ ∈ g.edges) node node := by
  induction seen with
  | nil => cases hnode
  | cons first rest ih =>
      intro hback
      rcases List.mem_cons.mp hnode with rfl | hnode
      · -- what a node reaches is behind it, and a node that is there a second time is settled there already
        have hreached : ∀ target, Relation.TransGen (fun s t => ⟨s, t⟩ ∈ g.edges) node target → target ∈ rest := by
          intro target hreach
          induction hreach with
          | single hedge => exact h.1 _ (mem_successors.mpr hedge)
          | tail _ hedge ih => exact h.2.closed ih hedge
        exact ih h.2 (hreached node hback) hback
      · exact ih h.2 hnode hback

theorem Searched.settled {r : Except (List Text) (List Text)} (hs : g.Searched path seen nodes r)
    (h : g.Settled seen) {seen' : List Text} (hr : r = .ok seen') : g.Settled seen' ∧ seen ⊆ seen' ∧ nodes ⊆ seen' := by
  induction hs generalizing seen' with
  | nothing =>
      cases hr
      exact ⟨h, List.Subset.refl _, List.nil_subset _⟩
  | known hseen _ ih =>
      obtain ⟨hsettled, hold, hrest⟩ := ih h hr
      exact ⟨hsettled, hold, List.cons_subset.mpr ⟨hold hseen, hrest⟩⟩
  | closed | found => cases hr
  | finished _ _ _ _ ihbehind ihrest =>
      obtain ⟨hsettled, hold, hbehind⟩ := ihbehind h rfl
      obtain ⟨hsettled', hold', hrest⟩ := ihrest ⟨fun _ hnext => hbehind hnext, hsettled⟩ hr
      obtain ⟨hnode, hold'⟩ := List.cons_subset.mp hold'
      exact ⟨hsettled', List.Subset.trans hold hold', List.cons_subset.mpr ⟨hnode, hrest⟩⟩

theorem findCycle_eq_some_iff {cycle : List Text} :
    g.findCycle = some cycle ↔ g.nodes.foldlM (visit g (g.nodes.length + 1) []) [] = .error cycle := by
  rw [findCycle]
  split <;> simp_all

theorem detectCycles_error_iff {message : Text} :
    g.detectCycles = .error message ↔ ∃ cycle, g.findCycle = some cycle ∧ message = cycleMessage cycle := by
  rw [detectCycles]
  split
  next cycle hcycle =>
      constructor
      · rintro ⟨⟩
        exact ⟨cycle, hcycle, rfl⟩
      · rintro ⟨_, hcycle', rfl⟩
        cases hcycle.symm.trans hcycle'
        rfl
  next hnone => simp [hnone]

theorem Wired.searched_findCycle (h : g.Wired) :
    ∃ r, g.Searched [] [] g.nodes r ∧ ∀ cycle, g.findCycle = some cycle ↔ r = .error cycle :=
  ⟨_, h.searched _ .nil (List.nil_subset _) (by simp) (List.Subset.refl _), fun _ => findCycle_eq_some_iff⟩

theorem Wired.findCycle_eq_none_iff (h : g.Wired) :
    g.findCycle = none ↔ ∀ node, ¬ Relation.TransGen g.Depends node node := by
  have heq : g.Depends = fun source target => ⟨source, target⟩ ∈ g.edges :=
    funext fun _ => funext fun _ => propext h.depends_iff
  obtain ⟨r, hsearched, hr⟩ := h.searched_findCycle
  rw [heq]
  constructor
  · intro hnone node hback
    cases r with
    | error cycle => simp [(hr cycle).mpr rfl] at hnone
    | ok seen =>
        obtain ⟨hsettled, -, hnodes⟩ := hsearched.settled trivial rfl
        refine hsettled.acyclic (hnodes ?_) hback
        obtain ⟨_, hedge, -⟩ := Relation.TransGen.head'_iff.mp hback
        exact (h.edges _ hedge).2.1
  · intro hacyclic
    refine Option.eq_none_iff_forall_ne_some.mpr fun cycle hcycle => ?_
    obtain ⟨node, hback⟩ := (hsearched.isCycle h ⟨.nil, .nil⟩ nofun ((hr cycle).mp hcycle)).depends
    exact hacyclic node hback

/-- Whatever was added to a graph, the search for a cycle comes to an end although nothing bounds its depth; it finds no
cycle just when no node depends on itself, directly or not; and what it finds otherwise is a cycle. -/
theorem findCycle_decides (additions : List Addition) :
    (∃! r, (built additions).Searched [] [] (built additions).nodes r) ∧
    (∀ cycle, (built additions).findCycle = some cycle ↔
      (built additions).Searched [] [] (built additions).nodes (.error cycle)) ∧
    ((built additions).findCycle = none ↔ ∀ node, ¬ Relation.TransGen (built additions).Depends node node) ∧
    (∀ cycle, (built additions).findCycle = some cycle → (built additions).IsCycle cycle) ∧
    ∀ message, (built additions).detectCycles = .error message ↔
      ∃ cycle, (built additions).findCycle = some cycle ∧ message = cycleMessage cycle := by
  have h := built_wired additions
  obtain ⟨r, hsearched, hr⟩ := h.searched_findCycle
  refine ⟨⟨r, hsearched, fun _ h' => h'.unique hsearched⟩, fun cycle => ?_, h.findCycle_eq_none_iff,
    fun cycle hcycle => ?_, fun message => detectCycles_error_iff⟩
  · rw [hr cycle]
    constructor
    · rintro rfl
      exact hsearched
    · exact hsearched.unique
  · exact hsearched.isCycle h ⟨.nil, .nil⟩ nofun ((hr cycle).mp hcycle)

/-- A node that depends on one of three nodes on a cycle. -/
def ring : List Addition :=
  [.node "a", .node "x", .node "y", .node "z", .edge "a" "y", .edge "y" "z", .edge "z" "x", .edge "x" "y"]

theorem findCycle_decides_ring : ∃ cycle, (built ring).findCycle = some cycle ∧ (built ring).IsCycle cycle := by
  have hdepends (source target : Text) (hedge : ⟨source, target⟩ ∈ (built ring).edges) :
      (built ring).Depends source target :=
    (built_wired ring).depends_iff.mpr hedge
  have hback : Relation.TransGen (built ring).Depends "x" "x" :=
    .tail (.tail (.single (hdepends "x" "y" (by decide))) (hdepends "y" "z" (by decide))) (hdepends "z" "x" (by decide))
  obtain ⟨-, -, hnone, hcycle, -⟩ := findCycle_decides ring
  cases hfound : (built ring).findCycle with
  | none => exact absurd hback (hnone.mp hfound "x")
  | some cycle => exact ⟨cycle, rfl, hcycle cycle hfound⟩

end Population.Graph

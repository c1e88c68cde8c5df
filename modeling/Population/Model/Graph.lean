import Population.Text.Basic

namespace Population

structure Edge where
  source : Text
  target : Text
  deriving DecidableEq, Repr

structure Graph where
  nodes : List Text
  edges : List Edge
  deriving DecidableEq, Repr

inductive GraphError
  | selfEdge (node : Text)
  | noSource (node : Text)
  | noDestination (node : Text)
  | noNode (node : Text)
  deriving DecidableEq, Repr

def GraphError.message : GraphError → Text
  | .selfEdge node => "self-referential edge not allowed: " ++ node ++ " -> " ++ node
  | .noSource node => "source node not found: " ++ node
  | .noDestination node => "destination node not found: " ++ node
  | .noNode node => "node not found: " ++ node

namespace Graph

def empty : Graph :=
  ⟨[], []⟩

def addNode (g : Graph) (node : Text) : Graph :=
  if node ∈ g.nodes then g else { g with nodes := g.nodes ++ [node] }

/-- Adds an edge once, between two different nodes of the graph. -/
def addEdge (g : Graph) (source target : Text) : Except GraphError Graph :=
  if source = target then .error (.selfEdge source)
  else if source ∉ g.nodes then .error (.noSource source)
  else if target ∉ g.nodes then .error (.noDestination target)
  else if ⟨source, target⟩ ∈ g.edges then .ok g
  else .ok { g with edges := g.edges ++ [⟨source, target⟩] }

def successors (g : Graph) (node : Text) : List Text :=
  Text.sort ((g.edges.filter (·.source = node)).map (·.target))

def predecessors (g : Graph) (node : Text) : List Text :=
  Text.sort ((g.edges.filter (·.target = node)).map (·.source))

def dependencies (g : Graph) (node : Text) : Except GraphError (List Text) :=
  if node ∈ g.nodes then .ok (g.successors node) else .error (.noNode node)

def dependents (g : Graph) (node : Text) : Except GraphError (List Text) :=
  if node ∈ g.nodes then .ok (g.predecessors node) else .error (.noNode node)

/-- The edges by source in the order of the nodes, those of a source by target. -/
def edgeList (g : Graph) : List Edge :=
  g.nodes.flatMap fun source => (g.successors source).map (⟨source, ·⟩)

/-- Searches for a cycle from a node on. `path` leads to the node, last one first, and no cycle goes
through the nodes of `done`. Yields a cycle, or the nodes through which no cycle goes now. -/
def visit (g : Graph) : (depth : Nat) → (path done : List Text) → (node : Text) →
    Except (List Text) (List Text)
  | 0, _, done, _ => .ok done
  | depth + 1, path, done, node =>
    if node ∈ done then .ok done
    else if node ∈ path then
      .error (node :: ((path.takeWhile (· ≠ node)).reverse ++ [node]))
    else do
      let done ← (g.successors node).foldlM (visit g depth (node :: path)) done
      return node :: done

def findCycle (g : Graph) : Option (List Text) :=
  match g.nodes.foldlM (visit g (g.nodes.length + 1) []) [] with
  | .error cycle => some cycle
  | .ok _ => none

def cycleMessage (cycle : List Text) : Text :=
  "cycle detected involving node '" ++ cycle.headD [] ++ "': [" ++ Text.join " " cycle ++ "]"

def detectCycles (g : Graph) : Except Text Unit :=
  match g.findCycle with
  | some cycle => .error (cycleMessage cycle)
  | none => .ok ()

end Graph

end Population

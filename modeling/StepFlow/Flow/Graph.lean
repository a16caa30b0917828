import StepFlow.Flow.Edge
import StepFlow.Flow.Node

/-!
# Graphs

## Main definitions

* `Graph`: the nodes and edges of a flow.
* `Graph.addNode`, `Graph.addEdge`, `Graph.join`: building a graph piece by piece.
* `mergeEdges`: edges with others appended as far as they do not clash.
-/

namespace StepFlow

/-- The nodes and edges of a flow. -/
structure Graph where
  nodes : List Node := []
  edges : List Edge := []
  deriving Inhabited

namespace Graph

/-- Whether the graph has no nodes. -/
def isEmpty (g : Graph) : Bool :=
  g.nodes.isEmpty

/-- The first node with an id. -/
def node? (g : Graph) (id : String) : Option Node :=
  g.nodes.find? fun n => n.id = id

/-- Whether a node with the id exists. -/
def hasNode (g : Graph) (id : String) : Bool :=
  (g.node? id).isSome

/-- Whether an edge with the id exists. -/
def hasEdge (g : Graph) (id : String) : Bool :=
  g.edges.any fun e => e.id = id

/-- The first edge between two nodes. -/
def edgeBetween? (g : Graph) (source target : String) : Option Edge :=
  g.edges.find? fun e => e.source = source && e.target = target

/-- Whether an edge runs from one node to the other. -/
def connects (g : Graph) (source target : String) : Bool :=
  g.edges.any fun e => e.source = source && e.target = target

/-- The edges that leave a node. -/
def edgesFrom (g : Graph) (id : String) : List Edge :=
  g.edges.filter fun e => e.source = id

/-- The edges that enter a node. -/
def edgesInto (g : Graph) (id : String) : List Edge :=
  g.edges.filter fun e => e.target = id

/-- The graph with a node more, unless its id is taken. -/
def addNode (g : Graph) (n : Node) : Graph :=
  if g.hasNode n.id then g else { g with nodes := g.nodes ++ [n] }

/-- The graph with an edge more. -/
def addEdge (g : Graph) (e : Edge) : Graph :=
  { g with edges := g.edges ++ [e] }

/-- The graph with an edge more that has the id of a sequential edge but no looks of its own. -/
def join (g : Graph) (source target : String) : Graph :=
  g.addEdge ⟨sequentialId source target, source, target, none⟩

end Graph

/-- Appends the edges of `extra` one after the other, each unless it clashes with one that is there.
Also returns how many were appended. -/
def mergeEdges (edges : List Edge) : List Edge → List Edge × Nat
  | [] => (edges, 0)
  | e :: extra =>
    if edges.any fun known => known.clashes e then mergeEdges edges extra
    else
      let (merged, added) := mergeEdges (edges ++ [e]) extra
      (merged, added + 1)

end StepFlow

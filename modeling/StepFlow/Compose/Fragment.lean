import StepFlow.Layout.Synthesis
import StepFlow.Storage.Flow

/-!
# Fragments

A stored flow made ready for its place below a node: its ids are prefixed with the node's id, it is
shifted beside the node, and an edge leads to it.

## Main definitions

* `Node.placedUnder`: a node of a fragment.
* `Edge.placedUnder`: an edge of a fragment.
* `StoredFlow.fragment`: the fragment of a flow.

## Design notes

Gaps are filled before the connector is put in front, so the connector does not count as an edge
into the first node.
-/

namespace StepFlow

/-- How far right of its parent a fragment stands. -/
def fragmentShift : Float := 300.0

/-- How far below its parent a fragment starts. -/
def fragmentDrop : Float := 150.0

/-- How much further down each node of a fragment stands. -/
def fragmentRow : Float := 120.0

/-- The node with the given index in a fragment under `parent`. Without a label it shows its former
id, and without a kind it becomes a function. -/
def Node.placedUnder (n parent : Node) (index : Nat) : Node :=
  { n with
    id := namespacedId parent.id n.id
    kind := some (n.kind.getD .function)
    label := some (filled n.label n.id)
    position := n.position.offset (parent.position.x + fragmentShift)
      (parent.position.y + fragmentDrop + Float.ofNat index * fragmentRow)
    parent := some parent.id }

/-- An edge in a fragment under the node `parent`. -/
def Edge.placedUnder (parent : String) (e : Edge) : Edge :=
  { e with
    id := namespacedId parent e.id
    source := namespacedId parent e.source
    target := namespacedId parent e.target }

/-- The edge from a node to the first of the nodes below it. -/
def connectorTo (parent : String) (nodes : List Node) : List Edge :=
  (nodes.head?.map fun first => Edge.connector parent first.id).toList

/-- A stored flow made ready for its place below a node. -/
structure Fragment where
  parent : String
  flow : String
  graph : Graph
  deriving Inhabited

/-- The fragment of the flow with id `flowId` under a node, its gaps filled. -/
def StoredFlow.fragment (flow : StoredFlow) (parent : Node) (flowId : String) (mode : GapMode) :
    Fragment :=
  let g := flow.toGraph
  let nodes := g.nodes.mapIdx fun i n => n.placedUnder parent i
  let edges := fillGaps nodes (g.edges.map (·.placedUnder parent.id)) mode
  ⟨parent.id, flowId, ⟨nodes, connectorTo parent.id nodes ++ edges⟩⟩

end StepFlow

import StepFlow.Flow.Graph

/-!
# Generated flows

A flow as a generator describes it: a map from ids to nodes that name their own successors.

## Main definitions

* `GeneratedNode`: an entry of such a map.
* `Graph.ofGenerated`: the graph of such a map, in the order of the ids.
-/

namespace StepFlow

open Json (Object)

/-- A node as a generator describes it. What it runs is given in its free-form data. -/
structure GeneratedNode where
  kind : Option String := none
  position : Option Position := none
  next : List String := []
  data : Object := []
  deriving Inhabited

namespace GeneratedNode

/-- The node with the given id. The data names the kind before the node itself does, and a label
before a name. -/
def toNode (n : GeneratedNode) (id : String) : Node where
  id := id
  kind := (n.data.text? "type" <|> n.kind).map Kind.decode
  label := n.data.text? "label" <|> n.data.text? "name"
  run := n.data.text? "run"
  args := n.data.nested "args"
  argsSchema := n.data.nested "argsSchema"
  config := n.data.nested "config"
  position := n.position.getD {}

/-- The id of the edge to a successor. -/
def edgeId (source target : String) : String :=
  "e-" ++ source ++ "-" ++ target

/-- The edges to the successors of the node with the given id. -/
def edges (n : GeneratedNode) (id : String) : List Edge :=
  n.next.map fun target => ⟨edgeId id target, id, target, some .sequential⟩

end GeneratedNode

/-- The graph of a generated flow. -/
def Graph.ofGenerated (flow : KeyMap GeneratedNode) : Graph where
  nodes := flow.entries.map fun (id, n) => n.toNode id
  edges := flow.entries.flatMap fun (id, n) => n.edges id

end StepFlow

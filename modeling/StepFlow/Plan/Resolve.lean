import StepFlow.Flow.Graph
import StepFlow.Flow.Step

/-!
# Resolving graphs into steps

## Main definitions

* `adjacency`: the targets of every source, grouped in one pass over the edges.
* `resolve`: the step of every node.
-/

namespace StepFlow

/-- Adds a target to the group of its source. -/
def addTarget (source target : String) : Keyed (List String) → Keyed (List String)
  | [] => [(source, [target])]
  | (key, targets) :: rest =>
    if key = source then (key, targets ++ [target]) :: rest
    else (key, targets) :: addTarget source target rest

/-- The targets of the edges by their source, each group in edge order. -/
def adjacency (edges : List Edge) : Keyed (List String) :=
  edges.foldl (fun groups e => addTarget e.source e.target groups) []

/-- The steps of the nodes in their order. The successors of a step are the targets of the edges
that leave it, whether these targets exist or not. -/
def resolve (nodes : List Node) (edges : List Edge) : List Step :=
  let groups := adjacency edges
  nodes.map fun n =>
    n.toStep (.ofTargets ((Keyed.get? groups n.id).getD []) n.condition?)

/-- The steps of a graph. -/
def Graph.steps (g : Graph) : List Step :=
  resolve g.nodes g.edges

end StepFlow

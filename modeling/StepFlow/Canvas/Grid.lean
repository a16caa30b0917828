import StepFlow.Flow.Graph
import StepFlow.Flow.Step

/-!
# Canvas graphs of step lists

A list of steps has no layout of its own. Its canvas form puts the steps on a diagonal.

## Main definitions

* `gridPosition`: the place of a step.
* `ofSteps`: the graph of a list of steps.
-/

namespace StepFlow

/-- The horizontal distance between two steps of the grid. -/
def columnWidth : Float := 200.0

/-- The vertical distance between two steps of the grid. -/
def rowHeight : Float := 120.0

/-- How far triggers are raised above their place. -/
def triggerLift : Float := 60.0

/-- The place of the step with the given index. -/
def gridPosition (index : Nat) (kind : Kind) : Position :=
  let i := Float.ofNat index
  let lift := if kind.isTrigger then triggerLift else 0.0
  ⟨i * columnWidth, i * rowHeight - lift⟩

/-- The edges to the successors of a step. -/
def Step.edges (s : Step) : List Edge :=
  s.next.targets.map fun target => .sequential s.id target

/-- The canvas graph of a list of steps: a node for each step, an edge for each successor. -/
def Graph.ofSteps (steps : List Step) : Graph where
  nodes := steps.mapIdx fun i s => s.toNode (gridPosition i s.kind)
  edges := steps.flatMap Step.edges

end StepFlow

import StepFlow.Canvas.Grid

/-!
# Flows in storage

## Main definitions

* `StoredFlow`: a flow in one of the two shapes that storage holds.
* `FlowRecord`: what a run writes when it saves its flow.
* `PersistedFlow`: what storage gives back.
-/

namespace StepFlow

/-- A flow as storage holds it. -/
inductive StoredFlow
  | graph (g : Graph)
  /-- A bare list of steps, the shape of generated flows. -/
  | steps (list : List Step)
  deriving Inhabited

namespace StoredFlow

/-- The canvas graph of a stored flow. -/
def toGraph : StoredFlow → Graph
  | graph g => g
  | steps list => .ofSteps list

/-- Whether a stored flow is a list of steps. -/
def isSteps : StoredFlow → Bool
  | graph _ => false
  | steps _ => true

end StoredFlow

/-- What a run writes when it saves its flow. -/
structure FlowRecord where
  name : String
  nodes : List Node
  edges : List Edge
  /-- The step that is about to be executed. -/
  current : Option String := none
  deriving Inhabited

/-- A flow as read back from storage. -/
structure PersistedFlow where
  name : Option String := none
  nodes : List Node := []
  edges : List Edge := []
  current : Option String := none
  next : Option String := none
  deriving Inhabited

end StepFlow

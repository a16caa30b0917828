import StepFlow.Flow.Kind
import StepFlow.Flow.Position
import StepFlow.Json.Value

/-!
# Nodes

## Main definitions

* `Node`: a node as authored on the canvas, where all but the id may be missing.
* `Node.subflowId?`: the stored flow that the node refers to.
* `Node.condition?`: the expression that guards the successors of a condition.
-/

namespace StepFlow

open Json (Object Value)

/-- The setting that refers to the flow composed under a node. -/
def subflowKey : String := "default_flow_id"

/-- The setting that holds the expression of a condition. -/
def conditionKey : String := "condition"

/-- The text under a key of an object, unless it is blank. -/
def nonBlankText? (o : Object) (key : String) : Option String :=
  (o.text? key).filter fun s => !Text.isBlankText s

/-- A node as authored on the canvas. -/
structure Node where
  id : String
  kind : Option Kind := none
  label : Option String := none
  /-- The handler that the backend runs. -/
  run : Option String := none
  args : Object := []
  argsSchema : Object := []
  config : Object := []
  position : Position := {}
  /-- The node under which this one was composed. -/
  parent : Option String := none
  deriving Inhabited

namespace Node

/-- The stored flow that the node refers to. -/
def subflowId? (n : Node) : Option String :=
  nonBlankText? n.config subflowKey

/-- Whether the node is an entry point. -/
def isTrigger (n : Node) : Bool :=
  n.kind.any Kind.isTrigger

/-- The expression that guards the successors; only a condition has one. -/
def condition? (n : Node) : Option String :=
  if n.kind.any Kind.isCondition then n.config.text? conditionKey else none

/-- Whether the node was composed under the given one. -/
def isUnder (n : Node) (parent : String) : Bool :=
  n.parent = some parent

end Node

end StepFlow

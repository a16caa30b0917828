import StepFlow.Diagnostic
import StepFlow.Flow.Step

/-!
# Plans

## Main definitions

* `Plan`: the order in which the steps of a flow are run.
* `Plan.index`: the places of the steps by their ids.
* `Plan.position?`, `Plan.following?`, `Plan.preceding?`: finding one's way in a plan.
* `PlanError`: why a graph has no plan.

## Design notes

Ids are never searched for among the steps: every look-up goes through the index and takes the step
at the place that stands there. So a plan with an id twice would be misread.
-/

namespace StepFlow

/-- The order in which the steps of a flow are run. -/
structure Plan where
  steps : List Step
  deriving Inhabited

namespace Plan

variable (p : Plan)

/-- The ids of the steps in plan order. -/
def ids : List String :=
  p.steps.map (·.id)

/-- The number of steps. -/
def length : Nat :=
  p.steps.length

/-- The first step. -/
def first? : Option Step :=
  p.steps.head?

/-- The places of the steps by their ids. Places are entered in plan order, each in front of those
entered before, so of several places of one id the last one counts. -/
def index : Keyed Nat :=
  (p.steps.zipIdx.map fun (s, i) => (s.id, i)).reverse

/-- The place of a step, counted from zero. -/
def position? (id : String) : Option Nat :=
  Keyed.get? p.index id

/-- Whether a step with the id is part of the plan. -/
def contains (id : String) : Bool :=
  Keyed.contains p.index id

/-- The step with the id. -/
def get? (id : String) : Option Step :=
  (p.position? id).bind fun i => p.steps[i]?

/-- The step right after the one with the id. -/
def following? (id : String) : Option Step :=
  (p.position? id).bind fun i => p.steps[i + 1]?

/-- The step right before the one with the id. -/
def preceding? (id : String) : Option Step :=
  (p.position? id).bind fun i => if i = 0 then none else p.steps[i - 1]?

end Plan

/-- Why a graph has no plan. -/
inductive PlanError
  | emptyGraph
  /-- Every one of the nodes is a target, and none is a trigger. -/
  | noRoot (nodeCount : Nat)
  deriving DecidableEq, Repr

/-- How a planning error is reported. -/
def PlanError.diagnostic : PlanError → Diagnostic
  | emptyGraph =>
    { code := "flowweave::plan::empty_graph"
      message := "cannot build a plan from an empty graph"
      help := some "Add at least one node before running the flow." }
  | noRoot nodeCount =>
    { code := "flowweave::plan::no_root"
      message := s!"no root step found among {nodeCount} nodes"
      help := some ("Every node has an incoming edge. " ++
        "Add a trigger node or remove an edge that closes the cycle.") }

end StepFlow

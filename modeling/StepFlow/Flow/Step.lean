import StepFlow.Flow.Node

/-!
# Steps

## Main definitions

* `Successors`: what may follow a step.
* `Step`: a node with all defaults filled in and its successors.
* `Node.toStep`, `Step.toNode`: from one form to the other.
-/

namespace StepFlow

open Json (Object)

/-- What may follow a step. -/
inductive Successors
  /-- Nothing follows. -/
  | terminal
  /-- One step follows in any case. -/
  | single (target : String)
  /-- Several steps may follow, or one under a condition. -/
  | branch (targets : List String) (condition : Option String)
  deriving DecidableEq, Repr, Inhabited

namespace Successors

/-- Sorts a list of targets. A condition on a single target is kept in a branch. -/
def ofTargets : List String → Option String → Successors
  | [], _ => terminal
  | [target], none => single target
  | targets, condition => branch targets condition

/-- The targets in order. -/
def targets : Successors → List String
  | terminal => []
  | single target => [target]
  | branch targets _ => targets

/-- The condition of a branch. -/
def condition : Successors → Option String
  | branch _ condition => condition
  | _ => none

/-- The successor that is suggested to the backend: the first target. -/
def candidate (s : Successors) : Option String :=
  s.targets.head?

/-- Whether nothing follows. -/
def isTerminal : Successors → Bool
  | terminal => true
  | _ => false

/-- Whether the backend has to choose, or a condition decides. -/
def isBranch : Successors → Bool
  | branch .. => true
  | _ => false

@[simp] theorem targets_ofTargets (targets : List String) (condition : Option String) :
    (ofTargets targets condition).targets = targets := by
  match targets, condition with
  | [], _ => rfl
  | [_], none => rfl
  | [_], some _ => rfl
  | _ :: _ :: _, _ => rfl

/-- Without targets there is nothing to guard; any other condition is kept. -/
theorem condition_ofTargets (targets : List String) (condition : Option String) :
    (ofTargets targets condition).condition = if targets = [] then none else condition := by
  match targets, condition with
  | [], _ => rfl
  | [_], none => rfl
  | [_], some _ => rfl
  | _ :: _ :: _, _ => rfl

theorem ofTargets_ofTargets (targets : List String) (condition : Option String) :
    ofTargets (ofTargets targets condition).targets (ofTargets targets condition).condition =
      ofTargets targets condition := by
  rw [targets_ofTargets, condition_ofTargets]
  split
  · next h =>
    rw [h]
    rfl
  · rfl

end Successors

/-- The label of a step whose node has none. -/
def defaultLabel : String := "Unnamed"

/-- The handler of a step whose node has none. -/
def defaultRun : String := "noop"

/-- A node with its defaults filled in and its successors: what a run executes. -/
structure Step where
  id : String
  kind : Kind
  label : String
  run : String
  args : Object
  argsSchema : Object
  config : Object
  position : Position
  next : Successors
  deriving Inhabited

/-- A text that is there and not empty, or else the default. -/
def filled (text : Option String) (default : String) : String :=
  (text.filter fun s => s ≠ "").getD default

theorem filled_some (text default : String) :
    filled (some text) default = if text = "" then default else text := by
  by_cases h : text = "" <;> simp [filled, Option.filter, h]

theorem filled_filled (text : Option String) (default : String) :
    filled (some (filled text default)) default = filled text default := by
  rcases text with _ | text
  · show filled (some default) default = default
    rw [filled_some]
    split <;> rfl
  · by_cases h : text = ""
    · rw [filled_some text, if_pos h, filled_some]
      split <;> rfl
    · rw [filled_some text, if_neg h, filled_some, if_neg h]

/-- The step of a node with the given successors. -/
def Node.toStep (n : Node) (next : Successors) : Step where
  id := n.id
  kind := n.kind.getD .generic
  label := filled n.label defaultLabel
  run := filled n.run defaultRun
  args := n.args
  argsSchema := n.argsSchema
  config := n.config
  position := n.position
  next := next

/-- The node of a step at the given place. -/
def Step.toNode (s : Step) (position : Position) : Node where
  id := s.id
  kind := some s.kind
  label := some s.label
  run := some s.run
  args := s.args
  argsSchema := s.argsSchema
  config := s.config
  position := position

end StepFlow

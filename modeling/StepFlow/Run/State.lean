import StepFlow.Diagnostic
import StepFlow.Json.Value
import StepFlow.Plan.Basic
import StepFlow.Run.Exchange
import StepFlow.Storage.Repository

/-!
# States of a run

## Main definitions

* `RunState`: where a run stands.
* `Outcome`: what an approval led to.
* `RunError`: why an operation on a run failed.
-/

namespace StepFlow

open Json (Value)

/-- Where a run stands. -/
inductive RunState
  | idle
  /-- A person has to approve the step. The result is what the backend put out on the way to it. -/
  | awaitingApproval (step : String) (result : Option Value)
  /-- The backend is at work. -/
  | running (step : String)
  | complete
  /-- The graph has no plan. -/
  | error (message : String)
  deriving Inhabited

namespace RunState

/-- The name of a state. -/
def name : RunState → String
  | idle => "idle"
  | awaitingApproval .. => "awaiting_approval"
  | running _ => "running"
  | complete => "complete"
  | error _ => "error"

/-- The step that waits for approval. -/
def pending? : RunState → Option String
  | awaitingApproval step _ => some step
  | _ => none

/-- Whether the run has come to its end. -/
def isComplete : RunState → Bool
  | complete => true
  | _ => false

/-- The step that a state is about. -/
def step? : RunState → Option String
  | awaitingApproval step _ => some step
  | running step => some step
  | _ => none

/-- The name of a state with its step. -/
def display (s : RunState) : String :=
  match s.step? with
  | some step => s!"{s.name}({step})"
  | none => s.name

end RunState

/-- What an approval led to. -/
inductive Outcome
  /-- Another step waits for approval now. -/
  | advanced (step : String) (next : Option String) (output : Value)
  /-- The backend named no further step. -/
  | completed (output : Value)
  deriving Inhabited

/-- Why an operation on a run failed. -/
inductive RunError
  | notAwaitingApproval (state : String)
  | plan (cause : PlanError)
  | persistence (cause : PersistenceError)
  | executor (cause : ExecutorError)
  | noRepository
  deriving DecidableEq, Repr

/-- How an error of a run is reported. An error of planning is reported as it is. -/
def RunError.diagnostic : RunError → Diagnostic
  | notAwaitingApproval state =>
    { code := "flowweave::coordinator::not_awaiting_approval"
      message := s!"no step is awaiting approval (run is {state})"
      help := some "Call start() first, or reset() after the run completed or failed." }
  | plan cause => cause.diagnostic
  | persistence cause =>
    .causedBy "flowweave::coordinator::persistence" "saving the flow failed" cause.diagnostic
  | executor cause =>
    .causedBy "flowweave::coordinator::executor" "executing the step failed" cause.diagnostic
  | noRepository =>
    { code := "flowweave::coordinator::no_repository"
      message := "no flow repository configured" }

end StepFlow

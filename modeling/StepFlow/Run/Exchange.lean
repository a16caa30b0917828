import StepFlow.Diagnostic
import StepFlow.Flow.Graph
import StepFlow.Flow.Step
import StepFlow.Json.Cursor
import StepFlow.Store.Context

/-!
# The exchange with the backend

The backend runs the handlers of the steps. It is told the whole flow and the step that was
approved, and answers with the output of the step and the step that it wants next.

## Main definitions

* `StepRequest`: what the backend is told.
* `StepResponse`: what it answers.
* `ExecutorError`: why there is no answer.
-/

namespace StepFlow

open Json (Value)

/-- What describes a run. -/
structure RunMetadata where
  name : String
  flowId : Option String := none
  /-- The time at which the run was started. -/
  startedAt : String
  deriving DecidableEq, Repr, Inhabited

/-- The flow as it stood when a step was approved. -/
structure FlowState where
  name : String
  flowId : Option String := none
  steps : List Step
  edges : List Edge
  current : String
  deriving Inhabited

/-- The request to run a step. -/
structure StepRequest where
  flowId : Option String
  nodes : List Node
  /-- The steps of all nodes in their order. -/
  steps : List Step
  /-- The step to run, if it is part of the plan. -/
  current : Option Step
  flow : FlowState
  stepId : String
  /-- The step that the graph suggests to run next; the backend may choose another one. -/
  candidate : Option String
  context : Context
  metadata : RunMetadata
  deriving Inhabited

/-- The answer for a step. -/
structure StepResponse where
  /-- The step to run next; none or an empty text ends the run. -/
  next : Option String := none
  output : Value := .null
  context : Value := .null
  deriving Inhabited

namespace StepResponse

/-- The answer that names the next step. -/
def advance (next : String) (output : Value) : StepResponse :=
  { next := some next, output }

/-- The answer that ends the run. -/
def finished (output : Value) : StepResponse :=
  { output }

/-- The step that the answer leads to. -/
def target? (r : StepResponse) : Option String :=
  r.next.filter fun id => id ≠ ""

/-- Whether the answer ends the run. -/
def isFinal (r : StepResponse) : Bool :=
  r.target?.isNone

/-- The step of an answer from outside: a blank id counts as none. -/
def nonBlank (next : Option String) : Option String :=
  next.filter fun id => !Text.isBlankText id

end StepResponse

/-- Why an answer was not understood. -/
inductive ResponseFault
  | shape (fault : Json.DecodeError)
  | text (fault : Json.ReadError)
  deriving DecidableEq, Repr

/-- The wording of a fault. -/
def ResponseFault.message : ResponseFault → String
  | shape fault => fault.message
  | text fault => fault.message

/-- Why the backend gave no answer. -/
inductive ExecutorError
  | rejected (step reason : String)
  | transport (reason : String)
  | decode (fault : ResponseFault)
  deriving DecidableEq, Repr

/-- How an error of the backend is reported. -/
def ExecutorError.diagnostic : ExecutorError → Diagnostic
  | rejected step reason =>
    { code := "flowweave::backend::rejected"
      message := s!"backend rejected step {step}: {reason}" }
  | transport reason =>
    { code := "flowweave::backend::transport"
      message := s!"backend unreachable: {reason}"
      help := some "Check FLOWWEAVE_BACKEND_URL and that the runner service is up." }
  | decode fault =>
    { code := "flowweave::backend::decode"
      message := s!"backend response could not be decoded: {fault.message}"
      causes := [fault.message] }

end StepFlow

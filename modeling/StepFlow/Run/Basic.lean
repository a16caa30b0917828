import StepFlow.Authoring.Warning
import StepFlow.Event.Notice
import StepFlow.Plan.Linearize
import StepFlow.Run.Settings
import StepFlow.Run.State
import StepFlow.Time.Timestamp

/-!
# Running flows step by step

Every step waits until a person approves it. An approval saves the flow, has the backend execute
the step, and moves on to the step that the backend names. A step that fails stays pending.

## Main definitions

* `Host`: what surrounds a run: storage, backend, handlers and settings.
* `Run`: a flow and where its run stands.
* `Run.start`, `Run.approve`, `Run.reject`, `Run.reset`, `Run.reopen`: the operations.
* `Moved`: what came of an operation.

## Design notes

Storage and backend may do as they like with a state of their own, which is threaded through the
operations as `σ`. A fault of one of them leaves the run on its step, a graph without a plan does
not.
-/

namespace StepFlow

open Json (Value)

/-- Where flows are saved and loaded. -/
structure Storage (σ : Type) where
  /-- Saves a record under an id, or under a new one if there is none; returns the id in use. -/
  save : Option String → FlowRecord → σ → Except PersistenceError String × σ
  load : String → σ → Except PersistenceError PersistedFlow × σ

/-- What surrounds a run. -/
structure Host (σ : Type) where
  storage : Option (Storage σ)
  /-- Has the backend execute a step. -/
  execute : StepRequest → σ → Except ExecutorError StepResponse × σ
  registry : Option Registry
  settings : Settings

/-- A flow and where its run stands. -/
structure Run where
  store : Store := {}
  state : RunState := .idle
  lastError : Option String := none
  startedAt : Option Timestamp := none
  deriving Inhabited

/-- What came of an operation on a run. -/
structure Moved (α : Type) where
  answer : Except RunError α
  run : Run
  notices : List Notice := []

/-- The same with earlier notices in front. -/
def Moved.following (m : Moved α) (earlier : List Notice) : Moved α :=
  { m with notices := earlier ++ m.notices }

namespace Run

variable (r : Run)

/-- The name of the flow, or the one of the settings if it is blank. -/
def flowName (settings : Settings) : String :=
  if Text.isBlankText r.store.name then settings.flowName else r.store.name

/-- Stops the run because its graph has no plan. -/
def halt (e : PlanError) : Moved α :=
  let message := e.diagnostic.message
  { answer := .error (.plan e)
    run := { r with state := .error message, lastError := some message }
    notices := [.error .execution message none] }

/-- Leaves the run on its step after a fault. -/
def stay (step : String) (result : Option Value) (scope : Scope) (e : RunError) : Moved α :=
  let message := e.diagnostic.chain
  { answer := .error e
    run := { r with state := .awaitingApproval step result, lastError := some message }
    notices := [.error scope message (some step)] }

/-- The step with which a run starts: the stored one if it is still planned, else the first. -/
def entry? (plan : Plan) : Option String :=
  (r.store.pointers.current.filter plan.contains) <|> plan.first?.map (·.id)

/-- Starts the run: its first step waits for approval. -/
def start (now : Timestamp) : Moved String :=
  match r.store.graph.plan with
  | .error e => r.halt e
  | .ok plan =>
    match r.entry? plan with
    | none => r.halt .emptyGraph
    | some step =>
      { answer := .ok step
        run := {
          store := r.store.setPointers ⟨some step, (plan.following? step).map (·.id)⟩
          state := .awaitingApproval step none
          lastError := none
          startedAt := some now }
        notices := [.info .execution "run started, awaiting approval" step] }

/-- The notices of the problems of the graph. -/
def alerts (registry : Option Registry) : List Notice :=
  (warnings r.store.graph.nodes r.store.graph.edges registry).map fun w =>
    .warning .authoring w.diagnostic.message w.subject

/-- What is saved before a step is executed. -/
def record (settings : Settings) (step : String) : FlowRecord where
  name := r.flowName settings
  nodes := r.store.graph.nodes
  edges := r.store.graph.edges
  current := some step

/-- Saves the flow if there is storage. A flow without an id gets the one it is saved under. -/
def persist (host : Host σ) (step : String) (world : σ) : Except PersistenceError Run × σ :=
  match host.storage with
  | none => (.ok r, world)
  | some storage =>
    match storage.save r.store.flowId (r.record host.settings step) world with
    | (.error e, world) => (.error e, world)
    | (.ok id, world) =>
      if r.store.flowId.isNone then (.ok { r with store := r.store.setFlowId id }, world)
      else (.ok r, world)

/-- The step to suggest to the backend: the first target of the current one, or else its successor
in the plan. -/
def candidate? (plan : Plan) (step : String) : Option String :=
  ((plan.get? step).bind (·.next.candidate)) <|> (plan.following? step).map (·.id)

/-- The request to execute a step. -/
def request (settings : Settings) (plan : Plan) (step : String) (now : Timestamp) :
    StepRequest :=
  let name := r.flowName settings
  let steps := r.store.graph.steps
  { flowId := r.store.flowId
    nodes := r.store.graph.nodes
    steps := steps
    current := plan.get? step
    flow := {
      name := name
      flowId := r.store.flowId
      steps := steps
      edges := r.store.graph.edges
      current := step }
    stepId := step
    candidate := candidate? plan step
    context := r.store.context
    metadata := {
      name := name
      flowId := r.store.flowId
      startedAt := (r.startedAt.getD now).renderOffset } }

/-- The notices of an answer that names a step. -/
def advanceNotices (plan : Plan) (step target : String) : List Notice :=
  (if plan.contains target then []
    else [.warning .execution "backend named an unknown step" target])
    ++ [.info .execution s!"step {step} approved" target]

/-- Moves on as the answer for a step says. -/
def advance (plan : Plan) (step : String) (response : StepResponse) : Moved Outcome :=
  match response.target? with
  | none =>
    { answer := .ok (.completed response.output)
      run := { r with
        store := r.store.setPointers ⟨some step, none⟩
        state := .complete
        lastError := none }
      notices := [.info .execution "flow completed" step] }
  | some target =>
    let next := (plan.following? target).map (·.id)
    { answer := .ok (.advanced target next response.output)
      run := { r with
        store := (r.store.record target response.output).setPointers ⟨some target, next⟩
        state := .awaitingApproval target (some response.output)
        lastError := none }
      notices := advanceNotices plan step target }

/-- Has the backend execute the step and moves on. -/
def execute (host : Host σ) (plan : Plan) (step : String) (result : Option Value)
    (now : Timestamp) (world : σ) : Moved Outcome × σ :=
  let (answer, world) := host.execute (r.request host.settings plan step now) world
  let r := { r with state := .running step }
  match answer with
  | .ok response => (r.advance plan step response, world)
  | .error e => (r.stay step result .execution (.executor e), world)

/-- Approves the pending step: the flow is saved, the step executed, and the run moved on. -/
def approve (host : Host σ) (now : Timestamp) (world : σ) : Moved Outcome × σ :=
  match r.state with
  | .awaitingApproval step result =>
    let alerts := r.alerts host.registry
    match r.persist host step world with
    | (.error e, world) =>
      ((r.stay step result .persistence (.persistence e)).following alerts, world)
    | (.ok r, world) =>
      match r.store.graph.plan with
      | .error e => ((r.halt e).following alerts, world)
      | .ok plan =>
        let (moved, world) := r.execute host plan step result now world
        (moved.following alerts, world)
  | state => ({ answer := .error (.notAwaitingApproval state.display), run := r }, world)

/-- Leaves a rejected step pending. -/
def hold (step message : String) : Moved String :=
  { answer := .ok step, run := r, notices := [.info .execution message step] }

/-- Makes the step before a rejected one pending again. -/
def stepBack (step previous : String) : Moved String :=
  { answer := .ok previous
    run := { r with
      store := r.store.setPointers ⟨some previous, some step⟩
      state := .awaitingApproval previous (r.store.context.get? previous) }
    notices := [.info .execution s!"step {step} rejected, stepped back" previous] }

/-- Rejects the pending step. Returns the step that waits for approval then. -/
def reject (policy : RejectPolicy) : Moved String :=
  match r.state.pending?, policy with
  | none, _ => { answer := .error (.notAwaitingApproval r.state.display), run := r }
  | some step, .hold => r.hold step "step rejected, holding"
  | some step, .stepBack =>
    match r.store.graph.plan with
    | .error e => r.halt e
    | .ok plan =>
      match plan.preceding? step with
      | none => r.hold step "step rejected at first step, holding"
      | some previous => r.stepBack step previous.id

/-- Gives the run up; the graph stays. -/
def reset : Run :=
  { store := r.store.resetRun }

/-- Loads another flow and gives the run up. -/
def reopen (host : Host σ) (flowId : String) (world : σ) : Moved Unit × σ :=
  match host.storage with
  | none => ({ answer := .error .noRepository, run := r }, world)
  | some storage =>
    match storage.load flowId world with
    | (.error e, world) => ({ answer := .error (.persistence e), run := r }, world)
    | (.ok flow, world) => ({ answer := .ok (), run := { store := .load flowId flow } }, world)

end Run

end StepFlow

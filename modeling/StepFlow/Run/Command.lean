import StepFlow.Run.Basic
import StepFlow.Store.Command

/-!
# Commands to a run

## Main definitions

* `Run.Command`: an operation on a run, or an edit of its flow.
* `Run.perform`: carries out a command.
* `Run.performAll`: the run after commands carried out one after the other.
-/

namespace StepFlow.Run

/-- An operation on a run, or an edit of its flow. -/
inductive Command
  | start (now : Timestamp)
  | approve (now : Timestamp)
  | reject
  | reset
  | reopen (flowId : String)
  /-- Fills the gaps of the graph in the configured mode. -/
  | fillGaps
  | edit (c : Store.Command)

/-- What a command returns. -/
inductive Answer
  | step (id : String)
  | outcome (o : Outcome)
  | edited (a : Store.Answer)

/-- What came of a command. -/
structure Performed where
  answer : Except Diagnostic Answer
  run : Run
  notices : List Notice := []
  /-- The ids that a source of flows was asked for. -/
  fetched : List String := []

/-- The result of an operation on the run itself. -/
def ofMoved (answer : α → Answer) (m : Moved α) : Performed :=
  { answer := (m.answer.map answer).mapError (·.diagnostic), run := m.run, notices := m.notices }

/-- The result of an edit of the flow. -/
def ofEdited (r : Run) (e : Store.Edited) : Performed :=
  { answer := (e.answer.map .edited).mapError (·.diagnostic)
    run := { r with store := e.store }
    notices := e.notices
    fetched := e.fetched }

/-- Carries out a command. -/
def perform (host : Host σ) (r : Run) (world : σ) : Command → Performed × σ
  | .start now => (ofMoved .step (r.start now), world)
  | .approve now =>
    let (moved, world) := r.approve host now world
    (ofMoved .outcome moved, world)
  | .reject => (ofMoved .step (r.reject host.settings.policy), world)
  | .reset => ({ answer := .ok (.edited .done), run := r.reset }, world)
  | .reopen flowId =>
    let (moved, world) := r.reopen host flowId world
    (ofMoved (fun _ => .edited .done) moved, world)
  | .fillGaps => (r.ofEdited (r.store.edit (.fillGaps host.settings.mode)), world)
  | .edit c => (r.ofEdited (r.store.edit c), world)

/-- The run after a list of commands. -/
def performAll (host : Host σ) (r : Run) (world : σ) (commands : List Command) : Run × σ :=
  commands.foldl
    (fun (r, world) c =>
      let (performed, world) := r.perform host world c
      (performed.run, world))
    (r, world)

end StepFlow.Run

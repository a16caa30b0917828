import StepFlow.Json.Decode
import StepFlow.Store.Basic

/-!
# The state of a run on the wire

The JSON forms of pointers and of the results of a run.
-/

namespace StepFlow

open Json

namespace Pointers

def shape : Shape := ⟨"PlanPointers", ["currentStepId", "nextStepId"]⟩

def toJson (p : Pointers) : Value :=
  .obj [("currentStepId", .ofText? p.current), ("nextStepId", .ofText? p.next)]

def fromJson : Decoder Pointers := fun v => do
  let given ← shape.read v
  let current := shape.field given "currentStepId" (Decoder.nullable Decoder.text)
  let next := shape.field given "nextStepId" (Decoder.nullable Decoder.text)
  shape.visit given [("currentStepId", current.fault?), ("nextStepId", next.fault?)]
  return {
    current := ← shape.namedOrNone given "currentStepId" current
    next := ← shape.namedOrNone given "nextStepId" next }

end Pointers

namespace StepResult

def shape : Shape := ⟨"ContextEntry", ["stepId", "result"]⟩

def toJson (r : StepResult) : Value :=
  .obj [("result", r.result), ("stepId", .str r.step)]

def fromJson : Decoder StepResult := fun v => do
  let given ← shape.read v
  let step := shape.field given "stepId" Decoder.text
  let result := shape.field given "result" Decoder.any
  shape.visit given [("stepId", step.fault?), ("result", result.fault?)]
  return {
    step := ← shape.required given "stepId" step
    result := ← shape.required given "result" result }

end StepResult

namespace Context

def toJson (c : Context) : Value :=
  .arr (c.entries.map StepResult.toJson)

def fromJson : Decoder Context := fun v => do
  return ⟨← Decoder.list StepResult.fromJson v⟩

end Context

end StepFlow

import StepFlow.Run.Exchange
import StepFlow.Wire.Graph
import StepFlow.Wire.Store

/-!
# Requests and responses on the wire

The JSON forms of what is exchanged with the backend. A blank next step in a response is read as
none.
-/

namespace StepFlow

open Json

namespace RunMetadata

def shape : Shape := ⟨"RunMetadata", ["name", "flowId", "startedAt"]⟩

def toJson (m : RunMetadata) : Value :=
  .obj (Object.optional "flowId" (m.flowId.map .str)
    ++ [("name", .str m.name), ("startedAt", .str m.startedAt)])

def fromJson : Decoder RunMetadata := fun v => do
  let given ← shape.read v
  let name := shape.field given "name" Decoder.text
  let flowId := shape.field given "flowId" (Decoder.nullable Decoder.text)
  let startedAt := shape.field given "startedAt" Decoder.text
  shape.visit given [("name", name.fault?), ("flowId", flowId.fault?),
    ("startedAt", startedAt.fault?)]
  return {
    name := ← shape.required given "name" name
    flowId := ← flowId.orNone
    startedAt := ← shape.required given "startedAt" startedAt }

end RunMetadata

namespace FlowState

def shape : Shape := ⟨"FlowState", ["name", "flowId", "nodes", "edges", "currentStep"]⟩

def toJson (s : FlowState) : Value :=
  .obj ([("currentStep", .str s.current), ("edges", edgesToJson s.edges)]
    ++ Object.optional "flowId" (s.flowId.map .str)
    ++ [("name", .str s.name), ("nodes", stepsToJson s.steps)])

def fromJson : Decoder FlowState := fun v => do
  let given ← shape.read v
  let name := shape.field given "name" Decoder.text
  let flowId := shape.field given "flowId" (Decoder.nullable Decoder.text)
  let steps := shape.field given "nodes" stepsFromJson
  let edges := shape.field given "edges" edgesFromJson
  let current := shape.field given "currentStep" Decoder.text
  shape.visit given [("name", name.fault?), ("flowId", flowId.fault?), ("nodes", steps.fault?),
    ("edges", edges.fault?), ("currentStep", current.fault?)]
  return {
    name := ← shape.required given "name" name
    flowId := ← flowId.orNone
    steps := ← shape.required given "nodes" steps
    edges := ← shape.required given "edges" edges
    current := ← shape.required given "currentStep" current }

end FlowState

namespace StepRequest

def shape : Shape :=
  ⟨"StepRequest", ["flowId", "nodes", "steps", "currentNode", "prevFlowState", "stepId",
    "candidateNextStep", "context", "metadata"]⟩

def toJson (r : StepRequest) : Value :=
  .obj [("candidateNextStep", .ofText? r.candidate), ("context", r.context.toJson),
    ("currentNode", (r.current.map Step.toJson).getD .null), ("flowId", .ofText? r.flowId),
    ("metadata", r.metadata.toJson), ("nodes", nodesToJson r.nodes),
    ("prevFlowState", r.flow.toJson), ("stepId", .str r.stepId), ("steps", stepsToJson r.steps)]

def fromJson : Decoder StepRequest := fun v => do
  let given ← shape.read v
  let flowId := shape.field given "flowId" (Decoder.nullable Decoder.text)
  let nodes := shape.field given "nodes" nodesFromJson
  let steps := shape.field given "steps" stepsFromJson
  let current := shape.field given "currentNode" (Decoder.nullable Step.fromJson)
  let flow := shape.field given "prevFlowState" FlowState.fromJson
  let stepId := shape.field given "stepId" Decoder.text
  let candidate := shape.field given "candidateNextStep" (Decoder.nullable Decoder.text)
  let context := shape.field given "context" Context.fromJson
  let metadata := shape.field given "metadata" RunMetadata.fromJson
  shape.visit given [("flowId", flowId.fault?), ("nodes", nodes.fault?), ("steps", steps.fault?),
    ("currentNode", current.fault?), ("prevFlowState", flow.fault?), ("stepId", stepId.fault?),
    ("candidateNextStep", candidate.fault?), ("context", context.fault?),
    ("metadata", metadata.fault?)]
  return {
    flowId := ← shape.namedOrNone given "flowId" flowId
    nodes := ← shape.required given "nodes" nodes
    steps := ← shape.required given "steps" steps
    current := ← shape.namedOrNone given "currentNode" current
    flow := ← shape.required given "prevFlowState" flow
    stepId := ← shape.required given "stepId" stepId
    candidate := ← shape.namedOrNone given "candidateNextStep" candidate
    context := ← shape.required given "context" context
    metadata := ← shape.required given "metadata" metadata }

end StepRequest

namespace StepResponse

def shape : Shape := ⟨"StepResponse", ["next_step", "output", "context"]⟩

def toJson (r : StepResponse) : Value :=
  .obj [("context", r.context), ("next_step", .ofText? r.next), ("output", r.output)]

def fromJson : Decoder StepResponse := fun v => do
  let given ← shape.read v
  let next := shape.field given "next_step" (Decoder.nullable Decoder.text)
  let output := shape.field given "output" Decoder.any
  let context := shape.field given "context" Decoder.any
  shape.visit given [("next_step", next.fault?), ("output", output.fault?),
    ("context", context.fault?)]
  return {
    next := nonBlank (← next.orNone)
    output := ← output.orElse .null
    context := ← context.orElse .null }

end StepResponse

end StepFlow

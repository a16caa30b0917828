import StepFlow.Storage.Flow
import StepFlow.Storage.Source
import StepFlow.Wire.Graph

/-!
# Stored flows on the wire

The JSON forms of flows in storage. A stored flow has two shapes, which are told apart by trying
one after the other: an object with nodes, then an object with steps.
-/

namespace StepFlow

open Json

namespace StoredFlow

/-- The shape of a stored graph; without a list of nodes it does not fit. -/
def graphShape : Shape := ⟨"StoredFlow", ["nodes", "edges"]⟩

/-- The shape of a stored list of steps. -/
def stepsShape : Shape := ⟨"StoredFlow", ["steps"]⟩

def toJson : StoredFlow → Value
  | graph g => g.toJson
  | steps list => .obj [("steps", stepsToJson list)]

/-- Decodes the entries of a stored graph. -/
def graphFromObject (entries : Object) : Except DecodeError StoredFlow := do
  let given := Fields.named entries
  let nodes := graphShape.field given "nodes" nodesFromJson
  let edges := graphShape.field given "edges" edgesFromJson
  graphShape.visit given [("nodes", nodes.fault?), ("edges", edges.fault?)]
  return .graph {
    nodes := ← graphShape.required given "nodes" nodes
    edges := ← edges.orElse [] }

/-- Decodes the entries of a stored list of steps. -/
def stepsFromObject (entries : Object) : Except DecodeError StoredFlow := do
  let given := Fields.named entries
  let steps := stepsShape.field given "steps" stepsFromJson
  stepsShape.visit given [("steps", steps.fault?)]
  return .steps (← stepsShape.required given "steps" steps)

def fromJson : Decoder StoredFlow
  | .obj entries =>
    match graphFromObject entries, stepsFromObject entries with
    | .ok flow, _ => .ok flow
    | .error _, .ok flow => .ok flow
    | .error _, .error _ => .error .noShape
  | _ => .error .noShape

/-- Decodes a flow as a source keeps it. -/
def ofJson (v : Value) : Except SourceError StoredFlow :=
  (fromJson v).mapError .malformed

end StoredFlow

namespace FlowRecord

def shape : Shape := ⟨"FlowRecord", ["name", "nodes", "edges", "currentStep"]⟩

def toJson (r : FlowRecord) : Value :=
  .obj (Object.optional "currentStep" (r.current.map .str)
    ++ [("edges", edgesToJson r.edges), ("name", .str r.name), ("nodes", nodesToJson r.nodes)])

def fromJson : Decoder FlowRecord := fun v => do
  let given ← shape.read v
  let name := shape.field given "name" Decoder.text
  let nodes := shape.field given "nodes" nodesFromJson
  let edges := shape.field given "edges" edgesFromJson
  let current := shape.field given "currentStep" (Decoder.nullable Decoder.text)
  shape.visit given [("name", name.fault?), ("nodes", nodes.fault?), ("edges", edges.fault?),
    ("currentStep", current.fault?)]
  return {
    name := ← shape.required given "name" name
    nodes := ← shape.required given "nodes" nodes
    edges := ← shape.required given "edges" edges
    current := ← current.orNone }

end FlowRecord

namespace PersistedFlow

def shape : Shape := ⟨"PersistedFlow", ["name", "nodes", "edges", "currentStep", "nextStep"]⟩

def toJson (f : PersistedFlow) : Value :=
  .obj [("currentStep", .ofText? f.current), ("edges", edgesToJson f.edges),
    ("name", .ofText? f.name), ("nextStep", .ofText? f.next), ("nodes", nodesToJson f.nodes)]

def fromJson : Decoder PersistedFlow := fun v => do
  let given ← shape.read v
  let name := shape.field given "name" (Decoder.nullable Decoder.text)
  let nodes := shape.field given "nodes" nodesFromJson
  let edges := shape.field given "edges" edgesFromJson
  let current := shape.field given "currentStep" (Decoder.nullable Decoder.text)
  let next := shape.field given "nextStep" (Decoder.nullable Decoder.text)
  shape.visit given [("name", name.fault?), ("nodes", nodes.fault?), ("edges", edges.fault?),
    ("currentStep", current.fault?), ("nextStep", next.fault?)]
  return {
    name := ← name.orNone
    nodes := ← nodes.orElse []
    edges := ← edges.orElse []
    current := ← current.orNone
    next := ← next.orNone }

end PersistedFlow

end StepFlow

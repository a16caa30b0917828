import StepFlow.Canvas.Generated
import StepFlow.Flow.Graph
import StepFlow.Flow.Step
import StepFlow.Json.Decode

/-!
# Nodes, edges and steps on the wire

The JSON form of what a flow consists of. Every type has an encoder `toJson`, whose objects list
their keys in order, and a decoder `fromJson`.

## Design notes

An optional field is left out of the JSON form where its absence says the same as `null`. A step is
flat: its successors are the list `next`, with the guard beside it as `condition`. Decoding a step
fills in the defaults, so a step is always written in full.
-/

namespace StepFlow

open Json

/-- A double as a JSON number, or `null` if it is not finite. -/
def numberToJson (x : Float) : Value :=
  if Decimal.isFinite x then .float x else .null

/-- Decodes a kind from its text. -/
def Kind.fromJson : Decoder Kind := fun v =>
  (Decoder.text v).map Kind.decode

/-- The JSON form of a kind. -/
def Kind.toJson (k : Kind) : Value :=
  .str k.encode

namespace Position

def shape : Shape := ⟨"Position", ["x", "y"]⟩

def toJson (p : Position) : Value :=
  .obj [("x", numberToJson p.x), ("y", numberToJson p.y)]

def fromJson : Decoder Position := fun v => do
  let given ← shape.read v
  let x := shape.field given "x" Decoder.number
  let y := shape.field given "y" Decoder.number
  shape.visit given [("x", x.fault?), ("y", y.fault?)]
  return { x := ← x.orElse 0.0, y := ← y.orElse 0.0 }

end Position

namespace Node

def shape : Shape :=
  ⟨"FlowNode", ["id", "type", "label", "run", "args", "argsSchema", "config", "position",
    "parentNode"]⟩

def toJson (n : Node) : Value :=
  .obj ([("args", .obj n.args), ("argsSchema", .obj n.argsSchema), ("config", .obj n.config),
      ("id", .str n.id)]
    ++ Object.optional "label" (n.label.map .str)
    ++ Object.optional "parentNode" (n.parent.map .str)
    ++ [("position", n.position.toJson)]
    ++ Object.optional "run" (n.run.map .str)
    ++ Object.optional "type" (n.kind.map Kind.toJson))

def fromJson : Decoder Node := fun v => do
  let given ← shape.read v
  let id := shape.field given "id" Decoder.text
  let kind := shape.field given "type" (Decoder.nullable Kind.fromJson)
  let label := shape.field given "label" (Decoder.nullable Decoder.text)
  let run := shape.field given "run" (Decoder.nullable Decoder.text)
  let args := shape.field given "args" Decoder.object
  let argsSchema := shape.field given "argsSchema" Decoder.object
  let config := shape.field given "config" Decoder.object
  let position := shape.field given "position" Position.fromJson
  let parent := shape.field given "parentNode" (Decoder.nullable Decoder.text)
  shape.visit given [("id", id.fault?), ("type", kind.fault?), ("label", label.fault?),
    ("run", run.fault?), ("args", args.fault?), ("argsSchema", argsSchema.fault?),
    ("config", config.fault?), ("position", position.fault?), ("parentNode", parent.fault?)]
  return {
    id := ← shape.required given "id" id
    kind := ← kind.orNone
    label := ← label.orNone
    run := ← run.orNone
    args := ← args.orElse []
    argsSchema := ← argsSchema.orElse []
    config := ← config.orElse []
    position := ← position.orElse {}
    parent := ← parent.orNone }

end Node

namespace Marker

def shape : Shape := ⟨"EdgeMarker", ["type", "width", "height"]⟩

def toJson (m : Marker) : Value :=
  .obj [("height", .int m.height.toNat), ("type", .str m.kind), ("width", .int m.width.toNat)]

def fromJson : Decoder Marker := fun v => do
  let given ← shape.read v
  let kind := shape.field given "type" Decoder.text
  let width := shape.field given "width" Decoder.word
  let height := shape.field given "height" Decoder.word
  shape.visit given [("type", kind.fault?), ("width", width.fault?), ("height", height.fault?)]
  return {
    kind := ← shape.required given "type" kind
    width := ← shape.required given "width" width
    height := ← shape.required given "height" height }

end Marker

namespace EdgeStyle

def shape : Shape := ⟨"EdgeStyle", ["type", "animated", "stroke", "markerEnd"]⟩

def toJson (s : EdgeStyle) : Value :=
  .obj [("animated", .bool s.animated), ("markerEnd", s.marker.toJson), ("stroke", .str s.stroke),
    ("type", .str s.curve)]

def fromJson : Decoder EdgeStyle := fun v => do
  let given ← shape.read v
  let curve := shape.field given "type" Decoder.text
  let animated := shape.field given "animated" Decoder.bool
  let stroke := shape.field given "stroke" Decoder.text
  let marker := shape.field given "markerEnd" Marker.fromJson
  shape.visit given [("type", curve.fault?), ("animated", animated.fault?),
    ("stroke", stroke.fault?), ("markerEnd", marker.fault?)]
  return {
    curve := ← shape.required given "type" curve
    animated := ← shape.required given "animated" animated
    stroke := ← shape.required given "stroke" stroke
    marker := ← shape.required given "markerEnd" marker }

end EdgeStyle

namespace Edge

def shape : Shape := ⟨"FlowEdge", ["id", "source", "target", "style"]⟩

def toJson (e : Edge) : Value :=
  .obj ([("id", .str e.id), ("source", .str e.source)]
    ++ Object.optional "style" (e.style.map EdgeStyle.toJson)
    ++ [("target", .str e.target)])

def fromJson : Decoder Edge := fun v => do
  let given ← shape.read v
  let id := shape.field given "id" Decoder.text
  let source := shape.field given "source" Decoder.text
  let target := shape.field given "target" Decoder.text
  let style := shape.field given "style" (Decoder.nullable EdgeStyle.fromJson)
  shape.visit given [("id", id.fault?), ("source", source.fault?), ("target", target.fault?),
    ("style", style.fault?)]
  return {
    id := ← shape.required given "id" id
    source := ← shape.required given "source" source
    target := ← shape.required given "target" target
    style := ← style.orNone }

end Edge

namespace Step

def shape : Shape :=
  ⟨"WireStep", ["id", "type", "label", "run", "args", "argsSchema", "config", "position", "next",
    "condition"]⟩

def toJson (s : Step) : Value :=
  .obj ([("args", .obj s.args), ("argsSchema", .obj s.argsSchema)]
    ++ Object.optional "condition" (s.next.condition.map .str)
    ++ [("config", .obj s.config), ("id", .str s.id), ("label", .str s.label),
      ("next", .ofTexts s.next.targets), ("position", s.position.toJson), ("run", .str s.run),
      ("type", s.kind.toJson)])

def fromJson : Decoder Step := fun v => do
  let given ← shape.read v
  let id := shape.field given "id" Decoder.text
  let kind := shape.field given "type" (Decoder.nullable Kind.fromJson)
  let label := shape.field given "label" (Decoder.nullable Decoder.text)
  let run := shape.field given "run" (Decoder.nullable Decoder.text)
  let args := shape.field given "args" Decoder.object
  let argsSchema := shape.field given "argsSchema" Decoder.object
  let config := shape.field given "config" Decoder.object
  let position := shape.field given "position" Position.fromJson
  let next := shape.field given "next" (Decoder.list Decoder.text)
  let condition := shape.field given "condition" (Decoder.nullable Decoder.text)
  shape.visit given [("id", id.fault?), ("type", kind.fault?), ("label", label.fault?),
    ("run", run.fault?), ("args", args.fault?), ("argsSchema", argsSchema.fault?),
    ("config", config.fault?), ("position", position.fault?), ("next", next.fault?),
    ("condition", condition.fault?)]
  let node : Node := {
    id := ← shape.required given "id" id
    kind := ← kind.orNone
    label := ← label.orNone
    run := ← run.orNone
    args := ← args.orElse []
    argsSchema := ← argsSchema.orElse []
    config := ← config.orElse []
    position := ← position.orElse {} }
  return node.toStep (.ofTargets (← next.orElse []) (← condition.orNone))

end Step

/-- Decodes a list of nodes. -/
def nodesFromJson : Decoder (List Node) := Decoder.list Node.fromJson

/-- Decodes a list of edges. -/
def edgesFromJson : Decoder (List Edge) := Decoder.list Edge.fromJson

/-- Decodes a list of steps. -/
def stepsFromJson : Decoder (List Step) := Decoder.list Step.fromJson

/-- The JSON form of a list of nodes. -/
def nodesToJson (nodes : List Node) : Value := .arr (nodes.map Node.toJson)

/-- The JSON form of a list of edges. -/
def edgesToJson (edges : List Edge) : Value := .arr (edges.map Edge.toJson)

/-- The JSON form of a list of steps. -/
def stepsToJson (steps : List Step) : Value := .arr (steps.map Step.toJson)

namespace Graph

def shape : Shape := ⟨"FlowGraph", ["nodes", "edges"]⟩

def toJson (g : Graph) : Value :=
  .obj [("edges", edgesToJson g.edges), ("nodes", nodesToJson g.nodes)]

def fromJson : Decoder Graph := fun v => do
  let given ← shape.read v
  let nodes := shape.field given "nodes" nodesFromJson
  let edges := shape.field given "edges" edgesFromJson
  shape.visit given [("nodes", nodes.fault?), ("edges", edges.fault?)]
  return { nodes := ← nodes.orElse [], edges := ← edges.orElse [] }

end Graph

namespace GeneratedNode

def shape : Shape := ⟨"GeneratedNode", ["type", "position", "next", "data"]⟩

def toJson (n : GeneratedNode) : Value :=
  .obj [("data", .obj n.data), ("next", .ofTexts n.next),
    ("position", (n.position.map Position.toJson).getD .null), ("type", .ofText? n.kind)]

def fromJson : Decoder GeneratedNode := fun v => do
  let given ← shape.read v
  let kind := shape.field given "type" (Decoder.nullable Decoder.text)
  let position := shape.field given "position" (Decoder.nullable Position.fromJson)
  let next := shape.field given "next" (Decoder.list Decoder.text)
  let data := shape.field given "data" Decoder.object
  shape.visit given [("type", kind.fault?), ("position", position.fault?), ("next", next.fault?),
    ("data", data.fault?)]
  return {
    kind := ← kind.orNone
    position := ← position.orNone
    next := ← next.orElse []
    data := ← data.orElse [] }

end GeneratedNode

end StepFlow

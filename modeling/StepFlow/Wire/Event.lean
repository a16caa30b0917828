import StepFlow.Event.Event
import StepFlow.Json.Decode
import StepFlow.Time.Rfc3339

/-!
# Events on the wire

## Main definitions

* `Event.toJson`, `Event.fromJson`: the JSON form of an event.
* `Event.normalized`: the form for other systems, where the step is always listed and the time
  states its offset.
-/

namespace StepFlow

open Json

namespace Scope

/-- The scopes by name. -/
def known : List (String × Scope) :=
  [authoring, composition, execution, persistence].map fun scope => (scope.name, scope)

def toJson (scope : Scope) : Value := .str scope.name

def fromJson : Decoder Scope := Decoder.variant known

end Scope

namespace Level

/-- The levels by name. -/
def known : List (String × Level) :=
  [info, warning, error].map fun level => (level.name, level)

def toJson (level : Level) : Value := .str level.name

def fromJson : Decoder Level := Decoder.variant known

end Level

/-- Decodes a timestamp from its text. -/
def Timestamp.fromJson : Decoder Timestamp
  | .str s => (Timestamp.parse s).mapError fun e => .refused e.message
  | v => Decoder.wrongType v "an RFC 3339 formatted date and time string"

namespace Event

def shape : Shape := ⟨"Event", ["scope", "level", "message", "stepId", "when"]⟩

def toJson (e : Event) : Value :=
  .obj ([("level", e.level.toJson), ("message", .str e.message), ("scope", e.scope.toJson)]
    ++ Object.optional "stepId" (e.step.map .str)
    ++ [("when", .str e.time.render)])

def fromJson : Decoder Event := fun v => do
  let given ← shape.read v
  let scope := shape.field given "scope" Scope.fromJson
  let level := shape.field given "level" Level.fromJson
  let message := shape.field given "message" Decoder.text
  let step := shape.field given "stepId" (Decoder.nullable Decoder.text)
  let time := shape.field given "when" Timestamp.fromJson
  shape.visit given [("scope", scope.fault?), ("level", level.fault?),
    ("message", message.fault?), ("stepId", step.fault?), ("when", time.fault?)]
  return {
    scope := ← shape.required given "scope" scope
    level := ← shape.required given "level" level
    message := ← shape.required given "message" message
    step := ← step.orNone
    time := ← shape.required given "when" time }

/-- The JSON form for other systems. -/
def normalized (e : Event) : Value :=
  .obj [("level", e.level.toJson), ("message", .str e.message), ("scope", e.scope.toJson),
    ("stepId", .ofText? e.step), ("timestamp", .str e.time.renderOffset)]

end Event

end StepFlow

import StepFlow.Json.Decode

/-!
# Handlers and their arguments

## Main definitions

* `ArgSpec`: what a handler expects of one argument.
* `Signature`: the arguments of a handler by name.
* `Registry`: the signatures of the known handlers.
-/

namespace StepFlow

open Json

/-- What a handler expects of one argument. -/
structure ArgSpec where
  kind : Option String := none
  required : Bool := false
  /-- The value that stands in for a missing argument. -/
  default : Option Value := none
  deriving Inhabited

namespace ArgSpec

/-- Whether a node has to supply the argument: it is required and nothing stands in for it. -/
def mustBeSupplied (spec : ArgSpec) : Bool :=
  spec.required && spec.default.isNone

def shape : Shape := ⟨"ArgSpec", ["type", "required", "default"]⟩

def toJson (spec : ArgSpec) : Value :=
  .obj (Object.optional "default" spec.default
    ++ [("required", .bool spec.required)]
    ++ Object.optional "type" (spec.kind.map .str))

def fromJson : Decoder ArgSpec := fun v => do
  let given ← shape.read v
  let kind := shape.field given "type" (Decoder.nullable Decoder.text)
  let required := shape.field given "required" Decoder.bool
  let default := shape.field given "default" (Decoder.nullable Decoder.any)
  shape.visit given [("type", kind.fault?), ("required", required.fault?),
    ("default", default.fault?)]
  return {
    kind := ← kind.orNone
    required := ← required.orElse false
    default := ← default.orNone }

end ArgSpec

/-- The arguments of a handler by name. -/
abbrev Signature := KeyMap ArgSpec

/-- The signatures of the known handlers by name. -/
abbrev Registry := KeyMap Signature

/-- Decodes a registry. -/
def Registry.fromJson : Decoder Registry :=
  Decoder.map (Decoder.map ArgSpec.fromJson)

end StepFlow

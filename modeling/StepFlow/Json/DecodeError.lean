import StepFlow.Decimal.Notation
import StepFlow.Json.Value
import StepFlow.Text.Quoted

/-!
# Faults of shape

Why a JSON value is not a value of some type, and the message that says so.

## Main definitions

* `Found`: what was met in place of what was wanted.
* `DecodeError`: the causes.
* `DecodeError.message`: their wording.
-/

namespace StepFlow.Json

/-- What stands where something else was expected. -/
inductive Found
  | null
  | bool (b : Bool)
  | int (n : Int)
  | float (x : Float)
  | text (s : String)
  | sequence
  | map
  deriving DecidableEq, Repr

/-- The description of a value that is not what was expected. -/
def Value.found : Value → Found
  | null => .null
  | bool b => .bool b
  | int n => .int n
  | float x => .float x
  | str s => .text s
  | arr _ => .sequence
  | obj _ => .map

/-- The wording for what was met. -/
def Found.message : Found → String
  | null => "null"
  | bool true => "boolean `true`"
  | bool false => "boolean `false`"
  | int n => s!"integer `{n}`"
  | float x => s!"floating point `{Decimal.render x}`"
  | text s => s!"string {Text.quote s}"
  | sequence => "sequence"
  | map => "map"

/-- Why a value does not have the shape of a type. -/
inductive DecodeError
  /-- A value of another type than the wanted one. -/
  | wrongType (found : Found) (wanted : String)
  /-- A value of the right type that is not among the allowed ones. -/
  | wrongValue (found : Found) (wanted : String)
  /-- A record given by place with too few or too many places. -/
  | wrongLength (length : Nat) (wanted : String)
  | missingField (name : String)
  | repeatedField (name : String)
  | unknownVariant (name : String) (known : List String)
  /-- None of the shapes of a stored flow fits. -/
  | noShape
  /-- A text refused by the format of its type. -/
  | refused (reason : String)
  deriving DecidableEq, Repr

/-- The wording of a fault. -/
def DecodeError.message : DecodeError → String
  | wrongType found wanted => s!"invalid type: {found.message}, expected {wanted}"
  | wrongValue found wanted => s!"invalid value: {found.message}, expected {wanted}"
  | wrongLength length wanted => s!"invalid length {length}, expected {wanted}"
  | missingField name => s!"missing field `{name}`"
  | repeatedField name => s!"duplicate field `{name}`"
  | unknownVariant name known =>
    let options := ", ".intercalate (known.map fun option => "`" ++ option ++ "`")
    s!"unknown variant `{name}`, expected one of {options}"
  | noShape => "data did not match any variant of untagged enum StoredFlow"
  | refused reason => reason

end StepFlow.Json

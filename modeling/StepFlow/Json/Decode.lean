import StepFlow.Json.DecodeError

/-!
# Decoding JSON values

Reading values of other types out of JSON values: the plain types, and records whose fields are
given by name or by place.

## Main definitions

* `Decoder`: a function from JSON values that may find a fault.
* `Shape`: the name and the fields of a record.
* `Fields`: the fields of a record as they are given.

## Design notes

The fields of a record given by name are visited in the order in which the object lists them, and
the first fault wins; what is missing is found out afterwards, in the order of the shape. A record
given by place is visited from left to right.
-/

namespace StepFlow.Json

/-- A reading of JSON values as values of another type. -/
abbrev Decoder (α : Type) := Value → Except DecodeError α

namespace Decoder

/-- A fault for a value of another type than the wanted one. -/
def wrongType (v : Value) (wanted : String) : Except DecodeError α :=
  .error (.wrongType v.found wanted)

/-- Any value at all. -/
def any : Decoder Value := .ok

def text : Decoder String
  | .str s => .ok s
  | v => wrongType v "a string"

def bool : Decoder Bool
  | .bool b => .ok b
  | v => wrongType v "a boolean"

def object : Decoder Object
  | .obj entries => .ok entries
  | v => wrongType v "a map"

/-- A floating-point number, also one written as an integer. -/
def number : Decoder Float
  | .int n => .ok (Decimal.ofInt n)
  | .float x => .ok x
  | v => wrongType v "f64"

/-- A natural number of 32 bits. -/
def word : Decoder UInt32
  | .int n =>
    if 0 ≤ n ∧ n < 0x100000000 then .ok (UInt32.ofNat n.toNat)
    else .error (.wrongValue (.int n) "u32")
  | v => wrongType v "u32"

/-- A list of values of one type. -/
def list (item : Decoder α) : Decoder (List α)
  | .arr items => items.mapM item
  | v => wrongType v "a sequence"

/-- A map from texts to values of one type. -/
def map (item : Decoder α) : Decoder (KeyMap α)
  | .obj entries => do
    return KeyMap.ofList (← entries.mapM fun (key, v) => do return (key, ← item v))
  | v => wrongType v "a map"

/-- A value that may be `null` for none. -/
def nullable (item : Decoder α) : Decoder (Option α)
  | .null => .ok none
  | v => do return some (← item v)

/-- One of a few names, given as a text or as the only key of an object with a `null`. -/
def variant (known : List (String × α)) : Decoder α
  | .str s => find s
  | .obj [(name, content)] => do
    let result ← find name
    match content with
    | .null => return result
    | v => .error (.wrongType v.found "unit")
  | .obj _ => .error (.wrongValue .map "map with a single key")
  | v => wrongType v "string or map"
where
  /-- Looks a name up. -/
  find (name : String) : Except DecodeError α :=
    match Keyed.get? known name with
    | some a => .ok a
    | none => .error (.unknownVariant name (Keyed.keys known))

end Decoder

/-- The name of a record and its fields in their declared order. -/
structure Shape where
  name : String
  fields : List String

/-- The fields of a record as they are given. -/
inductive Fields
  | named (entries : Object)
  | placed (values : List Value)

/-- What decoding one field led to; none if it is not given. -/
abbrev Field (α : Type) := Except DecodeError (Option α)

/-- The fault of a field, if it has one. -/
def Field.fault? : Field α → Option DecodeError
  | .error e => some e
  | .ok _ => none

namespace Shape

variable (shape : Shape)

/-- The fields that a value gives. -/
def read : Decoder Fields
  | .obj entries => .ok (.named entries)
  | .arr values => .ok (.placed values)
  | v => Decoder.wrongType v s!"struct {shape.name}"

/-- How the number of places is named in a fault. -/
def places : String :=
  let count := shape.fields.length
  if count = 1 then s!"struct {shape.name} with 1 element"
  else s!"struct {shape.name} with {count} elements"

/-- The value given for a field. -/
def given? (fields : Fields) (name : String) : Option Value :=
  match fields with
  | .named entries => Keyed.get? entries name
  | .placed values => values[shape.fields.idxOf name]?

/-- Decodes one field. -/
def field (fields : Fields) (name : String) (decode : Decoder α) : Field α :=
  match shape.given? fields name with
  | some v => (decode v).map some
  | none => .ok none

/-- The first of the faults in the order in which the fields are visited, and the fault of too many
places. -/
def visit (fields : Fields) (faults : List (String × Option DecodeError)) :
    Except DecodeError Unit :=
  match fields with
  | .named entries => raise ((Keyed.keys entries).findSome? faultOf)
  | .placed values =>
    match shape.fields.findSome? faultOf with
    | some e => .error e
    | none =>
      if shape.fields.length < values.length then
        .error (.wrongLength values.length "fewer elements in array")
      else .ok ()
where
  /-- The fault of a field. -/
  faultOf (name : String) : Option DecodeError := (Keyed.get? faults name).join
  /-- Stops with a fault, if there is one. -/
  raise : Option DecodeError → Except DecodeError Unit
    | some e => .error e
    | none => .ok ()

/-- The value of a field that must be given. -/
def required (fields : Fields) (name : String) (result : Field α) : Except DecodeError α := do
  match ← result with
  | some a => return a
  | none =>
    match fields with
    | .named _ => .error (.missingField name)
    | .placed _ => .error (.wrongLength (shape.fields.idxOf name) shape.places)

/-- The value of a field whose type has a value for none and whose place must be filled: only its
name may be left out. -/
def namedOrNone (fields : Fields) (name : String) (result : Field (Option α)) :
    Except DecodeError (Option α) := do
  match fields, ← result with
  | _, some a => return a
  | .named _, none => return none
  | .placed _, none => .error (.wrongLength (shape.fields.idxOf name) shape.places)

end Shape

/-- The value of a field that may be left out. -/
def Field.orElse (result : Field α) (default : α) : Except DecodeError α := do
  return (← result).getD default

/-- The value of a field whose type has a value for none. -/
def Field.orNone (result : Field (Option α)) : Except DecodeError (Option α) := do
  return (← result).join

end StepFlow.Json

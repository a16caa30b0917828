import StepFlow.Keyed

/-!
# JSON values

Free-form data of a flow: arguments, schemas, settings, step results.

## Main definitions

* `Value`: a JSON value. Integers of 64 bits and floating-point numbers are told apart, and the
  entries of an object ascend by key.
* `Object`: the entries of an object.
* `Value.Canonical`: the objects inside a value are in order at every level.
-/

namespace StepFlow.Json

/-- A JSON value. -/
inductive Value
  | null
  | bool (b : Bool)
  /-- A number written as an integer that fits 64 bits, signed or not. -/
  | int (n : Int)
  /-- Any other number. -/
  | float (x : Float)
  | str (s : String)
  | arr (items : List Value)
  | obj (entries : List (String × Value))
  deriving Inhabited, Repr

/-- The entries of a JSON object. -/
abbrev Object := Keyed Value

namespace Value

/-- The text of a string. -/
def str? : Value → Option String
  | str s => some s
  | _ => none

/-- The entries of an object. -/
def obj? : Value → Option Object
  | obj entries => some entries
  | _ => none

/-- The value under a key of an object. -/
def get? (v : Value) (key : String) : Option Value :=
  match v with
  | obj entries => Keyed.get? entries key
  | _ => none

/-- A text, or `null` for none. -/
def ofText? : Option String → Value
  | some s => str s
  | none => null

/-- The list of the given texts. -/
def ofTexts (texts : List String) : Value :=
  arr (texts.map str)

mutual

/-- The objects inside the value are in key order at every level. -/
def Canonical : Value → Prop
  | arr items => CanonicalItems items
  | obj entries => Keyed.Ordered entries ∧ CanonicalEntries entries
  | _ => True

/-- Every item is canonical. -/
def CanonicalItems : List Value → Prop
  | [] => True
  | v :: rest => Canonical v ∧ CanonicalItems rest

/-- The value of every entry is canonical. -/
def CanonicalEntries : List (String × Value) → Prop
  | [] => True
  | (_, v) :: rest => Canonical v ∧ CanonicalEntries rest

end

end Value

namespace Object

/-- The text under a key, if the value there is a string. -/
def text? (o : Object) (key : String) : Option String :=
  (Keyed.get? o key).bind Value.str?

/-- The object under a key, empty if the value there is none. -/
def nested (o : Object) (key : String) : Object :=
  ((Keyed.get? o key).bind Value.obj?).getD []

/-- The entry for a field that may be left out. -/
def optional (key : String) : Option Value → Object
  | some v => [(key, v)]
  | none => []

end Object

end StepFlow.Json

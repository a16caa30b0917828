import StepFlow.Json.Skip
import StepFlow.Wire.Exchange

/-!
# Reading responses

A response is read out of the text of the backend's answer in one pass. What the text says of other
fields is passed over, and a fault is reported with its place in the text.

## Main definitions

* `ResponseParts`: the fields that were read so far.
* `Reader.response`: a response given as an object or by place.
* `StepResponse.parse`: the response that a whole text stands for.

## Design notes

A fault of shape is placed where reading stopped. A repeated field is noticed behind its key; the
place is then the next character that is not a space, or the one behind a closing brace.
-/

namespace StepFlow.Json

/-- The fields of a response that were read so far. -/
structure ResponseParts where
  next : Option (Option String) := none
  output : Option Value := none
  context : Option Value := none

namespace ResponseParts

/-- The response with the given fields. -/
def toResponse (p : ResponseParts) : StepResponse where
  next := StepResponse.nonBlank p.next.join
  output := p.output.getD .null
  context := p.context.getD .null

end ResponseParts

namespace Reader

/-- How many arrays and objects may stand inside each other in a field of a response. -/
def fieldDepth : Nat := depthLimit - 1

/-- Stops with a fault of shape at the place reached. -/
def failShape (cause : DecodeError) : Reader α :=
  fail (.shape cause)

/-- Stops because the next value is of another type than the wanted one. A plain value is consumed
first, an array or object is not. -/
def wrongType (wanted : String) : Reader α := do
  match ← peekToken with
  | none => failNext .endInValue
  | some '[' => failShape (.wrongType .sequence wanted)
  | some '{' => failShape (.wrongType .map wanted)
  | some _ =>
    let v ← value 0
    failShape (.wrongType v.found wanted)

/-- A string or `null`. -/
def textOrNull : Reader (Option String) := do
  match ← peekToken with
  | some 'n' => discard; word ['u', 'l', 'l']; return none
  | some '"' => discard; return some (← text)
  | _ => wrongType "a string"

/-- Stops because the field whose key was just read is there already. -/
def failRepeated (name : String) : Reader α := do
  if (← peekToken) = some '}' then discard
  failShape (.repeatedField name)

/-- Reads the value of one member of a response. -/
def responseMember (p : ResponseParts) (name : String) : Reader ResponseParts := do
  match name with
  | "next_step" =>
    if p.next.isSome then failRepeated name
    colon
    return { p with next := some (← textOrNull) }
  | "output" =>
    if p.output.isSome then failRepeated name
    colon
    return { p with output := some (← value fieldDepth) }
  | "context" =>
    if p.context.isSome then failRepeated name
    colon
    return { p with context := some (← value fieldDepth) }
  | _ =>
    colon
    skipValue
    return p

/-- The fields of a response in their places, as many as there are. -/
def responsePlaces : Reader ResponseParts := do
  if !(← hasItem true) then return {}
  let p : ResponseParts := { next := some (← textOrNull) }
  if !(← hasItem false) then return p
  let p := { p with output := some (← value fieldDepth) }
  if !(← hasItem false) then return p
  return { p with context := some (← value fieldDepth) }

/-- The closing bracket behind the last place of a response. -/
def responseEnd : Reader Unit := do
  match ← peekToken with
  | some ']' => discard
  | some ',' =>
    discard
    match ← peekToken with
    | some ']' => failNext .trailingComma
    | _ => failNext .trailingCharacters
  | some _ => failNext .trailingCharacters
  | none => failNext .endInList

/-- A response. -/
def response : Reader StepResponse := do
  match ← peekToken with
  | some '{' =>
    discard
    return (← members responseMember {}).toResponse
  | some '[' =>
    discard
    let p ← responsePlaces
    responseEnd
    return p.toResponse
  | _ => wrongType s!"struct {StepResponse.shape.name}"

end Reader

end StepFlow.Json

namespace StepFlow

/-- The response that a whole text stands for. -/
def StepResponse.parse (source : String) : Except Json.ReadError StepResponse :=
  Json.Reader.response.readAll source

end StepFlow

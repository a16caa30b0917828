import StepFlow.Json.Reader

/-!
# Passing over JSON values

A value that nobody asked for is checked more loosely than one that is read: any depth is allowed,
the characters that escapes stand for are not looked at, and no number is too large.

## Main definitions

* `Reader.skipValue`: passes over one value.
-/

namespace StepFlow.Json

/-- An array or object that has been opened. -/
inductive Frame
  | list
  | object
  deriving DecidableEq, Repr

namespace Reader

/-- The escape of one character, its backslash having been read. -/
def skipEscape : Reader Unit := do
  match ← peek with
  | none => fail .endInText
  | some 'u' => do
    discard
    let _ ← hexEscape
  | some c =>
    if ['"', '\\', '/', 'b', 'f', 'n', 'r', 't'].contains c then discard
    else failNext .invalidEscape

/-- The characters of a string up to its closing quote. -/
def skipTextFrom : Nat → Reader Unit
  | 0 => fail .endInText
  | rounds + 1 => do
    match ← peek with
    | none => fail .endInText
    | some '"' => discard
    | some '\\' => do
      discard
      skipEscape
      skipTextFrom rounds
    | some c => do
      if c.toNat < 0x20 then fail .controlInText
      discard
      skipTextFrom rounds

/-- A string whose opening quote has been read. -/
def skipText : Reader Unit := do
  skipTextFrom ((← remaining) + 1)

/-- The exponent of a number. -/
def skipExponent : Reader Unit := do
  discard
  let sign ← peek
  if sign = some '+' || sign = some '-' then discard
  if (← digits).isEmpty then failNext .invalidNumber

/-- A number whose sign, if any, has been read. -/
def skipNumber : Reader Unit := do
  match ← peek with
  | some '0' => do
    discard
    if let some c ← peek then
      if c.isDigit then failNext .invalidNumber
  | _ => if (← digits).isEmpty then failNext .invalidNumber
  match ← peek with
  | some '.' => do
    discard
    if (← digits).isEmpty then failNext .invalidNumber
    let after ← peek
    if after = some 'e' || after = some 'E' then skipExponent
  | some 'e' | some 'E' => skipExponent
  | _ => pure ()

/-- The start of a value: the whole value, or only its opening bracket. -/
def skipStart : Reader (Option Frame) := do
  match ← peekToken with
  | none => failNext .endInValue
  | some 'n' => discard; word ['u', 'l', 'l']; return none
  | some 't' => discard; word ['r', 'u', 'e']; return none
  | some 'f' => discard; word ['a', 'l', 's', 'e']; return none
  | some '-' => discard; skipNumber; return none
  | some '"' => discard; skipText; return none
  | some '[' => discard; return some .list
  | some '{' => discard; return some .object
  | some c =>
    if c.isDigit then skipNumber else failNext .expectedValue
    return none

/-- Closes brackets up to the next item or member, and returns those still open. A comma may come
next only if `comma`. -/
def skipClose : Nat → Bool → List Frame → Reader (List Frame)
  | 0, _, _ => fail .endInValue
  | _ + 1, _, [] => return []
  | rounds + 1, comma, frame :: outer => do
    match ← peekToken, frame with
    | some ']', .list => discard; skipClose rounds true outer
    | some '}', .object => discard; skipClose rounds true outer
    | some ',', _ =>
      if comma then discard
      return frame :: outer
    | some _, .list => if comma then failNext .expectedListEnd else return frame :: outer
    | some _, .object => if comma then failNext .expectedObjectEnd else return frame :: outer
    | none, .list => failNext .endInList
    | none, .object => failNext .endInObject

/-- The key of the next member, with its colon. -/
def skipKey : Reader Unit := do
  match ← peekToken with
  | some '"' => discard
  | some _ => failNext .keyNotText
  | none => failNext .endInObject
  skipText
  colon

/-- Values, keys and brackets until nothing is open. -/
def skipFrom : Nat → List Frame → Reader Unit
  | 0, _ => fail .endInValue
  | rounds + 1, frames => do
    let opened ← skipStart
    let comma := opened.isNone
    match ← skipClose ((← remaining) + 1) comma (opened.toList ++ frames) with
    | [] => pure ()
    | .list :: outer => skipFrom rounds (.list :: outer)
    | .object :: outer => do
      skipKey
      skipFrom rounds (.object :: outer)

/-- Passes over one value. -/
def skipValue : Reader Unit := do
  skipFrom ((← remaining) + 1) []

end Reader

end StepFlow.Json

import StepFlow.Json.Number

/-!
# Reading JSON

## Main definitions

* `Reader.text`: a string whose opening quote has been read.
* `Reader.value`: a value with a bounded number of nested arrays and objects.
* `Value.parse`: the value that a whole text stands for.

## Design notes

Loops over the characters, items or members of one level take a bound on their rounds. Each round
reads a character, so the number of characters left is enough.
-/

namespace StepFlow.Json

/-- The value of a hexadecimal digit. -/
def hexValue? (c : Char) : Option Nat :=
  if c.isDigit then some (c.toNat - '0'.toNat)
  else if 'a' ≤ c ∧ c ≤ 'f' then some (c.toNat - 'a'.toNat + 10)
  else if 'A' ≤ c ∧ c ≤ 'F' then some (c.toNat - 'A'.toNat + 10)
  else none

namespace Reader

/-- The rest of one of the words `null`, `true` and `false`. -/
def word : List Char → Reader Unit
  | [] => pure ()
  | c :: rest => do
    match ← peek with
    | none => fail .endInValue
    | some c' =>
      if c' ≠ c then failNext .expectedWord
      discard
      word rest

/-- The number written by four hexadecimal digits. -/
def hexEscape : Reader Nat := do
  let here ← get
  if (here.rest.take 4).foldl (fun size c => size + c.utf8Size) 0 < 4 then
    set here.finish
    fail .endInText
  set (here.advanceBytes 4)
  match (here.rest.take 4).mapM hexValue? with
  | some values => return values.foldl (fun n d => 16 * n + d) 0
  | none => fail .invalidEscape

/-- The second half of a character outside the basic plane, announced by the first half. -/
def lowSurrogate (high : Nat) : Reader Char := do
  match ← peek with
  | none => fail .endInText
  | some c => if c ≠ '\\' then failNext .unfinishedEscape
  discard
  match ← peek with
  | none => fail .endInText
  | some c => if c ≠ 'u' then failNext .unfinishedEscape
  discard
  let low ← hexEscape
  if low < 0xDC00 ∨ 0xDFFF < low then fail .loneSurrogate
  return Char.ofNat (0x10000 + (high - 0xD800) * 0x400 + (low - 0xDC00))

/-- The character that an escape stands for, its backslash having been read. -/
def escaped : Reader Char := do
  match ← peek with
  | none => fail .endInText
  | some c =>
    match c with
    | '"' | '\\' | '/' => discard; return c
    | 'b' => discard; return '\x08'
    | 'f' => discard; return '\x0c'
    | 'n' => discard; return '\n'
    | 'r' => discard; return '\r'
    | 't' => discard; return '\t'
    | 'u' =>
      discard
      let n ← hexEscape
      if 0xDC00 ≤ n ∧ n ≤ 0xDFFF then fail .loneSurrogate
      if 0xD800 ≤ n ∧ n ≤ 0xDBFF then lowSurrogate n else return Char.ofNat n
    | _ => failNext .invalidEscape

/-- The characters up to the closing quote, after those read before. -/
def textFrom : Nat → List Char → Reader String
  | 0, _ => fail .endInText
  | rounds + 1, before => do
    match ← peek with
    | none => fail .endInText
    | some '"' =>
      discard
      return String.ofList before.reverse
    | some '\\' =>
      discard
      textFrom rounds ((← escaped) :: before)
    | some c =>
      if c.toNat < 0x20 then failNext .controlInText
      discard
      textFrom rounds (c :: before)

/-- A string whose opening quote has been read. -/
def text : Reader String := do
  textFrom ((← remaining) + 1) []

/-- Whether another item of an array follows; a comma before it is consumed. -/
def hasItem (first : Bool) : Reader Bool := do
  let token ← peekToken
  if token = some ']' then return false
  if token.isNone then failNext .endInList
  if first then return true
  if token ≠ some ',' then failNext .expectedListEnd
  discard
  match ← peekToken with
  | some ']' => failNext .trailingComma
  | some _ => return true
  | none => failNext .endInValue

/-- The items of an array up to its closing bracket, after those read before. -/
def itemsFrom (item : Reader α) : Nat → Bool → List α → Reader (List α)
  | 0, _, _ => fail .endInList
  | rounds + 1, first, before => do
    if ← hasItem first then itemsFrom item rounds false ((← item) :: before)
    else
      discard
      return before.reverse

/-- The items of an array whose opening bracket has been read. -/
def items (item : Reader α) : Reader (List α) := do
  itemsFrom item ((← remaining) + 1) true []

/-- Whether another member of an object follows; a comma before it is consumed. -/
def hasMember (first : Bool) : Reader Bool := do
  let token ← peekToken
  if token = some '}' then return false
  if token.isNone then failNext .endInObject
  let mut token := token
  if !first then
    if token ≠ some ',' then failNext .expectedObjectEnd
    discard
    token ← peekToken
  match token with
  | some '"' => return true
  | some '}' => failNext .trailingComma
  | some _ => failNext .keyNotText
  | none => failNext .endInValue

/-- The key of the next member. -/
def key : Reader String := do
  discard
  text

/-- The colon between a key and its value. -/
def colon : Reader Unit := do
  match ← peekToken with
  | some ':' => discard
  | some _ => failNext .expectedColon
  | none => failNext .endInObject

/-- Combines the members of an object up to its closing brace. -/
def membersFrom (member : σ → String → Reader σ) : Nat → Bool → σ → Reader σ
  | 0, _, _ => fail .endInObject
  | rounds + 1, first, sofar => do
    if ← hasMember first then
      let name ← key
      membersFrom member rounds false (← member sofar name)
    else
      discard
      return sofar

/-- Combines the members of an object whose opening brace has been read. -/
def members (member : σ → String → Reader σ) (init : σ) : Reader σ := do
  membersFrom member ((← remaining) + 1) true init

/-- A value, whose items and members are read by `nested`; none stands for no further nesting. -/
def valueWith (nested : Option (Reader Value)) : Reader Value := do
  match ← peekToken with
  | none => failNext .endInValue
  | some 'n' => discard; word ['u', 'l', 'l']; return .null
  | some 't' => discard; word ['r', 'u', 'e']; return .bool true
  | some 'f' => discard; word ['a', 'l', 's', 'e']; return .bool false
  | some '-' => discard; number true
  | some '"' => discard; return .str (← text)
  | some '[' =>
    match nested with
    | none => failNext .tooDeep
    | some item =>
      discard
      return .arr (← items item)
  | some '{' =>
    match nested with
    | none => failNext .tooDeep
    | some item =>
      discard
      return .obj (← members
        (fun entries name => do
          colon
          return Keyed.insert entries name (← item))
        [])
  | some c => if c.isDigit then number false else failNext .expectedValue

/-- A value with at most the given number of arrays and objects inside each other. -/
def value : Nat → Reader Value
  | 0 => valueWith none
  | depth + 1 => valueWith (some (value depth))

/-- The end of the text. -/
def finish : Reader Unit := do
  match ← peekToken with
  | some _ => failNext .trailingCharacters
  | none => return ()

/-- What a reader makes of a whole text. -/
def readAll (reader : Reader α) (source : String) : Except ReadError α := do
  let (result, here) ← StateT.run reader (Cursor.start source)
  let _ ← StateT.run finish here
  return result

end Reader

/-- How many arrays and objects may stand inside each other. -/
def depthLimit : Nat := 127

/-- The value that a whole text stands for. -/
def Value.parse (source : String) : Except ReadError Value :=
  (Reader.value depthLimit).readAll source

end StepFlow.Json

import StepFlow.Json.DecodeError

/-!
# Positions in a JSON text

A text that is read from left to right, with the place reached, and the faults that are found
there.

## Main definitions

* `Cursor`: the rest of a text and the line and column reached.
* `Fault`: what is wrong at a place.
* `ReadError`: a fault with its place.
* `Reader`: a step of reading, which moves the cursor or stops with an error.

## Design notes

Columns count the bytes of the line that were read. A fault that concerns the next character is
placed behind it, one byte further, and on the next line if that character ends the line.
-/

namespace StepFlow.Json

/-- The rest of a text, the current line from 1, and the bytes read of it. -/
structure Cursor where
  rest : List Char
  line : Nat
  column : Nat

namespace Cursor

/-- The start of a text. -/
def start (text : String) : Cursor :=
  ⟨text.toList, 1, 0⟩

/-- The place behind a character. -/
def pass (at' : Cursor) (c : Char) (rest : List Char) : Cursor :=
  if c = '\n' then ⟨rest, at'.line + 1, 0⟩ else ⟨rest, at'.line, at'.column + c.utf8Size⟩

/-- The cursor behind the next character. -/
def advance (at' : Cursor) : Cursor :=
  match at'.rest with
  | [] => at'
  | c :: rest => at'.pass c rest

/-- The cursor behind all leading characters with a property. -/
def skip (p : Char → Bool) (at' : Cursor) : Cursor :=
  go at'.rest at'
where
  /-- Skips along the rest of the text. -/
  go : List Char → Cursor → Cursor
    | [], here => here
    | c :: rest, here => if p c then go rest (here.pass c rest) else here

/-- The cursor `n` bytes further, or at the end of the text. Inside a character only the column
moves. -/
def advanceBytes (at' : Cursor) (n : Nat) : Cursor :=
  go at'.rest at' n
where
  /-- Moves along the rest of the text. -/
  go : List Char → Cursor → Nat → Cursor
    | [], here, _ => here
    | c :: rest, here, n =>
      if n = 0 then here
      else if c.utf8Size ≤ n then go rest (here.pass c rest) (n - c.utf8Size)
      else { here with column := here.column + n }

/-- The cursor at the end of the text. -/
def finish (at' : Cursor) : Cursor :=
  at'.skip fun _ => true

end Cursor

/-- What is wrong at a place of a JSON text. -/
inductive Fault
  | endInList
  | endInObject
  | endInText
  | endInValue
  | expectedColon
  | expectedListEnd
  | expectedObjectEnd
  | expectedWord
  | expectedValue
  | invalidEscape
  | invalidNumber
  | numberTooLarge
  | controlInText
  | keyNotText
  | loneSurrogate
  | trailingComma
  | trailingCharacters
  | unfinishedEscape
  | tooDeep
  /-- The text is JSON as far as it was read, but has the wrong shape. -/
  | shape (cause : DecodeError)
  deriving DecidableEq, Repr

/-- The wording of a fault. -/
def Fault.message : Fault → String
  | endInList => "EOF while parsing a list"
  | endInObject => "EOF while parsing an object"
  | endInText => "EOF while parsing a string"
  | endInValue => "EOF while parsing a value"
  | expectedColon => "expected `:`"
  | expectedListEnd => "expected `,` or `]`"
  | expectedObjectEnd => "expected `,` or `\x7d`"
  | expectedWord => "expected ident"
  | expectedValue => "expected value"
  | invalidEscape => "invalid escape"
  | invalidNumber => "invalid number"
  | numberTooLarge => "number out of range"
  | controlInText => "control character (\\u0000-\\u001F) found while parsing a string"
  | keyNotText => "key must be a string"
  | loneSurrogate => "lone leading surrogate in hex escape"
  | trailingComma => "trailing comma"
  | trailingCharacters => "trailing characters"
  | unfinishedEscape => "unexpected end of hex escape"
  | tooDeep => "recursion limit exceeded"
  | shape cause => cause.message

/-- A fault and where it was found. -/
structure ReadError where
  fault : Fault
  line : Nat
  column : Nat
  deriving DecidableEq, Repr

/-- The wording of a fault with its place. -/
def ReadError.message (e : ReadError) : String :=
  s!"{e.fault.message} at line {e.line} column {e.column}"

/-- A step of reading. -/
abbrev Reader := StateT Cursor (Except ReadError)

namespace Reader

/-- Stops with a fault at the place reached. -/
def fail (fault : Fault) : Reader α := fun here =>
  .error ⟨fault, here.line, here.column⟩

/-- Stops with a fault that concerns the next character. -/
def failNext (fault : Fault) : Reader α := fun here =>
  match here.rest with
  | [] => .error ⟨fault, here.line, here.column⟩
  | '\n' :: _ => .error ⟨fault, here.line + 1, 0⟩
  | _ :: _ => .error ⟨fault, here.line, here.column + 1⟩

/-- The next character, if there is one; it is not consumed. -/
def peek : Reader (Option Char) := fun here =>
  .ok (here.rest.head?, here)

/-- Consumes the next character. -/
def discard : Reader Unit := fun here =>
  .ok ((), here.advance)

/-- Consumes the next character and returns it. -/
def next : Reader (Option Char) := fun here =>
  .ok (here.rest.head?, here.advance)

/-- Whether a character may stand between the tokens of a JSON text. -/
def isSpace (c : Char) : Bool :=
  c = ' ' || c = '\n' || c = '\t' || c = '\r'

/-- The next character that is not a space. -/
def peekToken : Reader (Option Char) := fun here =>
  let here := here.skip isSpace
  .ok (here.rest.head?, here)

/-- Consumes all digits that follow. -/
def digits : Reader (List Char) := fun here =>
  .ok (here.rest.takeWhile Char.isDigit, here.skip Char.isDigit)

/-- An upper bound on the characters still to be read. -/
def remaining : Reader Nat := fun here =>
  .ok (here.rest.length, here)

end Reader

end StepFlow.Json

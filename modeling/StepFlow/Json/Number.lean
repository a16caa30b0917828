import StepFlow.Json.Cursor

/-!
# Reading numbers

## Main definitions

* `accumulate`: the value of leading digits as far as it fits 64 bits.
* `Reader.number`: a number, an integer if it was written as one and fits 64 bits.
-/

namespace StepFlow.Json

/-- The value of a decimal digit. -/
def digitValue (c : Char) : Nat :=
  c.toNat - '0'.toNat

/-- Appends digits to a number while the result fits 64 bits. Also returns the digits that were
left over. -/
def accumulate : Nat → List Char → Nat × List Char
  | n, [] => (n, [])
  | n, c :: rest =>
    if 10 * n + digitValue c < 0x10000000000000000 then accumulate (10 * n + digitValue c) rest
    else (n, c :: rest)

/-- The greatest exponent that is read; a greater one counts as infinite. -/
def exponentLimit : Nat := 0x7FFFFFFF

/-- The value of the digits of an exponent, or how many of them were read when it became too
large. -/
def exponentValue : Nat → Nat → List Char → Except Nat Nat
  | _, value, [] => .ok value
  | used, value, c :: rest =>
    if 10 * value + digitValue c ≤ exponentLimit then
      exponentValue (used + 1) (10 * value + digitValue c) rest
    else .error (used + 1)

namespace Reader

/-- The double for `significand * 10 ^ exponent`. -/
def scaled (significand : Nat) (exponent : Int) : Reader Float :=
  match Decimal.ofParts? (UInt64.ofNat significand) exponent with
  | some x => pure x
  | none => fail .numberTooLarge

/-- The exponent of a number whose digits stand for `significand * 10 ^ place`. -/
def exponent (significand : Nat) (place : Int) : Reader Float := do
  discard
  let sign ← peek
  if sign = some '+' || sign = some '-' then discard
  match ← peek with
  | none => fail .endInValue
  | some c => if !c.isDigit then failNext .invalidNumber
  let here ← get
  match exponentValue 0 0 (← digits) with
  | .ok value => scaled significand (if sign = some '-' then place - value else place + value)
  | .error used =>
    if significand ≠ 0 ∧ sign ≠ some '-' then
      set (here.advanceBytes used)
      fail .numberTooLarge
    else pure 0.0

/-- What follows the whole part of a number, which stands for `significand * 10 ^ place`. -/
def fraction (significand : Nat) (place : Int) : Reader Float := do
  discard
  let written ← digits
  if written.isEmpty then
    match ← peek with
    | none => failNext .endInValue
    | some _ => failNext .invalidNumber
  let (significand, left) := accumulate significand written
  let place := place - (written.length - left.length : Nat)
  match ← peek with
  | some 'e' | some 'E' => exponent significand place
  | _ => scaled significand place

/-- The end of a number whose whole part has been read: the floating-point number, or none if the
number ends here. -/
def tail? (significand : Nat) (place : Int) : Reader (Option Float) := do
  match ← peek with
  | some '.' => return some (← fraction significand place)
  | some 'e' | some 'E' => return some (← exponent significand place)
  | _ => return none

/-- An integer that has been read; `-0` and what is below the signed range are no integers. -/
def integer (negative : Bool) (n : Nat) : Value :=
  if !negative then .int n
  else if n = 0 ∨ 0x8000000000000000 < n then .float (-(UInt64.ofNat n).toFloat)
  else .int (-n)

/-- A number whose sign, if any, has been read. -/
def number (negative : Bool) : Reader Value := do
  let signed (x : Float) : Value := .float (if negative then -x else x)
  match ← peek with
  | none => fail .endInValue
  | some '0' =>
    discard
    match ← peek with
    | some c => if c.isDigit then failNext .invalidNumber
    | none => pure ()
    match ← tail? 0 0 with
    | some x => return signed x
    | none => return integer negative 0
  | some c =>
    if !c.isDigit then failNext .invalidNumber
    let (n, left) := accumulate 0 (← digits)
    match ← tail? n left.length with
    | some x => return signed x
    | none =>
      if left.isEmpty then return integer negative n
      else return signed (← scaled n left.length)

end Reader

end StepFlow.Json

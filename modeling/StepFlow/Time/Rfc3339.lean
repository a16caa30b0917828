import StepFlow.Text.Blank
import StepFlow.Time.Timestamp

/-!
# Reading RFC 3339 text

A date, a separator, a time of day, perhaps a fraction, and an offset from universal time. The
reading is lenient: white space may stand before each number and around the signs between them, a
year may have a sign and then any number of digits, and colons and white space may stand in any
number between the hours and the minutes of an offset, or be left out.

## Main definitions

* `TimeError`: why a text is no timestamp.
* `TimeReader`: a step of reading.
* `Timestamp.parse`: the timestamp of a text, in universal time.
-/

namespace StepFlow

/-- Why a text is no timestamp. -/
inductive TimeError
  | outOfRange
  | impossible
  | invalid
  | tooShort
  | tooLong
  deriving DecidableEq, Repr

/-- The wording of an error. -/
def TimeError.message : TimeError → String
  | outOfRange => "input is out of range"
  | impossible => "no possible date and time matching input"
  | invalid => "input contains invalid characters"
  | tooShort => "premature end of input"
  | tooLong => "trailing input"

/-- A step of reading a timestamp. -/
abbrev TimeReader := StateT (List Char) (Except TimeError)

namespace TimeReader

/-- Stops with an error. -/
def fail (e : TimeError) : TimeReader α := fun _ => .error e

/-- Passes over white space. -/
def blanks : TimeReader Unit := modify (·.dropWhile Text.isBlank)

/-- Passes over the given character. -/
def literal (c : Char) : TimeReader Unit := do
  match ← get with
  | [] => fail .tooShort
  | c' :: rest => if c' = c then set rest else fail .invalid

/-- The value of a list of decimal digits. -/
def digitsValue (digits : List Char) : Nat :=
  digits.foldl (fun n c => 10 * n + (c.toNat - '0'.toNat)) 0

/-- Consumes digits, at most `width` of them if that is given, at least one. Also returns how many
there were. -/
def digits (width : Option Nat) : TimeReader (Nat × Nat) := do
  let rest ← get
  if rest.isEmpty then fail .tooShort
  let found := rest.takeWhile Char.isDigit
  let found := match width with
    | some w => found.take w
    | none => found
  if found.isEmpty then fail .invalid
  if 0x8000000000000000 ≤ digitsValue found then fail .outOfRange
  set (rest.drop found.length)
  return (digitsValue found, found.length)

/-- A number of at most two digits between two bounds. -/
def twoDigits (low high : Nat) : TimeReader Nat := do
  blanks
  let (n, _) ← digits (some 2)
  if n < low ∨ high < n then fail .outOfRange
  return n

/-- A year: up to four digits, or a sign and any number of digits. -/
def year : TimeReader Int := do
  blanks
  let signed (value : Nat → Int) : TimeReader Int := do
    modify (·.drop 1)
    let (n, _) ← digits none
    return value n
  let y : Int ← match ← get with
    | '-' :: _ => signed fun n => -n
    | '+' :: _ => signed fun n => n
    | _ => do
      let (n, _) ← digits (some 4)
      return n
  if y < -0x80000000 ∨ 0x80000000 ≤ y then fail .outOfRange
  return y

/-- The character between the date and the time. -/
def separator : TimeReader Unit := do
  match ← get with
  | [] => fail .tooShort
  | c :: rest => if ['t', 'T', ' '].contains c then set rest else fail .invalid

/-- The nanoseconds of a fraction, zero if there is none. Digits after the ninth are passed over. -/
def fraction : TimeReader Nat := do
  match ← get with
  | '.' :: rest =>
    set rest
    let (n, length) ← digits (some 9)
    modify (·.dropWhile Char.isDigit)
    return n * Nat.pow 10 (9 - length)
  | _ => return 0

/-- The value of the next two digits of an offset. A single byte is too little text to tell; a
longer character in place of the digits is no digit. -/
def offsetPart : TimeReader Nat := do
  match ← get with
  | [] => fail .tooShort
  | [c] => fail (if c.utf8Size < 2 then .tooShort else .invalid)
  | a :: b :: rest =>
    if !(a.isDigit && b.isDigit) then fail .invalid
    set rest
    return digitsValue [a, b]

/-- The offset after its sign, in minutes. -/
def unsignedOffset : TimeReader Nat := do
  let hours ← offsetPart
  modify (·.dropWhile fun c => c = ':' || Text.isBlank c)
  let minutes ← offsetPart
  if 60 ≤ minutes then fail .outOfRange
  return hours * 60 + minutes

/-- The offset from universal time in minutes. -/
def offset : TimeReader Int := do
  let rest ← get
  if Text.fold (String.ofList (rest.take 3)) = "utc" then
    set (rest.drop 3)
    return 0
  match rest with
  | [] => fail .tooShort
  | c :: rest =>
    set rest
    if c = 'Z' ∨ c = 'z' then return 0
    else if c = '+' then return (← unsignedOffset)
    else if c = '-' ∨ c = '−' then return -(← unsignedOffset)
    else fail .invalid

/-- The first and the last year that a timestamp may have. -/
def years : Int × Int := (-262143, 262142)

/-- The timestamp of a text. -/
def timestamp : TimeReader Timestamp := do
  let y ← year
  blanks
  literal '-'
  let month ← twoDigits 1 12
  blanks
  literal '-'
  let day ← twoDigits 1 31
  separator
  let hour ← twoDigits 0 23
  blanks
  literal ':'
  let minute ← twoDigits 0 59
  blanks
  literal ':'
  let second ← twoDigits 0 60
  let nanos ← fraction
  blanks
  let minutes ← offset
  if !(← get).all Text.isBlank then fail .tooLong
  if y < years.1 ∨ years.2 < y ∨ daysIn y month < day ∨ 1440 ≤ minutes.natAbs then
    fail .outOfRange
  let t := Timestamp.back ⟨y, month, day, hour, minute, second, nanos⟩ minutes
  if t.year < years.1 ∨ years.2 < t.year then fail .impossible
  return t

end TimeReader

/-- The timestamp of an RFC 3339 text. -/
def Timestamp.parse (text : String) : Except TimeError Timestamp :=
  (TimeReader.timestamp.run text.toList).map (·.1)

end StepFlow

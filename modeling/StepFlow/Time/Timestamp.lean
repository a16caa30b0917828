/-!
# Timestamps

## Main definitions

* `Timestamp`: a date and a time of day in universal time.
* `Timestamp.back`: the timestamp a number of minutes earlier.
* `Timestamp.render`: its RFC 3339 text.
* `Timestamp.clock`: the time of day with milliseconds.

## Design notes

A leap second is the second `60` of its minute. Shifting by whole minutes keeps it. Years outside
the four digits of the standard are written with their sign.
-/

namespace StepFlow

/-- A date and a time of day in universal time. -/
structure Timestamp where
  year : Int
  month : Nat
  day : Nat
  hour : Nat
  minute : Nat
  /-- Up to 60, for a leap second. -/
  second : Nat
  nanos : Nat
  deriving DecidableEq, Repr, Inhabited

/-- Whether a year has a 29th of February. -/
def isLeapYear (year : Int) : Bool :=
  year % 4 = 0 && (year % 100 ≠ 0 || year % 400 = 0)

/-- The number of days of a month. -/
def daysIn (year : Int) (month : Nat) : Nat :=
  if month = 2 then if isLeapYear year then 29 else 28
  else if [4, 6, 9, 11].contains month then 30
  else 31

/-- The digits of a number with zeros in front, to a width of at least `width`. -/
def padded (width n : Nat) : String :=
  let digits := toString n
  String.ofList (List.replicate (width - digits.length) '0') ++ digits

namespace Timestamp

/-- The first moment of 1970. -/
def epoch : Timestamp := ⟨1970, 1, 1, 0, 0, 0, 0⟩

/-- The same time of the next day. -/
def nextDay (t : Timestamp) : Timestamp :=
  if t.day < daysIn t.year t.month then { t with day := t.day + 1 }
  else if t.month < 12 then { t with month := t.month + 1, day := 1 }
  else { t with year := t.year + 1, month := 1, day := 1 }

/-- The same time of the day before. -/
def previousDay (t : Timestamp) : Timestamp :=
  if 1 < t.day then { t with day := t.day - 1 }
  else if 1 < t.month then
    { t with month := t.month - 1, day := daysIn t.year (t.month - 1) }
  else { t with year := t.year - 1, month := 12, day := 31 }

/-- The timestamp a number of minutes earlier, less than a day either way. -/
def back (t : Timestamp) (minutes : Int) : Timestamp :=
  let total := (t.hour * 60 + t.minute : Nat) - minutes
  let ofDay := (total % 1440).toNat
  let t' := if total < 0 then t.previousDay else if 1440 ≤ total then t.nextDay else t
  { t' with hour := ofDay / 60, minute := ofDay % 60 }

/-- The text of a year: four digits, or a sign and at least four digits. -/
def yearText (year : Int) : String :=
  if 0 ≤ year ∧ year ≤ 9999 then padded 4 year.toNat
  else (if year < 0 then "-" else "+") ++ padded 4 year.natAbs

/-- The text of the fraction of a second: three, six or nine digits, or nothing for zero. -/
def fractionText (nanos : Nat) : String :=
  if nanos = 0 then ""
  else if nanos % 1000000 = 0 then "." ++ padded 3 (nanos / 1000000)
  else if nanos % 1000 = 0 then "." ++ padded 6 (nanos / 1000)
  else "." ++ padded 9 nanos

/-- Hours, minutes and seconds. -/
def timeText (t : Timestamp) : String :=
  padded 2 t.hour ++ ":" ++ padded 2 t.minute ++ ":" ++ padded 2 t.second

/-- The RFC 3339 text with the given name for universal time. -/
def renderWith (zone : String) (t : Timestamp) : String :=
  yearText t.year ++ "-" ++ padded 2 t.month ++ "-" ++ padded 2 t.day ++ "T" ++ t.timeText
    ++ fractionText t.nanos ++ zone

/-- The RFC 3339 text that ends in `Z`. -/
def render : Timestamp → String :=
  renderWith "Z"

/-- The RFC 3339 text that states an offset of zero. -/
def renderOffset : Timestamp → String :=
  renderWith "+00:00"

/-- The time of day with milliseconds, cut off. -/
def clock (t : Timestamp) : String :=
  t.timeText ++ "." ++ padded 3 (t.nanos / 1000000)

end Timestamp

end StepFlow

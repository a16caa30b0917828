import StepFlow.Decimal.Shortest

/-!
# Floating-point numbers as text

How a double is written, and which double a written number stands for.

## Main definitions

* `parts`: sign, mantissa and exponent of a finite double.
* `render`: the shortest text that reads back, positional for middling sizes.
* `ofParts?`: the double of a 64-bit significand and a power of ten.

## Design notes

A number is read as its first digits, as far as they fit a 64-bit word, times or divided by a
power of ten, and each of these operations rounds. For numbers of at most fifteen digits and a
small exponent this is the nearest double.
-/

namespace StepFlow.Decimal

/-- The sign, the binary mantissa and exponent of a finite double, and whether the mantissa is the
least of its binade. -/
def parts (x : Float) : Bool × Nat × Int × Bool :=
  let bits := x.toBits.toNat
  let fraction : Nat := bits % 0x10000000000000
  let biased : Nat := bits / 0x10000000000000 % 0x800
  let negative : Bool := 0x8000000000000000 ≤ bits
  if biased = 0 then (negative, fraction, -1074, false)
  else (negative, fraction + 0x10000000000000, (biased : Int) - 1075, fraction = 0 && 1 < biased)

/-- Puts a decimal point after the given number of digits, of which there are enough. -/
def withPoint (digits : List Char) (whole : Nat) : List Char :=
  digits.take whole ++ '.' :: digits.drop whole

/-- The digits of a positional number: at least one on each side of the point. -/
def positional (digits : List Char) (magnitude : Int) : List Char :=
  if magnitude < 0 then '0' :: '.' :: (List.replicate (-magnitude - 1).toNat '0' ++ digits)
  else
    let whole := magnitude.toNat + 1
    if digits.length ≤ whole then
      digits ++ List.replicate (whole - digits.length) '0' ++ ['.', '0']
    else withPoint digits whole

/-- One digit before the point, and an exponent that always shows its sign. -/
def scientific (digits : List Char) (magnitude : Int) : List Char :=
  let body := if digits.length ≤ 1 then digits else withPoint digits 1
  let sign := if magnitude < 0 then '-' else '+'
  body ++ 'e' :: sign :: Nat.toDigits 10 magnitude.natAbs

/-- The text of a decimal. Positional notation holds from `10 ^ -5` up to `10 ^ 16`. -/
def Numeral.toChars (d : Numeral) : List Char :=
  let digits := Nat.toDigits 10 d.digits
  let magnitude := d.exponent + digits.length - 1
  if -5 ≤ magnitude ∧ magnitude < 16 then positional digits magnitude
  else scientific digits magnitude

/-- Whether a double is neither infinite nor undefined. -/
def isFinite (x : Float) : Bool :=
  x.toBits.toNat / 0x10000000000000 % 0x800 < 0x7FF

/-- The shortest text of a finite double that reads back as it. -/
def render (x : Float) : String :=
  let (negative, mantissa, exponent, least) := parts x
  let body :=
    if mantissa = 0 then ['0', '.', '0']
    else (Binary.ofParts mantissa exponent least).shortest.toChars
  String.ofList (if negative then '-' :: body else body)

/-- A power of ten as a double, for exponents up to 308. -/
def powerOfTen (n : Nat) : Float :=
  Float.ofScientific 1 false n

/-- Divides by ten to the given power, at most `10 ^ 308` at a time. -/
def divideByPower (x : Float) (n : Nat) : Float :=
  if n ≤ 308 then x / powerOfTen n
  else if x == 0.0 then x
  else divideByPower (x / powerOfTen 308) (n - 308)
termination_by n

/-- The double for `significand * 10 ^ exponent`, unless it is too large. -/
def ofParts? (significand : UInt64) (exponent : Int) : Option Float :=
  let x := significand.toFloat
  if exponent < 0 then some (divideByPower x exponent.natAbs)
  else if exponent ≤ 308 then
    let y := x * powerOfTen exponent.toNat
    if isFinite y then some y else none
  else if x == 0.0 then some x
  else none

/-- The double nearest to an integer of at most 64 bits. -/
def ofInt (n : Int) : Float :=
  if n < 0 then -(UInt64.ofNat n.natAbs).toFloat else (UInt64.ofNat n.natAbs).toFloat

end StepFlow.Decimal

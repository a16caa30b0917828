/-!
# Shortest decimals

The decimal with the fewest digits that lies in the interval of reals which round to a given
binary number.

## Main definitions

* `Binary`: a positive number `mantissa * 2 ^ exponent` with the interval that rounds to it.
* `Numeral`: a number `digits * 10 ^ exponent`.
* `Binary.shortest`: the shortest decimal of the interval, and of those the nearest.

All comparisons are made between natural numbers, after both sides have been brought to one scale.
-/

namespace StepFlow.Decimal

/-- A decimal number `digits * 10 ^ exponent`. -/
structure Numeral where
  digits : Nat
  exponent : Int
  deriving DecidableEq, Repr

/-- A positive binary number in quarters of its last place: it is `mid * 2 ^ exponent`, and the
reals between `low` and `high` on the same scale round to it, the ends included when `closed`. -/
structure Binary where
  low : Nat
  mid : Nat
  high : Nat
  exponent : Int
  closed : Bool
  deriving DecidableEq, Repr

/-- The binary number `mantissa * 2 ^ exponent`. A mantissa that is the least of its binade has
the lower neighbour at half the distance. -/
def Binary.ofParts (mantissa : Nat) (exponent : Int) (leastOfBinade : Bool) : Binary where
  low := if leastOfBinade then 4 * mantissa - 1 else 4 * mantissa - 2
  mid := 4 * mantissa
  high := 4 * mantissa + 2
  exponent := exponent - 2
  closed := mantissa % 2 = 0

/-- What one unit of the grid `10 ^ place` and one unit of `b` are on a common integer scale. -/
def Binary.scale (b : Binary) (place : Int) : Nat × Nat :=
  (Nat.pow 10 place.toNat * Nat.pow 2 (-b.exponent).toNat,
    Nat.pow 10 (-place).toNat * Nat.pow 2 b.exponent.toNat)

/-- Whether `n * 10 ^ place` rounds to `b`. -/
def Binary.covers (b : Binary) (place : Int) (n : Nat) : Bool :=
  let (grid, unit) := b.scale place
  if b.closed then b.low * unit ≤ n * grid && n * grid ≤ b.high * unit
  else b.low * unit < n * grid && n * grid < b.high * unit

/-- The multiple of `10 ^ place` at or below `b`, counted in that unit. -/
def Binary.floor (b : Binary) (place : Int) : Nat :=
  let (grid, unit) := b.scale place
  b.mid * unit / grid

/-- Of the two grid points around `b` the nearer one; the even one when they are equally near. -/
def Binary.nearer (b : Binary) (place : Int) : Nat :=
  let (grid, unit) := b.scale place
  let n := b.floor place
  let below := b.mid * unit - n * grid
  let above := (n + 1) * grid - b.mid * unit
  if below < above then n else if above < below then n + 1 else if n % 2 = 0 then n else n + 1

/-- The grid point of `10 ^ place` that rounds to `b`, the nearer one if both neighbours do. -/
def Binary.candidate? (b : Binary) (place : Int) : Option Nat :=
  let n := b.floor place
  match b.covers place n, b.covers place (n + 1) with
  | true, true => some (b.nearer place)
  | true, false => some n
  | false, true => some (n + 1)
  | false, false => none

/-- The number of decimal digits of a natural number. -/
def digitCount (n : Nat) : Nat :=
  (Nat.toDigits 10 n).length

/-- The exponent `e` with `10 ^ e ≤ b < 10 ^ (e + 1)`. -/
def Binary.magnitude (b : Binary) : Int :=
  let num := b.mid * Nat.pow 2 b.exponent.toNat
  let den := Nat.pow 2 (-b.exponent).toNat
  if den ≤ num then digitCount (num / den) - 1 else -digitCount (den / num)

/-- The first grid with a point that rounds to `b`, from the given place downwards. -/
def Binary.search (b : Binary) (place : Int) : Nat → Numeral
  | 0 => ⟨b.floor place, place⟩
  | tries + 1 =>
    match b.candidate? place with
    | some n => ⟨n, place⟩
    | none => b.search (place - 1) tries

/-- Moves trailing zeros from the digits into the exponent. -/
def Numeral.stripZeros (d : Numeral) : Nat → Numeral
  | 0 => d
  | n + 1 => if d.digits % 10 = 0 then Numeral.stripZeros ⟨d.digits / 10, d.exponent + 1⟩ n else d

/-- The decimal with the fewest digits that rounds to `b`; seventeen digits always suffice for a
number of 53 binary digits. -/
def Binary.shortest (b : Binary) : Numeral :=
  (b.search b.magnitude 17).stripZeros 17

end StepFlow.Decimal

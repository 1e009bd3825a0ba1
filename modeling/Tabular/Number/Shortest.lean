import Tabular.Number.Double

/-!
The shortest text of a double.

`Shortest.digits` finds, for a positive number of units, the decimal number with the fewest digits
that rounds to it: on the grids of 1, 2, … 17 digits it tests the two neighbours of the value and
takes the nearer one of those that read back, the upper one of two that are equally near.
`Shortest.text` writes it without an exponent.
-/

namespace Tabular.Shortest

open Tabular.Decimal

/-- The exponent of the first significant digit of a positive number of units, and so the power of
ten next below the value. -/
def leadingExponent (units : Nat) : Int :=
  if one ≤ units then (digitCount (units / one) : Int) - 1
  else -(digitCount ((one + units - 1) / units - 1) : Int)

/-- Whether a decimal number rounds to a number of units. -/
def readsBack (units coefficient : Nat) (exponent : Int) : Bool :=
  magnitude? coefficient exponent = some units

/-- The part of a value above a grid point, and the distance of grid points, in a common unit. -/
def offset (units : Nat) (exponent : Int) : Nat × Nat :=
  let point := one * Nat.pow 10 exponent.toNat
  (units * Nat.pow 10 (-exponent).toNat % point, point)

/-- The grid point next below a value, as a coefficient of `10 ^ exponent`. -/
def floorOn (units : Nat) (exponent : Int) : Nat :=
  units * Nat.pow 10 (-exponent).toNat / (one * Nat.pow 10 exponent.toNat)

/-- Of the two grid points around a value, the nearer one of those that read back. -/
def pick? (units : Nat) (exponent : Int) : Option Nat :=
  let below := floorOn units exponent
  let (rest, gap) := offset units exponent
  let lower := readsBack units below exponent
  let upper := readsBack units (below + 1) exponent
  if lower && (!upper || 2 * rest < gap) then some below
  else if upper then some (below + 1)
  else none

/-- The first grid, from `n` digits on, with a point that reads back. Where no grid of the `fuel`
tried has one, the value itself, which is a decimal number of 1074 places. -/
def search (units : Nat) (leading : Int) : Nat → Nat → Nat × Int
  | _, 0 => (units * Nat.pow 5 1074, -1074)
  | n, fuel + 1 =>
    match pick? units (leading + 1 - n) with
    | some c => (c, leading + 1 - n)
    | none => search units leading (n + 1) fuel

/-- The most digits that the shortest text of a double needs. -/
def maxDigits : Nat := 17

/-- The coefficient and the exponent of the shortest decimal number that rounds to a positive number
of units. -/
def digits (units : Nat) : Nat × Int :=
  search units (leadingExponent units) 1 maxDigits

/-- A text without the zeros at its end. -/
def dropTrailingZeros (s : List Char) : List Char :=
  (s.reverse.dropWhile (· == '0')).reverse

/-- A decimal number without an exponent and without zeros at the end of its fraction. -/
def positional (coefficient : Nat) (exponent : Int) : List Char :=
  let ds := Nat.toDigits 10 coefficient
  if 0 ≤ exponent then ds ++ List.replicate exponent.toNat '0'
  else
    let places := (-exponent).toNat
    let padded := List.replicate (places + 1 - ds.length) '0' ++ ds
    let whole := padded.take (padded.length - places)
    let frac := dropTrailingZeros (padded.drop (padded.length - places))
    if frac = [] then whole else whole ++ '.' :: frac

/-- The shortest text that reads back as a double. -/
def text (units : Int) : String :=
  if units = 0 then "0"
  else
    let (coefficient, exponent) := digits units.natAbs
    let body := positional coefficient exponent
    String.ofList (if units < 0 then '-' :: body else body)

end Tabular.Shortest

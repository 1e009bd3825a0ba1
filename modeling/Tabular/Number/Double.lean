import Tabular.Text.Reader

/-!
Numbers in cells.

A cell is numeric when it is written as a decimal number whose nearest double is finite. Every
finite double is a whole number of units of `2 ^ -1074`, so a double is held here as that integer:
equality and order of doubles are equality and order of integers, and the two zeros are one.
`Decimal.ofChars?` reads the written form, `Decimal.toUnits?` rounds it to the nearest double, ties
to the even significand.
-/

namespace Tabular

/-- A written decimal number: `coefficient * 10 ^ exponent`, negated or not. -/
structure Decimal where
  negative : Bool
  coefficient : Nat
  exponent : Int
  deriving DecidableEq, Repr

namespace Decimal

open Tabular.Text

/-- A sign; true for a minus. -/
def sign : Reader Bool :=
  (do let _ ← Reader.char '-'; return true) <|>
  (do let _ ← Reader.char '+'; return false) <|> pure false

/-- The digits after a point, if there is one. -/
def fractionDigits : Reader (List Char) :=
  (do let _ ← Reader.char '.'; Reader.takeWhile isDigit) <|> pure []

/-- The exponent, zero if there is none. -/
def exponentPart : Reader Int :=
  (do
    let _ ← Reader.char 'e' <|> Reader.char 'E'
    let negative ← sign
    let n : Int := Nat.ofDigitChars 10 (← Reader.takeWhile1 isDigit) 0
    return if negative then -n else n) <|> pure 0

/-- A decimal number: digits with at most one point among them, of which at least one digit is
there, and perhaps a sign before and an exponent after them. -/
def number : Reader Decimal := do
  let negative ← sign
  let whole ← Reader.takeWhile isDigit
  let frac ← fractionDigits
  if whole ++ frac = [] then Reader.fail
  else
    let exponent ← exponentPart
    return {
      negative
      coefficient := Nat.ofDigitChars 10 (whole ++ frac) 0
      exponent := exponent - frac.length }

/-- The decimal number that a text writes. -/
def ofChars? (s : List Char) : Option Decimal :=
  number.run? s

/-! ### Rounding -/

/-- The number of digits of a significand. -/
def precision : Nat := 53

/-- The units of one: a unit is the smallest positive double. -/
def one : Nat := Nat.pow 2 1074

/-- The smallest number of units that is too large for a finite double. -/
def limit : Nat := Nat.pow 2 2098

/-- A quotient rounded to the nearest integer, a half to the even neighbour. -/
def divNearest (num den : Nat) : Nat :=
  let q := num / den
  let r := num % den
  if den < 2 * r ∨ (2 * r = den ∧ q % 2 = 1) then q + 1 else q

/-- A quotient rounded to the nearest integer whose significant binary digits are at most
`precision`. -/
def roundUnits (num den : Nat) : Nat :=
  let excess := (num / den).log2 + 1 - precision
  divNearest num (den * Nat.pow 2 excess) * Nat.pow 2 excess

/-- The number of decimal digits of a natural number. -/
def digitCount (n : Nat) : Nat := (Nat.toDigits 10 n).length

/-- The magnitude of a decimal number in units, rounded; none where it is too large for a double. A
number with its first digit far beyond either end of the range is decided by the place of that
digit. -/
def magnitude? (coefficient : Nat) (exponent : Int) : Option Nat :=
  if coefficient = 0 then some 0
  else
    let place : Int := digitCount coefficient + exponent
    if place > 400 then none
    else if place < -400 then some 0
    else
      let n := roundUnits (coefficient * Nat.pow 10 exponent.toNat * one)
        (Nat.pow 10 (-exponent).toNat)
      if n < limit then some n else none

/-- The nearest double, in units; none where it is not finite. -/
def toUnits? (d : Decimal) : Option Int :=
  (magnitude? d.coefficient d.exponent).map fun n => if d.negative then -(n : Int) else n

end Decimal

/-- The double that a cell holds, in units; none where the cell is not numeric. -/
def numeric? (cell : String) : Option Int :=
  (Decimal.ofChars? cell.toList).bind Decimal.toUnits?

end Tabular

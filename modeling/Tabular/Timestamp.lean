import Tabular.Text.Reader

/-!
Points in time.

A timestamp is a date and a time of day in universal time, to the nanosecond. It is written as in
RFC 3339, with a sign before a year that has not just four digits, and read with the liberties
common there: a space or a small letter between date and time, leading zeros left out, blanks
between the parts and after the last one, a signed year of any length, any number of digits in the
fraction of a second, and an offset from universal time that may lack its colon.
-/

namespace Tabular

/-- Whether a year has 366 days. -/
def isLeapYear (year : Int) : Bool :=
  year % 4 == 0 && (year % 100 != 0 || year % 400 == 0)

/-- The number of days of a month. -/
def daysInMonth (year : Int) (month : Nat) : Nat :=
  if month = 2 then (if isLeapYear year then 29 else 28)
  else if month = 4 ∨ month = 6 ∨ month = 9 ∨ month = 11 then 30
  else 31

/-- A date and a time of day; a minute may have a leap second. The year before the year 1 is the
year 0. -/
structure Timestamp where
  year : Int
  month : Nat
  day : Nat
  hour : Nat
  minute : Nat
  second : Nat
  nanosecond : Nat
  deriving DecidableEq, Repr

namespace Timestamp

open Tabular.Text

/-- The start of the common epoch. -/
def epoch : Timestamp := ⟨1970, 1, 1, 0, 0, 0, 0⟩

/-- The first year that has timestamps. -/
def minYear : Int := -262143

/-- The last year that has timestamps. -/
def maxYear : Int := 262142

/-- Whether the parts name a date of a year within range and a time of day. -/
def isValid (t : Timestamp) : Bool :=
  minYear ≤ t.year && t.year ≤ maxYear && 1 ≤ t.month && t.month ≤ 12
    && 1 ≤ t.day && t.day ≤ daysInMonth t.year t.month
    && t.hour ≤ 23 && t.minute ≤ 59 && t.second ≤ 60 && t.nanosecond ≤ 999999999

/-! ### Writing -/

/-- A number with leading zeros up to a width. -/
def padded (width n : Nat) : List Char :=
  let ds := Nat.toDigits 10 n
  List.replicate (width - ds.length) '0' ++ ds

/-- The fraction of a second in as many groups of three digits as it needs. -/
def fractionText (nanosecond : Nat) : List Char :=
  if nanosecond = 0 then []
  else if nanosecond % 1000000 = 0 then '.' :: padded 3 (nanosecond / 1000000)
  else if nanosecond % 1000 = 0 then '.' :: padded 6 (nanosecond / 1000)
  else '.' :: padded 9 nanosecond

/-- A year in four digits, with a sign where it does not lie between 0 and 9999. -/
def yearText (year : Int) : List Char :=
  if year < 0 then '-' :: padded 4 year.natAbs
  else if 9999 < year then '+' :: padded 4 year.natAbs
  else padded 4 year.natAbs

/-- Date and time without an offset. -/
def localText (t : Timestamp) : List Char :=
  yearText t.year ++ '-' :: padded 2 t.month ++ '-' :: padded 2 t.day ++ 'T' :: padded 2 t.hour
    ++ ':' :: padded 2 t.minute ++ ':' :: padded 2 t.second ++ fractionText t.nanosecond

/-- The text in data: a `Z` marks universal time. -/
def text (t : Timestamp) : String :=
  String.ofList (t.localText ++ ['Z'])

/-- The text in reports: universal time as an offset. -/
def textWithOffset (t : Timestamp) : String :=
  String.ofList (t.localText ++ "+00:00".toList)

/-! ### Reading -/

/-- One to `width` digits after white space. -/
def field (width : Nat) : Reader Nat := do
  let _ ← Reader.takeWhile isBlank
  fun s =>
    let ds := (s.take width).takeWhile isDigit
    if ds = [] then .stuck s else .found (Nat.ofDigitChars 10 ds 0) (s.drop ds.length)

/-- A year after white space: up to four digits, or a sign and any number of them. -/
def yearField : Reader Int := do
  let _ ← Reader.takeWhile isBlank
  (do
    let sign ← Reader.char '-' <|> Reader.char '+'
    let n : Int := Nat.ofDigitChars 10 (← Reader.takeWhile1 isDigit) 0
    return if sign = '-' then -n else n) <|> (do return (← field 4))

/-- A sign between two fields, after white space. -/
def mark (c : Char) : Reader Unit := do
  let _ ← Reader.takeWhile isBlank
  let _ ← Reader.char c

/-- The fraction of a second; digits beyond the ninth do not count. -/
def fraction : Reader Nat :=
  (do
    let _ ← Reader.char '.'
    let ds ← Reader.takeWhile1 isDigit
    return Nat.ofDigitChars 10 ((ds ++ List.replicate 9 '0').take 9) 0) <|> pure 0

/-- Exactly two digits. -/
def twoDigits : Reader Nat := fun s =>
  if (s.take 2).length = 2 ∧ (s.take 2).all isDigit then
    .found (Nat.ofDigitChars 10 (s.take 2) 0) (s.drop 2)
  else .stuck s

/-- An offset from universal time in minutes. -/
def offset : Reader Int :=
  (do let _ ← Reader.char 'Z' <|> Reader.char 'z'; return 0) <|>
  (do let _ ← Reader.textNoCase "UTC".toList; return 0) <|>
  (do
    let sign ← Reader.char '+' <|> Reader.char '-' <|> Reader.char '\u2212'
    let hours ← twoDigits
    let _ ← Reader.takeWhile fun c => c == ':' || isBlank c
    let minutes ← twoDigits
    if 23 < hours ∨ 59 < minutes then Reader.fail
    else
      let n : Int := 60 * hours + minutes
      return if sign = '+' then n else -n)

/-- The day before. -/
def previousDay (t : Timestamp) : Timestamp :=
  if 1 < t.day then { t with day := t.day - 1 }
  else if 1 < t.month then
    { t with month := t.month - 1, day := daysInMonth t.year (t.month - 1) }
  else { t with year := t.year - 1, month := 12, day := 31 }

/-- The day after. -/
def nextDay (t : Timestamp) : Timestamp :=
  if t.day < daysInMonth t.year t.month then { t with day := t.day + 1 }
  else if t.month < 12 then { t with month := t.month + 1, day := 1 }
  else { t with year := t.year + 1, month := 1, day := 1 }

/-- A local time at an offset, in universal time. -/
def toUniversal (t : Timestamp) (offset : Int) : Timestamp :=
  let minutes : Int := 60 * t.hour + t.minute - offset
  let inDay := (minutes % 1440).toNat
  let t := if minutes < 0 then previousDay t else if minutes < 1440 then t else nextDay t
  { t with hour := inDay / 60, minute := inDay % 60 }

/-- Date, time and offset. -/
def reader : Reader (Timestamp × Int) := do
  let year ← yearField
  mark '-'
  let month ← field 2
  mark '-'
  let day ← field 2
  let _ ← Reader.char 'T' <|> Reader.char 't' <|> Reader.char ' '
  let hour ← field 2
  mark ':'
  let minute ← field 2
  mark ':'
  let second ← field 2
  let nanosecond ← fraction
  let _ ← Reader.takeWhile isBlank
  let shift ← offset
  let _ ← Reader.takeWhile isBlank
  return (⟨year, month, day, hour, minute, second, nanosecond⟩, shift)

/-- The point in time that a text writes. Both the time at the offset and the universal time have
to lie within range. -/
def ofText? (text : String) : Option Timestamp :=
  match reader.run? text.toList with
  | some (t, shift) =>
    let u := t.toUniversal shift
    if t.isValid && u.isValid then some u else none
  | none => none

end Timestamp

end Tabular

import Tabular.Json.Basic
import Tabular.Text.Reader

/-!
Reading JSON.

`Json.parse` reads one value with blanks around it. Control characters have to be escaped inside a
string, and a number starts with a zero only where the zero is its whole integer part. An escaped
half of a surrogate pair without its partner leaves the text around it without a value.
-/

namespace Tabular

namespace Json

open Tabular.Text

/-- Blanks between tokens. -/
def blanks : Reader Unit := do
  let _ ← Reader.takeWhile isGap

/-- A reader and the blanks after it. -/
def lexeme {α : Type} (p : Reader α) : Reader α := do
  let a ← p
  blanks
  return a

/-- The value of a hexadecimal digit. -/
def hexValue? (c : Char) : Option Nat :=
  if '0' ≤ c ∧ c ≤ '9' then some (c.toNat - 0x30)
  else if 'a' ≤ c ∧ c ≤ 'f' then some (c.toNat - 0x57)
  else if 'A' ≤ c ∧ c ≤ 'F' then some (c.toNat - 0x37)
  else none

/-- A hexadecimal digit. -/
def hexDigitValue : Reader Nat
  | [] => .stuck []
  | c :: s =>
    match hexValue? c with
    | some n => .found n s
    | none => .stuck (c :: s)

/-- Four hexadecimal digits. -/
def hex4 : Reader Nat := do
  let a ← hexDigitValue
  let b ← hexDigitValue
  let c ← hexDigitValue
  let d ← hexDigitValue
  return ((a * 16 + b) * 16 + c) * 16 + d

/-- The second half of a surrogate pair. -/
def lowSurrogate : Reader Nat :=
  Reader.accepting (do
    let _ ← Reader.text ['\\', 'u']
    hex4) fun n => if 0xDC00 ≤ n ∧ n ≤ 0xDFFF then some n else none

/-- A character by its code units; none for half of a surrogate pair. -/
def escapedUnit : Reader (Option Char) := do
  let _ ← Reader.char 'u'
  let n ← hex4
  if 0xDC00 ≤ n ∧ n ≤ 0xDFFF then return none
  else if 0xD800 ≤ n ∧ n ≤ 0xDBFF then
    let low ← Reader.optional lowSurrogate
    return low.map fun m => Char.ofNat (0x10000 + (n - 0xD800) * 0x400 + (m - 0xDC00))
  else return some (Char.ofNat n)

/-- The escapes of one letter. -/
def shortEscape? (c : Char) : Option Char :=
  if c = '"' ∨ c = '\\' ∨ c = '/' then some c
  else if c = 'n' then some '\n'
  else if c = 'r' then some '\r'
  else if c = 't' then some '\t'
  else if c = 'b' then some (Char.ofNat 8)
  else if c = 'f' then some (Char.ofNat 12)
  else none

/-- One character of a string; none for half of a surrogate pair. -/
def stringChar : Reader (Option Char)
  | [] => .stuck []
  | '\\' :: [] => .stuck []
  | '\\' :: c :: s =>
    match shortEscape? c with
    | some d => .found (some d) s
    | none => escapedUnit (c :: s)
  | c :: s => if c = '"' ∨ c.toNat < 0x20 then .stuck (c :: s) else .found (some c) s

/-- A string between quotes; none where it holds half of a surrogate pair. -/
def quoted : Reader (Option String) := do
  let _ ← Reader.char '"'
  let cs ← Reader.many stringChar
  let _ ← Reader.char '"'
  return (cs.mapM id).map String.ofList

/-- A string as a value. -/
def stringValue : Reader Json := do
  return ((← quoted).map Json.string).getD .unpaired

/-- The integer part of a number: a zero, or digits that do not start with one. -/
def wholePart : Reader (List Char) :=
  Reader.accepting (Reader.takeWhile1 isDigit) fun t =>
    if t.length = 1 ∨ t.head? ≠ some '0' then some t else none

/-- The fraction of a number, with its point. -/
def fraction : Reader (List Char) := do
  let _ ← Reader.char '.'
  return '.' :: (← Reader.takeWhile1 isDigit)

/-- The exponent of a number, with its letter. -/
def exponent : Reader (List Char) := do
  let e ← Reader.char 'e' <|> Reader.char 'E'
  let sign ← Reader.optional (Reader.char '+' <|> Reader.char '-')
  return e :: sign.toList ++ (← Reader.takeWhile1 isDigit)

/-- A number. -/
def numberValue : Reader JsonNumber := do
  let minus ← Reader.optional (Reader.char '-')
  let whole ← wholePart
  let frac ← Reader.optional fraction
  let exp ← Reader.optional exponent
  if frac.isNone && exp.isNone && !(minus.isSome && whole = ['0']) then
    let n : Int := Nat.ofDigitChars 10 whole 0
    return .integer (if minus.isSome then -n else n)
  else
    return .decimal (String.ofList
      (minus.toList ++ whole ++ frac.getD [] ++ exp.getD []))

/-- A word that stands for a value. -/
def wordFor (word : String) (v : Json) : Reader Json := do
  let _ ← Reader.text word.toList
  return v

/-- An array of items that a reader reads. -/
def arrayOf (item : Reader Json) : Reader Json := do
  let _ ← lexeme (Reader.char '[')
  let items ← Reader.sepBy (lexeme item) (lexeme (Reader.char ','))
  let _ ← Reader.char ']'
  return .array items

/-- A member of an object; none where its name has no value. -/
def memberOf (item : Reader Json) : Reader (Option (String × Json)) := do
  let name ← lexeme quoted
  let _ ← lexeme (Reader.char ':')
  let v ← lexeme item
  return name.map fun n => (n, v)

/-- An object whose values a reader reads. -/
def objectOf (item : Reader Json) : Reader Json := do
  let _ ← lexeme (Reader.char '\x7b')
  let ms ← Reader.sepBy (memberOf item) (lexeme (Reader.char ','))
  let _ ← Reader.char '\x7d'
  return ((ms.mapM id).map Json.object).getD .unpaired

/-- A value that is nested at most `n` levels deep. -/
def nested : Nat → Reader Json
  | 0 => Reader.fail
  | n + 1 =>
    wordFor "null" .null <|> wordFor "true" (.bool true) <|> wordFor "false" (.bool false)
      <|> stringValue <|> (do return .number (← numberValue))
      <|> arrayOf (nested n) <|> objectOf (nested n)

/-- Reads a text that holds one value. Nesting is no deeper than the text is long. -/
def parse (text : String) : Option Json :=
  let s := text.toList
  Reader.run? (do
    blanks
    lexeme (nested (s.length + 1))) s

end Json

end Tabular

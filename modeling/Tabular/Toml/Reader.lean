import Tabular.Number.Double
import Tabular.Timestamp
import Tabular.Toml.Basic

/-!
Reading TOML.

A document is read line by line: a header, a key with its value, or nothing, and then perhaps a
comment. Arrays may run over several lines, inline tables may not. Arrays and inline tables are
nested at most `maxDepth` levels deep, and a key has at most as many parts.
-/

namespace Tabular.Toml

open Tabular.Text

/-- How deeply values may be nested, and how many parts a key may have. -/
def maxDepth : Nat := 79

/-! ### Blanks and comments -/

/-- Blanks within a line. -/
def blanks : Reader Unit := do
  let _ ← Reader.takeWhile fun c => c == ' ' || c == '\t'

/-- A control character other than the tab. -/
def isControl (c : Char) : Bool :=
  (c.toNat < 0x20 && c != '\t') || c.toNat == 0x7F

/-- The end of a line. -/
def newline : Reader Unit :=
  (do let _ ← Reader.char '\n') <|> (do let _ ← Reader.text ['\r', '\n'])

/-- A comment, up to the end of its line. -/
def comment : Reader Unit := do
  let _ ← Reader.char '#'
  let _ ← Reader.takeWhile fun c => !isControl c

/-- Blanks, line ends and comments between the items of an array. -/
def gaps : Reader Unit := do
  let _ ← Reader.many (
    (do let _ ← Reader.takeWhile1 fun c => c == ' ' || c == '\t') <|> newline
      <|> (do comment; newline))

/-! ### Strings -/

/-- The value of a hexadecimal digit. -/
def hexValue? (c : Char) : Option Nat :=
  if isDigit c then some (c.toNat - 0x30)
  else if 'a' ≤ c ∧ c ≤ 'f' then some (c.toNat - 0x57)
  else if 'A' ≤ c ∧ c ≤ 'F' then some (c.toNat - 0x37)
  else none

/-- A character by its code point, written with a number of hexadecimal digits. -/
def codePoint (digits : Nat) : Reader Char := fun s =>
  let ds := s.take digits
  match ds.mapM hexValue? with
  | none => .stuck s
  | some vs =>
    let n := vs.foldl (fun n v => 16 * n + v) 0
    if ds.length = digits ∧ n.isValidChar then .found (Char.ofNat n) (s.drop digits) else .stuck s

/-- An escaped character, after the backslash. -/
def escaped : Reader Char :=
  fun s =>
    match s with
    | 'b' :: r => .found (Char.ofNat 8) r
    | 't' :: r => .found '\t' r
    | 'n' :: r => .found '\n' r
    | 'f' :: r => .found (Char.ofNat 12) r
    | 'r' :: r => .found '\r' r
    | '"' :: r => .found '"' r
    | '\\' :: r => .found '\\' r
    | 'u' :: r => codePoint 4 r
    | 'U' :: r => codePoint 8 r
    | _ => .stuck s

/-- A character of a class. -/
def one (p : Char → Bool) : Reader Char
  | [] => .stuck []
  | c :: s => if p c then .found c s else .stuck (c :: s)

/-- An escape with its backslash. -/
def escape : Reader Char := do
  let _ ← Reader.char '\\'
  escaped

/-- A string between quotes, on one line. -/
def basicString : Reader String := do
  let _ ← Reader.char '"'
  let cs ← Reader.many (one (fun c => c != '"' && c != '\\' && !isControl c) <|> escape)
  let _ ← Reader.char '"'
  return String.ofList cs

/-- A string between apostrophes, on one line and without escapes. -/
def literalString : Reader String := do
  let _ ← Reader.char '\''
  let cs ← Reader.takeWhile fun c => c != '\'' && !isControl c
  let _ ← Reader.char '\''
  return String.ofList cs

/-- A backslash at the end of a line, with the white space after it up to the next text. -/
def lineContinuation : Reader (List Char) := do
  let _ ← Reader.char '\\'
  blanks
  newline
  let _ ← Reader.many
    ((do let _ ← Reader.takeWhile1 fun c => c == ' ' || c == '\t') <|> newline)
  return []

/-- A line end inside a string. -/
def innerNewline : Reader (List Char) := do
  newline
  return ['\n']

/-- One or two quotes that do not end a string of several lines. -/
def innerQuotes (q : Char) : Reader (List Char) := fun s =>
  let run := (s.takeWhile (· == q)).length
  if run = 1 ∨ run = 2 then .found (List.replicate run q) (s.drop run) else .stuck s

/-- The end of a string of several lines: three quotes, and up to two more that belong to it. -/
def closingQuotes (q : Char) : Reader (List Char) := fun s =>
  let run := (s.takeWhile (· == q)).length
  if 3 ≤ run ∧ run ≤ 5 then .found (List.replicate (run - 3) q) (s.drop run) else .stuck s

/-- A string of several lines between three times `q`; `piece` reads its other parts. A line end
right after the opening quotes does not count. -/
def multiline (q : Char) (piece : Reader (List Char)) : Reader String := do
  let _ ← Reader.text [q, q, q]
  let _ ← Reader.optional newline
  let parts ← Reader.many (innerQuotes q <|> innerNewline <|> piece)
  let last ← closingQuotes q
  return String.ofList (parts.flatten ++ last)

/-- A string of several lines with escapes. -/
def multilineBasic : Reader String :=
  multiline '"' ((do return [← one fun c => c != '"' && c != '\\' && !isControl c])
    <|> lineContinuation <|> (do return [← escape]))

/-- A string of several lines without escapes. -/
def multilineLiteral : Reader String :=
  multiline '\'' (do return [← one fun c => c != '\'' && !isControl c])

/-- A string of any of the four kinds. -/
def anyString : Reader String :=
  multilineBasic <|> multilineLiteral <|> basicString <|> literalString

/-! ### Keys -/

/-- A part of a key. -/
def simpleKey : Reader String :=
  basicString <|> literalString <|>
  (do return String.ofList
        (← Reader.takeWhile1 fun c => isAsciiLetter c || isDigit c || c == '_' || c == '-'))

/-- A key: parts with dots between them. -/
def key : Reader (List String) :=
  Reader.accepting (Reader.sepBy1 simpleKey (do blanks; let _ ← Reader.char '.'; blanks)) fun ks =>
    if ks.length ≤ maxDepth then some ks else none

/-! ### Numbers and dates -/

/-- Digits of a class with single underscores between them, without the underscores. -/
def digitGroups (p : Char → Bool) : Reader (List Char) := do
  let groups ← Reader.sepBy1 (Reader.takeWhile1 p) (Reader.char '_')
  return groups.flatten

/-- A whole number in a base other than ten. -/
def basedInteger (letter : Char) (base : Nat) : Reader Toml :=
  Reader.accepting (do
    let _ ← Reader.text ['0', letter]
    digitGroups fun c => (hexValue? c).any (· < base)) fun ds =>
      let n := ds.foldl (fun n c => base * n + (hexValue? c).getD 0) 0
      if n < 9223372036854775808 then some (.integer n) else none

/-- A sign; true for a minus. -/
def sign : Reader Bool := Decimal.sign

/-- Digits without a zero in front, a lone zero apart. -/
def decimalDigits : Reader (List Char) :=
  Reader.accepting (digitGroups isDigit) fun ds =>
    if ds.length = 1 ∨ ds.head? ≠ some '0' then some ds else none

/-- The fraction of a number. -/
def fraction : Reader (List Char) := do
  let _ ← Reader.char '.'
  return '.' :: (← digitGroups isDigit)

/-- The exponent of a number. -/
def exponent : Reader (List Char) := do
  let _ ← Reader.char 'e' <|> Reader.char 'E'
  let negative ← sign
  return 'e' :: (if negative then ['-'] else []) ++ (← digitGroups isDigit)

/-- A decimal number: whole, or with a fraction or an exponent. A whole number has to fit in 64 bits
and a positive one with a fraction or an exponent in a double; a negative one may be as large as it
likes. -/
def decimal : Reader Toml :=
  Reader.accepting (do
    let negative ← sign
    let whole ← decimalDigits
    let frac ← Reader.optional fraction
    let exp ← Reader.optional exponent
    return (negative, whole, frac, exp)) fun (negative, whole, frac, exp) =>
      let magnitude := Nat.ofDigitChars 10 whole 0
      if frac.isSome || exp.isSome then
        let text := whole ++ frac.getD [] ++ exp.getD []
        if negative then some (.float (String.ofList ('-' :: text)))
        else if (numeric? (String.ofList text)).isSome then some (.float (String.ofList text))
        else none
      else if negative then
        if magnitude ≤ 9223372036854775808 then some (.integer (-(magnitude : Int))) else none
      else if magnitude < 9223372036854775808 then some (.integer magnitude)
      else none

/-- Infinity or no number, with or without a sign. -/
def specialFloat : Reader Toml := do
  let negative ← sign
  let word ← Reader.text "inf".toList <|> Reader.text "nan".toList
  return .float (String.ofList (if negative then '-' :: word else word))

/-- A number of so many digits within bounds. -/
def fixedNumber (digits low high : Nat) : Reader (List Char) := fun s =>
  let ds := s.take digits
  let n := Nat.ofDigitChars 10 ds 0
  if ds.length = digits ∧ ds.all isDigit ∧ low ≤ n ∧ n ≤ high then .found ds (s.drop digits)
  else .stuck s

/-- A date, whose month has that day. -/
def date : Reader (List Char) := do
  let year ← fixedNumber 4 0 9999
  let _ ← Reader.char '-'
  let month ← fixedNumber 2 1 12
  let _ ← Reader.char '-'
  let day ← fixedNumber 2 1
    (daysInMonth (Nat.ofDigitChars 10 year 0) (Nat.ofDigitChars 10 month 0))
  return year ++ '-' :: month ++ '-' :: day

/-- A time of day. -/
def time : Reader (List Char) := do
  let hour ← fixedNumber 2 0 23
  let _ ← Reader.char ':'
  let minute ← fixedNumber 2 0 59
  let _ ← Reader.char ':'
  let second ← fixedNumber 2 0 60
  let frac ← Reader.optional (do
    let _ ← Reader.char '.'
    return '.' :: (← Reader.takeWhile1 isDigit))
  return hour ++ ':' :: minute ++ ':' :: second ++ frac.getD []

/-- An offset from universal time. -/
def zone : Reader (List Char) :=
  (do return [← Reader.char 'Z' <|> Reader.char 'z']) <|>
  (do
    let s ← Reader.char '+' <|> Reader.char '-'
    let hour ← fixedNumber 2 0 23
    let _ ← Reader.char ':'
    let minute ← fixedNumber 2 0 59
    return s :: hour ++ ':' :: minute)

/-- A date with a time after it, if there is one. -/
def dateMaybeTime : Reader (List Char) := do
  let d ← date
  let t ← Reader.optional (do
    let _ ← Reader.char 'T' <|> Reader.char 't' <|> Reader.char ' '
    let t ← time
    let z ← Reader.optional zone
    return 'T' :: t ++ z.getD [])
  return d ++ t.getD []

/-- A date, a time or both. -/
def moment : Reader Toml := do
  return .dateTime (String.ofList (← dateMaybeTime <|> time))

/-! ### Values -/

/-- A word that stands for a value. -/
def word (w : String) (v : Toml) : Reader Toml := do
  let _ ← Reader.text w.toList
  return v

/-- An array of values that a reader reads; a comma may follow the last one. -/
def arrayOf (value : Reader Toml) : Reader Toml := do
  let comma : Reader Unit := do let _ ← Reader.char ','; gaps
  let _ ← Reader.char '['
  gaps
  let items ←
    (do
      let vs ← Reader.sepBy1 (do let v ← value; gaps; return v) comma
      let _ ← Reader.optional comma
      return vs) <|> pure []
  let _ ← Reader.char ']'
  return .array items

/-- A key, an equals sign and a value that a reader reads. -/
def assignment (value : Reader Toml) : Reader (List String × Toml) := do
  let k ← key
  blanks
  let _ ← Reader.char '='
  blanks
  return (k, ← value)

/-- An inline table of values that a reader reads. -/
def tableOf (value : Reader Toml) : Reader Toml :=
  Reader.accepting (do
    let _ ← Reader.char '\x7b'
    blanks
    let entries ← Reader.sepBy (do let e ← assignment value; blanks; return e)
      (do let _ ← Reader.char ','; blanks)
    let _ ← Reader.char '\x7d'
    return entries) fun entries => if entriesAgree entries then some (.table entries) else none

/-- A value without parts. -/
def scalar : Reader Toml :=
  (do return .string (← anyString)) <|> word "true" (.boolean true)
    <|> word "false" (.boolean false) <|> moment <|> specialFloat
    <|> basedInteger 'x' 16 <|> basedInteger 'o' 8 <|> basedInteger 'b' 2 <|> decimal

/-- A value in which arrays and inline tables are nested at most `n` levels deep. -/
def nested : Nat → Reader Toml
  | 0 => scalar
  | n + 1 => scalar <|> arrayOf (nested n) <|> tableOf (nested n)

/-! ### Documents -/

/-- What a line holds. -/
inductive Line where
  | blank
  | header (key : List String)
  | element (key : List String)
  | assignment (key : List String) (value : Toml)

/-- A header of an array of tables. -/
def elementHeader : Reader Line := do
  let _ ← Reader.text ['[', '[']
  blanks
  let k ← key
  blanks
  let _ ← Reader.text [']', ']']
  return .element k

/-- A header of a table. -/
def tableHeader : Reader Line := do
  let _ ← Reader.char '['
  blanks
  let k ← key
  blanks
  let _ ← Reader.char ']'
  return .header k

/-- One line without its end. -/
def line : Reader Line := do
  blanks
  let l ←
    elementHeader <|> tableHeader
      <|> (do let (k, v) ← assignment (nested maxDepth); return Line.assignment k v)
      <|> pure Line.blank
  blanks
  let _ ← Reader.optional comment
  return l

/-- Takes a line into a document. -/
def takeLine (d : Document) : Line → Option Document
  | .blank => some d
  | .header k => d.openTable k
  | .element k => d.openElement k
  | .assignment k v => d.assign k v

/-- Reads a document. -/
def parse (text : String) : Option Document := do
  let s := text.toList
  let s := if s.head? = some '\uFEFF' then s.tail else s
  let lines ← Reader.run? (Reader.sepBy1 line newline) s
  lines.foldlM takeLine Document.empty

end Tabular.Toml

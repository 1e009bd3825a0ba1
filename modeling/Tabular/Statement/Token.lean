import Tabular.Statement.Basic
import Tabular.Text.Reader
import Tabular.Text.Group

/-!
The tokens of a statement: keywords, names, operators, values and counts.

Keywords are matched in any ASCII letter case and as whole words. Captured texts keep their quotes
and parentheses.
-/

namespace Tabular.Token

open Tabular.Text

/-! ### Blanks and keywords -/

/-- Blanks that may be missing. -/
def gap : Reader Unit := do
  let _ ← Reader.takeWhile isGap

/-- At least one blank. -/
def gap1 : Reader Unit := do
  let _ ← Reader.takeWhile1 isGap

/-- A keyword as a whole word; the text as it was written. -/
def keyword (word : String) : Reader String := do
  let found ← Reader.textNoCase word.toList
  Reader.notBefore isWordChar
  return String.ofList found

/-- Whether a text holds a keyword as a whole word, literals not excepted. -/
def containsKeyword (s : List Char) (word : List Char) : Bool :=
  (wordsOf [] s).any (sameAscii · word)
where
  /-- The maximal runs of word characters, with the empty runs between other characters;
  `running` is the run under way, last character first. -/
  wordsOf (running : List Char) : List Char → List (List Char)
    | [] => [running.reverse]
    | c :: s =>
      if isWordChar c then wordsOf (c :: running) s else running.reverse :: wordsOf [] s

/-- Whether a text starts with a keyword as a whole word. -/
def startsWithKeyword (word : List Char) (s : List Char) : Bool :=
  sameAscii (s.take word.length) word && !((s.drop word.length).head?.any isWordChar)

/-! ### Names -/

/-- A name that may be qualified by dots. -/
def identifier : Reader String :=
  return String.ofList (← Reader.takeWhile1 fun c => isWordChar c || c == '.')

/-- An unqualified name of a table or a column. -/
def word : Reader String :=
  return String.ofList (← Reader.takeWhile1 isWordChar)

/-- A name of a database, which may hold hyphens. -/
def databaseName : Reader String :=
  return String.ofList (← Reader.takeWhile1 fun c => isWordChar c || c == '-')

/-- The name of an element of a kind. -/
def elementName : ElementKind → Reader String
  | .database => databaseName
  | .table => word

/-- A kind of element, in full or abbreviated. -/
def elementKind : Reader ElementKind :=
  (do let _ ← keyword "DATABASE" <|> keyword "DB"; return .database) <|>
  (do let _ ← keyword "TABLE" <|> keyword "TB"; return .table)

/-! ### Conditions -/

/-- The left side of a condition. Only the bare upper-case keyword stands for the primary key; a
name between backticks is always a column. -/
def target : Reader Target :=
  (do
    let _ ← Reader.text "PRIMARY_KEY".toList
    Reader.notBefore isWordChar
    return .primaryKey) <|>
  (do
    let _ ← Reader.char '\x60'
    let name ← Reader.takeWhile1 (· != '\x60')
    let _ ← Reader.char '\x60'
    return .field (String.ofList name)) <|>
  (do return .field (← identifier))

/-- A negated operator: `NOT` and a keyword. -/
def negated (word : String) (op : Operator) : Reader Operator := do
  let _ ← keyword "NOT"
  gap1
  let _ ← keyword word
  return op

/-- An operator that is spelled as a keyword. -/
def spelled (word : String) (op : Operator) : Reader Operator := do
  let _ ← keyword word
  return op

/-- An operator that is written with signs. -/
def signed (signs : String) (op : Operator) : Reader Operator := do
  let _ ← Reader.text signs.toList
  return op

/-- A comparison operator; of two that start alike the longer one is tried first. -/
def operator : Reader Operator :=
  negated "IN" .notIn <|> negated "LIKE" .notLike <|>
  spelled "LIKE" .like <|> spelled "IN" .isIn <|>
  signed ">=" .gte <|> signed "<=" .lte <|> signed "!=" .ne <|> signed "<>" .ne <|>
  signed "=" .eq <|> signed ">" .gt <|> signed "<" .lt

/-! ### Values -/

/-- A quoted literal, quotes included. -/
def quotedLiteral : Reader String :=
  return String.ofList (← Reader.ofScanner literal?)

/-- A balanced group, parentheses included. -/
def parenthesized : Reader String :=
  return String.ofList (← Reader.ofScanner group?)

/-- The inside of a balanced group. -/
def parenthesizedInner : Reader String :=
  return String.ofList (dropEnds (← Reader.ofScanner group?))

/-- The words that start a clause and therefore are no bare values. -/
def clauseKeywords : List String := ["ORDER", "LIMIT", "OFFSET", "WHERE"]

/-- A bare value: it runs to the next white space or semicolon and is no clause keyword. -/
def bareToken : Reader String :=
  Reader.accepting (Reader.takeWhile1 fun c => !isBlank c && c != ';') fun t =>
    if clauseKeywords.any (sameAscii t ·.toList) then none else some (String.ofList t)

/-- The value of a condition: a literal, a group or a bare value. -/
def conditionValue : Reader String :=
  quotedLiteral <|> parenthesized <|> bareToken

/-- A count below 2^64. -/
def count : Reader Nat :=
  Reader.accepting (Reader.takeWhile1 isDigit) fun t =>
    let n := Nat.ofDigitChars 10 t 0
    if n < 18446744073709551616 then some n else none

/-- The text before a keyword that stands outside literals and after white space, and the text from
the keyword on; everything, if there is no such keyword. -/
def beforeKeyword (word : List Char) (st : Scan) (afterBlank : Bool) :
    List Char → List Char × List Char
  | [] => ([], [])
  | c :: s =>
    if st = .outside ∧ isQuote c = false ∧ afterBlank = true ∧ startsWithKeyword word (c :: s) then
      ([], c :: s)
    else
      let p := beforeKeyword word (st.next c) (isBlank c) s
      (c :: p.1, p.2)

/-- Everything up to a keyword outside literals, without the white space before the keyword. Where
the keyword does not occur, the whole text as it stands. -/
def upToKeyword (word : String) : Reader String :=
  fun s =>
    match beforeKeyword word.toList .outside false s with
    | (_, []) => .found (String.ofList s) []
    | (before, rest) => .found (String.ofList (trimEnd before)) rest

/-- A comma with optional blanks around it. -/
def comma : Reader Char := do
  gap
  let c ← Reader.char ','
  gap
  return c

end Tabular.Token

import Tabular.Text.Chars

/-!
Quoted literals inside a text.

A literal is opened by `'` or `"` and runs to the next such quote; a backslash inside it takes the
next character with it. `Scan` is the state of a reader with respect to literals, and every function
that has to skip them steps through it: `splitOutside` cuts a text at a separator, `literal?` reads
one literal, `clean` turns the written form of a value into the value.
-/

namespace Tabular.Text

/-- The characters that open and close a literal. -/
def isQuote (c : Char) : Bool :=
  c == '\'' || c == '"'

/-- Where a reader stands with respect to literals. -/
inductive Scan where
  /-- Outside every literal. -/
  | outside
  /-- Inside a literal; `escaped` says that a backslash has just been read. -/
  | inside (quote : Char) (escaped : Bool)
  deriving DecidableEq, Repr

/-- The state after one more character. -/
def Scan.next : Scan → Char → Scan
  | .outside, c => if isQuote c then .inside c false else .outside
  | .inside q true, _ => .inside q false
  | .inside q false, c =>
    if c == '\\' then .inside q true
    else if c == q then .outside
    else .inside q false

/-- The state after a whole text. -/
def Scan.run (st : Scan) (s : List Char) : Scan :=
  s.foldl Scan.next st

@[simp] theorem Scan.run_nil (st : Scan) : st.run [] = st := rfl

@[simp] theorem Scan.run_cons (st : Scan) (c : Char) (s : List Char) :
    st.run (c :: s) = (st.next c).run s := rfl

theorem Scan.run_append (st : Scan) (s t : List Char) :
    st.run (s ++ t) = (st.run s).run t := by
  simp [Scan.run]

/-! ### Splitting -/

/-- Puts a character in front of the first part. -/
def consHead (c : Char) : List (List Char) → List (List Char)
  | [] => [[c]]
  | p :: ps => (c :: p) :: ps

/-- Cuts a text at each separator that stands outside every literal, starting in a given state. A
quote opens a literal even where it is the separator itself. -/
def splitFrom (separator : Char) : Scan → List Char → List (List Char)
  | _, [] => [[]]
  | st, c :: s =>
    if st = .outside ∧ isQuote c = false ∧ c = separator then [] :: splitFrom separator .outside s
    else consHead c (splitFrom separator (st.next c) s)

/-- Cuts a text at each separator outside literals. Empty parts are kept. -/
def splitOutside (separator : Char) (s : List Char) : List (List Char) :=
  splitFrom separator .outside s

/-- Cuts a text at each separator, literals or not. -/
def splitAll (separator : Char) : List Char → List (List Char)
  | [] => [[]]
  | c :: s =>
    if c = separator then [] :: splitAll separator s else consHead c (splitAll separator s)

/-- The two sides of the first separator. -/
def splitOnce? (separator : Char) : List Char → Option (List Char × List Char)
  | [] => none
  | c :: s =>
    if c = separator then some ([], s)
    else (splitOnce? separator s).map fun p => (c :: p.1, p.2)

/-! ### Literals -/

/-- Reads on to the end of an open literal: the characters read and the text that is left. -/
def closeLiteral (quote : Char) : Bool → List Char → Option (List Char × List Char)
  | _, [] => none
  | escaped, c :: s =>
    match (Scan.inside quote escaped).next c with
    | .outside => some ([c], s)
    | .inside q e => (closeLiteral q e s).map fun p => (c :: p.1, p.2)

/-- Reads one literal from the front of a text, quotes included. -/
def literal? : List Char → Option (List Char × List Char)
  | [] => none
  | c :: s =>
    if isQuote c then (closeLiteral c false s).map fun p => (c :: p.1, p.2) else none

/-- Resolves the escapes of a literal: a backslash before the quote or before a backslash stands
for the second character alone, every other backslash for itself. -/
def unescape (quote : Char) : List Char → List Char
  | [] => []
  | [c] => [c]
  | c :: d :: s =>
    if c = '\\' ∧ (d = quote ∨ d = '\\') then d :: unescape quote s
    else c :: unescape quote (d :: s)

/-- The value that a text writes: without surrounding white space and, where it starts and ends
with the same quote, without these quotes and their escapes. -/
def clean (s : List Char) : List Char :=
  match trim s with
  | [] => []
  | q :: inner =>
    if isQuote q ∧ inner.getLast? = some q then unescape q inner.dropLast
    else q :: inner

end Tabular.Text

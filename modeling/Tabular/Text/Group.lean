import Tabular.Text.Quoted

/-!
Parenthesized groups.

`group?` reads the shortest balanced group from the front of a text, where parentheses inside quoted
literals do not count. `stripParens` takes one pair of parentheses off the ends of a text; it looks
at the two ends only.
-/

namespace Tabular.Text

/-- Reads on until `depth` open parentheses are closed: the characters read and the text left. -/
def closeGroup : Scan → Nat → List Char → Option (List Char × List Char)
  | _, _, [] => none
  | .outside, depth, ')' :: s =>
    if depth ≤ 1 then some ([')'], s)
    else (closeGroup .outside (depth - 1) s).map fun p => (')' :: p.1, p.2)
  | st, depth, c :: s =>
    (closeGroup (st.next c) (if st = .outside ∧ c = '(' then depth + 1 else depth) s).map
      fun p => (c :: p.1, p.2)

/-- Reads a balanced group, parentheses included, from a text that starts with one. -/
def group? (s : List Char) : Option (List Char × List Char) :=
  if s.head? = some '(' then closeGroup .outside 0 s else none

/-- The inside of a text that is cut at its two ends. -/
def dropEnds (s : List Char) : List Char :=
  s.tail.dropLast

/-- A trimmed text without the `(` it starts and the `)` it ends with, if it has both. -/
def stripParens (s : List Char) : List Char :=
  let t := trim s
  if t.head? = some '(' ∧ t.tail.getLast? = some ')' then dropEnds t else t

end Tabular.Text

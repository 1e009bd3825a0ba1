import Tabular.Text.Chars

/-!
Readers: functions that take something off the front of a text.

A `Reader` gives back what it read and the text that is left, or, where it finds no match, the text
at which the innermost reader stood. That text is always an end of the input, so its length tells
where in a statement the reading stopped. Alternatives report where the last of them stopped, and an
optional part that does not match takes nothing.

One reader can break: a keyword in any letter case (`textNoCase`), where the text would have to be
cut inside a character. Then the whole reading breaks, whatever alternatives there are.
-/

namespace Tabular

/-- The result of a reader. -/
inductive Reading (α : Type) where
  /-- A value and the text that is left. -/
  | found (value : α) (rest : List Char)
  /-- The text at which the innermost reader found no match. -/
  | stuck (rest : List Char)
  /-- The reading broke. -/
  | broken
  deriving DecidableEq, Repr

/-- A function that reads a value off the front of a text. -/
def Reader (α : Type) := List Char → Reading α

namespace Reader

variable {α β : Type}

/-- Reads nothing. -/
protected def pure (a : α) : Reader α :=
  fun s => .found a s

/-- Reads one thing after another. -/
protected def bind (p : Reader α) (k : α → Reader β) : Reader β :=
  fun s =>
    match p s with
    | .found a rest => k a rest
    | .stuck rest => .stuck rest
    | .broken => .broken

instance : Monad Reader where
  pure := Reader.pure
  bind := Reader.bind

/-- The second reader where the first one finds no match. -/
protected def orElse (p : Reader α) (q : Unit → Reader α) : Reader α :=
  fun s =>
    match p s with
    | .found a rest => .found a rest
    | .stuck _ => q () s
    | .broken => .broken

instance : OrElse (Reader α) where
  orElse := Reader.orElse

@[simp] theorem pure_apply (a : α) (s : List Char) :
    (pure a : Reader α) s = .found a s := rfl

theorem bind_apply (p : Reader α) (k : α → Reader β) (s : List Char) :
    (p >>= k) s = match p s with
      | .found a rest => k a rest
      | .stuck rest => .stuck rest
      | .broken => .broken := rfl

theorem bind_of_found {p : Reader α} {k : α → Reader β} {s rest : List Char} {a : α}
    (h : p s = .found a rest) : (p >>= k) s = k a rest := by
  rw [bind_apply, h]

theorem bind_of_stuck {p : Reader α} {k : α → Reader β} {s rest : List Char}
    (h : p s = .stuck rest) : (p >>= k) s = .stuck rest := by
  rw [bind_apply, h]

theorem orElse_of_found {p q : Reader α} {s rest : List Char} {a : α}
    (h : p s = .found a rest) : (p <|> q) s = .found a rest := by
  change Reader.orElse p (fun _ => q) s = _
  simp [Reader.orElse, h]

theorem orElse_of_stuck {p q : Reader α} {s rest : List Char}
    (h : p s = .stuck rest) : (p <|> q) s = q s := by
  change Reader.orElse p (fun _ => q) s = _
  simp [Reader.orElse, h]

theorem orElse_of_broken {p q : Reader α} {s : List Char} (h : p s = .broken) :
    (p <|> q) s = .broken := by
  change Reader.orElse p (fun _ => q) s = _
  simp [Reader.orElse, h]

/-! ### Single characters and runs of them -/

/-- No match here. -/
def fail : Reader α :=
  fun s => .stuck s

/-- One given character. -/
def char (c : Char) : Reader Char
  | [] => .stuck []
  | d :: s => if d = c then .found c s else .stuck (d :: s)

/-- The longest run of characters of a class, possibly empty. -/
def takeWhile (p : Char → Bool) : Reader (List Char) :=
  fun s => .found (s.takeWhile p) (s.dropWhile p)

/-- The longest run of characters of a class; at least one. -/
def takeWhile1 (p : Char → Bool) : Reader (List Char) :=
  fun s => if s.takeWhile p = [] then .stuck s else .found (s.takeWhile p) (s.dropWhile p)

/-- Everything that is left. -/
def remainder : Reader (List Char) :=
  fun s => .found s []

/-- A given text. -/
def text (t : List Char) : Reader (List Char) :=
  fun s => if t.isPrefixOf s then .found t (s.drop t.length) else .stuck s

/-- A given text in any letter case. The input agrees with the text as far as the shorter of the two
goes, and what is taken off it has as many bytes as the text. Where a Kelvin sign stands for a `k`
in it, these bytes may end inside a character, and the reading breaks. -/
def textNoCase (t : List Char) : Reader (List Char) :=
  fun s =>
    if Text.agreeAsKeywords s t && Text.byteLength t ≤ Text.byteLength s then
      match Text.splitBytes? (Text.byteLength t) s with
      | some (head, rest) => .found head rest
      | none => .broken
    else .stuck s

/-- In a text without a Kelvin sign, a keyword is read where as many characters as it has agree with
it up to ASCII case. -/
theorem textNoCase_eq {t : List Char} (ht : ∀ d ∈ t, d.toNat < 128) {s : List Char}
    (hs : '\u212A' ∉ s.take t.length) :
    textNoCase t s =
      if Text.sameAscii (s.take t.length) t then .found (s.take t.length) (s.drop t.length)
      else .stuck s := by
  unfold textNoCase
  rw [Text.agreeAsKeywords_eq ht hs]
  split
  · next hsame =>
    have hascii := Text.forall_lt_of_sameAscii ht hsame
    have hlength : (s.take t.length).length = t.length := by
      have h : (Text.upperAscii (s.take t.length)).length = (Text.upperAscii t).length :=
        congrArg List.length (beq_iff_eq.1 hsame)
      simpa [Text.upperAscii] using h
    have hsplit := Text.splitBytes?_append hascii (s.drop t.length)
    rw [List.take_append_drop, hlength] at hsplit
    rw [Text.byteLength_eq_length ht, hsplit]
  · rfl

/-- Stops where the next character belongs to a class; reads nothing. -/
def notBefore (p : Char → Bool) : Reader Unit :=
  fun s => if s.head?.any p then .stuck s else .found () s

/-- What a text scanner finds at the front of the text. -/
def ofScanner (scan : List Char → Option (List Char × List Char)) : Reader (List Char) :=
  fun s =>
    match scan s with
    | some (a, rest) => .found a rest
    | none => .stuck s

/-! ### Combinations -/

/-- A part that may be missing. -/
def optional (p : Reader α) : Reader (Option α) :=
  fun s =>
    match p s with
    | .found a rest => .found (some a) rest
    | .stuck _ => .found none s
    | .broken => .broken

/-- What a reader finds, if a test accepts it; else there is no match where the reader started. -/
def accepting (p : Reader α) (f : α → Option β) : Reader β :=
  fun s =>
    match p s with
    | .found a rest =>
      match f a with
      | some b => .found b rest
      | none => .stuck s
    | .stuck rest => .stuck rest
    | .broken => .broken

/-- The text that a reader takes. -/
def taken (p : Reader α) : Reader (List Char) :=
  fun s =>
    match p s with
    | .found _ rest => .found (s.take (s.length - rest.length)) rest
    | .stuck rest => .stuck rest
    | .broken => .broken

/-- At most as many repetitions as the list of characters is long. -/
def repeatWithin (p : Reader α) : List Char → Reader (List α)
  | [] => pure []
  | _ :: fuel => fun s =>
    match p s with
    | .found a rest =>
      match repeatWithin p fuel rest with
      | .found as rest' => .found (a :: as) rest'
      | .stuck rest' => .stuck rest'
      | .broken => .broken
    | .stuck _ => .found [] s
    | .broken => .broken

/-- As many repetitions as the text holds, of a part that takes at least one character: the text
itself bounds their number. -/
def many (p : Reader α) : Reader (List α) :=
  fun s => repeatWithin p s s

/-- One or more items with a separator between two of them. A separator that no item follows is
left unread. -/
def sepBy1 (item : Reader α) (separator : Reader β) : Reader (List α) := do
  let first ← item
  let others ← many (do let _ ← separator; item)
  return first :: others

/-- No items, or items with a separator between two of them. -/
def sepBy (item : Reader α) (separator : Reader β) : Reader (List α) :=
  sepBy1 item separator <|> pure []

/-- Nothing may be left. -/
def atEnd : Reader Unit
  | [] => .found () []
  | c :: s => .stuck (c :: s)

/-- The value that a reader finds in a whole text. -/
def run? (p : Reader α) (s : List Char) : Option α :=
  match p s with
  | .found a [] => some a
  | _ => none

end Reader

end Tabular

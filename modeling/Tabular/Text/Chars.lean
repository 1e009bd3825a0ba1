import Tabular.Text.Alphanumeric
import Tabular.Text.FoldTable

/-!
Character classes.

Three classes of character decide how a statement is read: the blanks of the grammar (`isGap`), the
white space that surrounds a value (`isBlank`), and the characters of a word (`isWordChar`). Two
foldings decide when letters agree: ASCII case for keywords (`asciiUpper`), with the Kelvin sign as
a letter K where a keyword is read (`keywordChar`), and simple case folding for patterns
(`foldCase`). Lengths of texts are counted in bytes of UTF-8 (`byteLength`). Main statement: in a
text without a Kelvin sign, agreeing with a keyword is being equal up to ASCII case
(`agreeAsKeywords_eq`).
-/

namespace Tabular.Text

/-! ### Blanks -/

/-- The blanks between the tokens of a statement: space, tab, carriage return and line feed. -/
def isGap (c : Char) : Bool :=
  c == ' ' || c == '\t' || c == '\r' || c == '\n'

/-- White space in the sense of the property White_Space. -/
def isBlank (c : Char) : Bool :=
  let n := c.toNat
  (9 ≤ n && n ≤ 13) || n == 0x20 || n == 0x85 || n == 0xA0 || n == 0x1680
    || (0x2000 ≤ n && n ≤ 0x200A) || n == 0x2028 || n == 0x2029 || n == 0x202F
    || n == 0x205F || n == 0x3000

/-- The blanks of the grammar are white space. -/
theorem isBlank_of_isGap {c : Char} (h : isGap c = true) : isBlank c = true := by
  simp only [isGap, Bool.or_eq_true, beq_iff_eq] at h
  rcases h with ((rfl | rfl) | rfl) | rfl <;> decide

/-! ### Words -/

/-- A decimal digit, ASCII only. -/
def isDigit (c : Char) : Bool :=
  '0' ≤ c && c ≤ '9'

/-- An ASCII letter. -/
def isAsciiLetter (c : Char) : Bool :=
  ('a' ≤ c && c ≤ 'z') || ('A' ≤ c && c ≤ 'Z')

/-- A letter or a digit of any script. -/
def isAlnum (c : Char) : Bool :=
  if c.toNat < 0x80 then isAsciiLetter c || isDigit c
  else nonAsciiAlnum.any fun r => r.1 ≤ c.toNat && c.toNat ≤ r.2

/-- The characters of a word: letters, digits and the underscore. -/
def isWordChar (c : Char) : Bool :=
  c == '_' || isAlnum c

/-! ### Letter case -/

/-- The upper case of an ASCII letter; every other character is left as it is. -/
def asciiUpper (c : Char) : Char :=
  if 'a' ≤ c && c ≤ 'z' then Char.ofNat (c.toNat - 32) else c

/-- The upper case of the ASCII letters of a text. -/
def upperAscii (s : List Char) : List Char :=
  s.map asciiUpper

/-- Two texts that differ at most in the case of their ASCII letters. -/
def sameAscii (s t : List Char) : Bool :=
  upperAscii s == upperAscii t

/-- A character as it counts in a keyword: an ASCII letter in upper case, and the Kelvin sign, whose
lower case is `k`, as the letter that it looks like. -/
def keywordChar (c : Char) : Char :=
  if c = '\u212A' then 'K' else asciiUpper c

/-- Two texts that agree, as keywords do, as far as the shorter one goes. -/
def agreeAsKeywords (s t : List Char) : Bool :=
  (s.zip t).all fun p => keywordChar p.1 == keywordChar p.2

/-- Whether a code point lies in a run of the folding. -/
def FoldRun.holds (r : FoldRun) (n : Nat) : Bool :=
  r.first ≤ n && n ≤ r.last && (n - r.first) % r.step == 0

/-- Simple case folding: one character for one character. -/
def foldCase (c : Char) : Char :=
  match foldRuns.find? (·.holds c.toNat) with
  | some r => Char.ofNat (Int.toNat (c.toNat + r.shift))
  | none => c

/-- Two characters that agree up to simple case folding. -/
def sameFold (c d : Char) : Bool :=
  c == d || foldCase c == foldCase d

/-! ### Trimming -/

/-- A text without its leading white space. -/
def trimStart (s : List Char) : List Char :=
  s.dropWhile isBlank

/-- A text without its trailing white space. -/
def trimEnd (s : List Char) : List Char :=
  (s.reverse.dropWhile isBlank).reverse

/-- A text without white space at either end. -/
def trim (s : List Char) : List Char :=
  trimEnd (trimStart s)

/-! ### Length in bytes -/

/-- The number of bytes that a text takes in UTF-8. -/
def byteLength : List Char → Nat
  | [] => 0
  | c :: s => c.utf8Size + byteLength s

/-- Cuts a text after a number of bytes. There is no cut behind the end and none inside a
character. -/
def splitBytes? : Nat → List Char → Option (List Char × List Char)
  | 0, s => some ([], s)
  | _ + 1, [] => none
  | n + 1, c :: s =>
    if c.utf8Size ≤ n + 1 then
      (splitBytes? (n + 1 - c.utf8Size) s).map fun p => (c :: p.1, p.2)
    else none

theorem byteLength_append (s t : List Char) :
    byteLength (s ++ t) = byteLength s + byteLength t := by
  induction s with
  | nil => exact (Nat.zero_add _).symm
  | cons c s ih => rw [List.cons_append, byteLength, byteLength, ih, Nat.add_assoc]

/-- Only the empty text takes no bytes. -/
theorem byteLength_eq_zero {s : List Char} : byteLength s = 0 ↔ s = [] := by
  cases s with
  | nil => exact ⟨fun _ => rfl, fun _ => rfl⟩
  | cons c s =>
    have hsize := c.utf8Size_pos
    have hbytes : byteLength (c :: s) = c.utf8Size + byteLength s := rfl
    exact ⟨fun h => by omega, nofun⟩

/-- An ASCII character takes one byte. -/
theorem utf8Size_eq_one {c : Char} (h : c.toNat < 128) : c.utf8Size = 1 := by
  have : c.val ≤ 127 := by
    rw [UInt32.le_iff_toNat_le]
    have : c.toNat = c.val.toNat := rfl
    simp; omega
  simp [Char.utf8Size, this]

/-- An ASCII text has as many bytes as characters. -/
theorem byteLength_eq_length {s : List Char} (h : ∀ c ∈ s, c.toNat < 128) :
    byteLength s = s.length := by
  induction s with
  | nil => rfl
  | cons c s ih =>
    simp only [List.mem_cons, forall_eq_or_imp] at h
    simp only [byteLength, utf8Size_eq_one h.1, ih h.2, List.length_cons]
    omega

/-! ### Keywords in any letter case -/

/-- Upper case leaves ASCII within ASCII and everything else outside it. -/
theorem asciiUpper_lt {c : Char} : (asciiUpper c).toNat < 128 ↔ c.toNat < 128 := by
  unfold asciiUpper
  split
  · next h =>
    simp only [Bool.and_eq_true, decide_eq_true_eq, Char.le_def, UInt32.le_iff_toNat_le] at h
    have h' : 97 ≤ c.toNat ∧ c.toNat ≤ 122 := h
    have : (Char.ofNat (c.toNat - 32)).toNat = c.toNat - 32 := by
      have valid : (c.toNat - 32).isValidChar := Or.inl (by omega)
      rw [Char.ofNat, dif_pos valid]
      rfl
    omega
  · rfl

/-- The Kelvin sign apart, a character counts as an ASCII one where their upper cases agree. -/
theorem keywordChar_eq_iff {c d : Char} (hc : c ≠ '\u212A') (hd : d.toNat < 128) :
    keywordChar c = keywordChar d ↔ asciiUpper c = asciiUpper d := by
  have : d ≠ '\u212A' := by rintro rfl; exact absurd hd (by decide)
  simp [keywordChar, hc, this]

/-- In a text without a Kelvin sign, a keyword is found where as many characters as it has agree
with it up to ASCII case. -/
theorem agreeAsKeywords_eq {t : List Char} (ht : ∀ d ∈ t, d.toNat < 128) {s : List Char}
    (hs : '\u212A' ∉ s.take t.length) :
    (agreeAsKeywords s t && byteLength t ≤ byteLength s) = sameAscii (s.take t.length) t := by
  induction t generalizing s with
  | nil => simp [agreeAsKeywords, sameAscii, byteLength]
  | cons d t ih =>
    have hd : d.utf8Size = 1 := utf8Size_eq_one (ht d List.mem_cons_self)
    cases s with
    | nil => simp [byteLength, hd, sameAscii, upperAscii]
    | cons c s =>
      simp only [List.mem_cons, forall_eq_or_imp, List.length_cons, List.take_succ_cons, not_or]
        at ht hs
      have key := keywordChar_eq_iff (Ne.symm hs.1) ht.1
      by_cases h : asciiUpper c = asciiUpper d
      · have hc : c.utf8Size = 1 := utf8Size_eq_one (asciiUpper_lt.1 (h ▸ asciiUpper_lt.2 ht.1))
        have agree : agreeAsKeywords (c :: s) (d :: t) = agreeAsKeywords s t := by
          simp [agreeAsKeywords, key.2 h]
        have same : sameAscii (c :: s.take t.length) (d :: t) = sameAscii (s.take t.length) t := by
          simp [sameAscii, upperAscii, h]
        rw [List.length_cons, List.take_succ_cons, same, ← ih ht.2 hs.2, agree, byteLength,
          byteLength, hc, hd]
        simp
      · have agree : agreeAsKeywords (c :: s) (d :: t) = false := by
          simp [agreeAsKeywords, mt key.1 h]
        have same : sameAscii (c :: s.take t.length) (d :: t) = false := by
          simp [sameAscii, upperAscii, h]
        simp [agree, same]

/-- ASCII characters in front of a text are cut off by their number. -/
theorem splitBytes?_append {head : List Char} (h : ∀ c ∈ head, c.toNat < 128) (rest : List Char) :
    splitBytes? head.length (head ++ rest) = some (head, rest) := by
  induction head with
  | nil => simp [splitBytes?]
  | cons c head ih =>
    obtain ⟨hc, hhead⟩ := List.forall_mem_cons.1 h
    rw [List.length_cons, List.cons_append, splitBytes?, utf8Size_eq_one hc, if_pos (by omega),
      Nat.add_sub_cancel, ih hhead]
    rfl

/-- Where a text agrees with an ASCII one up to case, it is ASCII itself. -/
theorem forall_lt_of_sameAscii {s t : List Char} (ht : ∀ d ∈ t, d.toNat < 128)
    (h : sameAscii s t = true) : ∀ c ∈ s, c.toNat < 128 := by
  intro c hc
  have hupper : upperAscii s = upperAscii t := beq_iff_eq.1 h
  have hmem : asciiUpper c ∈ upperAscii t := hupper ▸ List.mem_map_of_mem hc
  obtain ⟨d, hd, heq⟩ := List.mem_map.1 hmem
  exact asciiUpper_lt.1 (heq ▸ asciiUpper_lt.2 (ht d hd))

end Tabular.Text

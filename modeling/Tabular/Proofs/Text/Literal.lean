import Tabular.Text.Group
import Tabular.Proofs.Text.Writing

/-!
Writing values as quoted literals.

`literal q v` is the value `v` between two quotes `q`, with a backslash in front of each quote `q`
and each backslash inside. Four functions scan a text with literals in it, and they agree on where
such a literal ends: it hides all its characters from `splitFrom` and `closeGroup`
(`bare_literal`), `literal?` reads it (`literal?_append`) and `clean` gives the value back
(`clean_literal`). What the first two make of a text depends on nothing but the characters that
stand outside literals, which `Scan.bare` collects. What may stand between two quotes is a
`LiteralBody`; an escaped value is one.
-/

namespace Tabular.Text

/-! ### Trimming -/

/-- A text that neither starts nor ends with white space. -/
def Tight (s : List Char) : Prop :=
  (∀ c ∈ s.head?, isBlank c = false) ∧ ∀ c ∈ s.getLast?, isBlank c = false

theorem Tight.trim_eq {s : List Char} (h : Tight s) : trim s = s := by
  have hstart : trimStart s = s := Reader.dropWhile_of_head h.1
  unfold trim
  rw [hstart]
  unfold trimEnd
  rw [Reader.dropWhile_of_head (by rw [List.head?_reverse]; exact h.2), List.reverse_reverse]

theorem trim_cons_of_isBlank {c : Char} (h : isBlank c = true) (s : List Char) :
    trim (c :: s) = trim s := by
  unfold trim trimStart
  rw [List.dropWhile_cons_of_pos h]

theorem Tight.append {s t : List Char} (hs : Tight s) (ht : Tight t) : Tight (s ++ t) := by
  constructor
  · intro c hc
    rw [List.head?_append] at hc
    exact (Option.or_eq_some_iff.1 hc).elim (hs.1 c) fun h => ht.1 c h.2
  · intro c hc
    rw [List.getLast?_append] at hc
    exact (Option.or_eq_some_iff.1 hc).elim (ht.2 c) fun h => hs.2 c h.2

/-- White space inside a text does not matter, only its two ends do. -/
theorem Tight.enclose {s t : List Char} {c : Char} (hc : isBlank c = false) (ht : Tight t)
    (hne : t ≠ []) : Tight (c :: (s ++ t)) := by
  constructor
  · rintro d ⟨⟩
    exact hc
  · intro d hd
    rw [← List.cons_append, List.getLast?_append] at hd
    rcases Option.or_eq_some_iff.1 hd with hlast | ⟨hnone, -⟩
    · exact ht.2 d hlast
    · exact absurd (List.getLast?_eq_none_iff.1 hnone) hne

theorem Tight.flatMap {α : Type} {write : α → List Char} {items : List α}
    (h : ∀ x ∈ items, Tight (write x)) : Tight (items.flatMap write) := by
  induction items with
  | nil => exact ⟨nofun, nofun⟩
  | cons x items ih =>
    rw [List.flatMap_cons]
    exact (h x List.mem_cons_self).append (ih fun y hy => h y (List.mem_cons_of_mem x hy))

theorem Tight.of_forall {s : List Char} (h : ∀ c ∈ s, isBlank c = false) : Tight s :=
  ⟨fun c hc => h c (List.mem_of_mem_head? hc), fun c hc => h c (List.mem_of_mem_getLast? hc)⟩

/-- The code points of white space. -/
def blankCodes : List Nat :=
  [0x9, 0xA, 0xB, 0xC, 0xD, 0x20, 0x85, 0xA0, 0x1680, 0x2000, 0x2001, 0x2002, 0x2003, 0x2004,
    0x2005, 0x2006, 0x2007, 0x2008, 0x2009, 0x200A, 0x2028, 0x2029, 0x202F, 0x205F, 0x3000]

theorem mem_blankCodes {c : Char} (h : isBlank c = true) : c.toNat ∈ blankCodes := by
  simp only [isBlank, Bool.or_eq_true, Bool.and_eq_true, decide_eq_true_eq, beq_iff_eq] at h
  simp only [blankCodes, List.mem_cons, List.not_mem_nil, or_false]
  omega

/-- No white space belongs to a word. -/
theorem isBlank_of_isWordChar {c : Char} (h : isWordChar c = true) : isBlank c = false := by
  have hcodes : ∀ n ∈ blankCodes, isWordChar (Char.ofNat n) = false := by decide +kernel
  cases hb : isBlank c with
  | false => rfl
  | true =>
    have hword := hcodes c.toNat (mem_blankCodes hb)
    rw [Char.ofNat_toNat, h] at hword
    exact Bool.noConfusion hword

/-! ### The characters outside literals -/

/-- The characters of a text that stand outside literals, quotes apart. -/
def Scan.bare : Scan → List Char → List Char
  | _, [] => []
  | st, c :: s =>
    (if st = .outside ∧ isQuote c = false then [c] else []) ++ Scan.bare (st.next c) s

theorem Scan.bare_cons (st : Scan) (c : Char) (s : List Char) :
    st.bare (c :: s) =
      (if st = .outside ∧ isQuote c = false then [c] else []) ++ (st.next c).bare s := rfl

theorem Scan.bare_append (st : Scan) (s t : List Char) :
    st.bare (s ++ t) = st.bare s ++ (st.run s).bare t := by
  induction s generalizing st with
  | nil => rfl
  | cons c s ih => rw [List.cons_append, bare_cons, ih, bare_cons, run_cons, List.append_assoc]

theorem Scan.mem_bare_cons_of_mem {st : Scan} {c d : Char} {s : List Char}
    (h : d ∈ (st.next c).bare s) : d ∈ st.bare (c :: s) :=
  List.mem_append_right _ h

theorem Scan.mem_bare_cons_self {c : Char} (h : isQuote c = false) (s : List Char) :
    c ∈ Scan.outside.bare (c :: s) := by
  rw [bare_cons, if_pos ⟨rfl, h⟩]
  exact List.mem_cons_self

theorem Scan.next_of_not_quote {c : Char} (h : isQuote c = false) :
    Scan.outside.next c = .outside := by
  simp [Scan.next, h]

/-- A text without quotes leaves no literal open. -/
theorem Scan.run_of_no_quotes {s : List Char} (h : ∀ c ∈ s, isQuote c = false) :
    Scan.outside.run s = .outside := by
  induction s with
  | nil => rfl
  | cons c s ih =>
    rw [run_cons, next_of_not_quote (h c List.mem_cons_self)]
    exact ih fun d hd => h d (List.mem_cons_of_mem c hd)

theorem Scan.mem_of_mem_bare {st : Scan} {s : List Char} {d : Char} (h : d ∈ st.bare s) :
    d ∈ s := by
  induction s generalizing st with
  | nil => exact h
  | cons c s ih =>
    rw [bare_cons, List.mem_append] at h
    rcases h with h | h
    · split at h
      · exact List.mem_cons.2 (.inl (List.mem_singleton.1 h))
      · exact absurd h List.not_mem_nil
    · exact List.mem_cons_of_mem c (ih h)

/-- A text that leaves no literal open. -/
def Closed (s : List Char) : Prop :=
  Scan.outside.run s = .outside

instance (s : List Char) : Decidable (Closed s) :=
  inferInstanceAs (Decidable (_ = _))

theorem Closed.append {s t : List Char} (hs : Closed s) (ht : Closed t) : Closed (s ++ t) := by
  unfold Closed
  rw [Scan.run_append, hs, ht]

theorem Closed.bare_append {s : List Char} (hs : Closed s) (t : List Char) :
    Scan.outside.bare (s ++ t) = Scan.outside.bare s ++ Scan.outside.bare t := by
  rw [Scan.bare_append, hs]

/-- Puts a text in front of the first part. -/
def prependHead (s : List Char) (parts : List (List Char)) : List (List Char) :=
  s.foldr consHead parts

theorem prependHead_cons (s p : List Char) (parts : List (List Char)) :
    prependHead s (p :: parts) = (s ++ p) :: parts := by
  induction s with
  | nil => rfl
  | cons c s ih =>
    change consHead c (prependHead s (p :: parts)) = _
    rw [ih]
    rfl

/-- **A text is not cut where the separator does not stand outside its literals.** -/
theorem splitFrom_append {separator : Char} {st : Scan} {s : List Char}
    (h : separator ∉ st.bare s) (t : List Char) :
    splitFrom separator st (s ++ t) = prependHead s (splitFrom separator (st.run s) t) := by
  induction s generalizing st with
  | nil => rfl
  | cons c s ih =>
    have hcut : ¬(st = .outside ∧ isQuote c = false ∧ c = separator) := by
      rintro ⟨rfl, hquote, rfl⟩
      exact h (Scan.mem_bare_cons_self hquote s)
    rw [List.cons_append, splitFrom, if_neg hcut, ih fun hmem => h (Scan.mem_bare_cons_of_mem hmem)]
    rfl

theorem splitOutside_of_not_mem {separator : Char} {s : List Char}
    (h : separator ∉ Scan.outside.bare s) : splitOutside separator s = [s] := by
  have hsplit := splitFrom_append h []
  rw [List.append_nil] at hsplit
  unfold splitOutside
  rw [hsplit]
  unfold splitFrom
  rw [prependHead_cons, List.append_nil]

theorem splitOutside_append_separator {separator : Char} {s : List Char} (hs : Closed s)
    (h : separator ∉ Scan.outside.bare s) (hsep : isQuote separator = false) (t : List Char) :
    splitOutside separator (s ++ separator :: t) = s :: splitOutside separator t := by
  unfold splitOutside
  rw [splitFrom_append h, hs, splitFrom, if_pos ⟨rfl, hsep, rfl⟩, prependHead_cons,
    List.append_nil]

/-- **Closing a group passes over a text without parentheses outside its literals.** -/
theorem closeGroup_append {st : Scan} {s : List Char} (hopen : '(' ∉ st.bare s)
    (hclose : ')' ∉ st.bare s) (depth : Nat) (t : List Char) :
    closeGroup st depth (s ++ t) =
      (closeGroup (st.run s) depth t).map fun p => (s ++ p.1, p.2) := by
  induction s generalizing st with
  | nil => simp
  | cons c s ih =>
    have hbare : ∀ d, isQuote d = false → d ∉ st.bare (c :: s) → ¬(st = .outside ∧ c = d) := by
      rintro d hquote hd ⟨rfl, rfl⟩
      exact hd (Scan.mem_bare_cons_self hquote s)
    have hlater := ih (fun h => hopen (Scan.mem_bare_cons_of_mem h)) fun h =>
      hclose (Scan.mem_bare_cons_of_mem h)
    have hstep : closeGroup st depth (c :: (s ++ t)) =
        (closeGroup (st.next c) depth (s ++ t)).map fun p => (c :: p.1, p.2) := by
      rw [closeGroup, if_neg (hbare '(' (by decide) hopen)]
      rintro rfl rfl
      exact hbare ')' (by decide) hclose ⟨rfl, rfl⟩
    rw [List.cons_append, hstep, hlater, Option.map_map]
    rfl

/-- A text without parentheses outside its literals is read as a group when it is put in
parentheses. -/
theorem group?_append {s : List Char} (hs : Closed s) (hopen : '(' ∉ Scan.outside.bare s)
    (hclose : ')' ∉ Scan.outside.bare s) (rest : List Char) :
    group? ('(' :: (s ++ ')' :: rest)) = some ('(' :: (s ++ [')']), rest) := by
  have hinside : closeGroup .outside 1 (s ++ ')' :: rest) = some (s ++ [')'], rest) := by
    rw [closeGroup_append hopen hclose, hs]
    rfl
  have hstep : closeGroup .outside 0 ('(' :: (s ++ ')' :: rest)) =
      (closeGroup .outside 1 (s ++ ')' :: rest)).map fun p => ('(' :: p.1, p.2) := rfl
  change closeGroup .outside 0 ('(' :: (s ++ ')' :: rest)) = _
  rw [hstep, hinside]
  rfl

/-! ### Between two quotes -/

section Quotes

variable {quote : Char}

theorem ne_backslash_of_isQuote (h : isQuote quote = true) : quote ≠ '\\' := by
  rintro rfl
  exact absurd h (by decide)

theorem next_of_plain {c : Char} (h : ¬(c = '\\' ∨ c = quote)) :
    (Scan.inside quote false).next c = .inside quote false := by
  obtain ⟨hback, hquote⟩ := not_or.1 h
  simp [Scan.next, hback, hquote]

theorem next_quote (h : isQuote quote = true) :
    (Scan.inside quote false).next quote = .outside := by
  simp [Scan.next, ne_backslash_of_isQuote h]

theorem next_outside_quote (h : isQuote quote = true) :
    Scan.outside.next quote = .inside quote false := by
  simp [Scan.next, h]

end Quotes

/-- A text as it stands behind the opening quote of a literal: a backslash takes the next character
with it, and no other character is the quote. -/
inductive LiteralBody (quote : Char) : List Char → Prop where
  | nil : LiteralBody quote []
  | char {c : Char} {s : List Char} (not_backslash : c ≠ '\\') (not_quote : c ≠ quote)
      (rest : LiteralBody quote s) : LiteralBody quote (c :: s)
  | escaped (c : Char) {s : List Char} (rest : LiteralBody quote s) :
      LiteralBody quote ('\\' :: c :: s)

namespace LiteralBody

variable {quote : Char} {body : List Char}

theorem run_eq (h : LiteralBody quote body) :
    (Scan.inside quote false).run body = .inside quote false := by
  induction h with
  | nil => rfl
  | char hback hquote _ ih => rw [Scan.run_cons, next_of_plain (not_or.2 ⟨hback, hquote⟩), ih]
  | escaped c _ ih =>
    rw [Scan.run_cons, Scan.run_cons]
    exact ih

theorem bare_eq (h : LiteralBody quote body) :
    (Scan.inside quote false).bare body = [] := by
  induction h with
  | nil => rfl
  | char hback hquote _ ih =>
    rw [Scan.bare_cons, next_of_plain (not_or.2 ⟨hback, hquote⟩), ih]
    rfl
  | escaped c _ ih => exact ih

/-- A literal that is closed leaves none open. -/
theorem closed (h : LiteralBody quote body) (hquote : isQuote quote = true) :
    Closed (quote :: (body ++ [quote])) := by
  unfold Closed
  rw [Scan.run_cons, next_outside_quote hquote, Scan.run_append, h.run_eq, Scan.run_cons,
    next_quote hquote]
  rfl

/-- None of the characters of a literal is bare. -/
theorem bare_closed (h : LiteralBody quote body) (hquote : isQuote quote = true)
    (s : List Char) :
    Scan.outside.bare (quote :: (body ++ quote :: s)) = Scan.outside.bare s := by
  rw [Scan.bare_cons, next_outside_quote hquote, Scan.bare_append, h.bare_eq, h.run_eq,
    Scan.bare_cons, next_quote hquote]
  simp [hquote]

/-- A literal is not closed before its closing quote. -/
theorem closeLiteral_append (h : LiteralBody quote body) (t : List Char) :
    closeLiteral quote false (body ++ t) =
      (closeLiteral quote false t).map fun p => (body ++ p.1, p.2) := by
  induction h with
  | nil => simp
  | char hback hquote _ ih =>
    rw [List.cons_append, closeLiteral, next_of_plain (not_or.2 ⟨hback, hquote⟩)]
    dsimp only
    rw [ih, Option.map_map]
    rfl
  | escaped c _ ih =>
    have hescape : (Scan.inside quote false).next '\\' = .inside quote true := rfl
    have hescaped : (Scan.inside quote true).next c = .inside quote false := rfl
    rw [List.cons_append, List.cons_append, closeLiteral, hescape]
    dsimp only
    rw [closeLiteral, hescaped]
    dsimp only
    rw [ih, Option.map_map, Option.map_map]
    rfl

theorem closeLiteral_closed (h : LiteralBody quote body) (hquote : isQuote quote = true)
    (s : List Char) :
    closeLiteral quote false (body ++ quote :: s) = some (body ++ [quote], s) := by
  rw [h.closeLiteral_append, closeLiteral, next_quote hquote]
  rfl

end LiteralBody

/-! ### Literals -/

/-- A value as it stands between two quotes: each such quote and each backslash is escaped. -/
def escape (quote : Char) (value : List Char) : List Char :=
  value.flatMap fun c => if c = '\\' ∨ c = quote then ['\\', c] else [c]

/-- The literal of a value. -/
def literal (quote : Char) (value : List Char) : List Char :=
  quote :: (escape quote value ++ [quote])

section Literal

variable {quote : Char} (value : List Char)

theorem escape_cons_of_special {c : Char} (h : c = '\\' ∨ c = quote) :
    escape quote (c :: value) = '\\' :: c :: escape quote value := by
  unfold escape
  rw [List.flatMap_cons, if_pos h]
  rfl

theorem escape_cons_of_plain {c : Char} (h : ¬(c = '\\' ∨ c = quote)) :
    escape quote (c :: value) = c :: escape quote value := by
  unfold escape
  rw [List.flatMap_cons, if_neg h]
  rfl

theorem unescape_backslash {c : Char} (h : c = '\\' ∨ c = quote) (s : List Char) :
    unescape quote ('\\' :: c :: s) = c :: unescape quote s := by
  rw [unescape, if_pos ⟨rfl, h.symm⟩]

theorem unescape_plain {c : Char} (h : c ≠ '\\') (s : List Char) :
    unescape quote (c :: s) = c :: unescape quote s := by
  cases s with
  | nil => rfl
  | cons d s => rw [unescape, if_neg fun hc => h hc.1]

/-- **Escapes are resolved exactly.** -/
theorem unescape_escape : unescape quote (escape quote value) = value := by
  induction value with
  | nil => rfl
  | cons c value ih =>
    by_cases h : c = '\\' ∨ c = quote
    · rw [escape_cons_of_special value h, unescape_backslash h, ih]
    · rw [escape_cons_of_plain value h, unescape_plain (not_or.1 h).1, ih]

/-- The escaped text of a value is what stands between the quotes of a literal. -/
theorem literalBody_escape : LiteralBody quote (escape quote value) := by
  induction value with
  | nil => exact .nil
  | cons c value ih =>
    by_cases h : c = '\\' ∨ c = quote
    · rw [escape_cons_of_special value h]
      exact .escaped c ih
    · rw [escape_cons_of_plain value h]
      exact .char (not_or.1 h).1 (not_or.1 h).2 ih

theorem closed_literal (h : isQuote quote = true) : Closed (literal quote value) :=
  (literalBody_escape value).closed h

/-- **A literal hides its characters**: none of them stands outside literals. -/
theorem bare_literal (h : isQuote quote = true) : Scan.outside.bare (literal quote value) = [] :=
  (literalBody_escape value).bare_closed h []

/-- **A literal is read to its own end**, whatever follows. -/
theorem literal?_append (h : isQuote quote = true) (rest : List Char) :
    literal? (literal quote value ++ rest) = some (literal quote value, rest) := by
  unfold literal
  rw [List.cons_append, List.append_assoc, literal?, if_pos h, List.singleton_append,
    (literalBody_escape value).closeLiteral_closed h]
  rfl

theorem isBlank_of_isQuote (h : isQuote quote = true) : isBlank quote = false := by
  rcases Bool.or_eq_true_iff.1 h with h | h <;> (obtain rfl := eq_of_beq h; decide)

theorem tight_literal (h : isQuote quote = true) : Tight (literal quote value) := by
  constructor
  · rintro c ⟨⟩
    exact isBlank_of_isQuote h
  · intro c hc
    unfold literal at hc
    rw [← List.cons_append, List.getLast?_concat, Option.mem_some_iff] at hc
    exact hc ▸ isBlank_of_isQuote h

theorem literal_ne_nil : literal quote value ≠ [] :=
  List.cons_ne_nil _ _

/-- **The value of a literal is the value that was written.** -/
theorem clean_literal (h : isQuote quote = true) : clean (literal quote value) = value := by
  unfold clean
  rw [(tight_literal value h).trim_eq]
  unfold literal
  dsimp only
  rw [List.getLast?_concat, if_pos ⟨h, rfl⟩, List.dropLast_concat, unescape_escape]

end Literal

end Tabular.Text

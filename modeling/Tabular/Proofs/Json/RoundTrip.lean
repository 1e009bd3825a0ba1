import Tabular.Json.Reader
import Tabular.Proofs.Json.Layout
import Tabular.Proofs.Text.Writing

/-!
Reading back what was written as JSON.

A value is whole when none of its parts is `unpaired` and all its numbers are integers. Main
statements: a whole value is read back from its text on lines (`parse_pretty`) and from its text on
one line (`parse_compact`). Both are cases of one induction on the value (`nested_chars`), for any
layout whose blanks are blanks of the grammar.
-/

namespace Tabular.Json

open Tabular.Text Reader

mutual

/-- Whether every part has a value and every number is an integer. -/
def isWhole : Json → Bool
  | .unpaired => false
  | .number (.decimal _) => false
  | .array items => itemsWhole items
  | .object ms => membersWhole ms
  | _ => true

/-- Whether every item is whole. -/
def itemsWhole : List Json → Bool
  | [] => true
  | v :: vs => isWhole v && itemsWhole vs

/-- Whether the value of every member is whole. -/
def membersWhole : List (String × Json) → Bool
  | [] => true
  | (_, v) :: ms => isWhole v && membersWhole ms

end

/-- What may follow a value: nothing, a blank, a comma or a closing bracket. -/
def Ends (s : List Char) : Prop :=
  ∀ c ∈ s.head?, isGap c = true ∨ c = ',' ∨ c = ']' ∨ c = '\x7d'

theorem Ends.not_digit {s : List Char} (h : Ends s) : ∀ c ∈ s.head?, isDigit c = false := by
  intro c hc
  rcases h c hc with hgap | rfl | rfl | rfl
  · simp only [isGap, Bool.or_eq_true, beq_iff_eq] at hgap
    rcases hgap with ((rfl | rfl) | rfl) | rfl <;> decide
  all_goals decide

theorem Ends.ne {s : List Char} (h : Ends s) {d : Char} (hgap : isGap d = false)
    (hne : d ≠ ',' ∧ d ≠ ']' ∧ d ≠ '\x7d') : ∀ c ∈ s.head?, c ≠ d := by
  rintro c hc rfl
  rcases h c hc with h | h | h | h
  · rw [hgap] at h
    exact Bool.noConfusion h
  · exact hne.1 h
  · exact hne.2.1 h
  · exact hne.2.2 h

/-! ### Strings -/

theorem hex4_control {n : Nat} (h : n < 32) (s : List Char) :
    hex4 ('0' :: '0' :: hexDigit (n / 16) :: hexDigit (n % 16) :: s) = .found n s := by
  have hvalues : ∀ n < 32, hexValue? (hexDigit (n / 16)) = some (n / 16) ∧
      hexValue? (hexDigit (n % 16)) = some (n % 16) := by decide +kernel
  obtain ⟨hhigh, hlow⟩ := hvalues n h
  have hzero : hexValue? '0' = some 0 := by decide +kernel
  unfold hex4
  simp only [bind_apply, hexDigitValue, hzero, hhigh, hlow, pure_apply, Reading.found.injEq,
    and_true]
  omega

/-- **A character of a string is read back from the way in which it is written.** -/
theorem stringChar_escapeChar (c : Char) (s : List Char) :
    stringChar (escapeChar c ++ s) = .found (some c) s := by
  unfold escapeChar
  split
  · next h => subst h; rfl
  split
  · next h => subst h; rfl
  split
  · next h => subst h; rfl
  split
  · next h => subst h; rfl
  split
  · next h => subst h; rfl
  split
  · next h =>
    rw [show c = Char.ofNat 8 by rw [← h, Char.ofNat_toNat]]
    rfl
  split
  · next h =>
    rw [show c = Char.ofNat 12 by rw [← h, Char.ofNat_toNat]]
    rfl
  split
  · next h =>
    have hhex := hex4_control h s
    have hshort : shortEscape? 'u' = none := by decide
    simp only [List.cons_append, List.nil_append, stringChar, hshort]
    unfold escapedUnit
    rw [bind_of_found (char_cons 'u' _), bind_of_found hhex, if_neg (by omega), if_neg (by omega),
      Char.ofNat_toNat]
    rfl
  · next hquote hback _ _ _ _ _ hcontrol =>
    rw [List.cons_append, List.nil_append]
    unfold stringChar
    split
    · next heq => simp at heq
    · next heq => exact absurd (List.cons.inj heq).1 hback
    · next heq => exact absurd (List.cons.inj heq).1 hback
    · next heq =>
      obtain ⟨rfl, rfl⟩ := List.cons.inj heq
      rw [if_neg (not_or.2 ⟨hquote, hcontrol⟩)]

theorem escapeChar_ne_nil (c : Char) : escapeChar c ≠ [] := by
  unfold escapeChar
  repeat' split
  all_goals simp

theorem mapM_id_some {α : Type} (l : List α) : (l.map some).mapM id = some l := by
  induction l with
  | nil => rfl
  | cons a l ih => simp [ih]

/-- **A string is read back from the way in which it is written.** -/
theorem quoted_quote (t : String) (rest : List Char) :
    quoted (quote t ++ rest) = .found (some t) rest := by
  have hmany : Reader.many stringChar (t.toList.flatMap escapeChar ++ '"' :: rest) =
      .found (t.toList.map some) ('"' :: rest) :=
    many_pieces (fun c _ s => stringChar_escapeChar c s) (fun c _ => escapeChar_ne_nil c)
      (show stringChar ('"' :: rest) = .stuck ('"' :: rest) from rfl)
  unfold quoted quote
  simp only [List.cons_append, List.append_assoc, List.nil_append]
  rw [bind_of_found (char_cons '"' _), bind_of_found hmany, bind_of_found (char_cons '"' rest),
    mapM_id_some]
  simp

/-! ### Numbers -/

theorem wholePart_digits {n : Nat} {rest : List Char}
    (hrest : ∀ c ∈ rest.head?, isDigit c = false) :
    wholePart (Nat.toDigits 10 n ++ rest) = .found (Nat.toDigits 10 n) rest := by
  have hone : (Nat.toDigits 10 n).length = 1 ∨ (Nat.toDigits 10 n).head? ≠ some '0' := by
    by_cases hn : n = 0
    · exact .inl (by rw [hn]; rfl)
    · exact .inr (head?_toDigits_ne hn)
  unfold wholePart accepting
  rw [takeWhile1_append Nat.toDigits_ne_nil (fun c hc => isDigit_of_mem_toDigits hc) hrest]
  simp only [hone, if_true]

/-- The digits of an integer behind its sign. -/
theorem numberText_integer (n : Int) :
    numberText (.integer n) = (if n < 0 then ['-'] else []) ++ Nat.toDigits 10 n.natAbs := by
  cases n with
  | ofNat m =>
    rw [if_neg (by simp), List.nil_append]
    exact Nat.toList_repr
  | negSucc m =>
    rw [if_pos (Int.negSucc_lt_zero m)]
    change ("-" ++ Nat.repr (m + 1)).toList = _
    rw [String.toList_append, Nat.toList_repr]
    rfl

theorem optional_fraction {rest : List Char} (ends : Ends rest) :
    optional fraction rest = .found none rest := by
  have hpoint := ends.ne (d := '.') (by decide) (by decide)
  cases rest with
  | nil => rfl
  | cons c rest =>
    exact optional_of_stuck (bind_of_stuck (char_of_ne (hpoint c rfl) rest))

theorem optional_exponent {rest : List Char} (ends : Ends rest) :
    optional exponent rest = .found none rest := by
  have hsmall := ends.ne (d := 'e') (by decide) (by decide)
  have hcapital := ends.ne (d := 'E') (by decide) (by decide)
  cases rest with
  | nil => rfl
  | cons c rest =>
    have hletter : (char 'e' <|> char 'E') (c :: rest) = .stuck (c :: rest) :=
      (orElse_of_stuck (char_of_ne (hsmall c rfl) rest)).trans (char_of_ne (hcapital c rfl) rest)
    exact optional_of_stuck (bind_of_stuck hletter)

/-- **An integer is read back from its digits.** -/
theorem numberValue_integer (n : Int) {rest : List Char} (ends : Ends rest) :
    numberValue (numberText (.integer n) ++ rest) = .found (.integer n) rest := by
  have hwhole := wholePart_digits (n := n.natAbs) ends.not_digit
  have hdigits : Nat.ofDigitChars 10 (Nat.toDigits 10 n.natAbs) 0 = n.natAbs :=
    Nat.ofDigitChars_ten_toDigits
  rw [numberText_integer, List.append_assoc]
  unfold numberValue
  by_cases hn : n < 0
  · have hne : Nat.toDigits 10 n.natAbs ≠ ['0'] := by
      intro h
      exact head?_toDigits_ne (n := n.natAbs) (by omega) (by rw [h]; rfl)
    rw [if_pos hn, List.cons_append, List.nil_append,
      bind_of_found (optional_of_found (char_cons '-' _)), bind_of_found hwhole,
      bind_of_found (optional_fraction ends), bind_of_found (optional_exponent ends)]
    simp only [Option.isNone_none, Bool.and_self, Option.isSome_some, hne, decide_false,
      Bool.and_false, Bool.not_false, if_true, hdigits, pure_apply, Reading.found.injEq, and_true,
      JsonNumber.integer.injEq]
    omega
  · have hminus : optional (char '-') (Nat.toDigits 10 n.natAbs ++ rest) =
        .found none (Nat.toDigits 10 n.natAbs ++ rest) := by
      cases hd : Nat.toDigits 10 n.natAbs with
      | nil => exact absurd hd Nat.toDigits_ne_nil
      | cons c ds =>
        have hc : isDigit c = true := isDigit_of_mem_toDigits (hd ▸ List.mem_cons_self)
        refine optional_of_stuck (char_of_ne ?_ _)
        rintro rfl
        exact absurd hc (by decide)
    rw [if_neg hn, List.nil_append, bind_of_found hminus, bind_of_found hwhole,
      bind_of_found (optional_fraction ends), bind_of_found (optional_exponent ends)]
    simp only [Option.isNone_none, Bool.and_self, Option.isSome_none, Bool.false_and,
      Bool.not_false, if_true, hdigits, pure_apply, Reading.found.injEq, and_true,
      JsonNumber.integer.injEq, Bool.false_eq_true, if_false]
    omega

/-! ### Parts and blanks -/

theorem lexeme_of_found {α : Type} {p : Reader α} {s rest : List Char} {a : α}
    (h : p s = .found a rest) : lexeme p s = .found a (rest.dropWhile isGap) := by
  unfold lexeme
  rw [bind_of_found h]
  rfl

theorem lexeme_of_stuck {α : Type} {p : Reader α} {s rest : List Char}
    (h : p s = .stuck rest) : lexeme p s = .stuck rest :=
  bind_of_stuck h

theorem dropWhile_gap_cons {c : Char} (h : isGap c = false) (s : List Char) :
    (c :: s).dropWhile isGap = c :: s := by
  simp [h]

theorem separated_cons (separator p : List Char) (ps : List (List Char)) :
    separated separator (p :: ps) = p ++ ps.flatMap (separator ++ ·) := by
  induction ps generalizing p with
  | nil => simp [separated]
  | cons q ps ih =>
    change p ++ separator ++ separated separator (q :: ps) = _
    rw [ih, List.flatMap_cons, List.append_assoc, List.append_assoc]

section

variable {α β : Type} {item : Reader α} {write : β → List Char} {value : β → α}
variable {line gap rest : List Char} {close : Char}

/-- What stands behind a part: the comma before the next one, or blanks and the closing bracket. -/
theorem ends_parts (hclose : close = ']' ∨ close = '\x7d') (hgap : ∀ c ∈ gap, isGap c = true)
    (later : List β) :
    Ends (later.flatMap (fun x => ',' :: line ++ write x) ++ (gap ++ close :: rest)) := by
  intro c hc
  cases later with
  | cons x later => exact .inr (.inl (Option.some.inj hc).symm)
  | nil =>
    cases gap with
    | cons d gap =>
      obtain rfl := Option.some.inj hc
      exact .inl (hgap _ List.mem_cons_self)
    | nil =>
      obtain rfl := Option.some.inj hc
      exact .inr (.inr hclose)

/-- The parts behind the first one, each with the comma before it. -/
theorem many_parts (hclose : close = ']' ∨ close = '\x7d')
    (hline : ∀ c ∈ line, isGap c = true) (hgap : ∀ c ∈ gap, isGap c = true) {bs : List β}
    (hstart : ∀ x ∈ bs, ∀ s, (write x ++ s).dropWhile isGap = write x ++ s)
    (hread : ∀ x ∈ bs, ∀ s, Ends s →
      item (write x ++ s) = .found (value x) (s.dropWhile isGap)) :
    Reader.many (do let _ ← lexeme (char ','); item)
        ((bs.flatMap (fun x => ',' :: line ++ write x) ++ (gap ++ close :: rest)).dropWhile isGap) =
      .found (bs.map value) (close :: rest) := by
  have hcloseNe : close ≠ ',' := by rcases hclose with rfl | rfl <;> decide
  have hleft : (gap ++ close :: rest).dropWhile isGap = close :: rest := by
    rw [dropWhile_append_of_forall hgap, dropWhile_gap_cons]
    rcases hclose with rfl | rfl <;> decide
  have hstop : (do let _ ← lexeme (char ','); item : Reader α)
      ((gap ++ close :: rest).dropWhile isGap) = .stuck (close :: rest) := by
    rw [hleft]
    exact bind_of_stuck (lexeme_of_stuck (char_of_ne hcloseNe rest))
  have hnext : ∀ x ∈ bs, ∀ later : List β,
      (do let _ ← lexeme (char ','); item : Reader α) ((',' :: line ++ write x ++
          (later.flatMap (fun x => ',' :: line ++ write x) ++ (gap ++ close :: rest))).dropWhile
            isGap) =
        .found (value x)
          ((later.flatMap (fun x => ',' :: line ++ write x) ++ (gap ++ close :: rest)).dropWhile
            isGap) := by
    intro x hx later
    rw [List.cons_append, List.cons_append, dropWhile_gap_cons (by decide),
      bind_of_found (lexeme_of_found (char_cons ',' _)), List.append_assoc,
      dropWhile_append_of_forall hline, hstart x hx]
    exact hread x hx _ (ends_parts hclose hgap later)
  have hfuel : bs.length ≤ ((bs.flatMap (fun x => ',' :: line ++ write x) ++
      (gap ++ close :: rest)).dropWhile isGap).length := by
    cases bs with
    | nil => exact Nat.zero_le _
    | cons x bs =>
      have hlen : (x :: bs).length ≤ ((x :: bs).flatMap fun x => ',' :: line ++ write x).length :=
        length_le_length_flatMap (by simp)
      rw [dropWhile_of_head (by simp; decide), List.length_append]
      exact Nat.le_trans hlen (Nat.le_add_right _ _)
  have hmany := repeatWithin_pieces (List.dropWhile isGap) hstop hnext _ hfuel
  rw [hleft] at hmany
  exact hmany

/-- Parts between commas and blanks, up to a closing bracket. -/
theorem sepBy_parts (hclose : close = ']' ∨ close = '\x7d')
    (hline : ∀ c ∈ line, isGap c = true) (hgap : ∀ c ∈ gap, isGap c = true) {b : β} {bs : List β}
    (hstart : ∀ x ∈ b :: bs, ∀ s, (write x ++ s).dropWhile isGap = write x ++ s)
    (hread : ∀ x ∈ b :: bs, ∀ s, Ends s →
      item (write x ++ s) = .found (value x) (s.dropWhile isGap)) :
    sepBy item (lexeme (char ',')) (separated (',' :: line) ((b :: bs).map write) ++
        (gap ++ close :: rest)) = .found ((b :: bs).map value) (close :: rest) := by
  rw [List.map_cons, separated_cons, List.flatMap_map, List.append_assoc]
  unfold sepBy sepBy1
  apply orElse_of_found
  rw [bind_of_found (hread b List.mem_cons_self _ (ends_parts hclose hgap bs)),
    bind_of_found (many_parts hclose hline hgap
      (fun x hx => hstart x (List.mem_cons_of_mem b hx))
      fun x hx => hread x (List.mem_cons_of_mem b hx))]
  rfl

end

/-! ### Values -/

/-- The blanks of a layout are blanks of the grammar. -/
def Layout.Blank (l : Layout) : Prop :=
  (∀ level, ∀ c ∈ l.line level, isGap c = true) ∧ ∀ c ∈ l.space, isGap c = true

theorem wordFor_append (word : String) (v : Json) (rest : List Char) :
    wordFor word v (word.toList ++ rest) = .found v rest :=
  bind_of_found (text_append word.toList rest)

theorem wordFor_of_ne {word : String} {c d : Char} {t : List Char} (hword : word.toList = c :: t)
    (h : d ≠ c) (v : Json) (s : List Char) : wordFor word v (d :: s) = .stuck (d :: s) := by
  unfold wordFor
  rw [hword]
  exact bind_of_stuck (text_of_head_ne fun e he => (Option.some.inj he) ▸ h)

theorem nested_bool (n : Nat) (b : Bool) (rest : List Char) :
    nested (n + 1) ((if b then "true".toList else "false".toList) ++ rest) =
      .found (.bool b) rest := by
  cases b with
  | true =>
    have hnull := wordFor_of_ne (d := 't') (show "null".toList = _ from rfl) (by decide) .null
      ("rue".toList ++ rest)
    exact (orElse_of_stuck hnull).trans (orElse_of_found (wordFor_append "true" (.bool true) rest))
  | false =>
    have hnull := wordFor_of_ne (d := 'f') (show "null".toList = _ from rfl) (by decide) .null
      ("alse".toList ++ rest)
    have htrue := wordFor_of_ne (d := 'f') (show "true".toList = _ from rfl) (by decide)
      (.bool true) ("alse".toList ++ rest)
    exact (orElse_of_stuck hnull).trans ((orElse_of_stuck htrue).trans
      (orElse_of_found (wordFor_append "false" (.bool false) rest)))

/-- A value that does not start with the first letter of a word is none of the three words. -/
theorem nested_of_head {n : Nat} {s : List Char}
    (h : ∀ c ∈ s.head?, c ≠ 'n' ∧ c ≠ 't' ∧ c ≠ 'f') :
    nested (n + 1) s =
      (stringValue <|> (do return .number (← numberValue)) <|> arrayOf (nested n)
        <|> objectOf (nested n) : Reader Json) s := by
  have hnull : wordFor "null" .null s = .stuck s :=
    bind_of_stuck (text_of_head_ne fun c hc => (h c hc).1)
  have htrue : wordFor "true" (.bool true) s = .stuck s :=
    bind_of_stuck (text_of_head_ne fun c hc => (h c hc).2.1)
  have hfalse : wordFor "false" (.bool false) s = .stuck s :=
    bind_of_stuck (text_of_head_ne fun c hc => (h c hc).2.2)
  exact (orElse_of_stuck hnull).trans ((orElse_of_stuck htrue).trans (orElse_of_stuck hfalse))

theorem stringValue_of_ne {c : Char} (h : c ≠ '"') (s : List Char) :
    stringValue (c :: s) = .stuck (c :: s) :=
  bind_of_stuck (bind_of_stuck (char_of_ne h s))

theorem numberValue_of_ne {c : Char} (hminus : c ≠ '-') (hdigit : isDigit c = false)
    (s : List Char) : numberValue (c :: s) = .stuck (c :: s) := by
  have hwhole : wholePart (c :: s) = .stuck (c :: s) := by
    unfold wholePart accepting
    rw [takeWhile1_of_head (fun d hd => Option.some.inj hd ▸ hdigit)]
  unfold numberValue
  rw [bind_of_found (optional_of_stuck (char_of_ne hminus s)), bind_of_stuck hwhole]

/-- At an opening bracket, an array or an object is read. -/
theorem nested_of_bracket {n : Nat} {c : Char} (h : c ≠ 'n' ∧ c ≠ 't' ∧ c ≠ 'f')
    (hquote : c ≠ '"') (hminus : c ≠ '-') (hdigit : isDigit c = false) (s : List Char) :
    nested (n + 1) (c :: s) =
      (arrayOf (nested n) <|> objectOf (nested n) : Reader Json) (c :: s) := by
  have hhead : ∀ d ∈ (c :: s).head?, d ≠ 'n' ∧ d ≠ 't' ∧ d ≠ 'f' := by
    rintro d hd
    exact Option.some.inj hd ▸ h
  rw [nested_of_head hhead, orElse_of_stuck (stringValue_of_ne hquote s),
    orElse_of_stuck (bind_of_stuck (numberValue_of_ne hminus hdigit s))]

/-- No value starts with a closing bracket. -/
theorem nested_close (n : Nat) (s : List Char) : nested n (']' :: s) = .stuck (']' :: s) := by
  cases n with
  | zero => rfl
  | succ n =>
    have harray : arrayOf (nested n) (']' :: s) = .stuck (']' :: s) :=
      bind_of_stuck (lexeme_of_stuck (char_of_ne (by decide) s))
    have hobject : objectOf (nested n) (']' :: s) = .stuck (']' :: s) :=
      bind_of_stuck (lexeme_of_stuck (char_of_ne (by decide) s))
    rw [nested_of_bracket (by decide) (by decide) (by decide) (by decide), orElse_of_stuck harray,
      hobject]

theorem nested_quote (n : Nat) (t : String) (rest : List Char) :
    nested (n + 1) (quote t ++ rest) = .found (.string t) rest := by
  have hstring : stringValue (quote t ++ rest) = .found (.string t) rest :=
    bind_of_found (quoted_quote t rest)
  rw [nested_of_head, orElse_of_found hstring]
  intro c hc
  obtain rfl := Option.some.inj hc
  decide

theorem numberText_eq_cons (n : Int) :
    ∃ c t, numberText (.integer n) = c :: t ∧ (c = '-' ∨ isDigit c = true) := by
  rw [numberText_integer]
  by_cases hn : n < 0
  · rw [if_pos hn]
    exact ⟨'-', _, rfl, .inl rfl⟩
  · rw [if_neg hn, List.nil_append]
    cases hd : Nat.toDigits 10 n.natAbs with
    | nil => exact absurd hd Nat.toDigits_ne_nil
    | cons c t => exact ⟨c, t, rfl, .inr (isDigit_of_mem_toDigits (hd ▸ List.mem_cons_self))⟩

theorem ne_of_minus_or_digit {c d : Char} (hc : c = '-' ∨ isDigit c = true) (hminus : d ≠ '-')
    (hdigit : isDigit d = false) : c ≠ d := by
  rintro rfl
  rcases hc with rfl | hc
  · exact hminus rfl
  · rw [hdigit] at hc
    exact Bool.noConfusion hc

theorem nested_integer (n : Nat) (value : Int) {rest : List Char} (ends : Ends rest) :
    nested (n + 1) (numberText (.integer value) ++ rest) =
      .found (.number (.integer value)) rest := by
  have hvalue := numberValue_integer value ends
  obtain ⟨c, t, htext, hc⟩ := numberText_eq_cons value
  rw [htext, List.cons_append] at hvalue ⊢
  have hhead : ∀ d ∈ (c :: (t ++ rest)).head?, d ≠ 'n' ∧ d ≠ 't' ∧ d ≠ 'f' := by
    intro d hd
    obtain rfl := Option.some.inj hd
    exact ⟨ne_of_minus_or_digit hc (by decide) (by decide),
      ne_of_minus_or_digit hc (by decide) (by decide),
      ne_of_minus_or_digit hc (by decide) (by decide)⟩
  rw [nested_of_head hhead, orElse_of_stuck
    (stringValue_of_ne (ne_of_minus_or_digit hc (by decide) (by decide)) _)]
  exact orElse_of_found (bind_of_found hvalue)

namespace Layout

variable {l : Layout}

theorem itemChars_eq_map (l : Layout) (level : Nat) (vs : List Json) :
    l.itemChars level vs = vs.map (l.chars level) := by
  induction vs with
  | nil => rfl
  | cons v vs ih => rw [itemChars, ih, List.map_cons]

/-- A member of an object. -/
def member (l : Layout) (level : Nat) (m : String × Json) : List Char :=
  quote m.1 ++ ':' :: l.space ++ l.chars level m.2

theorem memberChars_eq_map (l : Layout) (level : Nat) (ms : List (String × Json)) :
    l.memberChars level ms = ms.map (l.member level) := by
  induction ms with
  | nil => rfl
  | cons m ms ih => rw [memberChars, ih, List.map_cons]; rfl

theorem enclosed_eq_cons (l : Layout) (opening closing : Char) (level : Nat)
    (parts : List (List Char)) : ∃ s, l.enclosed opening closing level parts = opening :: s := by
  cases parts <;> exact ⟨_, rfl⟩

/-- A value starts with no blank. -/
theorem dropWhile_chars {v : Json} (whole : v.isWhole = true) (level : Nat) (s : List Char) :
    (l.chars level v ++ s).dropWhile isGap = l.chars level v ++ s := by
  have henclosed : ∀ (opening closing : Char) (parts : List (List Char)),
      isGap opening = false → (l.enclosed opening closing level parts ++ s).dropWhile isGap =
        l.enclosed opening closing level parts ++ s := by
    intro opening closing parts h
    cases parts <;> exact dropWhile_gap_cons h _
  cases v with
  | null => rfl
  | bool b => cases b <;> rfl
  | string t => exact dropWhile_gap_cons (by decide) _
  | unpaired => rfl
  | array items => exact henclosed _ _ _ (by decide)
  | object ms => exact henclosed _ _ _ (by decide)
  | number n =>
    cases n with
    | decimal t => simp [isWhole] at whole
    | integer n =>
      obtain ⟨c, t, htext, hc⟩ := numberText_eq_cons n
      rw [chars, htext, List.cons_append, dropWhile_gap_cons]
      rcases hc with rfl | hc
      · decide
      · cases hgap : isGap c
        · rfl
        · simp only [isGap, Bool.or_eq_true, beq_iff_eq] at hgap
          rcases hgap with ((rfl | rfl) | rfl) | rfl <;> exact absurd hc (by decide)

/-- Parts between brackets: what is left behind the opening bracket, and what is read there. -/
theorem read_enclosed (blank : l.Blank) {α β : Type} {item : Reader α} {write : β → List Char}
    {value : β → α} (opening : Char) {close : Char} (hclose : close = ']' ∨ close = '\x7d')
    (level : Nat) {items : List β} {rest stop : List Char}
    (hempty : item (close :: rest) = .stuck stop)
    (hstart : ∀ x ∈ items, ∀ s, (write x ++ s).dropWhile isGap = write x ++ s)
    (hread : ∀ x ∈ items, ∀ s, Ends s →
      item (write x ++ s) = .found (value x) (s.dropWhile isGap)) :
    ∃ s, lexeme (char opening) (l.enclosed opening close level (items.map write) ++ rest) =
        .found opening s ∧
      sepBy item (lexeme (char ',')) s = .found (items.map value) (close :: rest) := by
  cases items with
  | nil =>
    refine ⟨close :: rest, ?_, orElse_of_stuck (bind_of_stuck hempty)⟩
    have hgap : isGap close = false := by rcases hclose with rfl | rfl <;> decide
    apply (lexeme_of_found (char_cons opening (close :: rest))).trans
    rw [dropWhile_gap_cons hgap]
  | cons x items =>
    refine ⟨_, ?_, sepBy_parts hclose (blank.1 (level + 1)) (blank.1 level) hstart hread⟩
    have htext : l.enclosed opening close level ((x :: items).map write) ++ rest =
        opening :: (l.line (level + 1) ++
          (separated (',' :: l.line (level + 1)) ((x :: items).map write) ++
            (l.line level ++ close :: rest))) := by
      simp [enclosed]
    rw [htext, lexeme_of_found (char_cons opening _), dropWhile_append_of_forall (blank.1 _),
      List.map_cons, separated_cons, List.append_assoc, hstart x List.mem_cons_self]

/-- An array is read back where its items are. -/
theorem arrayOf_enclosed (blank : l.Blank) {n level : Nat} {items : List Json}
    (whole : ∀ v ∈ items, v.isWhole = true)
    (hread : ∀ v ∈ items, ∀ s, Ends s → nested n (l.chars (level + 1) v ++ s) = .found v s)
    (rest : List Char) :
    arrayOf (nested n) (l.enclosed '[' ']' level (items.map (l.chars (level + 1))) ++ rest) =
      .found (.array items) rest := by
  have hitem : ∀ v ∈ items, ∀ s, Ends s →
      lexeme (nested n) (l.chars (level + 1) v ++ s) = .found (id v) (s.dropWhile isGap) :=
    fun v hv s ends => lexeme_of_found (hread v hv s ends)
  obtain ⟨s, hopen, hitems⟩ := read_enclosed blank '[' (.inl rfl) level
    (lexeme_of_stuck (nested_close n rest)) (fun v hv => dropWhile_chars (whole v hv) (level + 1))
    hitem
  unfold arrayOf
  rw [bind_of_found hopen, bind_of_found hitems, bind_of_found (char_cons ']' rest), List.map_id]
  rfl

/-- A member of an object is read back where its value is. -/
theorem memberOf_member (blank : l.Blank) {n level : Nat} {m : String × Json}
    (whole : m.2.isWhole = true)
    (hread : ∀ s, Ends s → nested n (l.chars level m.2 ++ s) = .found m.2 s) {s : List Char}
    (ends : Ends s) :
    memberOf (nested n) (l.member level m ++ s) = .found (some m) (s.dropWhile isGap) := by
  have htext : l.member level m ++ s =
      quote m.1 ++ ':' :: (l.space ++ (l.chars level m.2 ++ s)) := by
    simp [member]
  have hname : lexeme quoted (quote m.1 ++ ':' :: (l.space ++ (l.chars level m.2 ++ s))) =
      .found (some m.1) (':' :: (l.space ++ (l.chars level m.2 ++ s))) := by
    rw [lexeme_of_found (quoted_quote m.1 _), dropWhile_gap_cons (by decide)]
  have hcolon : lexeme (char ':') (':' :: (l.space ++ (l.chars level m.2 ++ s))) =
      .found ':' (l.chars level m.2 ++ s) := by
    rw [lexeme_of_found (char_cons ':' _), dropWhile_append_of_forall blank.2,
      dropWhile_chars whole]
  unfold memberOf
  rw [htext, bind_of_found hname, bind_of_found hcolon,
    bind_of_found (lexeme_of_found (hread s ends))]
  rfl

/-- An object is read back where the values of its members are. -/
theorem objectOf_enclosed (blank : l.Blank) {n level : Nat} {ms : List (String × Json)}
    (whole : ∀ m ∈ ms, m.2.isWhole = true)
    (hread : ∀ m ∈ ms, ∀ s, Ends s →
      nested n (l.chars (level + 1) m.2 ++ s) = .found m.2 s)
    (rest : List Char) :
    objectOf (nested n)
        (l.enclosed '\x7b' '\x7d' level (ms.map (l.member (level + 1))) ++ rest) =
      .found (.object ms) rest := by
  have hempty : memberOf (nested n) ('\x7d' :: rest) = .stuck ('\x7d' :: rest) :=
    bind_of_stuck (lexeme_of_stuck (bind_of_stuck (char_of_ne (by decide) rest)))
  have hstart : ∀ m ∈ ms, ∀ s, (l.member (level + 1) m ++ s).dropWhile isGap =
      l.member (level + 1) m ++ s :=
    fun m _ s => dropWhile_gap_cons (by decide) _
  have hmember : ∀ m ∈ ms, ∀ s, Ends s →
      memberOf (nested n) (l.member (level + 1) m ++ s) = .found (some m) (s.dropWhile isGap) :=
    fun m hm s ends => memberOf_member blank (whole m hm) (hread m hm) ends
  obtain ⟨s, hopen, hmembers⟩ :=
    read_enclosed blank '\x7b' (.inr rfl) level hempty hstart hmember
  unfold objectOf
  rw [bind_of_found hopen, bind_of_found hmembers, bind_of_found (char_cons '\x7d' rest),
    mapM_id_some]
  rfl

end Layout

theorem isWhole_of_mem {vs : List Json} (h : itemsWhole vs = true) :
    ∀ v ∈ vs, v.isWhole = true := by
  induction vs with
  | nil => exact fun _ hv => absurd hv List.not_mem_nil
  | cons v vs ih =>
    rw [itemsWhole, Bool.and_eq_true] at h
    exact List.forall_mem_cons.2 ⟨h.1, ih h.2⟩

theorem isWhole_of_mem_members {ms : List (String × Json)} (h : membersWhole ms = true) :
    ∀ m ∈ ms, m.2.isWhole = true := by
  induction ms with
  | nil => exact fun _ hm => absurd hm List.not_mem_nil
  | cons m ms ih =>
    rw [membersWhole, Bool.and_eq_true] at h
    exact List.forall_mem_cons.2 ⟨h.1, ih h.2⟩

mutual

/-- **A whole value is read back from its text in any layout**, by a reader that goes deep enough.
-/
theorem nested_chars {l : Layout} (blank : l.Blank) {n : Nat} (level : Nat) {rest : List Char}
    (ends : Ends rest) : ∀ v, v.isWhole = true → v.depth < n →
      nested n (l.chars level v ++ rest) = .found v rest
  | .null, _, h => by
    obtain ⟨n, rfl⟩ := Nat.exists_eq_add_one_of_ne_zero (Nat.ne_zero_of_lt h)
    exact orElse_of_found (wordFor_append "null" .null rest)
  | .bool true, _, h => by
    obtain ⟨n, rfl⟩ := Nat.exists_eq_add_one_of_ne_zero (Nat.ne_zero_of_lt h)
    exact nested_bool n true rest
  | .bool false, _, h => by
    obtain ⟨n, rfl⟩ := Nat.exists_eq_add_one_of_ne_zero (Nat.ne_zero_of_lt h)
    exact nested_bool n false rest
  | .number (.integer value), _, h => by
    obtain ⟨n, rfl⟩ := Nat.exists_eq_add_one_of_ne_zero (Nat.ne_zero_of_lt h)
    exact nested_integer n value ends
  | .string t, _, h => by
    obtain ⟨n, rfl⟩ := Nat.exists_eq_add_one_of_ne_zero (Nat.ne_zero_of_lt h)
    exact nested_quote n t rest
  | .array items, whole, h => by
    obtain ⟨n, rfl⟩ := Nat.exists_eq_add_one_of_ne_zero (Nat.ne_zero_of_lt h)
    have harray := Layout.arrayOf_enclosed blank (isWhole_of_mem whole)
      (nested_items blank (level + 1) items whole (Nat.lt_of_succ_lt_succ h)) rest
    rw [Layout.chars, Layout.itemChars_eq_map]
    obtain ⟨s, hs⟩ := l.enclosed_eq_cons '[' ']' level (items.map (l.chars (level + 1)))
    rw [hs, List.cons_append] at harray ⊢
    rw [nested_of_bracket (by decide) (by decide) (by decide) (by decide)]
    exact orElse_of_found harray
  | .object ms, whole, h => by
    obtain ⟨n, rfl⟩ := Nat.exists_eq_add_one_of_ne_zero (Nat.ne_zero_of_lt h)
    have hobject := Layout.objectOf_enclosed blank (isWhole_of_mem_members whole)
      (nested_members blank (level + 1) ms whole (Nat.lt_of_succ_lt_succ h)) rest
    rw [Layout.chars, Layout.memberChars_eq_map]
    obtain ⟨s, hs⟩ := l.enclosed_eq_cons '\x7b' '\x7d' level (ms.map (l.member (level + 1)))
    rw [hs, List.cons_append] at hobject ⊢
    have harray : arrayOf (nested n) ('\x7b' :: (s ++ rest)) = .stuck ('\x7b' :: (s ++ rest)) :=
      bind_of_stuck (lexeme_of_stuck (char_of_ne (by decide) _))
    rw [nested_of_bracket (by decide) (by decide) (by decide) (by decide), orElse_of_stuck harray]
    exact hobject

theorem nested_items {l : Layout} (blank : l.Blank) {n : Nat} (level : Nat) :
    ∀ vs, itemsWhole vs = true → depthItems vs < n → ∀ v ∈ vs, ∀ rest, Ends rest →
      nested n (l.chars level v ++ rest) = .found v rest
  | [], _, _ => fun _ hv => absurd hv List.not_mem_nil
  | v :: vs, whole, h => by
    rw [itemsWhole, Bool.and_eq_true] at whole
    rw [depthItems] at h
    refine List.forall_mem_cons.2 ⟨fun rest ends => ?_, ?_⟩
    · exact nested_chars blank level ends v whole.1 (by omega)
    · exact nested_items blank level vs whole.2 (by omega)

theorem nested_members {l : Layout} (blank : l.Blank) {n : Nat} (level : Nat) :
    ∀ ms, membersWhole ms = true → depthMembers ms < n → ∀ m ∈ ms, ∀ rest, Ends rest →
      nested n (l.chars level m.2 ++ rest) = .found m.2 rest
  | [], _, _ => fun _ hm => absurd hm List.not_mem_nil
  | (k, v) :: ms, whole, h => by
    rw [membersWhole, Bool.and_eq_true] at whole
    rw [depthMembers] at h
    refine List.forall_mem_cons.2 ⟨fun rest ends => ?_, ?_⟩
    · exact nested_chars blank level ends v whole.1 (by omega)
    · exact nested_members blank level ms whole.2 (by omega)

end

/-! ### Whole texts -/

theorem length_le_separated {separator p : List Char} {ps : List (List Char)} (h : p ∈ ps) :
    p.length ≤ (separated separator ps).length := by
  induction ps with
  | nil => exact absurd h List.not_mem_nil
  | cons q ps ih =>
    rw [separated_cons, List.length_append]
    rcases List.mem_cons.1 h with rfl | h
    · exact Nat.le_add_right _ _
    · refine Nat.le_trans ?_ (Nat.le_add_left _ _)
      obtain ⟨before, later, rfl⟩ := List.append_of_mem h
      simp only [List.flatMap_append, List.flatMap_cons, List.length_append]
      omega

theorem length_lt_enclosed {l : Layout} {opening closing : Char} {level : Nat} {p : List Char}
    {ps : List (List Char)} (h : p ∈ ps) :
    p.length < (l.enclosed opening closing level ps).length := by
  cases ps with
  | nil => exact absurd h List.not_mem_nil
  | cons q ps =>
    have hle : p.length ≤ (separated (',' :: l.line (level + 1)) (q :: ps)).length :=
      length_le_separated h
    simp only [Layout.enclosed, List.length_append, List.length_cons]
    omega

mutual

/-- A value is nested no deeper than its text is long. -/
theorem depth_le_length (l : Layout) (level : Nat) : ∀ v, v.depth ≤ (l.chars level v).length
  | .null => Nat.zero_le _
  | .bool _ => Nat.zero_le _
  | .number _ => Nat.zero_le _
  | .string _ => Nat.zero_le _
  | .unpaired => Nat.zero_le _
  | .array items => by
    obtain ⟨s, hs⟩ := l.enclosed_eq_cons '[' ']' level (l.itemChars (level + 1) items)
    rw [depth, Layout.chars]
    refine Nat.succ_le_of_lt (depthItems_lt l (level + 1) items (by simp [hs]) fun p hp => ?_)
    exact length_lt_enclosed hp
  | .object ms => by
    obtain ⟨s, hs⟩ := l.enclosed_eq_cons '\x7b' '\x7d' level (l.memberChars (level + 1) ms)
    rw [depth, Layout.chars]
    refine Nat.succ_le_of_lt (depthMembers_lt l (level + 1) ms (by simp [hs]) fun p hp => ?_)
    exact length_lt_enclosed hp

theorem depthItems_lt (l : Layout) (level : Nat) {n : Nat} : ∀ vs, 0 < n →
    (∀ p ∈ l.itemChars level vs, p.length < n) → depthItems vs < n
  | [], hn, _ => hn
  | v :: vs, hn, h => by
    rw [Layout.itemChars, List.forall_mem_cons] at h
    exact Nat.max_lt.2 ⟨Nat.lt_of_le_of_lt (depth_le_length l level v) h.1,
      depthItems_lt l level vs hn h.2⟩

theorem depthMembers_lt (l : Layout) (level : Nat) {n : Nat} : ∀ ms, 0 < n →
    (∀ p ∈ l.memberChars level ms, p.length < n) → depthMembers ms < n
  | [], hn, _ => hn
  | (k, v) :: ms, hn, h => by
    rw [Layout.memberChars, List.forall_mem_cons, List.length_append] at h
    have hv := depth_le_length l level v
    exact Nat.max_lt.2 ⟨by omega, depthMembers_lt l level ms hn h.2⟩

end

/-- **A whole value is read back from its text in any layout.** -/
theorem parse_chars {l : Layout} (blank : l.Blank) {v : Json} (whole : v.isWhole = true) :
    parse (String.ofList (l.chars 0 v)) = some v := by
  have hend : Ends [] := fun c hc => nomatch hc
  have hread := nested_chars blank 0 hend v whole (Nat.lt_succ_of_le (depth_le_length l 0 v))
  have hstart := Layout.dropWhile_chars (l := l) whole 0 []
  rw [List.append_nil] at hread hstart
  have hblanks : blanks (l.chars 0 v) = .found () (l.chars 0 v) := by
    change Reading.found () ((l.chars 0 v).dropWhile isGap) = _
    rw [hstart]
  unfold parse
  rw [String.toList_ofList]
  unfold run?
  dsimp only
  rw [bind_of_found hblanks, lexeme_of_found hread]
  rfl

theorem blank_indented : Layout.indented.Blank := by
  constructor
  · intro level c hc
    rcases List.mem_cons.1 hc with rfl | hc
    · decide
    · rw [(List.mem_replicate.1 hc).2]
      decide
  · intro c hc
    rw [List.mem_singleton.1 hc]
    decide

theorem blank_dense : Layout.dense.Blank :=
  ⟨fun _ _ hc => absurd hc List.not_mem_nil, fun _ hc => absurd hc List.not_mem_nil⟩

/-- **A whole value is read back from its text on lines of its own.** -/
theorem parse_pretty {v : Json} (whole : v.isWhole = true) : parse v.pretty = some v := by
  unfold pretty
  rw [prettyChars_eq]
  exact parse_chars blank_indented whole

/-- **A whole value is read back from its text on one line.** -/
theorem parse_compact {v : Json} (whole : v.isWhole = true) : parse v.compact = some v := by
  unfold compact
  rw [compactChars_eq 0]
  exact parse_chars blank_dense whole

end Tabular.Json

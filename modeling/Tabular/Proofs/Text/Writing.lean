import Tabular.Text.Reader

/-!
Reading what was written.

A reader reads a text back when, in front of what may follow, it finds the value and leaves what
follows. The lemmas say so of the single readers and for repetitions (`many_pieces`).
-/

namespace Tabular

/-- A fact on every character of a list is decided over the list, whichever way there is to decide a
fact on all characters. -/
instance decidableOnCharacters {p : Char → Prop} [DecidablePred p] (l : List Char) :
    Decidable (∀ c ∈ l, p c) :=
  List.decidableBAll p l

namespace Reader

variable {α β γ : Type}

theorem char_cons (c : Char) (s : List Char) : char c (c :: s) = .found c s :=
  if_pos rfl

theorem char_of_ne {c d : Char} (h : d ≠ c) (s : List Char) :
    char c (d :: s) = .stuck (d :: s) :=
  if_neg h

theorem dropWhile_append_of_forall {f : Char → Bool} {t : List Char} (h : ∀ c ∈ t, f c = true)
    (rest : List Char) : (t ++ rest).dropWhile f = rest.dropWhile f := by
  induction t with
  | nil => rfl
  | cons c t ih =>
    rw [List.cons_append, List.dropWhile_cons_of_pos (h c List.mem_cons_self)]
    exact ih fun d hd => h d (List.mem_cons_of_mem c hd)

theorem takeWhile_append_of_forall {f : Char → Bool} {t : List Char} (h : ∀ c ∈ t, f c = true)
    (rest : List Char) : (t ++ rest).takeWhile f = t ++ rest.takeWhile f := by
  induction t with
  | nil => rfl
  | cons c t ih =>
    rw [List.cons_append, List.takeWhile_cons_of_pos (h c List.mem_cons_self),
      ih fun d hd => h d (List.mem_cons_of_mem c hd), List.cons_append]

theorem dropWhile_of_head {f : Char → Bool} {s : List Char} (h : ∀ c ∈ s.head?, f c = false) :
    s.dropWhile f = s := by
  cases s with
  | nil => rfl
  | cons c s => simp [h c rfl]

theorem takeWhile_of_head {f : Char → Bool} {s : List Char} (h : ∀ c ∈ s.head?, f c = false) :
    s.takeWhile f = [] := by
  cases s with
  | nil => rfl
  | cons c s => simp [h c rfl]

theorem takeWhile_append {f : Char → Bool} {t rest : List Char} (h : ∀ c ∈ t, f c = true)
    (hrest : ∀ c ∈ rest.head?, f c = false) : takeWhile f (t ++ rest) = .found t rest := by
  unfold takeWhile
  rw [takeWhile_append_of_forall h, dropWhile_append_of_forall h, takeWhile_of_head hrest,
    dropWhile_of_head hrest, List.append_nil]

theorem takeWhile1_append {f : Char → Bool} {t rest : List Char} (ht : t ≠ [])
    (h : ∀ c ∈ t, f c = true) (hrest : ∀ c ∈ rest.head?, f c = false) :
    takeWhile1 f (t ++ rest) = .found t rest := by
  unfold takeWhile1
  rw [takeWhile_append_of_forall h, dropWhile_append_of_forall h, takeWhile_of_head hrest,
    dropWhile_of_head hrest, List.append_nil, if_neg ht]

theorem takeWhile1_of_head {f : Char → Bool} {s : List Char} (h : ∀ c ∈ s.head?, f c = false) :
    takeWhile1 f s = .stuck s := by
  unfold takeWhile1
  rw [takeWhile_of_head h, if_pos rfl]

theorem ofScanner_of_some {scan : List Char → Option (List Char × List Char)} {s t rest : List Char}
    (h : scan s = some (t, rest)) : ofScanner scan s = .found t rest := by
  unfold ofScanner
  rw [h]

theorem text_append (t rest : List Char) : text t (t ++ rest) = .found t rest := by
  unfold text
  rw [if_pos (by simp), List.drop_left]

theorem text_of_head_ne {c : Char} {t s : List Char} (h : ∀ d ∈ s.head?, d ≠ c) :
    text (c :: t) s = .stuck s := by
  unfold text
  rw [if_neg]
  cases s with
  | nil => simp
  | cons d s => simp [Ne.symm (h d rfl)]

theorem optional_of_found {p : Reader α} {s rest : List Char} {a : α} (h : p s = .found a rest) :
    optional p s = .found (some a) rest := by
  simp [optional, h]

theorem optional_of_stuck {p : Reader α} {s rest : List Char} (h : p s = .stuck rest) :
    optional p s = .found none s := by
  simp [optional, h]

/-! ### Repetitions -/

theorem length_le_length_flatMap {write : β → List Char} {items : List β}
    (hne : ∀ b ∈ items, write b ≠ []) : items.length ≤ (items.flatMap write).length := by
  induction items with
  | nil => exact Nat.le_refl 0
  | cons b items ih =>
    have hb := List.length_pos_iff.2 (hne b List.mem_cons_self)
    have hlater := ih fun c hc => hne c (List.mem_cons_of_mem b hc)
    rw [List.flatMap_cons, List.length_append, List.length_cons]
    omega

/-- Pieces that are read one after another, up to a text at which no other one is read. What is left
after a piece need not be the text after it as it stands: `left` says what the reader makes of it.
-/
theorem repeatWithin_pieces {p : Reader α} {write : β → List Char} {value : β → α}
    (left : List Char → List Char) {rest stop : List Char} (hstop : p (left rest) = .stuck stop)
    {items : List β}
    (hread : ∀ b ∈ items, ∀ later : List β,
      p (left (write b ++ (later.flatMap write ++ rest))) =
        .found (value b) (left (later.flatMap write ++ rest)))
    (fuel : List Char) (hfuel : items.length ≤ fuel.length) :
    repeatWithin p fuel (left (items.flatMap write ++ rest)) =
      .found (items.map value) (left rest) := by
  induction items generalizing fuel with
  | nil =>
    cases fuel with
    | nil => rfl
    | cons _ fuel =>
      unfold repeatWithin
      simp [hstop]
  | cons b items ih =>
    cases fuel with
    | nil => simp at hfuel
    | cons _ fuel =>
      have hlater := ih (fun c hc => hread c (List.mem_cons_of_mem b hc)) fuel
        (Nat.le_of_succ_le_succ hfuel)
      unfold repeatWithin
      rw [List.flatMap_cons, List.append_assoc, hread b List.mem_cons_self items]
      simp only [hlater, List.map_cons]

/-- Pieces that are read in front of any text. -/
theorem many_pieces {p : Reader α} {write : β → List Char} {value : β → α} {items : List β}
    {rest stop : List Char} (hread : ∀ b ∈ items, ∀ s, p (write b ++ s) = .found (value b) s)
    (hne : ∀ b ∈ items, write b ≠ []) (hstop : p rest = .stuck stop) :
    many p (items.flatMap write ++ rest) = .found (items.map value) rest := by
  refine repeatWithin_pieces id hstop (fun b hb later => hread b hb _) _ ?_
  rw [List.length_append]
  exact Nat.le_trans (length_le_length_flatMap hne) (Nat.le_add_right _ _)

end Reader

/-! ### Digits -/

namespace Text

theorem isDigit_of_isDigit {c : Char} (h : c.isDigit = true) : isDigit c = true := by
  simpa [Char.isDigit, isDigit, Char.le_def] using h

theorem isDigit_of_mem_toDigits {n : Nat} {c : Char} (h : c ∈ Nat.toDigits 10 n) :
    isDigit c = true :=
  isDigit_of_isDigit (Nat.isDigit_of_mem_toDigits (by decide) (by decide) h)

/-- Only the number zero is written with a zero in front. -/
theorem head?_toDigits_ne {n : Nat} (h : n ≠ 0) : (Nat.toDigits 10 n).head? ≠ some '0' := by
  induction n using Nat.strongRecOn with
  | ind n ih =>
    by_cases hn : n < 10
    · have hdigits : ∀ n < 10, n ≠ 0 → (Nat.toDigits 10 n).head? ≠ some '0' := by decide +kernel
      exact hdigits n hn h
    · rw [Nat.toDigits_of_base_le (by decide) (Nat.le_of_not_lt hn), List.head?_append]
      have hhead := ih (n / 10) (by omega) (by omega)
      cases hd : (Nat.toDigits 10 (n / 10)).head? with
      | none => exact absurd (List.head?_eq_none_iff.1 hd) Nat.toDigits_ne_nil
      | some c =>
        rw [hd] at hhead
        simpa using hhead

end Text

end Tabular

import Mathlib.Data.Set.Defs
import Tabular.Proofs.Cell.Equality

/-!
The order of cells.

Two cells are compared as numbers where both are numeric, and as texts where one of them is not.
Exchanging the cells reverses their order in either case. But the order is not transitive, for the
two cases need not agree: `9` is the smaller number and the greater text next to `10`, so a text
between the two that is no number, like `1a`, comes after `10` and before `9`. Such a text *crosses*
the two numbers (`Crosses`), and nothing else stands in the way of transitivity.

* `reverses_and_transitiveOn_iff`: exchanging cells reverses their order, and the order is
  transitive on exactly those cells among which no text crosses two numbers.
-/

namespace Tabular.Cell

/-! ### One way to compare at a time -/

theorem compareValues_of_numeric {a b : String} {m n : Int} (ha : numeric? a = some m)
    (hb : numeric? b = some n) : compareValues a b = compare m n := by
  unfold compareValues
  rw [ha, hb]
  rfl

theorem compareValues_of_text {a b : String} (h : numeric? a = none ∨ numeric? b = none) :
    compareValues a b = compare a b := by
  unfold compareValues
  split
  · next ha hb => simp [ha, hb] at h
  · rfl

theorem compareValues_swap (a b : String) : compareValues b a = (compareValues a b).swap := by
  by_cases h : numeric? a = none ∨ numeric? b = none
  · rw [compareValues_of_text h, compareValues_of_text h.symm]
    exact Std.OrientedCmp.eq_swap
  · obtain ⟨ha, hb⟩ := not_or.1 h
    obtain ⟨m, hm⟩ := Option.ne_none_iff_exists'.1 ha
    obtain ⟨n, hn⟩ := Option.ne_none_iff_exists'.1 hb
    rw [compareValues_of_numeric hm hn, compareValues_of_numeric hn hm]
    exact Std.OrientedCmp.eq_swap

/-- **Exchanging cells reverses their order.** -/
theorem compareCells_swap (a b : Option String) : compareCells b a = (compareCells a b).swap := by
  cases a with
  | none => cases b <;> rfl
  | some a =>
    cases b with
    | none => rfl
    | some b => exact compareValues_swap a b

theorem isLE_iff_of_numeric {a b : String} {m n : Int} (ha : numeric? a = some m)
    (hb : numeric? b = some n) : (compareValues a b).isLE ↔ m ≤ n := by
  rw [compareValues_of_numeric ha hb, Std.isLE_compare]

theorem isLE_iff_of_text {a b : String} (h : numeric? a = none ∨ numeric? b = none) :
    (compareValues a b).isLE ↔ a ≤ b := by
  rw [compareValues_of_text h]
  exact isLE_compareOfLessAndEq Std.le_antisymm Std.not_le fun _ _ => Std.le_total

theorem lt_of_le_of_numeric_ne {a b : String} (h : a ≤ b)
    (hnumeric : (numeric? a).isSome ≠ (numeric? b).isSome) : a < b :=
  Std.lt_of_le_of_ne h fun same => hnumeric (same ▸ rfl)

/-- Two cells compare equal when both are null, or when both are values of one meaning. -/
theorem compareCells_eq_iff {a b : Option String} :
    compareCells a b = .eq ↔ a.map meaning = b.map meaning := by
  cases a with
  | none => cases b <;> simp [compareCells]
  | some a =>
    cases b with
    | none => simp [compareCells]
    | some b => simpa [compareCells, sameValue] using sameValue_iff (a := a) (b := b)

/-! ### Texts that cross numbers -/

/-- A text that is no number crosses two numbers, the one not above the other: in the order of texts
it stands between them the other way round. -/
structure Crosses (text low high : String) : Prop where
  not_numeric : numeric? text = none
  numeric : ∃ m n, numeric? low = some m ∧ numeric? high = some n ∧ m ≤ n
  above_high : high < text
  below_low : text < low

/-- Some text among the cells crosses two numbers among them. -/
def Crossed (cells : Set (Option String)) : Prop :=
  ∃ text low high, some text ∈ cells ∧ some low ∈ cells ∧ some high ∈ cells ∧
    Crosses text low high

/-- The order of cells is transitive among these. -/
def TransitiveOn (cells : Set (Option String)) : Prop :=
  ∀ a ∈ cells, ∀ b ∈ cells, ∀ c ∈ cells, (compareCells a b).isLE → (compareCells b c).isLE →
    (compareCells a c).isLE

/-- A text that crosses two numbers leads from the lower one over the higher one back below. -/
theorem Crosses.cycle {text low high : String} (h : Crosses text low high) :
    (compareValues low high).isLE ∧ (compareValues high text).isLE ∧
      ¬(compareValues low text).isLE := by
  obtain ⟨m, n, hlow, hhigh, hle⟩ := h.numeric
  refine ⟨(isLE_iff_of_numeric hlow hhigh).2 hle, ?_, ?_⟩
  · exact (isLE_iff_of_text (.inr h.not_numeric)).2 (Std.le_of_lt h.above_high)
  · rw [isLE_iff_of_text (.inr h.not_numeric)]
    exact Std.not_le.2 h.below_low

/-- Three values of which none crosses the other two are in order from the first to the last. -/
theorem isLE_trans_of_not_crosses {a b c : String} (hab : (compareValues a b).isLE)
    (hbc : (compareValues b c).isLE) (ha : ¬Crosses a b c) (hb : ¬Crosses b c a)
    (hc : ¬Crosses c a b) : (compareValues a c).isLE := by
  -- where exactly two of them are numeric, one pair is compared otherwise than the other two
  cases hna : numeric? a with
  | none =>
    rw [isLE_iff_of_text (.inl hna)] at hab ⊢
    cases hnb : numeric? b with
    | none =>
      rw [isLE_iff_of_text (.inl hnb)] at hbc
      exact Std.le_trans hab hbc
    | some n =>
      cases hnc : numeric? c with
      | none =>
        rw [isLE_iff_of_text (.inr hnc)] at hbc
        exact Std.le_trans hab hbc
      | some p =>
        rw [isLE_iff_of_numeric hnb hnc] at hbc
        have hlt : a < b := lt_of_le_of_numeric_ne hab (by simp [hna, hnb])
        exact Std.not_lt.1 fun hca => ha ⟨hna, ⟨n, p, hnb, hnc, hbc⟩, hca, hlt⟩
  | some m =>
    cases hnb : numeric? b with
    | none =>
      rw [isLE_iff_of_text (.inr hnb)] at hab
      rw [isLE_iff_of_text (.inl hnb)] at hbc
      cases hnc : numeric? c with
      | none =>
        rw [isLE_iff_of_text (.inr hnc)]
        exact Std.le_trans hab hbc
      | some p =>
        rw [isLE_iff_of_numeric hna hnc]
        have hab : a < b := lt_of_le_of_numeric_ne hab (by simp [hna, hnb])
        have hbc : b < c := lt_of_le_of_numeric_ne hbc (by simp [hnb, hnc])
        exact Int.not_lt.1 fun hlt => hb ⟨hnb, ⟨p, m, hnc, hna, Int.le_of_lt hlt⟩, hab, hbc⟩
    | some n =>
      rw [isLE_iff_of_numeric hna hnb] at hab
      cases hnc : numeric? c with
      | none =>
        rw [isLE_iff_of_text (.inr hnc)] at hbc ⊢
        have hlt : b < c := lt_of_le_of_numeric_ne hbc (by simp [hnb, hnc])
        exact Std.not_lt.1 fun hca => hc ⟨hnc, ⟨m, n, hna, hnb, hab⟩, hlt, hca⟩
      | some p =>
        rw [isLE_iff_of_numeric hnb hnc] at hbc
        rw [isLE_iff_of_numeric hna hnc]
        exact Int.le_trans hab hbc

/-- **The order is transitive where no text crosses two numbers.** -/
theorem transitiveOn_of_not_crossed {cells : Set (Option String)} (h : ¬Crossed cells) :
    TransitiveOn cells := by
  intro a ha b hb c hc hab hbc
  cases a with
  | none => cases c <;> rfl
  | some a =>
    cases b with
    | none => simp [compareCells] at hab
    | some b =>
      cases c with
      | none => simp [compareCells] at hbc
      | some c =>
        exact isLE_trans_of_not_crosses hab hbc (fun hcross => h ⟨a, b, c, ha, hb, hc, hcross⟩)
          (fun hcross => h ⟨b, c, a, hb, hc, ha, hcross⟩)
          fun hcross => h ⟨c, a, b, hc, ha, hb, hcross⟩

/-- Cells that are compared one way: apart from nulls all of them are numeric, or none is. -/
def Uniform (cells : Set (Option String)) : Prop :=
  (∀ value, some value ∈ cells → (numeric? value).isSome) ∨
    ∀ value, some value ∈ cells → numeric? value = none

/-- A text crosses numbers only where there are texts and numbers. -/
theorem Uniform.not_crossed {cells : Set (Option String)} (h : Uniform cells) :
    ¬Crossed cells := by
  rintro ⟨text, low, high, htext, hlow, -, hcross⟩
  obtain ⟨m, -, hm, -, -⟩ := hcross.numeric
  rcases h with hnumeric | htexts
  · simpa [hcross.not_numeric] using hnumeric text htext
  · simp [htexts low hlow] at hm

/-- **The order of cells.** Exchanging two cells reverses their order, and the order is transitive
on exactly those cells among which no text crosses two numbers. -/
theorem reverses_and_transitiveOn_iff :
    (∀ a b, compareCells b a = (compareCells a b).swap) ∧
      ∀ cells, TransitiveOn cells ↔ ¬Crossed cells := by
  refine ⟨compareCells_swap, fun cells => ⟨?_, transitiveOn_of_not_crossed⟩⟩
  rintro transitive ⟨text, low, high, htext, hlow, hhigh, hcross⟩
  obtain ⟨hfirst, hsecond, hnot⟩ := hcross.cycle
  exact hnot (transitive _ hlow _ hhigh _ htext hfirst hsecond)

/-- `9` is not above `10`, which is not above `1a`, but `9` is above `1a`. -/
theorem not_transitiveOn_of_mixed :
    (compareCells (some "9") (some "10")).isLE ∧ (compareCells (some "10") (some "1a")).isLE ∧
      compareCells (some "9") (some "1a") = .gt ∧
      ¬∀ a b c, (compareCells a b).isLE → (compareCells b c).isLE → (compareCells a c).isLE := by
  have hfirst : (compareCells (some "9") (some "10")).isLE := by decide +kernel
  have hsecond : (compareCells (some "10") (some "1a")).isLE := by decide +kernel
  have hthird : compareCells (some "9") (some "1a") = .gt := by decide +kernel
  refine ⟨hfirst, hsecond, hthird, fun transitive => ?_⟩
  have hle := transitive _ _ _ hfirst hsecond
  rw [hthird] at hle
  exact Bool.noConfusion hle

end Tabular.Cell

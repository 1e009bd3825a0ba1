import Tabular.Cell

/-!
Equality of values.

Two values are the same when both are numeric and denote the same number, or when neither is and
they are the same text. `Cell.meaning` says this with one map, so that being the same value is
having the same meaning (`sameValue_iff`) and is an equivalence. Main statement: values that are the
same have the same canonical text (`canonical_eq_of_sameValue`).
-/

namespace Tabular.Cell

theorem compareInts_eq_iff {a b : Int} : compareInts a b = .eq ↔ a = b := by
  unfold compareInts
  split
  · next h => simp [Int.ne_of_lt h]
  · split <;> simp_all

theorem compareTexts_eq_iff {a b : String} : compareTexts a b = .eq ↔ a = b := by
  unfold compareTexts compareOfLessAndEq
  split
  · next h =>
    have : a ≠ b := fun e => String.lt_irrefl b (e ▸ h)
    simp [this]
  · split <;> simp_all

/-- What a value means: a number if it is numeric, else its text. -/
def meaning (value : String) : Int ⊕ String :=
  match numeric? value with
  | some n => .inl n
  | none => .inr value

/-- **Being the same value is having the same meaning.** -/
theorem sameValue_iff {a b : String} : sameValue a b = true ↔ meaning a = meaning b := by
  unfold sameValue compareValues meaning
  cases ha : numeric? a with
  | none =>
    cases hb : numeric? b with
    | none => simp [compareTexts_eq_iff]
    | some n =>
      have : a ≠ b := by rintro rfl; simp [ha] at hb
      simp [compareTexts_eq_iff, this]
  | some m =>
    cases hb : numeric? b with
    | none =>
      have : a ≠ b := by rintro rfl; simp [ha] at hb
      simp [compareTexts_eq_iff, this]
    | some n => simp [compareInts_eq_iff]

@[simp] theorem sameValue_refl (a : String) : sameValue a a = true :=
  sameValue_iff.2 rfl

theorem sameValue_comm (a b : String) : sameValue a b = sameValue b a := by
  rw [Bool.eq_iff_iff, sameValue_iff, sameValue_iff]
  exact eq_comm

theorem sameValue_trans {a b c : String} (hab : sameValue a b = true)
    (hbc : sameValue b c = true) : sameValue a c = true :=
  sameValue_iff.2 ((sameValue_iff.1 hab).trans (sameValue_iff.1 hbc))

/-- The canonical text of a value is decided by its meaning. -/
theorem canonical_eq_of_sameValue {a b : String} (h : sameValue a b = true) :
    canonical a = canonical b := by
  have hm := sameValue_iff.1 h
  unfold meaning at hm
  unfold canonical
  cases ha : numeric? a <;> cases hb : numeric? b <;> simp_all

end Tabular.Cell

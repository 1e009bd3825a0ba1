import Tabular.Proofs.Cell.Equality
import Tabular.Proofs.Number.Shortest

/-!
Canonical texts.

A canonical text is a value itself: it means what the value means that it was made for, a number the
same number and any other text itself (`meaning_canonical`). So a canonical text is never the same
for a number and for a text that is none, or for two numbers, and it tells equal values apart from
unequal ones. Main statement: equality of values is an equivalence, and values are equal exactly
when their canonical texts are (`equivalence_and_canonical_eq_iff`).
-/

namespace Tabular.Cell

open Decimal

/-- The number of a cell is a double. -/
theorem isDouble_of_numeric? {value : String} {n : Int} (h : numeric? value = some n) :
    IsDouble n.natAbs := by
  obtain ⟨d, -, hd⟩ := Option.bind_eq_some_iff.1 h
  exact isDouble_of_toUnits? hd

/-- **The canonical text of a number is that number**, and of another text no number. -/
theorem numeric?_canonical (value : String) : numeric? (canonical value) = numeric? value := by
  unfold canonical
  split
  · next n hn => rw [Shortest.numeric?_text (isDouble_of_numeric? hn), hn]
  · rfl

/-- **The canonical text of a value means what the value means.** -/
theorem meaning_canonical (value : String) : meaning (canonical value) = meaning value := by
  have hnumber := numeric?_canonical value
  unfold meaning
  rw [hnumber]
  cases hv : numeric? value with
  | some n => rfl
  | none =>
    unfold canonical
    rw [hv]

/-- **Equality of values is an equivalence, and equal canonical texts are those of equal
values.** -/
theorem equivalence_and_canonical_eq_iff :
    (Equivalence fun a b => sameValue a b = true) ∧
      ∀ a b, canonical a = canonical b ↔ sameValue a b = true := by
  refine ⟨⟨sameValue_refl, fun {a b} h => ?_, fun hab hbc => sameValue_trans hab hbc⟩,
    fun a b => ⟨fun h => ?_, canonical_eq_of_sameValue⟩⟩
  · rwa [sameValue_comm]
  · apply sameValue_iff.2
    calc meaning a = meaning (canonical a) := (meaning_canonical a).symm
      _ = meaning (canonical b) := by rw [h]
      _ = meaning b := meaning_canonical b

end Tabular.Cell

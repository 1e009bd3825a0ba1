import Tabular.Json.Readable
import Tabular.Proofs.Json.Decode
import Tabular.Proofs.Number.Rounding

/-!
Values that can be taken in as a whole.

A count below `2 ^ 64` is in the range of doubles (`inRange_ofNat`): its digits fit in 64 bits, and
rounding at most doubles a number (`roundUnits_le`). What an array or an object is made of decides
whether it is readable and how deep it is.
-/

namespace Tabular

/-! ### Numbers -/

namespace JsonNumber

/-- Digits behind a number make it no smaller. -/
theorem le_ofDigitChars (ds : List Char) (n : Nat) : n ≤ Nat.ofDigitChars 10 ds n := by
  induction ds generalizing n with
  | nil => exact Nat.le_refl n
  | cons d ds ih =>
    rw [Nat.ofDigitChars_cons]
    exact Nat.le_trans (by omega) (ih (10 * n + (d.toNat - '0'.toNat)))

-- In parentheses, since the equation would else be tried by evaluation as well, and the limit of
-- `extend?` is too large a number to be counted up to.
theorem leadingWhole_cons (n : Nat) (d : Char) (ds : List Char) :
    leadingWhole n (d :: ds) = match extend? n d with
      | some m => leadingWhole m ds
      | none => (n, ds.length + 1) := (rfl)

/-- Digits that fit in 64 bits are all taken in. -/
theorem leadingWhole_of_lt {ds : List Char} {n : Nat}
    (h : Nat.ofDigitChars 10 ds n < 18446744073709551616) :
    leadingWhole n ds = (Nat.ofDigitChars 10 ds n, 0) := by
  induction ds generalizing n with
  | nil => rfl
  | cons d ds ih =>
    rw [Nat.ofDigitChars_cons] at h
    have hle := le_ofDigitChars ds (10 * n + (d.toNat - '0'.toNat))
    have hextend : extend? n d = some (10 * n + (d.toNat - '0'.toNat)) :=
      if_pos (Nat.lt_of_le_of_lt hle h)
    rw [leadingWhole_cons, hextend, Nat.ofDigitChars_cons]
    exact ih h

theorem isFinite_of_lt {n : Nat} (h : n < 18446744073709551616) : isFinite n 0 = true := by
  have hn : rounded n ≤ 2 * n + 1 := Decimal.roundUnits_le n
  have hone : rounded (Nat.pow 10 (0 : Int).toNat) ≤ 3 := Decimal.roundUnits_le 1
  have hproduct : rounded n * rounded (Nat.pow 10 (0 : Int).toNat) ≤ (2 * n + 1) * 3 :=
    Nat.mul_le_mul hn hone
  have hrounded := Decimal.roundUnits_le (rounded n * rounded (Nat.pow 10 (0 : Int).toNat))
  have hlimit : 2 * ((2 * 18446744073709551616 + 1) * 3) + 1 < Nat.pow 2 1024 := by
    decide +kernel
  have hlt : rounded (rounded n * rounded (Nat.pow 10 (0 : Int).toNat)) < Nat.pow 2 1024 := by
    refine Nat.lt_of_le_of_lt hrounded (Nat.lt_of_le_of_lt ?_ hlimit)
    omega
  unfold isFinite
  rw [decide_eq_true hlt]
  simp

/-- **A count below `2 ^ 64` is in the range of doubles.** -/
theorem inRange_ofNat {n : Nat} (h : n < 18446744073709551616) :
    (JsonNumber.integer n).inRange = true := by
  have hdigits : Nat.ofDigitChars 10 (Nat.toDigits 10 n) 0 = n := Nat.ofDigitChars_ten_toDigits
  have hleading : leading (Nat.toDigits 10 n) [] 0 = (n, 0) := by
    unfold leading
    rw [leadingWhole_of_lt (hdigits.symm ▸ h), hdigits]
    rfl
  unfold inRange
  dsimp only
  rw [Int.natAbs_natCast, hleading]
  exact isFinite_of_lt h

end JsonNumber

/-! ### Arrays and objects -/

namespace Json

variable {α : Type} {n : Nat}

theorem isReadable_ofNat (h : n < 18446744073709551616) : (ofNat n).isReadable = true :=
  JsonNumber.inRange_ofNat h

theorem isReadable_ofOption (s : Option String) : (ofOption s).isReadable = true := by
  cases s <;> rfl

theorem itemsReadable_map {write : α → Json} {l : List α}
    (h : ∀ a ∈ l, (write a).isReadable = true) : itemsReadable (l.map write) = true := by
  induction l with
  | nil => rfl
  | cons a l ih =>
    obtain ⟨ha, hl⟩ := List.forall_mem_cons.1 h
    rw [List.map_cons, itemsReadable, ha, ih hl]
    rfl

theorem membersReadable_map {write : α → Json} {l : List (String × α)}
    (h : ∀ e ∈ l, (write e.2).isReadable = true) :
    membersReadable (l.map fun e => (e.1, write e.2)) = true := by
  induction l with
  | nil => rfl
  | cons e l ih =>
    obtain ⟨he, hl⟩ := List.forall_mem_cons.1 h
    rw [List.map_cons, membersReadable, he, ih hl]
    rfl

theorem isReadable_ofStrings (l : List String) : (ofStrings l).isReadable = true :=
  itemsReadable_map fun _ _ => rfl

theorem depth_ofOption (s : Option String) : (ofOption s).depth = 0 := by
  cases s <;> rfl

theorem depthItems_map_le {write : α → Json} {l : List α}
    (h : ∀ a ∈ l, (write a).depth ≤ n) : depthItems (l.map write) ≤ n := by
  induction l with
  | nil => exact Nat.zero_le n
  | cons a l ih =>
    obtain ⟨ha, hl⟩ := List.forall_mem_cons.1 h
    exact Nat.max_le.2 ⟨ha, ih hl⟩

theorem depthMembers_map_le {write : α → Json} {l : List (String × α)}
    (h : ∀ e ∈ l, (write e.2).depth ≤ n) :
    depthMembers (l.map fun e => (e.1, write e.2)) ≤ n := by
  induction l with
  | nil => exact Nat.zero_le n
  | cons e l ih =>
    obtain ⟨he, hl⟩ := List.forall_mem_cons.1 h
    exact Nat.max_le.2 ⟨he, ih hl⟩

theorem depth_ofStrings_le (l : List String) : (ofStrings l).depth ≤ 1 :=
  Nat.succ_le_succ (depthItems_map_le fun _ _ => Nat.le_refl 0)

end Json

end Tabular

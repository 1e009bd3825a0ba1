import Tabular.Proofs.Cell.Order
import Tabular.Proofs.Number.Nearest
import Tabular.Proofs.Number.Shortest
import Tabular.Table

/-!
Integers in cells.

A cell that writes an integer is read as the nearest double, so integers are compared through their
doubles. Up to `2 ^ 53` every integer is a double, and the order of two cells is that of the
integers as long as one of them is below that; beyond, neighbouring integers share a double and are
then the same value. The order is never turned round.

* `sameValue_iff_sameDouble`: integers are the same value exactly when one double is nearest to
  both.
* `checkKey_of_integers`: a key is then refused as a repetition, and only then.
* `compareValues_of_integers`: all of it; otherwise integers in cells are in their own order.
* `duplicateKey_of_sameDouble`: two different integers that are refused as keys of one table.
-/

namespace Tabular.Cell

open Decimal Text

/-! ### Texts of integers -/

/-- Decimal digits: at least one of them and at most 300. -/
structure IsNumeral (digits : List Char) : Prop where
  ne_nil : digits ≠ []
  length_le : digits.length ≤ 300
  digit : ∀ c ∈ digits, c.isDigit = true

/-- A text writes an integer: as a numeral, or as one behind a minus. -/
inductive Denotes : String → Int → Prop where
  | plain {digits : List Char} (numeral : IsNumeral digits) :
      Denotes (String.ofList digits) (Nat.ofDigitChars 10 digits 0)
  | minus {digits : List Char} (numeral : IsNumeral digits) :
      Denotes (String.ofList ('-' :: digits)) (-Nat.ofDigitChars 10 digits 0)

theorem ofDigitChars_lt {digits : List Char} (h : ∀ c ∈ digits, c.isDigit = true) (n : Nat) :
    Nat.ofDigitChars 10 digits n < (n + 1) * 10 ^ digits.length := by
  induction digits generalizing n with
  | nil => simp [Nat.ofDigitChars]
  | cons c digits ih =>
    obtain ⟨hc, hrest⟩ := List.forall_mem_cons.1 h
    have hdigit : c.toNat - '0'.toNat ≤ 9 := by
      have hle : c.toNat ≤ 57 := (Char.isDigit_iff_toNat.1 hc).2
      have hzero : '0'.toNat = 48 := rfl
      omega
    rw [Nat.ofDigitChars_cons, List.length_cons, Nat.pow_succ']
    calc Nat.ofDigitChars 10 digits (10 * n + (c.toNat - '0'.toNat))
        < (10 * n + (c.toNat - '0'.toNat) + 1) * 10 ^ digits.length := ih hrest _
      _ ≤ (n + 1) * 10 * 10 ^ digits.length := Nat.mul_le_mul_right _ (by omega)
      _ = (n + 1) * (10 * 10 ^ digits.length) := Nat.mul_assoc ..

theorem IsNumeral.lt {digits : List Char} (h : IsNumeral digits) :
    Nat.ofDigitChars 10 digits 0 < 10 ^ 300 := by
  have hlength := h.length_le
  generalize 300 = size at *
  calc Nat.ofDigitChars 10 digits 0
      < 1 * 10 ^ digits.length := ofDigitChars_lt h.digit 0
    _ = 10 ^ digits.length := Nat.one_mul _
    _ ≤ 10 ^ size := Nat.pow_le_pow_right (by decide) hlength

/-- A numeral is read, with or without a minus, as a decimal number without a fraction. -/
theorem IsNumeral.ofChars? {digits : List Char} (h : IsNumeral digits) (negative : Bool) :
    Decimal.ofChars? (signText negative ++ digits) =
      some { negative, coefficient := Nat.ofDigitChars 10 digits 0, exponent := 0 } := by
  have hdigits : ∀ c ∈ digits, isDigit c = true := fun c hc => isDigit_of_isDigit (h.digit c hc)
  have hfraction : ∀ c ∈ ([] : List Char), isDigit c = true := by simp
  have hread := ofChars?_written negative h.ne_nil hdigits hfraction
  simpa [fractionText] using hread

/-- **A text of an integer holds the double nearest to the integer.** -/
theorem exists_numeric?_of_denotes {text : String} {i : Int} (h : Denotes text i) :
    ∃ m, numeric? text = some m ∧ IsNearest (i * one) m := by
  have hread {digits : List Char} (numeral : IsNumeral digits) (negative : Bool) :
      ∃ m, numeric? (String.ofList (signText negative ++ digits)) = some m ∧
        IsNearest ((if negative then -(Nat.ofDigitChars 10 digits 0 : Int)
          else Nat.ofDigitChars 10 digits 0) * one) m := by
    obtain ⟨m, hm, hnearest⟩ := isNearest_toUnits? numeral.lt negative
    refine ⟨m, ?_, hnearest⟩
    unfold numeric?
    rw [String.toList_ofList, numeral.ofChars? negative]
    exact hm
  cases h with
  | plain numeral => exact hread numeral false
  | minus numeral => exact hread numeral true

/-! ### Comparison -/

section

variable {a b : String} {i j : Int}

/-- **Integers are the same value exactly when one double is nearest to both.** -/
theorem sameValue_iff_sameDouble (ha : Denotes a i) (hb : Denotes b j) :
    sameValue a b = true ↔ SameDouble i j := by
  obtain ⟨m, hma, hm⟩ := exists_numeric?_of_denotes ha
  obtain ⟨n, hnb, hn⟩ := exists_numeric?_of_denotes hb
  have hsame : m = n ↔ SameDouble i j := by
    refine ⟨fun h => ⟨m, hm, h ▸ hn⟩, fun ⟨d, hi, hj⟩ => ?_⟩
    rw [hm.unique hi, hn.unique hj]
  rw [← hsame, sameValue, decide_eq_true_iff, compareValues_of_numeric hma hnb]
  exact Std.compare_eq_iff_eq

/-- **Integers with different doubles are in their own order.** -/
theorem compareValues_of_not_sameDouble (ha : Denotes a i) (hb : Denotes b j)
    (h : ¬SameDouble i j) : compareValues a b = compare i j := by
  obtain ⟨m, hma, hm⟩ := exists_numeric?_of_denotes ha
  obtain ⟨n, hnb, hn⟩ := exists_numeric?_of_denotes hb
  have hne : m ≠ n := fun heq => h ⟨m, hm, heq ▸ hn⟩
  rw [compareValues_of_numeric hma hnb]
  rcases Int.lt_trichotomy i j with hlt | rfl | hgt
  · have hle := hm.mono hn (Int.mul_le_mul_of_nonneg_right (Int.le_of_lt hlt) (by omega))
    rw [Std.compare_eq_lt.2 hlt, Std.compare_eq_lt.2 (by omega)]
  · exact absurd (hm.unique hn) hne
  · have hle := hn.mono hm (Int.mul_le_mul_of_nonneg_right (Int.le_of_lt hgt) (by omega))
    rw [Std.compare_eq_gt.2 hgt, Std.compare_eq_gt.2 (by omega)]

/-- Below `2 ^ 53` the order is that of the integers in any case. -/
theorem compareValues_of_lt (ha : Denotes a i) (hb : Denotes b j)
    (small : i.natAbs < 2 ^ 53 ∨ j.natAbs < 2 ^ 53) : compareValues a b = compare i j := by
  by_cases h : SameDouble i j
  · obtain rfl : i = j := small.elim h.eq_of_lt fun hj => (h.symm.eq_of_lt hj).symm
    rw [of_decide_eq_true ((sameValue_iff_sameDouble ha hb).2 h), Std.compare_self]
  · exact compareValues_of_not_sameDouble ha hb h

end

/-! ### Integers as keys -/

/-- Some row of a table has an integer in a column. -/
def HoldsInteger (t : Table) (column : String) (k : Int) : Prop :=
  ∃ row ∈ t.rows, ∃ value, row.value? column = some value ∧ Denotes value k

/-- Every row of a table has an integer in a column. -/
def HoldsIntegers (t : Table) (column : String) : Prop :=
  ∀ row ∈ t.rows, ∃ value k, row.value? column = some value ∧ Denotes value k

/-- A key is refused as a repetition when a row has the same value. -/
theorem checkKey_eq_duplicateKey_iff {t : Table} {key value : String} {row : Row}
    (hk : t.primaryKey = some key) (hv : row.value? key = some value) :
    t.checkKey row = .error (.duplicateKey key value) ↔
      ∃ stored ∈ t.rows, ∃ v, Row.value? stored key = some v ∧ sameValue v value = true := by
  have hany : (t.rows.any fun r => (Row.value? r key).any fun v => sameValue v value) = true ↔
      ∃ stored ∈ t.rows, ∃ v, Row.value? stored key = some v ∧ sameValue v value = true := by
    simp only [List.any_eq_true, Option.any_eq_true]
  rw [← hany]
  unfold Table.checkKey
  simp only [hk, hv]
  split <;> simp_all

theorem checkKey_of_integers {t : Table} {key value : String} {row : Row} {j : Int}
    (hb : Denotes value j) (hk : t.primaryKey = some key) (hv : row.value? key = some value)
    (integers : HoldsIntegers t key) :
    t.checkKey row = .error (.duplicateKey key value) ↔
      ∃ k, HoldsInteger t key k ∧ SameDouble k j := by
  rw [checkKey_eq_duplicateKey_iff hk hv]
  constructor
  · rintro ⟨stored, hstored, v, hv, hsame⟩
    obtain ⟨w, k, hw, hdenotes⟩ := integers stored hstored
    obtain rfl := Option.some.inj (hv.symm.trans hw)
    exact ⟨k, ⟨stored, hstored, v, hv, hdenotes⟩, (sameValue_iff_sameDouble hdenotes hb).1 hsame⟩
  · rintro ⟨k, ⟨stored, hstored, v, hv, hdenotes⟩, hsame⟩
    exact ⟨stored, hstored, v, hv, (sameValue_iff_sameDouble hdenotes hb).2 hsame⟩

/-- How two texts of integers are compared: through the doubles of the integers. -/
structure ComparedAsDoubles (a b : String) (i j : Int) : Prop where
  same_iff : sameValue a b = true ↔ SameDouble i j
  ordered : ¬SameDouble i j → compareValues a b = compare i j
  /-- There are doubles enough as long as one of the integers is below `2 ^ 53` in magnitude. -/
  ordered_of_lt : i.natAbs < 2 ^ 53 ∨ j.natAbs < 2 ^ 53 → compareValues a b = compare i j
  /-- Among rows with integers for keys, a key is refused as a repetition exactly when it shares its
  double with one of them. -/
  refused_iff : ∀ (t : Table) (key : String) (row : Row), t.primaryKey = some key →
    HoldsIntegers t key → row.value? key = some b →
    (t.checkKey row = .error (.duplicateKey key b) ↔
      ∃ k, HoldsInteger t key k ∧ SameDouble k j)

/-- **Integers are compared through their doubles**, of up to 300 digits and of either sign. -/
theorem compareValues_of_integers {a b : String} {i j : Int} (ha : Denotes a i)
    (hb : Denotes b j) : ComparedAsDoubles a b i j where
  same_iff := sameValue_iff_sameDouble ha hb
  ordered := compareValues_of_not_sameDouble ha hb
  ordered_of_lt := compareValues_of_lt ha hb
  refused_iff := fun _ _ _ hk integers hv => checkKey_of_integers hb hk hv integers

/-- A text of digits writes the number that they denote. -/
theorem Denotes.of_toList (text : String) (h : IsNumeral text.toList) :
    Denotes text (Nat.ofDigitChars 10 text.toList 0) := by
  have hplain := Denotes.plain h
  rwa [String.ofList_toList] at hplain

/-- Two integers that are no doubles themselves, with a double between them: they are read as the
doubles on either side of them. -/
theorem compareValues_of_integers_around_double :
    Denotes "9007199254740993" 9007199254740993 ∧ Denotes "9007199254740995" 9007199254740995 ∧
      compareValues "9007199254740993" "9007199254740995" = .lt ∧
      ComparedAsDoubles "9007199254740993" "9007199254740995" 9007199254740993
        9007199254740995 := by
  have ha : Denotes "9007199254740993" 9007199254740993 :=
    .of_toList _ ⟨by decide, by decide, by decide⟩
  have hb : Denotes "9007199254740995" 9007199254740995 :=
    .of_toList _ ⟨by decide, by decide, by decide⟩
  exact ⟨ha, hb, by decide +kernel, compareValues_of_integers ha hb⟩

/-- **Two integers that share a double are one key**: with the one in a table, an insertion of the
other is refused, although the integers are different. -/
theorem duplicateKey_of_sameDouble :
    let stored : Table :=
      { primaryKey := some "id"
        columns := []
        rows := [Keyed.ofList [("id", some "9007199254740992")]] }
    Denotes "9007199254740993" 9007199254740993 ∧ Denotes "9007199254740992" 9007199254740992 ∧
      compareValues "9007199254740993" "9007199254740992" = .eq ∧
      stored.insert { table := "t", columns := none, values := ["9007199254740993"] } =
        .error (.duplicateKey "id" "9007199254740993") ∧
      ¬∀ a b i j, Denotes a i → Denotes b j → compareValues a b = compare i j := by
  intro stored
  have ha : Denotes "9007199254740993" 9007199254740993 :=
    .of_toList _ ⟨by decide, by decide, by decide⟩
  have hb : Denotes "9007199254740992" 9007199254740992 :=
    .of_toList _ ⟨by decide, by decide, by decide⟩
  have hsame : compareValues "9007199254740993" "9007199254740992" = .eq := by decide +kernel
  refine ⟨ha, hb, hsame, by decide +kernel, fun ordered => ?_⟩
  have h := ordered _ _ _ _ ha hb
  rw [hsame] at h
  exact absurd h (by decide)

end Tabular.Cell

import Tabular.Number.Shortest
import Tabular.Proofs.Number.Rounding
import Tabular.Proofs.Text.Writing

/-!
Reading back the shortest text of a double.

The digits of the shortest text round to the double they were found for, and so does what a reader
makes of the text: the text has zeros in front of its digits or behind them, or lacks some behind
its fraction, and none of this changes the value. Main statement: the double that the shortest text
of a double writes is that double (`numeric?_text`).
-/

namespace Tabular

open Reader Text

namespace Decimal

/-! ### Digits -/

theorem ofDigitChars_zeros_append (k : Nat) (s : List Char) :
    Nat.ofDigitChars 10 (List.replicate k '0' ++ s) 0 = Nat.ofDigitChars 10 s 0 := by
  rw [Nat.ofDigitChars_append, Nat.ofDigitChars_replicate_zero, Nat.mul_zero]

theorem ofDigitChars_append_zeros (s : List Char) (k : Nat) :
    Nat.ofDigitChars 10 (s ++ List.replicate k '0') 0 = Nat.ofDigitChars 10 s 0 * 10 ^ k := by
  rw [Nat.ofDigitChars_append, Nat.ofDigitChars_replicate_zero, Nat.mul_comm]

/-! ### Reading a number -/

/-- The sign in front of a number that is negative or not. -/
def signText (negative : Bool) : List Char :=
  if negative then ['-'] else []

/-- What stands behind the whole part of a number: its fraction, if it has one. -/
def fractionText (frac : List Char) : List Char :=
  if frac = [] then [] else '.' :: frac

theorem isDigit_ne {c d : Char} (hc : isDigit c = true) (hd : isDigit d = false) : c ≠ d := by
  rintro rfl
  rw [hc] at hd
  exact Bool.noConfusion hd

theorem sign_signText (negative : Bool) {s : List Char}
    (h : ∀ c ∈ s.head?, isDigit c = true) :
    sign (signText negative ++ s) = .found negative s := by
  cases negative with
  | true => exact orElse_of_found rfl
  | false =>
    have hstuck (d : Char) (hd : isDigit d = false) : char d s = .stuck s := by
      cases s with
      | nil => rfl
      | cons c s => exact char_of_ne (isDigit_ne (h c rfl) hd) s
    have hminus : (do let _ ← char '-'; return true : Reader Bool) s = .stuck s :=
      bind_of_stuck (hstuck '-' rfl)
    have hplus : (do let _ ← char '+'; return false : Reader Bool) s = .stuck s :=
      bind_of_stuck (hstuck '+' rfl)
    exact (orElse_of_stuck hminus).trans (orElse_of_stuck hplus)

theorem fractionDigits_fractionText {frac : List Char} (h : ∀ c ∈ frac, isDigit c = true) :
    fractionDigits (fractionText frac) = .found frac [] := by
  unfold fractionText
  split
  · next hnil =>
    rw [hnil]
    rfl
  · have happend : takeWhile isDigit (frac ++ []) = .found frac [] := takeWhile_append h (by simp)
    have hdigits : takeWhile isDigit frac = .found frac [] := by
      rwa [List.append_nil] at happend
    exact orElse_of_found hdigits

/-- **A number is read from its sign, its whole part and its fraction.** -/
theorem ofChars?_written (negative : Bool) {whole frac : List Char} (hne : whole ≠ [])
    (hwhole : ∀ c ∈ whole, isDigit c = true) (hfrac : ∀ c ∈ frac, isDigit c = true) :
    ofChars? (signText negative ++ (whole ++ fractionText frac)) =
      some {
        negative
        coefficient := Nat.ofDigitChars 10 (whole ++ frac) 0
        exponent := -frac.length } := by
  have hhead : ∀ c ∈ (whole ++ fractionText frac).head?, isDigit c = true := by
    cases whole with
    | nil => exact absurd rfl hne
    | cons d ds =>
      intro c hc
      exact Option.some.inj hc ▸ hwhole d List.mem_cons_self
  have hpoint : ∀ c ∈ (fractionText frac).head?, isDigit c = false := by
    unfold fractionText
    split
    · simp
    · rintro c ⟨⟩
      rfl
  have hboth : whole ++ frac ≠ [] := List.append_ne_nil_of_left_ne_nil hne frac
  have hread : number (signText negative ++ (whole ++ fractionText frac)) =
      .found {
        negative
        coefficient := Nat.ofDigitChars 10 (whole ++ frac) 0
        exponent := 0 - frac.length }
        [] := by
    unfold number
    rw [bind_of_found (sign_signText negative hhead),
      bind_of_found (takeWhile_append hwhole hpoint),
      bind_of_found (fractionDigits_fractionText hfrac), if_neg hboth]
    rfl
  unfold ofChars? run?
  rw [hread, Int.zero_sub]

end Decimal

namespace Shortest

open Decimal

/-! ### Digits that read back -/

theorem readsBack_of_pick? {units c : Nat} {exponent : Int}
    (h : pick? units exponent = some c) : magnitude? c exponent = some units := by
  unfold pick? at h
  dsimp only at h
  split at h
  · next hlower =>
    obtain rfl := Option.some.inj h
    exact of_decide_eq_true (Bool.and_eq_true_iff.1 hlower).1
  · split at h
    · next hupper =>
      obtain rfl := Option.some.inj h
      exact of_decide_eq_true hupper
    · simp at h

/-- On whatever grids the digits are looked for, those that are found round to the double. -/
theorem magnitude?_search {units : Nat} (double : IsDouble units) (hne : units ≠ 0)
    (leading : Int) (n fuel : Nat) :
    magnitude? (search units leading n fuel).1 (search units leading n fuel).2 = some units := by
  induction fuel generalizing n with
  | zero =>
    unfold search
    exact magnitude?_exact double hne
  | succ fuel ih =>
    unfold search
    split
    · next c hpick => exact readsBack_of_pick? hpick
    · exact ih (n + 1)

/-! ### Positions -/

theorem exists_zeros_of_dropTrailingZeros (s : List Char) :
    ∃ k, s = dropTrailingZeros s ++ List.replicate k '0' := by
  refine ⟨(s.reverse.takeWhile (· == '0')).length, ?_⟩
  have hzeros : s.reverse.takeWhile (· == '0') =
      List.replicate (s.reverse.takeWhile (· == '0')).length '0' := by
    refine List.eq_replicate_iff.2 ⟨rfl, fun c hc => ?_⟩
    exact eq_of_beq (List.all_eq_true.1 List.all_takeWhile c hc)
  have hsplit := congrArg List.reverse
    (List.takeWhile_append_dropWhile (p := (· == '0')) (l := s.reverse))
  rw [List.reverse_append, List.reverse_reverse, hzeros, List.reverse_replicate] at hsplit
  simpa [dropTrailingZeros] using hsplit.symm

/-- **A decimal number is written as a whole part and a fraction that denote it**: what they denote
is rounded to the same double. -/
theorem exists_positional (coefficient : Nat) (exponent : Int) :
    ∃ whole frac : List Char, positional coefficient exponent = whole ++ fractionText frac ∧
      whole ≠ [] ∧ (∀ c ∈ whole, isDigit c = true) ∧ (∀ c ∈ frac, isDigit c = true) ∧
      magnitude? (Nat.ofDigitChars 10 (whole ++ frac) 0) (-frac.length) =
        magnitude? coefficient exponent := by
  have hdigits : ∀ c ∈ Nat.toDigits 10 coefficient, isDigit c = true :=
    fun c hc => isDigit_of_mem_toDigits hc
  have hzero (k : Nat) : ∀ c ∈ List.replicate k '0', isDigit c = true := by
    intro c hc
    rw [(List.mem_replicate.1 hc).2]
    rfl
  unfold positional
  dsimp only
  split
  · next hexponent =>
    refine ⟨Nat.toDigits 10 coefficient ++ List.replicate exponent.toNat '0', [], ?_, ?_, ?_,
      by simp, ?_⟩
    · simp [fractionText]
    · exact List.append_ne_nil_of_left_ne_nil Nat.toDigits_ne_nil _
    · intro c hc
      exact (List.mem_append.1 hc).elim (hdigits c) (hzero _ c)
    · have hshift := magnitude?_shift coefficient exponent.toNat exponent
      rw [Int.toNat_of_nonneg hexponent, Int.sub_self] at hshift
      rw [List.append_nil, ofDigitChars_append_zeros, Nat.ofDigitChars_ten_toDigits]
      exact hshift
  · next hexponent =>
    generalize hplaces : (-exponent).toNat = places
    generalize hpadded : List.replicate (places + 1 - (Nat.toDigits 10 coefficient).length) '0' ++
      Nat.toDigits 10 coefficient = padded
    have hlength : places + 1 ≤ padded.length := by
      rw [← hpadded, List.length_append, List.length_replicate]
      omega
    have hdenotes : Nat.ofDigitChars 10 padded 0 = coefficient := by
      rw [← hpadded, ofDigitChars_zeros_append, Nat.ofDigitChars_ten_toDigits]
    have hall : ∀ c ∈ padded, isDigit c = true := by
      intro c hc
      rw [← hpadded] at hc
      exact (List.mem_append.1 hc).elim (hzero _ c) (hdigits c)
    obtain ⟨k, hk⟩ := exists_zeros_of_dropTrailingZeros (padded.drop (padded.length - places))
    generalize hfrac : dropTrailingZeros (padded.drop (padded.length - places)) = frac at hk
    have hcut : padded.take (padded.length - places) ++ frac ++ List.replicate k '0' = padded := by
      rw [List.append_assoc, ← hk, List.take_append_drop]
    have hplace : frac.length + k = places := by
      have hdrop := congrArg List.length hk
      rw [List.length_drop, List.length_append, List.length_replicate] at hdrop
      omega
    refine ⟨padded.take (padded.length - places), frac, ?_, ?_, ?_, ?_, ?_⟩
    · unfold fractionText
      split <;> simp_all
    · rw [Ne, List.take_eq_nil_iff]
      rintro (hzero | hnil)
      · omega
      · rw [hnil] at hlength
        exact Nat.not_succ_le_zero _ hlength
    · exact fun c hc => hall c (List.mem_of_mem_take hc)
    · refine fun c hc => hall c (List.mem_of_mem_drop (i := padded.length - places) ?_)
      rw [hk]
      exact List.mem_append_left _ hc
    · rw [← hcut, ofDigitChars_append_zeros] at hdenotes
      rw [← hdenotes, ← magnitude?_shift _ k]
      congr 1
      omega

/-! ### The text -/

/-- **The shortest text of a double reads back as that double.** -/
theorem numeric?_text {n : Int} (double : IsDouble n.natAbs) : numeric? (text n) = some n := by
  by_cases hzero : n = 0
  · rw [hzero]
    decide
  · have hne : n.natAbs ≠ 0 := Int.natAbs_ne_zero.2 hzero
    have hdigits := magnitude?_search double hne (leadingExponent n.natAbs) 1 maxDigits
    obtain ⟨whole, frac, hbody, hwhole, hwholeDigits, hfracDigits, hvalue⟩ :=
      exists_positional (digits n.natAbs).1 (digits n.natAbs).2
    have htext : (text n).toList =
        signText (decide (n < 0)) ++ (whole ++ fractionText frac) := by
      unfold text
      rw [if_neg hzero]
      dsimp only
      rw [String.toList_ofList, hbody]
      unfold signText
      split <;> simp_all
    have hmagnitude : magnitude? (Nat.ofDigitChars 10 (whole ++ frac) 0) (-frac.length) =
        some n.natAbs :=
      hvalue.trans hdigits
    have hsigned : (if decide (n < 0) then -(n.natAbs : Int) else n.natAbs) = n := by
      split
      · next hneg =>
        exact (Int.eq_neg_natAbs_of_nonpos (Int.le_of_lt (of_decide_eq_true hneg))).symm
      · next hneg => exact Int.natAbs_of_nonneg (by simpa using hneg)
    unfold numeric?
    rw [htext, ofChars?_written _ hwhole hwholeDigits hfracDigits, Option.bind_some, toUnits?,
      hmagnitude]
    exact congrArg some hsigned

end Shortest

end Tabular

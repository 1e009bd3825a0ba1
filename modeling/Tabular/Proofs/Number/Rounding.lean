import Mathlib.Tactic.Ring
import Tabular.Number.Double

/-!
Rounding to doubles.

What a decimal number is rounded to depends on its value alone and not on how it is written: a
quotient is rounded the same whatever it is extended by (`roundUnits_congr`), and a decimal number
the same with zeros at the end of its coefficient (`magnitude?_shift`). Rounding gives doubles, and
leaves doubles as they are (`isDouble_of_magnitude?`, `roundUnits_of_hasPrecision`). So the
exact value of a double, written with all its places, is rounded to that double
(`magnitude?_exact`).
-/

namespace Tabular.Decimal

/-! ### Quotients -/

/-- The nearest integer of an extended quotient is that of the quotient. -/
theorem divNearest_mul_right {k : Nat} (hk : 0 < k) (num den : Nat) :
    divNearest (num * k) (den * k) = divNearest num den := by
  have hrest : 2 * (num % den * k) = 2 * (num % den) * k := by ring
  unfold divNearest
  rw [Nat.mul_div_mul_right _ _ hk, Nat.mul_mod_mul_right]
  dsimp only
  simp only [hrest, Nat.mul_lt_mul_right hk, Nat.mul_left_inj (Nat.ne_of_gt hk)]

theorem divNearest_of_dvd {num den : Nat} (hden : 0 < den) (h : den ∣ num) :
    divNearest num den = num / den := by
  unfold divNearest
  rw [Nat.mod_eq_zero_of_dvd h]
  dsimp only
  rw [if_neg (by omega)]

theorem divNearest_le (num den : Nat) : divNearest num den ≤ num / den + 1 := by
  unfold divNearest
  dsimp only
  split <;> omega

theorem roundUnits_mul_right {k : Nat} (hk : 0 < k) (num den : Nat) :
    roundUnits (num * k) (den * k) = roundUnits num den := by
  unfold roundUnits
  rw [Nat.mul_div_mul_right _ _ hk]
  dsimp only
  rw [Nat.mul_right_comm den k, divNearest_mul_right hk]

/-- **Equal quotients are rounded alike.** -/
theorem roundUnits_congr {num den num' den' : Nat} (hden : 0 < den) (hden' : 0 < den')
    (h : num * den' = num' * den) : roundUnits num den = roundUnits num' den' := by
  calc roundUnits num den
      = roundUnits (num * den') (den * den') := (roundUnits_mul_right hden' num den).symm
    _ = roundUnits (num' * den) (den' * den) := by rw [h, Nat.mul_comm den den']
    _ = roundUnits num' den' := roundUnits_mul_right hden num' den'

/-! ### Doubles -/

/-- A number of units whose significant binary digits are at most `precision`; a carry may have made
its significand a power of two. -/
def HasPrecision (n : Nat) : Prop :=
  ∃ significand exponent, significand ≤ 2 ^ precision ∧ n = significand * 2 ^ exponent

/-- The magnitude of a finite double, in units. -/
structure IsDouble (n : Nat) : Prop where
  digits : HasPrecision n
  finite : n < limit

/-- Rounding leaves no more digits than a significand has. -/
theorem hasPrecision_roundUnits (num den : Nat) : HasPrecision (roundUnits num den) := by
  refine ⟨_, _, ?_, rfl⟩
  generalize hexcess : (num / den).log2 + 1 - precision = excess
  have hquot : num / den < 2 ^ (precision + excess) := by
    calc num / den < 2 ^ ((num / den).log2 + 1) := Nat.lt_log2_self
      _ ≤ 2 ^ (precision + excess) := Nat.pow_le_pow_right (by decide) (by omega)
  have hsignificand : num / (den * Nat.pow 2 excess) < 2 ^ precision := by
    rw [← Nat.div_div_eq_div_mul, Nat.pow_eq, Nat.div_lt_iff_lt_mul (Nat.two_pow_pos _),
      ← Nat.pow_add]
    exact hquot
  exact Nat.le_trans (divNearest_le _ _) hsignificand

/-- **Rounding leaves a number as it is that has no more digits than a significand.** -/
theorem roundUnits_of_hasPrecision {n : Nat} (h : HasPrecision n) : roundUnits n 1 = n := by
  obtain ⟨m, q, hm, rfl⟩ := h
  have hdvd : 2 ^ ((m * 2 ^ q).log2 + 1 - precision) ∣ m * 2 ^ q := by
    rcases Nat.eq_or_lt_of_le hm with rfl | hlt
    · -- the significand is a power of two and gives one more exponent
      rw [← Nat.pow_add, Nat.log2_two_pow]
      exact Nat.pow_dvd_pow 2 (by unfold precision; omega)
    · refine Nat.dvd_trans (Nat.pow_dvd_pow 2 ?_) (Nat.dvd_mul_left (2 ^ q) m)
      by_cases hzero : m * 2 ^ q = 0
      · rw [hzero]
        exact Nat.le_trans (by decide) (Nat.zero_le q)
      · have hlog : (m * 2 ^ q).log2 < precision + q := by
          rw [Nat.log2_lt hzero, Nat.pow_add]
          exact Nat.mul_lt_mul_of_pos_right hlt (Nat.two_pow_pos q)
        omega
  unfold roundUnits
  dsimp only
  rw [Nat.div_one, Nat.one_mul, Nat.pow_eq, divNearest_of_dvd (Nat.two_pow_pos _) hdvd,
    Nat.div_mul_cancel hdvd]

/-- Rounding a whole number at most doubles it. -/
theorem roundUnits_le (n : Nat) : roundUnits n 1 ≤ 2 * n + 1 := by
  unfold roundUnits
  dsimp only
  generalize hexcess : (n / 1).log2 + 1 - precision = excess
  have hpow : Nat.pow 2 excess ≤ n + 1 := by
    rw [Nat.div_one, precision] at hexcess
    by_cases hzero : excess = 0
    · rw [hzero]
      exact Nat.le_add_left 1 n
    · have hn : n ≠ 0 := by
        rintro rfl
        simp at hexcess
        omega
      calc Nat.pow 2 excess ≤ 2 ^ n.log2 := Nat.pow_le_pow_right (by decide) (by omega)
        _ ≤ n := Nat.log2_self_le hn
        _ ≤ n + 1 := Nat.le_succ n
  calc divNearest n (1 * Nat.pow 2 excess) * Nat.pow 2 excess
      ≤ (n / (1 * Nat.pow 2 excess) + 1) * Nat.pow 2 excess :=
        Nat.mul_le_mul_right _ (divNearest_le ..)
    _ = n / Nat.pow 2 excess * Nat.pow 2 excess + Nat.pow 2 excess := by
        rw [Nat.one_mul, Nat.succ_mul]
    _ ≤ n + Nat.pow 2 excess := Nat.add_le_add_right (Nat.div_mul_le_self ..) _
    _ ≤ 2 * n + 1 := by omega

theorem one_eq : one = 2 ^ 1074 := by
  unfold one
  generalize 1074 = places
  exact Nat.pow_eq

theorem limit_pos : 0 < limit := by
  unfold limit
  generalize 2098 = size
  exact Nat.two_pow_pos size

theorem IsDouble.lt_two_pow {n k : Nat} (h : IsDouble n) (hk : 2098 ≤ k) : n < 2 ^ k := by
  have hlt := h.finite
  unfold limit at hlt
  generalize 2098 = size at hlt hk
  exact Nat.lt_of_lt_of_le hlt (Nat.pow_le_pow_right (by decide) hk)

/-- **A magnitude is a double.** -/
theorem isDouble_of_magnitude? {coefficient n : Nat} {exponent : Int}
    (h : magnitude? coefficient exponent = some n) : IsDouble n := by
  have hzero : IsDouble 0 := ⟨⟨0, 0, Nat.zero_le _, rfl⟩, limit_pos⟩
  unfold magnitude? at h
  dsimp only at h
  split at h
  · exact Option.some.inj h ▸ hzero
  · split at h
    · simp at h
    · split at h
      · exact Option.some.inj h ▸ hzero
      · split at h
        · next hlt => exact Option.some.inj h ▸ ⟨hasPrecision_roundUnits _ _, hlt⟩
        · simp at h

theorem isDouble_of_toUnits? {d : Decimal} {n : Int} (h : d.toUnits? = some n) :
    IsDouble n.natAbs := by
  unfold toUnits? at h
  cases hm : magnitude? d.coefficient d.exponent with
  | none =>
    rw [hm] at h
    exact nomatch h
  | some m =>
    rw [hm] at h
    have hsigned : (if d.negative then -(m : Int) else m) = n := Option.some.inj h
    have habs : n.natAbs = m := by split at hsigned <;> omega
    exact habs ▸ isDouble_of_magnitude? hm

/-! ### Decimal numbers -/

theorem digitCount_le_iff {n k : Nat} (hk : 0 < k) : digitCount n ≤ k ↔ n < 10 ^ k :=
  Nat.length_toDigits_le_iff (by decide) hk

theorem digitCount_pos (n : Nat) : 0 < digitCount n :=
  List.length_pos_iff.2 Nat.toDigits_ne_nil

/-- Zeros at the end of a coefficient are digits of it. -/
theorem digitCount_mul_pow {n : Nat} (hn : n ≠ 0) (k : Nat) :
    digitCount (n * 10 ^ k) = digitCount n + k := by
  have hpos := digitCount_pos n
  apply Nat.le_antisymm
  · rw [digitCount_le_iff (by omega), Nat.pow_add]
    exact Nat.mul_lt_mul_of_pos_right ((digitCount_le_iff hpos).1 (Nat.le_refl _))
      (Nat.pow_pos (by decide))
  · -- were there fewer digits, then `n` would have fewer, too
    obtain ⟨d, hd⟩ : ∃ d, digitCount n = d + 1 := ⟨digitCount n - 1, by omega⟩
    have hge : 10 ^ d ≤ n := by
      rcases Nat.eq_zero_or_pos d with rfl | hdpos
      · exact Nat.pos_of_ne_zero hn
      · refine Nat.le_of_not_lt fun hlt => ?_
        have := (digitCount_le_iff hdpos).2 hlt
        omega
    refine Nat.le_of_not_lt fun hlt => ?_
    have hshort : digitCount (n * 10 ^ k) ≤ d + k := by omega
    rcases Nat.eq_zero_or_pos (d + k) with hzero | hdk
    · have := digitCount_pos (n * 10 ^ k)
      omega
    · have hsmall := (digitCount_le_iff hdk).1 hshort
      rw [Nat.pow_add] at hsmall
      exact Nat.not_lt.2 (Nat.mul_le_mul_right _ hge) hsmall

/-- **A decimal number is rounded the same with zeros at the end of its coefficient.** -/
theorem magnitude?_shift (coefficient k : Nat) (exponent : Int) :
    magnitude? (coefficient * 10 ^ k) (exponent - k) = magnitude? coefficient exponent := by
  unfold magnitude?
  by_cases hzero : coefficient = 0
  · rw [hzero, Nat.zero_mul, if_pos rfl, if_pos rfl]
  · have hpos : coefficient * 10 ^ k ≠ 0 := Nat.mul_ne_zero hzero (Nat.pos_iff_ne_zero.1
      (Nat.pow_pos (by decide)))
    have hplace : ((digitCount (coefficient * 10 ^ k) : Nat) : Int) + (exponent - k) =
        (digitCount coefficient : Nat) + exponent := by
      rw [digitCount_mul_pow hzero]
      omega
    have hround : roundUnits (coefficient * 10 ^ k * Nat.pow 10 (exponent - k).toNat * one)
        (Nat.pow 10 (-(exponent - k)).toNat) =
        roundUnits (coefficient * Nat.pow 10 exponent.toNat * one)
          (Nat.pow 10 (-exponent).toNat) := by
      refine roundUnits_congr (Nat.pow_pos (by decide)) (Nat.pow_pos (by decide)) ?_
      have hexponents : k + (exponent - k).toNat + (-exponent).toNat =
          exponent.toNat + (-(exponent - k)).toNat := by omega
      simp only [Nat.pow_eq]
      calc coefficient * 10 ^ k * 10 ^ (exponent - k).toNat * one * 10 ^ (-exponent).toNat
          = coefficient * one * 10 ^ (k + (exponent - k).toNat + (-exponent).toNat) := by
            rw [Nat.pow_add, Nat.pow_add]
            ring
        _ = coefficient * one * 10 ^ (exponent.toNat + (-(exponent - k)).toNat) := by
            rw [hexponents]
        _ = coefficient * 10 ^ exponent.toNat * one * 10 ^ (-(exponent - k)).toNat := by
            rw [Nat.pow_add]
            ring
    rw [if_neg hzero, if_neg hpos]
    dsimp only
    rw [hplace, hround]

/-! ### Exact values -/

/-- The digits of the exact value of `n` units of `2 ^ -p`, all `p` places of it, are not much fewer
than the places, and exceed them by less than `n` has to offer. -/
theorem digitCount_exact {n p j : Nat} (hn : n ≠ 0) (hp : 0 < p) (hlt : n < 2 ^ (3 * j + p)) :
    2 * (p / 3) < digitCount (n * 5 ^ p) ∧ digitCount (n * 5 ^ p) ≤ j + p := by
  constructor
  · have hfew : 10 ^ (2 * (p / 3)) ≤ n * 5 ^ p :=
      calc 10 ^ (2 * (p / 3)) = (10 ^ 2) ^ (p / 3) := Nat.pow_mul 10 2 (p / 3)
        _ ≤ (5 ^ 3) ^ (p / 3) := Nat.pow_le_pow_left (by decide) _
        _ = 5 ^ (3 * (p / 3)) := (Nat.pow_mul 5 3 (p / 3)).symm
        _ ≤ 5 ^ p := Nat.pow_le_pow_right (by decide) (Nat.mul_div_le p 3)
        _ ≤ n * 5 ^ p := Nat.le_mul_of_pos_left _ (Nat.pos_of_ne_zero hn)
    rcases Nat.eq_zero_or_pos (2 * (p / 3)) with hzero | hpos
    · rw [hzero]
      exact digitCount_pos _
    · refine Nat.lt_of_not_le fun hle => ?_
      exact Nat.not_lt.2 hfew ((digitCount_le_iff hpos).1 hle)
  · refine (digitCount_le_iff (by omega)).2 ?_
    calc n * 5 ^ p < 2 ^ (3 * j + p) * 5 ^ p :=
          Nat.mul_lt_mul_of_pos_right hlt (Nat.pow_pos (by decide))
      _ = (2 ^ 3) ^ j * 10 ^ p := by
        rw [Nat.pow_add, Nat.pow_mul, Nat.mul_assoc, ← Nat.mul_pow]
      _ ≤ 10 ^ j * 10 ^ p := Nat.mul_le_mul_right _ (Nat.pow_le_pow_left (by decide) j)
      _ = 10 ^ (j + p) := (Nat.pow_add 10 j p).symm

/-- A number of units of `2 ^ -p`, written in decimal with `p` places. -/
theorem roundUnits_exact (n p : Nat) :
    roundUnits (n * 5 ^ p * Nat.pow 10 0 * 2 ^ p) (Nat.pow 10 p) = roundUnits n 1 := by
  have hten : 10 ^ p = 5 ^ p * 2 ^ p := by rw [← Nat.mul_pow]
  refine roundUnits_congr (Nat.pow_pos (by decide)) (by decide) ?_
  simp only [Nat.pow_eq, hten]
  ring

theorem magnitude?_of_roundUnits {coefficient n : Nat} {exponent : Int} (hne : coefficient ≠ 0)
    (hlast : (digitCount coefficient : Int) + exponent ≤ 400)
    (hfirst : -400 ≤ (digitCount coefficient : Int) + exponent)
    (hround : roundUnits (coefficient * Nat.pow 10 exponent.toNat * one)
      (Nat.pow 10 (-exponent).toNat) = n) (finite : n < limit) :
    magnitude? coefficient exponent = some n := by
  unfold magnitude?
  rw [if_neg hne]
  dsimp only
  rw [if_neg (Int.not_lt.2 hlast), if_neg (Int.not_lt.2 hfirst), hround, if_pos finite]

/-- **The exact value of a double**, a decimal number of 1074 places, is rounded to that double. -/
theorem magnitude?_exact {n : Nat} (double : IsDouble n) (hn : n ≠ 0) :
    magnitude? (n * Nat.pow 5 1074) (-1074) = some n := by
  have hone := one_eq
  generalize hp : 1074 = p at hone ⊢
  have hlt : n < 2 ^ (3 * 342 + p) := double.lt_two_pow (by omega)
  have hne : n * 5 ^ p ≠ 0 := Nat.mul_ne_zero hn (Nat.ne_of_gt (Nat.pow_pos (by decide)))
  obtain ⟨hfirst, hlast⟩ := digitCount_exact hn (by omega) hlt
  rw [Nat.pow_eq, show (-1074 : Int) = -(p : Int) by omega]
  refine magnitude?_of_roundUnits hne (by omega) (by omega) ?_ double.finite
  rw [hone, show (-(p : Int)).toNat = 0 by omega, show (- -(p : Int)).toNat = p by omega,
    roundUnits_exact]
  exact roundUnits_of_hasPrecision double.digits

end Tabular.Decimal

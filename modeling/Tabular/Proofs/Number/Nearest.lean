import Tabular.Proofs.Number.Rounding

/-!
The nearest double.

`IsNearest` describes the double to which a number of units is rounded and does not say how it is
found: no double is nearer, and of two that are equally near it is the even one. The description
leaves no choice, and the double never falls where the number rises (`IsNearest.mono`).

* `isNearest_toUnits?`: an integer is read as the nearest double.
* `IsNearest.eq_of_double`: a double is its own nearest one.
-/

namespace Tabular.Decimal

/-- `m` is the double nearest to `x`, both in units. -/
structure IsNearest (x m : Int) : Prop where
  double : IsDouble m.natAbs
  nearest : ∀ d : Int, IsDouble d.natAbs → (x - m).natAbs ≤ (x - d).natAbs
  /-- Of two doubles that are equally near, the one that is a multiple of twice their distance. -/
  even : ∀ d : Int, IsDouble d.natAbs → d ≠ m → (x - m).natAbs = (x - d).natAbs → 2 * (m - d) ∣ m

namespace IsNearest

variable {x y m n : Int}

/-- **The nearest double does not fall where the number rises.** -/
theorem mono (hm : IsNearest x m) (hn : IsNearest y n) (h : x ≤ y) : m ≤ n := by
  refine Int.not_lt.1 fun hlt => ?_
  have hx := hm.nearest n hn.double
  have hy := hn.nearest m hm.double
  -- the two numbers are then one, half-way between the two doubles, of which both would be even
  obtain ⟨a, ha⟩ := hm.even n hn.double (by omega) (by omega)
  obtain ⟨b, hb⟩ := hn.even m hm.double (by omega) (by omega)
  have hdvd : 2 * (m - n) ∣ m - n := by
    refine ⟨a + b, ?_⟩
    calc m - n = 2 * (m - n) * a - 2 * (n - m) * b := by rw [← ha, ← hb]
      _ = 2 * (m - n) * (a + b) := by ring
  have hle := Int.le_of_dvd (by omega) hdvd
  omega

theorem unique (hm : IsNearest x m) (hn : IsNearest x n) : m = n :=
  Int.le_antisymm (hm.mono hn (Int.le_refl x)) (hn.mono hm (Int.le_refl x))

/-- **A double is its own nearest one.** -/
theorem eq_of_double (hm : IsNearest x m) (hx : IsDouble x.natAbs) : m = x := by
  have h := hm.nearest x hx
  omega

theorem neg (hm : IsNearest x m) : IsNearest (-x) (-m) where
  double := by rw [Int.natAbs_neg]; exact hm.double
  nearest := by
    intro d hd
    have h := hm.nearest (-d) (by rwa [Int.natAbs_neg])
    omega
  even := by
    intro d hd hne htie
    have h := hm.even (-d) (by rwa [Int.natAbs_neg]) (by omega) (by omega)
    have heq : 2 * (-m - d) = -(2 * (m - -d)) := by ring
    rw [heq]
    exact Int.neg_dvd.2 (Int.dvd_neg.2 h)

end IsNearest

/-! ### Rounding to the nearest multiple -/

/-- A quotient is rounded by half a unit at most, and by just half a unit to an even number. -/
theorem divNearest_spec (num : Nat) {den : Nat} (hden : 0 < den) :
    2 * ((num : Int) - divNearest num den * den).natAbs ≤ den ∧
      (2 * ((num : Int) - divNearest num den * den).natAbs = den → divNearest num den % 2 = 0) := by
  have hnum : ((num : Nat) : Int) = (num / den : Nat) * den + (num % den : Nat) := by
    exact_mod_cast (Nat.div_add_mod' num den).symm
  have hrest := Nat.mod_lt num hden
  unfold divNearest
  dsimp only
  rw [hnum]
  generalize num / den = q at *
  generalize num % den = r at *
  split
  · next hup =>
    have hstep : ((q + 1 : Nat) : Int) * den = q * den + den := by
      push_cast
      ring
    rw [hstep]
    omega
  · omega

/-- No multiple of `den` is nearer to a number than the one that it is rounded to. -/
theorem divNearest_le_of_dvd (num : Nat) {den : Nat} (hden : 0 < den) {d : Int}
    (hd : (den : Int) ∣ d) :
    ((num : Int) - divNearest num den * den).natAbs ≤ ((num : Int) - d).natAbs := by
  obtain ⟨hhalf, -⟩ := divNearest_spec num hden
  generalize divNearest num den = k at *
  by_cases hne : d = k * den
  · rw [hne]
  · have hgap : (den : Int) ∣ (k * den - d : Int) := Int.dvd_sub (Int.dvd_mul_left _ _) hd
    have hle : den ≤ (k * den - d : Int).natAbs :=
      Nat.le_of_dvd (by omega) (Int.natCast_dvd.1 hgap)
    omega

/-- Where another multiple of `den` is as near, the one that is rounded to is the even one. -/
theorem even_of_dvd_of_tie (num : Nat) {den : Nat} (hden : 0 < den) {d : Int}
    (hd : (den : Int) ∣ d) (hne : d ≠ divNearest num den * den)
    (htie : ((num : Int) - divNearest num den * den).natAbs = ((num : Int) - d).natAbs) :
    2 * ((divNearest num den : Int) * den - d) ∣ divNearest num den * den := by
  obtain ⟨hhalf, heven⟩ := divNearest_spec num hden
  generalize divNearest num den = k at *
  have hgap : (den : Int) ∣ (k * den - d : Int) := Int.dvd_sub (Int.dvd_mul_left _ _) hd
  have hle : den ≤ (k * den - d : Int).natAbs :=
    Nat.le_of_dvd (by omega) (Int.natCast_dvd.1 hgap)
  have hk : k % 2 = 0 := heven (by omega)
  obtain ⟨h, hh⟩ : ∃ h : Int, (k : Int) = 2 * h := ⟨(k / 2 : Nat), by omega⟩
  have hdistance : (k * den - d : Int) = den ∨ (k * den - d : Int) = -den := by omega
  rcases hdistance with heq | heq <;> rw [heq, hh]
  · exact ⟨h, by ring⟩
  · exact ⟨-h, by ring⟩

/-! ### Rounding to the nearest double -/

/-- Beyond `2 ^ (precision - 1 + e)` all doubles are multiples of `2 ^ e`. -/
theorem HasPrecision.dvd_or_lt {d : Nat} (h : HasPrecision d) (e : Nat) :
    2 ^ e ∣ d ∨ d < 2 ^ (precision - 1 + e) := by
  obtain ⟨s, q, hs, rfl⟩ := h
  by_cases hq : e ≤ q
  · exact .inl (Nat.dvd_trans (Nat.pow_dvd_pow 2 hq) (Nat.dvd_mul_left _ _))
  · have hle : s * 2 ^ q ≤ 2 ^ (precision + q) := by
      rw [Nat.pow_add]
      exact Nat.mul_le_mul_right _ hs
    have hexponent : precision + q ≤ precision - 1 + e := by
      unfold precision
      omega
    have hle' : s * 2 ^ q ≤ 2 ^ (precision - 1 + e) :=
      Nat.le_trans hle (Nat.pow_le_pow_right (by decide) hexponent)
    rcases Nat.lt_or_eq_of_le hle' with hlt | heq
    · exact .inr hlt
    · exact .inl (heq ▸ Nat.pow_dvd_pow 2 (Nat.le_add_left _ _))

/-- A double that is no multiple of the last place of `x` is farther from `x` than some multiple
is: it lies below zero, or below the smallest number with as many digits as `x`. -/
theorem exists_nearer_of_not_dvd {x e : Nat} (hexcess : x.log2 + 1 - precision = e) {d : Int}
    (hd : HasPrecision d.natAbs) (hdvd : ¬((2 ^ e : Nat) : Int) ∣ d) :
    ∃ c : Int, ((2 ^ e : Nat) : Int) ∣ c ∧ ((x : Int) - c).natAbs < ((x : Int) - d).natAbs := by
  rcases Int.lt_or_le d 0 with hneg | hnonneg
  · exact ⟨0, Int.dvd_zero _, by omega⟩
  · rw [Int.natCast_dvd] at hdvd
    have hlt := (hd.dvd_or_lt e).resolve_left hdvd
    have he : e ≠ 0 := by
      rintro rfl
      exact hdvd (Nat.one_dvd _)
    have hlog : x.log2 = precision - 1 + e := by
      unfold precision at *
      omega
    have hx : x ≠ 0 := by
      rintro rfl
      simp [precision] at hexcess
      omega
    have hle : 2 ^ (precision - 1 + e) ≤ x := hlog ▸ Nat.log2_self_le hx
    refine ⟨(2 ^ (precision - 1 + e) : Nat), ?_, by omega⟩
    exact Int.natCast_dvd_natCast.2 (Nat.pow_dvd_pow 2 (Nat.le_add_left _ _))

/-- **Rounding a whole number of units finds the nearest double.** -/
theorem isNearest_roundUnits {x : Nat} (finite : roundUnits x 1 < limit) :
    IsNearest x (roundUnits x 1) := by
  have double : IsDouble (roundUnits x 1) := ⟨hasPrecision_roundUnits x 1, finite⟩
  generalize hexcess : x.log2 + 1 - precision = e
  have hround : ((roundUnits x 1 : Nat) : Int) = divNearest x (2 ^ e) * (2 ^ e : Nat) := by
    unfold roundUnits
    simp only [Nat.div_one, Nat.one_mul, Nat.pow_eq, hexcess]
    exact Int.natCast_mul _ _
  have hpos : 0 < 2 ^ e := Nat.two_pow_pos e
  refine ⟨by rwa [Int.natAbs_natCast], fun d hd => ?_, fun d hd hne htie => ?_⟩ <;>
    rw [hround] at *
  · by_cases hdvd : ((2 ^ e : Nat) : Int) ∣ d
    · exact divNearest_le_of_dvd x hpos hdvd
    · obtain ⟨c, hc, hlt⟩ := exists_nearer_of_not_dvd hexcess hd.digits hdvd
      have hle := divNearest_le_of_dvd x hpos hc
      omega
  · by_cases hdvd : ((2 ^ e : Nat) : Int) ∣ d
    · exact even_of_dvd_of_tie x hpos hdvd hne htie
    · obtain ⟨c, hc, hlt⟩ := exists_nearer_of_not_dvd hexcess hd.digits hdvd
      have hle := divNearest_le_of_dvd x hpos hc
      omega

/-! ### Integers -/

theorem one_pos : 0 < one := by
  rw [one_eq]
  generalize 1074 = places
  exact Nat.two_pow_pos places

theorem two_pow_mul_one_le {s : Nat} (hs : s ≤ 1000) : 2 * (2 ^ s * one) ≤ limit := by
  rw [one_eq]
  unfold limit
  generalize hplaces : 1074 = places
  generalize hsize : 2098 = size
  rw [Nat.pow_eq, ← Nat.pow_add, ← Nat.pow_succ']
  exact Nat.pow_le_pow_right (by decide) (by omega)

/-- An integer of at most 300 digits is far from being too large for a double. -/
theorem roundUnits_lt_limit {n : Nat} (h : n < 10 ^ 300) : roundUnits (n * one) 1 < limit := by
  have hsize : 10 ^ 300 ≤ 2 ^ 1000 := by decide +kernel
  obtain ⟨s, hs, hn⟩ : ∃ s ≤ 1000, n + 1 ≤ 2 ^ s := ⟨1000, Nat.le_refl _, Nat.le_trans h hsize⟩
  have hpos := one_pos
  calc roundUnits (n * one) 1
      ≤ 2 * (n * one) + 1 := roundUnits_le _
    _ < 2 * (n * one + one) := by omega
    _ = 2 * ((n + 1) * one) := by rw [Nat.add_one_mul n one]
    _ ≤ 2 * (2 ^ s * one) := Nat.mul_le_mul_left 2 (Nat.mul_le_mul_right one hn)
    _ ≤ limit := two_pow_mul_one_le hs

/-- The magnitude of an integer of at most 300 digits. -/
theorem magnitude?_of_integer {n : Nat} (h : n < 10 ^ 300) :
    magnitude? n 0 = some (roundUnits (n * one) 1) := by
  by_cases hzero : n = 0
  · rw [hzero, Nat.zero_mul]
    decide
  · have hdigits := (digitCount_le_iff (by decide)).2 h
    refine magnitude?_of_roundUnits hzero (by omega) (by omega) ?_ (roundUnits_lt_limit h)
    simp

theorem IsNearest.signed {n u m : Int} (h : IsNearest (n * u) m) (negative : Bool) :
    IsNearest ((if negative then -n else n) * u) (if negative then -m else m) := by
  cases negative with
  | false => exact h
  | true =>
    have hneg := h.neg
    rwa [← Int.neg_mul] at hneg

/-- **An integer of at most 300 digits is read as the nearest double.** -/
theorem isNearest_toUnits? {n : Nat} (h : n < 10 ^ 300) (negative : Bool) :
    ∃ m, toUnits? { negative, coefficient := n, exponent := 0 } = some m ∧
      IsNearest ((if negative then -(n : Int) else n) * one) m := by
  have hnearest := isNearest_roundUnits (roundUnits_lt_limit h)
  rw [Int.natCast_mul] at hnearest
  refine ⟨_, ?_, hnearest.signed negative⟩
  unfold toUnits?
  dsimp only
  rw [magnitude?_of_integer h]
  rfl

/-! ### Integers that are doubles -/

/-- **An integer up to `2 ^ 53` is a double.** -/
theorem isDouble_of_integer {k : Int} (h : k.natAbs ≤ 2 ^ precision) :
    IsDouble (k * one).natAbs := by
  rw [Int.natAbs_mul, Int.natAbs_natCast]
  refine ⟨⟨k.natAbs, 1074, h, by rw [one_eq]⟩, ?_⟩
  have hpos : 0 < 2 ^ precision * one := Nat.mul_pos (Nat.two_pow_pos _) one_pos
  calc k.natAbs * one ≤ 2 ^ precision * one := Nat.mul_le_mul_right one h
    _ < 2 * (2 ^ precision * one) := by omega
    _ ≤ limit := two_pow_mul_one_le (by decide)

/-- One double is nearest to both integers. -/
def SameDouble (i j : Int) : Prop :=
  ∃ m, IsNearest (i * one) m ∧ IsNearest (j * one) m

theorem SameDouble.symm {i j : Int} (h : SameDouble i j) : SameDouble j i :=
  let ⟨m, hi, hj⟩ := h
  ⟨m, hj, hi⟩

/-- **An integer below `2 ^ 53` shares its double with no other integer**: next to it on either side
there is a double that is nearer to the other one. -/
theorem SameDouble.eq_of_lt {i j : Int} (h : SameDouble i j) (hi : i.natAbs < 2 ^ precision) :
    i = j := by
  obtain ⟨m, hm, hn⟩ := h
  obtain rfl : m = i * one := hm.eq_of_double (isDouble_of_integer (Nat.le_of_lt hi))
  have hpos : (0 : Int) < one := Int.natCast_pos.2 one_pos
  have hbefore := hn.nearest ((i - 1) * one) (isDouble_of_integer (by omega))
  have hbehind := hn.nearest ((i + 1) * one) (isDouble_of_integer (by omega))
  rw [← Int.sub_mul, ← Int.sub_mul, Int.natAbs_mul, Int.natAbs_mul] at hbefore hbehind
  have hcancel {a b : Nat} (hab : a * (one : Int).natAbs ≤ b * (one : Int).natAbs) : a ≤ b :=
    Nat.le_of_mul_le_mul_right hab (by omega)
  have hlower := hcancel hbefore
  have hupper := hcancel hbehind
  omega

end Tabular.Decimal

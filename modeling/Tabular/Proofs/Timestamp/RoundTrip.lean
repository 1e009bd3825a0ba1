import Mathlib.Algebra.Group.Nat.Defs
import Tabular.Proofs.Text.Writing
import Tabular.Timestamp

/-!
Reading back what was written as a timestamp.

Main statement: a valid timestamp is read back from its text (`ofText?_text`). The parts are written
with leading zeros, so each has as many digits as its reader takes.
-/

namespace Tabular.Timestamp

open Tabular.Text Reader

/-! ### Numbers with leading zeros -/

theorem ofDigitChars_padded (width n : Nat) : Nat.ofDigitChars 10 (padded width n) 0 = n := by
  rw [padded, Nat.ofDigitChars_append, Nat.ofDigitChars_replicate_zero, Nat.mul_zero,
    Nat.ofDigitChars_ten_toDigits]

theorem isDigit_of_mem_padded {width n : Nat} {c : Char} (h : c ∈ padded width n) :
    isDigit c = true := by
  rw [padded, List.mem_append] at h
  rcases h with h | h
  · rw [(List.mem_replicate.1 h).2]
    decide
  · exact isDigit_of_mem_toDigits h

theorem padded_ne_nil (width n : Nat) : padded width n ≠ [] := by
  rw [padded]
  exact List.append_ne_nil_of_right_ne_nil _ Nat.toDigits_ne_nil

theorem length_padded {width n : Nat} (hwidth : 0 < width) (h : n < 10 ^ width) :
    (padded width n).length = width := by
  have hle := (Nat.length_toDigits_le_iff (by decide : 1 < 10) hwidth).2 h
  rw [padded, List.length_append, List.length_replicate]
  omega

theorem not_blank_of_digit {c : Char} (h : isDigit c = true) : isBlank c = false := by
  have hrange : 48 ≤ c.toNat ∧ c.toNat ≤ 57 := by
    simpa [isDigit, Char.le_def, UInt32.le_iff_toNat_le] using h
  cases hblank : isBlank c with
  | false => rfl
  | true =>
    simp only [isBlank, Bool.or_eq_true, Bool.and_eq_true, decide_eq_true_eq, beq_iff_eq] at hblank
    omega

/-- No blanks are skipped in front of digits. -/
theorem skip_padded (width n : Nat) (rest : List Char) :
    Reader.takeWhile isBlank (padded width n ++ rest) = .found [] (padded width n ++ rest) := by
  refine takeWhile_append (t := []) (fun c hc => nomatch hc) fun c hc => ?_
  cases hp : padded width n with
  | nil => exact absurd hp (padded_ne_nil width n)
  | cons d ds =>
    rw [hp] at hc
    obtain rfl := Option.some.inj hc
    exact not_blank_of_digit (isDigit_of_mem_padded (hp ▸ List.mem_cons_self))

/-- **A number is read back from as many digits as its field has.** -/
theorem field_padded {width n : Nat} (hwidth : 0 < width) (h : n < 10 ^ width) (rest : List Char) :
    field width (padded width n ++ rest) = .found n rest := by
  have hlen := length_padded hwidth h
  have htake : (padded width n ++ rest).take width = padded width n := by
    rw [List.take_append_of_le_length (by omega), List.take_of_length_le (by omega)]
  have hdigits : (padded width n).takeWhile isDigit = padded width n := by
    have hall := takeWhile_append_of_forall (f := isDigit)
      (fun c (hc : c ∈ padded width n) => isDigit_of_mem_padded hc) []
    simpa using hall
  apply (bind_of_found (skip_padded width n rest)).trans
  dsimp only
  rw [htake, hdigits, if_neg (padded_ne_nil width n), ofDigitChars_padded, List.drop_left]

theorem mark_cons {c : Char} (h : isBlank c = false) (rest : List Char) :
    mark c (c :: rest) = .found () rest := by
  have hskip : Reader.takeWhile isBlank (c :: rest) = .found [] (c :: rest) :=
    takeWhile_append (t := []) (fun d hd => nomatch hd) fun d hd => Option.some.inj hd ▸ h
  unfold mark
  rw [bind_of_found hskip, bind_of_found (char_cons c rest)]
  rfl

/-! ### Years -/

/-- A year with its sign. -/
theorem yearField_sign {sign : Char} (hsign : sign = '-' ∨ sign = '+') (n : Nat)
    (rest : List Char) :
    yearField (sign :: (padded 4 n ++ '-' :: rest)) =
      .found (if sign = '-' then -(n : Int) else n) ('-' :: rest) := by
  have hskip : Reader.takeWhile isBlank (sign :: (padded 4 n ++ '-' :: rest)) =
      .found [] (sign :: (padded 4 n ++ '-' :: rest)) := by
    refine takeWhile_append (t := []) (fun d hd => nomatch hd) fun d hd => ?_
    obtain rfl := Option.some.inj hd
    rcases hsign with rfl | rfl <;> decide
  have hchar : (char '-' <|> char '+' : Reader Char) (sign :: (padded 4 n ++ '-' :: rest)) =
      .found sign (padded 4 n ++ '-' :: rest) := by
    rcases hsign with rfl | rfl
    · exact orElse_of_found (char_cons '-' _)
    · rw [orElse_of_stuck (char_of_ne (by decide) _)]
      exact char_cons '+' _
  have hdigits : takeWhile1 isDigit (padded 4 n ++ '-' :: rest) =
      .found (padded 4 n) ('-' :: rest) := by
    refine takeWhile1_append (padded_ne_nil 4 n) (fun c hc => isDigit_of_mem_padded hc)
      fun c hc => ?_
    obtain rfl := Option.some.inj hc
    decide
  unfold yearField
  rw [bind_of_found hskip]
  apply orElse_of_found
  rw [bind_of_found hchar, bind_of_found hdigits, ofDigitChars_padded]
  rfl

/-- **A year is read back from its text.** -/
theorem yearField_yearText (year : Int) (rest : List Char) :
    yearField (yearText year ++ '-' :: rest) = .found year ('-' :: rest) := by
  unfold yearText
  by_cases hneg : year < 0
  · rw [if_pos hneg, List.cons_append, yearField_sign (.inl rfl), if_pos rfl]
    exact congrArg (Reading.found · _) (by omega)
  · rw [if_neg hneg]
    by_cases hlong : 9999 < year
    · rw [if_pos hlong, List.cons_append, yearField_sign (.inr rfl), if_neg (by decide)]
      exact congrArg (Reading.found · _) (by omega)
    · have hfield : field 4 (padded 4 year.natAbs ++ '-' :: rest) =
          .found year.natAbs ('-' :: rest) := field_padded (by decide) (by omega) ('-' :: rest)
      have hsign : ∀ c, isDigit c = false → char c (padded 4 year.natAbs ++ '-' :: rest) =
          .stuck (padded 4 year.natAbs ++ '-' :: rest) := by
        intro c hc
        cases hp : padded 4 year.natAbs with
        | nil => exact absurd hp (padded_ne_nil 4 year.natAbs)
        | cons d ds =>
          have hd : isDigit d = true := isDigit_of_mem_padded (hp ▸ List.mem_cons_self)
          refine char_of_ne ?_ _
          rintro rfl
          rw [hc] at hd
          exact Bool.noConfusion hd
      rw [if_neg hlong]
      unfold yearField
      rw [bind_of_found (skip_padded 4 year.natAbs ('-' :: rest)), orElse_of_stuck
        (bind_of_stuck ((orElse_of_stuck (hsign '-' (by decide))).trans (hsign '+' (by decide)))),
        bind_of_found hfield]
      exact congrArg (Reading.found · _) (by omega)

/-! ### Fractions -/

/-- Digits behind a point, as many as there are groups of three. -/
theorem fraction_padded {width n : Nat} (hwidth : 0 < width) (hle : width ≤ 9) (h : n < 10 ^ width)
    (rest : List Char) :
    fraction ('.' :: (padded width n ++ 'Z' :: rest)) =
      .found (n * 10 ^ (9 - width)) ('Z' :: rest) := by
  have hlen := length_padded hwidth h
  have hdigits : takeWhile1 isDigit (padded width n ++ 'Z' :: rest) =
      .found (padded width n) ('Z' :: rest) := by
    refine takeWhile1_append (padded_ne_nil width n) (fun c hc => isDigit_of_mem_padded hc)
      fun c hc => ?_
    obtain rfl := Option.some.inj hc
    decide
  have htake : (padded width n ++ List.replicate 9 '0').take 9 =
      padded width n ++ List.replicate (9 - width) '0' := by
    rw [List.take_append, List.take_of_length_le (by omega), hlen, List.take_replicate,
      Nat.min_eq_left (by omega)]
  have hvalue : Nat.ofDigitChars 10 (padded width n ++ List.replicate (9 - width) '0') 0 =
      n * 10 ^ (9 - width) := by
    rw [Nat.ofDigitChars_append, ofDigitChars_padded,
      Nat.ofDigitChars_replicate_zero, Nat.mul_comm]
  unfold fraction
  apply orElse_of_found
  rw [bind_of_found (char_cons '.' _), bind_of_found hdigits, htake, hvalue]
  rfl

/-- **The fraction of a second is read back from its text.** -/
theorem fraction_fractionText {nanosecond : Nat} (h : nanosecond ≤ 999999999) (rest : List Char) :
    fraction (fractionText nanosecond ++ 'Z' :: rest) = .found nanosecond ('Z' :: rest) := by
  unfold fractionText
  by_cases hzero : nanosecond = 0
  · have hpoint : char '.' ('Z' :: rest) = .stuck ('Z' :: rest) := char_of_ne (by decide) rest
    rw [if_pos hzero, List.nil_append]
    unfold fraction
    rw [orElse_of_stuck (bind_of_stuck hpoint), hzero]
    rfl
  rw [if_neg hzero]
  by_cases hmilli : nanosecond % 1000000 = 0
  · rw [if_pos hmilli, List.cons_append,
      fraction_padded (by decide) (by decide) (by omega) rest]
    exact congrArg (Reading.found · _) (by omega)
  rw [if_neg hmilli]
  by_cases hmicro : nanosecond % 1000 = 0
  · rw [if_pos hmicro, List.cons_append,
      fraction_padded (by decide) (by decide) (by omega) rest]
    exact congrArg (Reading.found · _) (by omega)
  rw [if_neg hmicro, List.cons_append, fraction_padded (by decide) (by decide) (by omega) rest]
  exact congrArg (Reading.found · _) (by omega)

/-! ### Whole timestamps -/

/-- The offset zero changes nothing. -/
theorem toUniversal_zero {t : Timestamp} (hour : t.hour ≤ 23) (minute : t.minute ≤ 59) :
    t.toUniversal 0 = t := by
  have hinDay : ((60 * (t.hour : Int) + t.minute - 0) % 1440).toNat = 60 * t.hour + t.minute := by
    omega
  unfold toUniversal
  dsimp only
  rw [hinDay, if_neg (by omega), if_pos (by omega),
    show (60 * t.hour + t.minute) / 60 = t.hour by omega,
    show (60 * t.hour + t.minute) % 60 = t.minute by omega]

theorem daysInMonth_le (year : Int) (month : Nat) : daysInMonth year month ≤ 31 := by
  unfold daysInMonth
  split
  · split <;> decide
  · split <;> decide

theorem offset_utc (rest : List Char) : offset ('Z' :: rest) = .found 0 rest := by
  apply orElse_of_found
  rw [bind_of_found (orElse_of_found (char_cons 'Z' rest))]
  rfl

theorem reader_localText {t : Timestamp} (valid : t.isValid = true) :
    reader (t.localText ++ ['Z']) = .found (t, 0) [] := by
  have hdays := daysInMonth_le t.year t.month
  simp only [isValid, Bool.and_eq_true, decide_eq_true_eq] at valid
  have htext : t.localText ++ ['Z'] = yearText t.year ++ '-' :: (padded 2 t.month ++
      '-' :: (padded 2 t.day ++ 'T' :: (padded 2 t.hour ++ ':' :: (padded 2 t.minute ++
        ':' :: (padded 2 t.second ++ (fractionText t.nanosecond ++ ['Z'])))))) := by
    simp [localText]
  have hT : ∀ s, (char 'T' <|> char 't' <|> char ' ' : Reader Char) ('T' :: s) = .found 'T' s :=
    fun s => orElse_of_found (char_cons 'T' s)
  have hskip : Reader.takeWhile isBlank ['Z'] = .found [] ['Z'] := by decide
  unfold reader
  rw [htext, bind_of_found (yearField_yearText t.year _),
    bind_of_found (mark_cons (by decide) _),
    bind_of_found (field_padded (by decide) (by omega) _),
    bind_of_found (mark_cons (by decide) _),
    bind_of_found (field_padded (by decide) (by omega) _), bind_of_found (hT _),
    bind_of_found (field_padded (by decide) (by omega) _),
    bind_of_found (mark_cons (by decide) _),
    bind_of_found (field_padded (by decide) (by omega) _),
    bind_of_found (mark_cons (by decide) _),
    bind_of_found (field_padded (by decide) (by omega) _),
    bind_of_found (fraction_fractionText (by omega) []), bind_of_found hskip,
    bind_of_found (offset_utc [])]
  rfl

/-- **A valid timestamp is read back from its text.** -/
theorem ofText?_text {t : Timestamp} (valid : t.isValid = true) : ofText? t.text = some t := by
  have huniversal : t.toUniversal 0 = t := by
    simp only [isValid, Bool.and_eq_true, decide_eq_true_eq] at valid
    exact toUniversal_zero (by omega) (by omega)
  unfold ofText? text run?
  rw [String.toList_ofList, reader_localText valid]
  dsimp only
  rw [huniversal, valid]
  rfl

/-- What is read as a timestamp is a valid one. -/
theorem isValid_of_ofText? {text : String} {t : Timestamp} (h : ofText? text = some t) :
    t.isValid = true := by
  unfold ofText? at h
  split at h
  · next u shift _ =>
    dsimp only at h
    split at h
    · next hvalid =>
      obtain rfl := Option.some.inj h
      exact (Bool.and_eq_true_iff.1 hvalid).2
    · exact nomatch h
  · exact nomatch h

end Tabular.Timestamp

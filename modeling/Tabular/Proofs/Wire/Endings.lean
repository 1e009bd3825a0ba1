import Tabular.Proofs.Wire.Frame

/-!
How a stream of frames ends.

Reading stops where no frame is left to read. A payload that is cut off is a failure, but a length
that is cut off is taken for the end of the stream: reading ends cleanly wherever less than four
bytes are left (`ends_none_iff`). So a stream can break off inside a length and end as cleanly as
one that ends with a frame. Main statement: `readAll_ending`.
-/

namespace Tabular.Frame

variable {s part whole frame payload : ByteArray} {payloads : List ByteArray} {n : Nat}

/-! ### Where no frame is left -/

theorem read_of_size_lt (h : s.size < 4) : read s = .ok none := dif_pos h

/-- Reading a stream with a length at its front, by what follows the length. -/
theorem read_header_append (hn : n < 4294967296) (part : ByteArray) :
    read (header n ++ part) =
      if maxPayload < n then .error (.tooLarge n)
      else if part.size < n then .error .truncated
      else .ok (some (part.extract 0 n, part.extract n part.size)) := by
  have hsize : (header n ++ part).size = 4 + part.size := by simp
  have hextract (i j : Nat) : (header n ++ part).extract (4 + i) (4 + j) = part.extract i j :=
    ByteArray.extract_append_size_add' (size_header n).symm
  unfold read
  rw [dif_neg (by omega)]
  dsimp only
  rw [lengthOf_of_header hn rfl (by omega), hsize, hextract, show 4 = 4 + 0 from rfl, hextract]
  simp only [Nat.add_zero, Nat.add_lt_add_iff_left]

/-- A stream is shorter than a length, or it has a length at its front. -/
theorem exists_header_append (h : 4 ≤ s.size) :
    ∃ n part, n < 4294967296 ∧ s = header n ++ part := by
  refine ⟨lengthOf s[0] s[1] s[2] s[3], s.extract 4 s.size, lengthOf_lt .., ?_⟩
  rw [header_lengthOf h, ← ByteArray.extract_eq_extract_append_extract 4 (by omega) h,
    ByteArray.extract_zero_size]

/-- **Reading ends cleanly where less than a length is left**, be it nothing or not. -/
theorem ends_none_iff : Ends s none ↔ s.size < 4 := by
  constructor
  · refine fun h => Nat.lt_of_not_le fun hfour => ?_
    obtain ⟨n, part, hn, rfl⟩ := exists_header_append hfour
    rw [Ends, read_header_append hn] at h
    split at h
    · cases h
    · split at h <;> cases h
  · exact read_of_size_lt

/-- Reading fails for want of bytes where less is left than the length in front asks for. -/
theorem ends_truncated_iff :
    Ends s (some .truncated) ↔
      ∃ n part, n ≤ maxPayload ∧ part.size < n ∧ s = header n ++ part := by
  constructor
  · intro h
    by_cases hfour : s.size < 4
    · cases (read_of_size_lt hfour).symm.trans h
    · obtain ⟨n, part, hn, rfl⟩ := exists_header_append (Nat.le_of_not_lt hfour)
      rw [Ends, read_header_append hn] at h
      split at h
      · cases h
      · next hmax =>
        split at h
        · next hpart => exact ⟨n, part, Nat.le_of_not_lt hmax, hpart, rfl⟩
        · cases h
  · rintro ⟨n, part, hmax, hpart, rfl⟩
    have hn : n < 4294967296 := Nat.lt_of_le_of_lt hmax (by decide)
    rw [Ends, read_header_append hn, if_neg (Nat.not_lt.2 hmax), if_pos hpart]

/-! ### Streams -/

/-- A stream that consists of frames and nothing else. -/
def Whole (s : ByteArray) : Prop := ∃ payloads, writeAll payloads = .ok s

/-- How reading ends is decided by what is left after some frames. -/
theorem readAll_snd_eq_iff {ending : Option Failure} :
    (readAll s).2 = ending ↔ ∃ whole rest, Whole whole ∧ Ends rest ending ∧ s = whole ++ rest := by
  constructor
  · rintro rfl
    obtain ⟨whole, rest, hwhole, hs, ends⟩ := readAll_eq_iff.1 (rfl : readAll s = readAll s)
    exact ⟨whole, rest, ⟨_, hwhole⟩, ends, hs⟩
  · rintro ⟨whole, rest, ⟨payloads, hwhole⟩, ends, hs⟩
    exact congrArg Prod.snd (readAll_eq_iff.2 ⟨whole, rest, hwhole, hs, ends⟩)

/-- A frame that is cut off before its end is the end of reading: a clean one inside the length. -/
theorem ends_extract (h : write payload = .ok frame) {cut : Nat} (hcut : cut < frame.size) :
    Ends (frame.extract 0 cut) (if cut < 4 then none else some .truncated) := by
  obtain ⟨hmax, rfl⟩ := write_eq_ok_iff.1 h
  rw [ByteArray.size_append, size_header] at hcut
  split
  · next hfour =>
    refine ends_none_iff.2 ?_
    rw [ByteArray.size_extract]
    omega
  · next hfour =>
    obtain ⟨k, rfl⟩ := Nat.exists_eq_add_of_le (Nat.le_of_not_lt hfour)
    refine ends_truncated_iff.2 ⟨payload.size, payload.extract 0 k, hmax, ?_, ?_⟩
    · rw [ByteArray.size_extract]
      omega
    · rw [ByteArray.extract_eq_extract_append_extract 4 (by omega) (by omega),
        ByteArray.extract_append_eq_left (size_header _).symm]
      congr 1
      exact ByteArray.extract_append_size_add' (i := 0) (size_header _).symm

/-- A stream of frames that is shorter than a length has none. -/
theorem Whole.eq_empty (h : Whole s) (hlt : s.size < 4) : s = .empty := by
  obtain ⟨payloads, hs⟩ := h
  cases payloads with
  | nil => exact (Except.ok.inj hs).symm
  | cons payload payloads =>
    obtain ⟨written, later, hwritten, -, rfl⟩ := writeAll_cons_eq_ok_iff.1 hs
    obtain ⟨-, rfl⟩ := write_eq_ok_iff.1 hwritten
    simp only [ByteArray.size_append, size_header] at hlt
    omega

/-- **How reading a stream ends.** It ends cleanly exactly where the stream is frames and then less
than four bytes, and for want of bytes exactly where it is frames, a length that is not too large,
and then less than that length asks for. So where a stream of frames is cut inside its last frame,
the frames before are read, and then reading ends cleanly if the cut is inside the length, and for
want of bytes if it is inside the payload. -/
theorem readAll_ending (s : ByteArray) :
    ((readAll s).2 = none ↔ ∃ whole rest, Whole whole ∧ rest.size < 4 ∧ s = whole ++ rest) ∧
      ((readAll s).2 = some .truncated ↔ ∃ whole n part, Whole whole ∧ n ≤ maxPayload ∧
        part.size < n ∧ s = whole ++ (header n ++ part)) ∧
      ∀ payloads whole payload frame cut, writeAll payloads = .ok whole →
        write payload = .ok frame → cut < frame.size → s = whole ++ frame.extract 0 cut →
          readAll s = (payloads, if cut < 4 then none else some .truncated) := by
  refine ⟨?_, ?_, ?_⟩
  · rw [readAll_snd_eq_iff]
    simp only [ends_none_iff]
  · rw [readAll_snd_eq_iff]
    simp only [ends_truncated_iff]
    constructor
    · rintro ⟨whole, _, hwhole, ⟨n, part, hmax, hpart, rfl⟩, hs⟩
      exact ⟨whole, n, part, hwhole, hmax, hpart, hs⟩
    · rintro ⟨whole, n, part, hwhole, hmax, hpart, hs⟩
      exact ⟨whole, _, hwhole, ⟨n, part, hmax, hpart, rfl⟩, hs⟩
  · intro payloads whole payload frame cut hwhole hframe hcut hs
    exact readAll_eq_iff.2 ⟨whole, _, hwhole, hs, ends_extract hframe hcut⟩

/-- Two frames, of which the second one is cut inside its payload or inside its length. -/
theorem readAll_ending_of_cut_frame :
    let first : ByteArray := ⟨#[0, 0, 0, 1, 97]⟩
    let second : ByteArray := ⟨#[0, 0, 0, 2, 98, 99]⟩
    writeAll [⟨#[97]⟩] = .ok first ∧ write ⟨#[98, 99]⟩ = .ok second ∧
      readAll (first ++ second.extract 0 5) = ([⟨#[97]⟩], some .truncated) ∧
      readAll (first ++ second.extract 0 2) = ([⟨#[97]⟩], none) := by
  intro first second
  have hfirst : writeAll [⟨#[97]⟩] = .ok first := rfl
  have hsecond : write ⟨#[98, 99]⟩ = .ok second := rfl
  exact ⟨hfirst, hsecond,
    (readAll_ending _).2.2 _ first _ second 5 hfirst hsecond (by decide) rfl,
    (readAll_ending _).2.2 _ first _ second 2 hfirst hsecond (by decide) rfl⟩

/-- Half of a length ends cleanly and is no frame. -/
theorem not_whole_of_cut_length : ¬∀ s, (readAll s).2 = none ↔ Whole s := by
  intro h
  have whole : Whole ⟨#[0, 0]⟩ := (h ⟨#[0, 0]⟩).1 (by decide +kernel)
  exact absurd (whole.eq_empty (by decide)) (by decide)

end Tabular.Frame

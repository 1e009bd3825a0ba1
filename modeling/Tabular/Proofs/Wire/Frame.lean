import Tabular.Proofs.Result
import Tabular.Wire.Frame

/-!
Frames on a stream.

What `write` makes of a payload, `read` takes off the front of a stream again, whatever follows
(`read_append`), and what `read` takes off a stream is what `write` makes of its payload
(`write_of_read`). Both carry over to any number of frames: `readAll` finds some payloads and an
ending exactly where the stream is the frames of these payloads and then something at which reading
ends in this way (`readAll_eq_iff`). Main statement: `readAll_frames`.
-/

namespace Tabular.Frame

variable {s payload rest written : ByteArray} {payloads : List ByteArray}
variable {ending : Option Failure}

/-! ### Lengths -/

@[simp] theorem size_header (n : Nat) : (header n).size = 4 := rfl

theorem lengthOf_lt (a b c d : UInt8) : lengthOf a b c d < 4294967296 := by
  have ha := a.toNat_lt
  have hb := b.toNat_lt
  have hc := c.toNat_lt
  have hd := d.toNat_lt
  unfold lengthOf
  omega

theorem lengthOf_ofNat {n : Nat} (h : n < 4294967296) :
    lengthOf (UInt8.ofNat (n / 16777216)) (UInt8.ofNat (n / 65536)) (UInt8.ofNat (n / 256))
      (UInt8.ofNat n) = n := by
  simp only [lengthOf, UInt8.toNat_ofNat']
  omega

theorem ofNat_lengthOf (a b c d : UInt8) :
    UInt8.ofNat (lengthOf a b c d / 16777216) = a ∧ UInt8.ofNat (lengthOf a b c d / 65536) = b ∧
      UInt8.ofNat (lengthOf a b c d / 256) = c ∧ UInt8.ofNat (lengthOf a b c d) = d := by
  have ha := a.toNat_lt
  have hb := b.toNat_lt
  have hc := c.toNat_lt
  have hd := d.toNat_lt
  simp only [lengthOf, ← UInt8.toNat_inj, UInt8.toNat_ofNat']
  omega

/-- Different lengths have different bytes. -/
theorem header_injective {m n : Nat} (hm : m < 4294967296) (hn : n < 4294967296)
    (h : header m = header n) : m = n := by
  have hbytes := congrArg (fun b => b.data.toList) h
  simp only [header, List.cons.injEq] at hbytes
  obtain ⟨ha, hb, hc, hd, -⟩ := hbytes
  rw [← lengthOf_ofNat hm, ← lengthOf_ofNat hn, ha, hb, hc, hd]

/-- The first four bytes of a stream are the bytes of the length that they write. -/
theorem header_lengthOf (h : 4 ≤ s.size) :
    header (lengthOf s[0] s[1] s[2] s[3]) = s.extract 0 4 := by
  obtain ⟨ha, hb, hc, hd⟩ := ofNat_lengthOf s[0] s[1] s[2] s[3]
  rw [ByteArray.extract_add_four (i := 0) (by omega)]
  unfold header
  rw [ha, hb, hc, hd]
  rfl

/-- **A length is read back from its bytes** at the front of a stream. -/
theorem lengthOf_of_header {n : Nat} (hn : n < 4294967296) (hs : s = header n ++ rest)
    (h : 4 ≤ s.size) : lengthOf s[0] s[1] s[2] s[3] = n := by
  refine header_injective (lengthOf_lt ..) hn ?_
  rw [header_lengthOf h, hs]
  exact ByteArray.extract_append_eq_left rfl

/-! ### One frame -/

theorem write_eq_ok_iff :
    write payload = .ok written ↔
      payload.size ≤ maxPayload ∧ written = header payload.size ++ payload := by
  unfold write
  split
  · next h => simp [Nat.not_le.2 h]
  · next h => simp [Nat.le_of_not_lt h, eq_comm]

/-- **A frame is read off the front of a stream**, whatever follows it. -/
theorem read_append (h : write payload = .ok written) (rest : ByteArray) :
    read (written ++ rest) = .ok (some (payload, rest)) := by
  obtain ⟨hmax, rfl⟩ := write_eq_ok_iff.1 h
  have hlimit : payload.size < 4294967296 := Nat.lt_of_le_of_lt hmax (by decide)
  have hparts : header payload.size ++ payload ++ rest = header payload.size ++ (payload ++ rest) :=
    ByteArray.append_assoc
  have hsize : (header payload.size ++ payload ++ rest).size = 4 + payload.size + rest.size := by
    simp
  have hpayload : (header payload.size ++ payload ++ rest).extract 4 (4 + payload.size) =
      payload := by
    rw [hparts, ByteArray.extract_append_size_add' (i := 0) (size_header _).symm]
    exact ByteArray.extract_append_eq_left rfl
  have hrest : (header payload.size ++ payload ++ rest).extract (4 + payload.size)
      (header payload.size ++ payload ++ rest).size = rest :=
    ByteArray.extract_append_eq_right (by simp) (by simp)
  unfold read
  rw [dif_neg (by omega)]
  dsimp only
  rw [lengthOf_of_header hlimit hparts (by omega), if_neg (by omega), if_neg (by omega), hpayload,
    hrest]

/-- **What is read is a frame**: the bytes that writing its payload gives. -/
theorem write_of_read (h : read s = .ok (some (payload, rest))) :
    ∃ written, write payload = .ok written ∧ s = written ++ rest := by
  unfold read at h
  split at h
  · cases h
  next hfour =>
  have hhead := header_lengthOf (s := s) (by omega)
  generalize lengthOf s[0] s[1] s[2] s[3] = n at h hhead
  dsimp only at h
  split at h
  · cases h
  next hmax =>
  split at h
  · cases h
  next hlen =>
  obtain ⟨rfl, rfl⟩ := Prod.mk.inj (Option.some.inj (Except.ok.inj h))
  have hsize : (s.extract 4 (4 + n)).size = n := by
    rw [ByteArray.size_extract]
    omega
  refine ⟨_, write_eq_ok_iff.2 ⟨by omega, rfl⟩, ?_⟩
  rw [hsize, hhead, ByteArray.append_assoc,
    ← ByteArray.extract_eq_extract_append_extract (4 + n) (by omega) (by omega),
    ← ByteArray.extract_eq_extract_append_extract 4 (by omega) (by omega),
    ByteArray.extract_zero_size]

theorem size_lt_of_read (h : read s = .ok (some (payload, rest))) : rest.size < s.size := by
  obtain ⟨written, hwritten, rfl⟩ := write_of_read h
  obtain ⟨-, rfl⟩ := write_eq_ok_iff.1 hwritten
  simp only [ByteArray.size_append, size_header]
  omega

/-! ### Streams -/

/-- The frames of several payloads, one after another. -/
def writeAll : List ByteArray → Except Failure ByteArray
  | [] => .ok .empty
  | payload :: payloads => do return (← write payload) ++ (← writeAll payloads)

theorem writeAll_cons_eq_ok_iff :
    writeAll (payload :: payloads) = .ok s ↔
      ∃ written later, write payload = .ok written ∧ writeAll payloads = .ok later ∧
        s = written ++ later := by
  simp only [writeAll, Result.bind_eq_ok_iff, Result.pure_eq_ok_iff]
  constructor
  · rintro ⟨written, hwritten, later, hlater, rfl⟩
    exact ⟨written, later, hwritten, hlater, rfl⟩
  · rintro ⟨written, later, hwritten, hlater, rfl⟩
    exact ⟨written, hwritten, later, hlater, rfl⟩

theorem exists_writeAll_iff :
    (∃ s, writeAll payloads = .ok s) ↔ ∀ payload ∈ payloads, payload.size ≤ maxPayload := by
  induction payloads with
  | nil => exact ⟨fun _ _ h => absurd h List.not_mem_nil, fun _ => ⟨_, rfl⟩⟩
  | cons payload payloads ih =>
    rw [List.forall_mem_cons, ← ih]
    constructor
    · rintro ⟨s, hs⟩
      obtain ⟨written, later, hwritten, hlater, -⟩ := writeAll_cons_eq_ok_iff.1 hs
      exact ⟨(write_eq_ok_iff.1 hwritten).1, later, hlater⟩
    · rintro ⟨hmax, later, hlater⟩
      exact ⟨_, writeAll_cons_eq_ok_iff.2 ⟨_, later, write_eq_ok_iff.2 ⟨hmax, rfl⟩, hlater, rfl⟩⟩

/-- Reading finds no frame at the front of a stream, and ends cleanly or by a failure. -/
def Ends (s : ByteArray) : Option Failure → Prop
  | none => read s = .ok none
  | some failure => read s = .error failure

/-- Reading ends in one way, or takes off a frame. -/
theorem read_cases (s : ByteArray) :
    (∃ ending, Ends s ending) ∨ ∃ payload rest, read s = .ok (some (payload, rest)) := by
  rcases h : read s with failure | _ | ⟨payload, rest⟩
  · exact .inl ⟨some failure, h⟩
  · exact .inl ⟨none, h⟩
  · exact .inr ⟨payload, rest, rfl⟩

theorem readUpTo_of_ends (h : Ends s ending) (n : Nat) : readUpTo (n + 1) s = ([], ending) := by
  unfold readUpTo
  cases ending with
  | none => rw [show read s = .ok none from h]
  | some failure => rw [show read s = .error failure from h]

theorem readUpTo_of_read (h : read s = .ok (some (payload, rest))) (n : Nat) :
    readUpTo (n + 1) s = (payload :: (readUpTo n rest).1, (readUpTo n rest).2) := by
  rw [readUpTo, h]

/-- **Frames are read back**, up to where reading ends. -/
theorem readUpTo_append (h : writeAll payloads = .ok written) (ends : Ends rest ending) {n : Nat}
    (hn : (written ++ rest).size < n) : readUpTo n (written ++ rest) = (payloads, ending) := by
  induction payloads generalizing written n with
  | nil =>
    obtain rfl := Except.ok.inj h
    obtain ⟨n, rfl⟩ := Nat.exists_eq_add_one_of_ne_zero (Nat.ne_zero_of_lt hn)
    rw [ByteArray.empty_append]
    exact readUpTo_of_ends ends n
  | cons payload payloads ih =>
    obtain ⟨first, later, hfirst, hlater, rfl⟩ := writeAll_cons_eq_ok_iff.1 h
    obtain ⟨n, rfl⟩ := Nat.exists_eq_add_one_of_ne_zero (Nat.ne_zero_of_lt hn)
    rw [ByteArray.append_assoc] at hn ⊢
    have hread := read_append hfirst (later ++ rest)
    have hlt := size_lt_of_read hread
    rw [readUpTo_of_read hread, ih hlater (by omega)]

/-- **A stream is the frames that are read off it and what is left where reading ends.** -/
theorem exists_writeAll_readUpTo {n : Nat} (hn : s.size < n) :
    ∃ written rest, writeAll (readUpTo n s).1 = .ok written ∧ s = written ++ rest ∧
      Ends rest (readUpTo n s).2 := by
  induction n generalizing s with
  | zero => exact absurd hn (Nat.not_lt_zero _)
  | succ n ih =>
    obtain ⟨ending, ends⟩ | ⟨payload, rest, hread⟩ := read_cases s
    · rw [readUpTo_of_ends ends]
      exact ⟨.empty, s, rfl, ByteArray.empty_append.symm, ends⟩
    · obtain ⟨first, hfirst, hs⟩ := write_of_read hread
      have hlt := size_lt_of_read hread
      obtain ⟨later, left, hlater, hrest, ends⟩ := ih (s := rest) (by omega)
      rw [readUpTo_of_read hread]
      refine ⟨first ++ later, left,
        writeAll_cons_eq_ok_iff.2 ⟨first, later, hfirst, hlater, rfl⟩, ?_, ends⟩
      rw [hs, ByteArray.append_assoc, ← hrest]

/-- Some payloads and an ending are read off a stream exactly where it is their frames and then
something at which reading ends so. -/
theorem readAll_eq_iff :
    readAll s = (payloads, ending) ↔
      ∃ written rest, writeAll payloads = .ok written ∧ s = written ++ rest ∧ Ends rest ending := by
  constructor
  · intro h
    obtain ⟨written, rest, hwritten, hs, ends⟩ := exists_writeAll_readUpTo (Nat.lt_succ_self s.size)
    unfold readAll at h
    rw [h] at hwritten ends
    exact ⟨written, rest, hwritten, hs, ends⟩
  · rintro ⟨written, rest, hwritten, rfl, ends⟩
    exact readUpTo_append hwritten ends (Nat.lt_succ_self _)

theorem ends_empty : Ends .empty none := rfl

/-- **Payloads survive the stream exactly where each of them fits into a frame**: their frames, one
after another, are read back as these payloads and then the stream ends cleanly. And of every stream
at all, the frames that are read off it are a beginning, with what is left where reading ends. -/
theorem readAll_frames (payloads : List ByteArray) (s : ByteArray) :
    ((∀ payload ∈ payloads, payload.size ≤ maxPayload) ↔
        ∃ written, writeAll payloads = .ok written ∧ readAll written = (payloads, none)) ∧
      ∃ written rest, writeAll (readAll s).1 = .ok written ∧ s = written ++ rest ∧
        Ends rest (readAll s).2 := by
  refine ⟨?_, readAll_eq_iff.1 rfl⟩
  rw [← exists_writeAll_iff]
  refine exists_congr fun written => (and_iff_left_of_imp fun hwritten => ?_).symm
  exact readAll_eq_iff.2 ⟨written, .empty, hwritten, ByteArray.append_empty.symm, ends_empty⟩

end Tabular.Frame

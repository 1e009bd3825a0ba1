import Tabular.Proofs.Json.RoundTrip
import Tabular.Wire.Response

/-!
The size of messages in bytes.

A text has at least as many bytes as characters (`Text.length_le_byteLength`), and between quotes it
has at least its own characters. So the response to a batch that failed is longer than the wording
of the failure (`BatchResponse.length_lt_size_encode`).
-/

namespace Tabular

open Tabular.Text

namespace Text

theorem length_le_byteLength (s : List Char) : s.length ≤ byteLength s := by
  induction s with
  | nil => exact Nat.le_refl 0
  | cons c s ih =>
    have hpos := c.utf8Size_pos
    rw [List.length_cons, byteLength]
    omega

theorem size_toUTF8_ofList (s : List Char) : (String.ofList s).toUTF8.size = byteLength s := by
  change (String.ofList s).utf8ByteSize = byteLength s
  induction s with
  | nil => rfl
  | cons c s ih =>
    have happend : String.ofList (c :: s) = String.singleton c ++ String.ofList s := by
      rw [String.singleton_eq_ofList, ← String.ofList_append]
      rfl
    rw [happend, String.utf8ByteSize_append, String.utf8ByteSize_singleton, ih, byteLength]

end Text

/-- A text between quotes has at least its own characters. -/
theorem Json.length_le_quote (s : String) : s.toList.length ≤ (quote s).length := by
  have hflat (l : List Char) : l.length ≤ (l.flatMap escapeChar).length := by
    induction l with
    | nil => exact Nat.le_refl 0
    | cons c l ih =>
      have hpos := List.length_pos_iff.2 (escapeChar_ne_nil c)
      rw [List.flatMap_cons, List.length_append, List.length_cons]
      omega
  have hlength := hflat s.toList
  simp only [quote, List.length_cons, List.length_append]
  omega

/-- The response to a batch that failed is longer than the wording of the failure. -/
theorem BatchResponse.length_lt_size_encode (results : List Outcome) (n : Nat) (message : String) :
    message.toList.length < (BatchResponse.failed results n message).encode.toUTF8.size := by
  have hquote := Json.length_le_quote message
  unfold encode Json.compact
  rw [size_toUTF8_ofList]
  refine Nat.lt_of_lt_of_le ?_ (length_le_byteLength _)
  simp only [toJson, failed, BatchFailure.toJson, Option.map_some, Option.toList_some,
    List.cons_append, List.nil_append, Json.compactChars, Json.compactMembers, Json.separated,
    List.length_cons, List.length_append]
  omega

end Tabular

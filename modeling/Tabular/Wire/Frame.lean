import Tabular.Error

/-!
Frames on a byte stream.

A frame is the length of its payload in four bytes, the most significant first, followed by the
payload. A payload has at most 16 MiB. Reading a stream yields its frames and then tells how it
ended: `Ending`. A stream that ends before a whole length has been read counts as ended cleanly.
-/

namespace Tabular.Frame

/-- The most bytes that a payload may have. -/
def maxPayload : Nat := 16777216

/-- Why a frame is not read or not written. -/
inductive Failure where
  /-- The stream ends inside a payload. -/
  | truncated
  /-- A payload of this length is too large. -/
  | tooLarge (length : Nat)
  deriving DecidableEq, Repr

/-- The kind of a failure. -/
def Failure.kind : Failure → IoKind
  | .truncated => .unexpectedEof
  | .tooLarge _ => .invalidData

/-- The wording of a failure. -/
def Failure.message : Failure → String
  | .truncated => "early eof"
  | .tooLarge length => "Message too large: " ++ toString length ++ " bytes"

/-- The four bytes of a length. -/
def header (n : Nat) : ByteArray :=
  ⟨#[UInt8.ofNat (n / 16777216), UInt8.ofNat (n / 65536), UInt8.ofNat (n / 256), UInt8.ofNat n]⟩

/-- The length that four bytes write. -/
def lengthOf (a b c d : UInt8) : Nat :=
  ((a.toNat * 256 + b.toNat) * 256 + c.toNat) * 256 + d.toNat

/-- The bytes of one frame. -/
def write (payload : ByteArray) : Except Failure ByteArray :=
  if maxPayload < payload.size then .error (.tooLarge payload.size)
  else .ok (header payload.size ++ payload)

/-- One frame from the front of a stream, with the rest of the stream; none at its end. -/
def read (s : ByteArray) : Except Failure (Option (ByteArray × ByteArray)) :=
  if h : s.size < 4 then .ok none
  else
    let n := lengthOf s[0] s[1] s[2] s[3]
    if maxPayload < n then .error (.tooLarge n)
    else if s.size < 4 + n then .error .truncated
    else .ok (some (s.extract 4 (4 + n), s.extract (4 + n) s.size))

/-- At most `n` frames of a stream, and the failure that ended it, if one did. -/
def readUpTo : Nat → ByteArray → List ByteArray × Option Failure
  | 0, _ => ([], none)
  | n + 1, s =>
    match read s with
    | .error f => ([], some f)
    | .ok none => ([], none)
    | .ok (some (payload, rest)) =>
      let r := readUpTo n rest
      (payload :: r.1, r.2)

/-- Every frame of a stream, and the failure that ended it, if one did. A frame takes at least four
bytes, so the size of the stream bounds their number. -/
def readAll (s : ByteArray) : List ByteArray × Option Failure :=
  readUpTo (s.size + 1) s

end Tabular.Frame

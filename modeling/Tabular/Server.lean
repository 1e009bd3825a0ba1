import Tabular.Session
import Tabular.Wire.Frame
import Tabular.Wire.Response

/-!
Serving clients.

Every connection has a session of its own. Each frame that a client sends is answered by one frame:
the response to the request in it, or a failure where the frame holds no request. A frame that
cannot be read closes the connection, and so does a response that does not fit into a frame, and a
request that panics. The response to a frame without a request repeats what the decoder says about
it, so the decoder is a parameter.
-/

namespace Tabular.Server

/-- How frames are decoded: the request in a frame, or what is wrong with a frame without one. -/
abbrev Decoder := ByteArray → Except String ClientRequest

/-- Decodes the frames that are texts of requests, and has a wording for the others. -/
def textDecoder (wording : ByteArray → String) : Decoder := fun frame =>
  match (String.fromUTF8? frame).bind ClientRequest.decode? with
  | some q => .ok q
  | none => .error (wording frame)

/-- The response to a frame that holds no request. -/
def invalidRequest (reason : String) : BatchResponse :=
  BatchResponse.failed [] 0 ("Invalid request: " ++ reason)

/-- Why a connection is closed before its stream ends. -/
inductive Closing where
  /-- A frame cannot be read or written. -/
  | frame (failure : Frame.Failure)
  /-- A request panicked. -/
  | panic (cause : Panic)
  deriving DecidableEq, Repr

/-- The frame of a response. -/
def reply : Except Panic BatchResponse → Except Closing ByteArray
  | .ok r => (Frame.write r.encode.toUTF8).mapError .frame
  | .error cause => .error (.panic cause)

variable [PatternCompiler]

/-- Answers one frame. -/
def respond (decode : Decoder) (frame : ByteArray) : RequestM BatchResponse :=
  match decode frame with
  | .ok q => Session.handleRequest q.headers q.body
  | .error reason => return invalidRequest reason

/-- The replies to the frames of a stream, and why the connection was closed before the stream
ended, if it was. -/
abbrev Replies := List ByteArray × Option Closing

/-- Sends a response, and goes on unless there is none or it does not fit into a frame. -/
def sendThen (r : Except Panic BatchResponse) (next : StateM (Interpreter × Session) Replies) :
    StateM (Interpreter × Session) Replies :=
  match reply r with
  | .error closing => return ([], some closing)
  | .ok written => do
    let (replies, closing) ← next
    return (written :: replies, closing)

/-- Answers at most `n` frames of a stream. -/
def serveUpTo (decode : Decoder) : Nat → ByteArray → StateM (Interpreter × Session) Replies
  | 0, _ => return ([], none)
  | n + 1, s =>
    match Frame.read s with
    | .error f => return ([], some (.frame f))
    | .ok none => return ([], none)
    | .ok (some (frame, rest)) => do
      sendThen (← (respond decode frame).run) (serveUpTo decode n rest)

/-- Serves the client whose frames a stream holds. -/
def serveClient (decode : Decoder) (s : ByteArray) : StateM (Interpreter × Session) Replies :=
  serveUpTo decode (s.size + 1) s

end Tabular.Server

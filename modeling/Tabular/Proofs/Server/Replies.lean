import Mathlib.Data.List.TakeWhile
import Tabular.Proofs.Session.Swallowed
import Tabular.Proofs.Statement.Insertion
import Tabular.Proofs.Wire.Endings
import Tabular.Proofs.Wire.Response
import Tabular.Proofs.Wire.Size
import Tabular.Server

/-!
Replies to the frames of a client.

Reading and answering come apart (`serveUpTo_eq`): a stream is served by answering, one after
another, the frames that are read off it. The frames are answered up to the first one whose request
panics or whose response does not fit into a frame; that one has had its effect, but there is no
reply to it nor to a later one (`answered_answerAll`). A frame without a request gets a reply and
has no effect otherwise, so the other replies are what they are without it (`run_answerAll_insert`).
Main statement: `serveClient_writeAll`.
-/

namespace Tabular

open Tabular.Text

/-- The response to a word that is no verb repeats the word. -/
theorem Session.exec_handleRequest_of_unknownVerb [PatternCompiler] {word : String}
    (h : IsWord word) (hverb : Verb.ofKeyword? word = none) (headers : Keyed String)
    (p : Interpreter × Session) :
    (exec (Session.handleRequest headers (some word)) p).1 =
      .ok (BatchResponse.failed [] 0 (Error.parse (.unknownVerb word)).message) := by
  have hne : word ≠ "" := by
    rintro rfl
    exact h.1 rfl
  have hbatch : World.batch (some word) = [word] := by
    rw [World.batch, if_neg hne]
    exact splitBatch_of_not_mem (h.not_mem (by decide))
  rw [World.exec_handleRequest_fst, hbatch, World.exec_runStatements_cons,
    World.exec_execute_of_error (Statement.parse_of_unknownVerb h hverb)]
  rfl

namespace Server

variable {decode : Decoder} {frame s : ByteArray} {frames before after : List ByteArray}
variable {ending : Option Closing} {r : Except Panic BatchResponse} {reason : String}

theorem run_bind {σ α β : Type} (x : StateM σ α) (f : α → StateM σ β) (s : σ) :
    (x >>= f).run s = (f (x.run s).1).run (x.run s).2 := rfl

/-! ### One frame -/

/-- Whether there is a response, and it fits into a frame. -/
def sendable : Except Panic BatchResponse → Bool
  | .ok r => r.encode.toUTF8.size ≤ Frame.maxPayload
  | .error _ => false

theorem sendable_ok_iff {r : BatchResponse} :
    sendable (.ok r) = true ↔ r.encode.toUTF8.size ≤ Frame.maxPayload := by
  rw [sendable, decide_eq_true_iff]

theorem sendable_iff : sendable r = true ↔
    ∃ response, r = .ok response ∧ response.encode.toUTF8.size ≤ Frame.maxPayload := by
  cases r with
  | error panic => simp [sendable]
  | ok r => simp [sendable_ok_iff]

/-- Why the connection is closed where nothing can be sent. -/
def closing : Except Panic BatchResponse → Closing
  | .ok r => .frame (.tooLarge r.encode.toUTF8.size)
  | .error panic => .panic panic

theorem reply_cases (r : Except Panic BatchResponse) :
    (sendable r = true ∧ ∃ written, reply r = .ok written) ∨
      sendable r = false ∧ reply r = .error (closing r) := by
  cases r with
  | error panic => exact .inr ⟨rfl, rfl⟩
  | ok r =>
    have hreply : reply (.ok r) = (Frame.write r.encode.toUTF8).mapError .frame := by rw [reply]
    by_cases h : r.encode.toUTF8.size ≤ Frame.maxPayload
    · have hwrite := Frame.write_eq_ok_iff.2 ⟨h, rfl⟩
      rw [hwrite] at hreply
      exact .inl ⟨sendable_ok_iff.2 h, _, hreply⟩
    · have hwrite : Frame.write r.encode.toUTF8 = .error (.tooLarge r.encode.toUTF8.size) :=
        if_pos (Nat.lt_of_not_le h)
      rw [hwrite] at hreply
      exact .inr ⟨Bool.eq_false_iff.2 (mt sendable_ok_iff.1 h), hreply⟩

section

variable {next : StateM (Interpreter × Session) Replies} {written : ByteArray}

theorem run_sendThen_of_ok (h : reply r = .ok written) (p : Interpreter × Session) :
    (sendThen r next).run p =
      ((written :: (next.run p).1.1, (next.run p).1.2), (next.run p).2) := by
  unfold sendThen
  rw [h]
  rfl

theorem run_sendThen_of_error {c : Closing} (h : reply r = .error c) (p : Interpreter × Session) :
    (sendThen r next).run p = (([], some c), p) := by
  unfold sendThen
  rw [h]
  rfl

end

theorem textDecoder_toUTF8 (wording : ByteArray → String) (text : String) :
    textDecoder wording text.toUTF8 = match ClientRequest.decode? text with
      | some q => .ok q
      | none => .error (wording text.toUTF8) := by
  have htext : String.fromUTF8? text.toUTF8 = some text := by
    simp only [String.fromUTF8?, String.toUTF8_eq_toByteArray, dif_pos text.isValidUTF8]
    rfl
  unfold textDecoder
  rw [htext]
  rfl

/-- A request is decoded from the frame that is written for it. -/
theorem textDecoder_encode (wording : ByteArray → String) (q : ClientRequest) :
    textDecoder wording q.encode.toUTF8 = .ok q := by
  rw [textDecoder_toUTF8, q.decode?_encode]

section

variable [PatternCompiler]

theorem exec_respond_of_ok {q : ClientRequest} (h : decode frame = .ok q)
    (p : Interpreter × Session) :
    exec (respond decode frame) p = exec (Session.handleRequest q.headers q.body) p := by
  unfold respond
  rw [h]

/-- **A frame without a request is answered by a failure, and nothing else happens.** -/
theorem exec_respond_of_error (h : decode frame = .error reason) (p : Interpreter × Session) :
    exec (respond decode frame) p = (.ok (invalidRequest reason), p) := by
  unfold respond
  rw [h]
  rfl

/-! ### Several frames -/

/-- What frames come to, were there no limit to the sizes of responses and no end with a panic. -/
def respondAll (decode : Decoder) (frames : List ByteArray) :
    StateM (Interpreter × Session) (List (Except Panic BatchResponse)) :=
  frames.mapM fun frame => (respond decode frame).run

/-- Answers frames up to the first one to which nothing can be sent, where the stream ends as it
does when none is left. -/
def answerAll (decode : Decoder) (ending : Option Closing) :
    List ByteArray → StateM (Interpreter × Session) Replies
  | [] => return ([], ending)
  | frame :: frames => do
    sendThen (← (respond decode frame).run) (answerAll decode ending frames)

/-- **A stream is served by answering the frames that are read off it.** -/
theorem serveUpTo_eq (decode : Decoder) (n : Nat) (s : ByteArray) :
    serveUpTo decode n s =
      answerAll decode ((Frame.readUpTo n s).2.map .frame) (Frame.readUpTo n s).1 := by
  induction n generalizing s with
  | zero => rfl
  | succ n ih =>
    unfold serveUpTo Frame.readUpTo
    rcases Frame.read s with failure | _ | ⟨frame, rest⟩
    · rfl
    · rfl
    · dsimp only
      rw [answerAll, ih rest]

theorem serveClient_eq (h : Frame.writeAll frames = .ok s) :
    serveClient decode s = answerAll decode none frames := by
  have hread : Frame.readAll s = (frames, none) :=
    Frame.readAll_eq_iff.2 ⟨s, .empty, h, ByteArray.append_empty.symm, Frame.ends_empty⟩
  unfold Frame.readAll at hread
  rw [serveClient, serveUpTo_eq, hread]
  rfl

/-- **A stream that breaks off inside a length is served as one that ends before it.** -/
theorem serveClient_append {part : ByteArray} (h : Frame.writeAll frames = .ok s)
    (hpart : part.size < 4) : serveClient decode (s ++ part) = serveClient decode s := by
  have hread : Frame.readAll (s ++ part) = (frames, none) :=
    Frame.readAll_eq_iff.2 ⟨s, part, h, rfl, Frame.ends_none_iff.2 hpart⟩
  rw [serveClient_eq h, serveClient, serveUpTo_eq]
  exact congrArg (fun r => answerAll decode (r.2.map .frame) r.1) hread

theorem run_respondAll_cons (frame : ByteArray) (frames : List ByteArray)
    (p : Interpreter × Session) :
    (respondAll decode (frame :: frames)).run p =
      ((exec (respond decode frame) p).1 ::
          ((respondAll decode frames).run (exec (respond decode frame) p).2).1,
        ((respondAll decode frames).run (exec (respond decode frame) p).2).2) := by
  rw [respondAll, List.mapM_cons, run_bind, run_bind]
  rfl

theorem run_answerAll_cons (frame : ByteArray) (frames : List ByteArray)
    (p : Interpreter × Session) :
    (answerAll decode ending (frame :: frames)).run p =
      (sendThen (exec (respond decode frame) p).1 (answerAll decode ending frames)).run
        (exec (respond decode frame) p).2 := by
  rw [answerAll, run_bind]
  rfl

/-- What comes of answering frames, by what all of them would come to: replies up to the first one
to which nothing can be sent, why that one closes the connection, and the state that it has led
to. -/
structure Answered (decode : Decoder) (ending : Option Closing) (frames : List ByteArray)
    (p : Interpreter × Session) (served : Replies × Interpreter × Session) : Prop where
  replies : (((respondAll decode frames).run p).1.takeWhile sendable).mapM reply = .ok served.1.1
  closing : served.1.2 =
    ((((respondAll decode frames).run p).1.find? fun r => !sendable r).map closing).or ending
  state : served.2 = ((respondAll decode (frames.take (served.1.1.length + 1))).run p).2

theorem answered_answerAll (decode : Decoder) (ending : Option Closing)
    (frames : List ByteArray) (p : Interpreter × Session) :
    Answered decode ending frames p ((answerAll decode ending frames).run p) := by
  induction frames generalizing p with
  | nil => exact ⟨rfl, rfl, rfl⟩
  | cons frame frames ih =>
    rw [run_answerAll_cons]
    rcases reply_cases (exec (respond decode frame) p).1 with
      ⟨hsend, written, hreply⟩ | ⟨hsend, hreply⟩
    · obtain ⟨hreplies, hclosing, hstate⟩ := ih (exec (respond decode frame) p).2
      rw [run_sendThen_of_ok hreply]
      refine ⟨?_, ?_, ?_⟩
      · rw [run_respondAll_cons, List.takeWhile_cons_of_pos hsend, List.mapM_cons, hreply,
          hreplies]
        rfl
      · rw [run_respondAll_cons, List.find?_cons_of_neg (by simp [hsend]), hclosing]
      · rw [List.length_cons, List.take_succ_cons, run_respondAll_cons]
        exact hstate
    · rw [run_sendThen_of_error hreply]
      refine ⟨?_, ?_, ?_⟩
      · rw [run_respondAll_cons, List.takeWhile_cons_of_neg (by simp [hsend])]
        rfl
      · rw [run_respondAll_cons, List.find?_cons_of_pos (by simp [hsend])]
        rfl
      · rw [List.length_nil, List.take_succ_cons, run_respondAll_cons]
        rfl

theorem length_respondAll (decode : Decoder) (frames : List ByteArray)
    (p : Interpreter × Session) :
    ((respondAll decode frames).run p).1.length = frames.length := by
  induction frames generalizing p with
  | nil => rfl
  | cons frame frames ih => rw [run_respondAll_cons, List.length_cons, List.length_cons, ih]

omit [PatternCompiler] in
theorem length_of_mapM_reply {responses : List (Except Panic BatchResponse)}
    {replies : List ByteArray}
    (h : responses.mapM reply = .ok replies) : replies.length = responses.length := by
  induction responses generalizing replies with
  | nil =>
    obtain rfl := Except.ok.inj h
    rfl
  | cons r responses ih =>
    simp only [List.mapM_cons, Result.bind_eq_ok_iff, Result.pure_eq_ok_iff] at h
    obtain ⟨written, -, later, hlater, rfl⟩ := h
    rw [List.length_cons, List.length_cons, ih hlater]

/-- There is a reply to every frame exactly if no request panics and every response fits. -/
theorem Answered.length_eq_iff {p : Interpreter × Session}
    {served : Replies × Interpreter × Session} (h : Answered decode ending frames p served) :
    served.1.1.length = frames.length ↔
      ∀ r ∈ ((respondAll decode frames).run p).1, sendable r = true := by
  rw [length_of_mapM_reply h.replies, ← length_respondAll decode frames p,
    ← List.takeWhile_eq_self_iff]
  constructor
  · exact fun heq => (List.takeWhile_prefix _).eq_of_length heq
  · exact fun heq => congrArg List.length heq

/-- **A frame without a request adds its reply, and nothing else changes.** -/
theorem run_answerAll_insert {bad written : ByteArray} (hbad : decode bad = .error reason)
    (hreply : reply (.ok (invalidRequest reason)) = .ok written) (before after : List ByteArray)
    (p : Interpreter × Session) :
    (answerAll decode ending (before ++ bad :: after)).run p =
      ((((answerAll decode ending (before ++ after)).run p).1.1.insertIdx before.length written,
        ((answerAll decode ending (before ++ after)).run p).1.2),
        ((answerAll decode ending (before ++ after)).run p).2) := by
  induction before generalizing p with
  | nil =>
    rw [List.nil_append, run_answerAll_cons, exec_respond_of_error hbad, run_sendThen_of_ok hreply]
    rfl
  | cons frame before ih =>
    rw [List.cons_append, List.cons_append, run_answerAll_cons, run_answerAll_cons]
    cases hfirst : reply (exec (respond decode frame) p).1 with
    | error c =>
      rw [run_sendThen_of_error hfirst, run_sendThen_of_error hfirst]
      rfl
    | ok first =>
      rw [run_sendThen_of_ok hfirst, run_sendThen_of_ok hfirst, ih]
      rfl

end

theorem writeAll_without {bad : ByteArray}
    (h : Frame.writeAll (before ++ bad :: after) = .ok s) :
    ∃ s', Frame.writeAll (before ++ after) = .ok s' := by
  rw [Frame.exists_writeAll_iff]
  have hsizes := Frame.exists_writeAll_iff.1 ⟨s, h⟩
  intro payload hmem
  refine hsizes payload ?_
  rcases List.mem_append.1 hmem with hmem | hmem
  · exact List.mem_append_left _ hmem
  · exact List.mem_append_right _ (List.mem_cons_of_mem _ hmem)

/-! ### A response that does not fit -/

/-- The request to run a word of so many letters. -/
def wordRequest (n : Nat) : ClientRequest :=
  { headers := Keyed.empty, body := some (String.ofList (List.replicate n 'A')) }

theorem size_wordRequest (n : Nat) : (wordRequest n).encode.toUTF8.size = n + 24 := by
  have hflat : (List.replicate n 'A').flatMap Json.escapeChar = List.replicate n 'A' := by
    induction n with
    | zero => rfl
    | succ n ih =>
      rw [List.replicate_succ, List.flatMap_cons, ih]
      rfl
  have hquote : Json.quote (String.ofList (List.replicate n 'A')) =
      '"' :: List.replicate n 'A' ++ ['"'] := by
    rw [Json.quote, String.toList_ofList, hflat]
  have hchars : Json.compactChars (wordRequest n).toJson =
      "\x7b\"headers\":\x7b\x7d,\"body\":\"".toList ++
        (List.replicate n 'A' ++ "\"\x7d".toList) := by
    have hheaders : Json.quote "headers" = "\"headers\"".toList := by decide
    have hbody : Json.quote "body" = "\"body\"".toList := by decide
    simp only [wordRequest, ClientRequest.toJson, Json.ofOption, Json.compactChars,
      Json.compactMembers, Json.separated, hheaders, hbody, hquote]
    simp [Keyed.empty, Json.compactMembers, Json.separated]
  have hletters : byteLength (List.replicate n 'A') = n := by
    rw [byteLength_eq_length fun c hc => List.eq_of_mem_replicate hc ▸ by decide,
      List.length_replicate]
  unfold ClientRequest.encode Json.compact
  rw [size_toUTF8_ofList, hchars, byteLength_append, byteLength_append, hletters]
  have hbefore : byteLength "\x7b\"headers\":\x7b\x7d,\"body\":\"".toList = 22 := by decide
  have hafter : byteLength "\"\x7d".toList = 2 := by decide
  omega

/-- The response to a word that is no verb is longer than a request to run the word. -/
theorem not_sendable_unknownVerb {word : String}
    (h : Frame.maxPayload ≤ word.toList.length + 24) :
    sendable (.ok (BatchResponse.failed [] 0 (Error.parse (.unknownVerb word)).message)) =
      false := by
  have hlt := BatchResponse.length_lt_size_encode [] 0 (Error.parse (.unknownVerb word)).message
  have hstart : "Invalid command action: '".toList.length = 25 := by decide
  have hprefix (start word more rest : String) : start.toList.length + word.toList.length ≤
      (start ++ word ++ more ++ rest).toList.length := by
    simp only [String.toList_append, List.length_append]
    omega
  have hmessage : 25 + word.toList.length ≤
      (Error.parse (.unknownVerb word)).message.toList.length := by
    unfold Error.message ParseError.message
    exact hstart ▸ hprefix ..
  rw [sendable, decide_eq_false_iff_not]
  omega

section

variable [PatternCompiler]

theorem not_sendable_wordRequest {n : Nat} (h : Frame.maxPayload ≤ n + 24)
    (p : Interpreter × Session) :
    sendable (exec (Session.handleRequest (wordRequest n).headers (wordRequest n).body) p).1 =
      false := by
  have hlong : 8 < n := by
    unfold Frame.maxPayload at h
    omega
  have hletters : (String.ofList (List.replicate n 'A')).toList = List.replicate n 'A' :=
    String.toList_ofList
  have hword : IsWord (String.ofList (List.replicate n 'A')) := by
    unfold IsWord
    rw [hletters]
    refine ⟨fun hnil => ?_, fun c hc => List.eq_of_mem_replicate hc ▸ by decide⟩
    have := congrArg List.length hnil
    rw [List.length_replicate, List.length_nil] at this
    omega
  have hverb : Verb.ofKeyword? (String.ofList (List.replicate n 'A')) = none := by
    refine Option.eq_none_iff_forall_ne_some.2 fun verb hverb => ?_
    have hle := Verb.length_le_of_ofKeyword? hverb
    rw [hletters, List.length_replicate] at hle
    omega
  unfold wordRequest
  dsimp only
  rw [Session.exec_handleRequest_of_unknownVerb hword hverb]
  refine not_sendable_unknownVerb ?_
  rw [hletters, List.length_replicate]
  exact h

/-- Where the response does not fit, nothing is answered. -/
theorem run_answerAll_wordRequest {n : Nat} (h : Frame.maxPayload ≤ n + 24)
    (wording : ByteArray → String) (p : Interpreter × Session) :
    ((answerAll (textDecoder wording) none [(wordRequest n).encode.toUTF8]).run p).1.1 = [] := by
  have hsend := not_sendable_wordRequest h p
  rw [run_answerAll_cons, exec_respond_of_ok (textDecoder_encode ..)]
  rcases reply_cases
    (exec (Session.handleRequest (wordRequest n).headers (wordRequest n).body) p).1
    with ⟨hyes, -⟩ | ⟨-, hreply⟩
  · exact absurd (hsend.symm.trans hyes) Bool.false_ne_true
  · rw [run_sendThen_of_error hreply]

/-! ### Serving a client -/

/-- **The frames of a client are answered in order, each by one reply**, up to the first one whose
request panics or whose response does not fit into a frame; so there is a reply to each of them
exactly if no request panics and every response fits. A frame without a request is answered by a
failure without results and has no other effect: if its reply fits, the stream without it is served
in the same way but for this reply. -/
theorem serveClient_writeAll (decode : Decoder) (h : Frame.writeAll frames = .ok s)
    (p : Interpreter × Session) :
    Answered decode none frames p ((serveClient decode s).run p) ∧
      (((serveClient decode s).run p).1.1.length = frames.length ↔
        ∀ r ∈ ((respondAll decode frames).run p).1,
          ∃ response, r = .ok response ∧ response.encode.toUTF8.size ≤ Frame.maxPayload) ∧
      ∀ bad reason, decode bad = .error reason →
        (∀ q, exec (respond decode bad) q =
          (.ok (BatchResponse.failed [] 0 ("Invalid request: " ++ reason)), q)) ∧
        ∀ before after written, frames = before ++ bad :: after →
          reply (.ok (BatchResponse.failed [] 0 ("Invalid request: " ++ reason))) = .ok written →
          ∃ s', Frame.writeAll (before ++ after) = .ok s' ∧
            (serveClient decode s).run p =
              ((((serveClient decode s').run p).1.1.insertIdx before.length written,
                ((serveClient decode s').run p).1.2), ((serveClient decode s').run p).2) := by
  have hanswered : Answered decode none frames p ((serveClient decode s).run p) := by
    rw [serveClient_eq h]
    exact answered_answerAll decode none frames p
  have hlength := hanswered.length_eq_iff
  simp only [sendable_iff] at hlength
  refine ⟨hanswered, hlength, fun bad reason hbad =>
    ⟨exec_respond_of_error hbad, ?_⟩⟩
  rintro before after written rfl hreply
  obtain ⟨s', hs'⟩ := writeAll_without h
  refine ⟨s', hs', ?_⟩
  rw [serveClient_eq h, serveClient_eq hs']
  exact run_answerAll_insert hbad hreply before after p

end

/-- A client that sends something else than a request before it sends one. -/
theorem serveClient_writeAll_not_json :
    let decode : Decoder := textDecoder fun _ => "expected ident at line 1 column 2"
    let bad := "not json".toUTF8
    let good := (ClientRequest.mk Keyed.empty none).encode.toUTF8
    let p := (Interpreter.new (Engine.new none Folder.empty Timestamp.epoch), Session.new)
    ∃ s s' written, Frame.writeAll [bad, good] = .ok s ∧ Frame.writeAll [good] = .ok s' ∧
      ((serveClient decode s).run p).1.1.length = 2 ∧
      (serveClient decode s).run p =
        ((((serveClient decode s').run p).1.1.insertIdx 0 written,
          ((serveClient decode s').run p).1.2), ((serveClient decode s').run p).2) := by
  intro decode bad good p
  have hnone : ClientRequest.decode? "not json" = none := by decide
  have hbad : decode bad = .error "expected ident at line 1 column 2" :=
    (textDecoder_toUTF8 ..).trans (by rw [hnone])
  have hgood : decode good = .ok (ClientRequest.mk Keyed.empty none) := textDecoder_encode ..
  have hsend : sendable (.ok (invalidRequest "expected ident at line 1 column 2")) = true := by
    decide +kernel
  have hok : sendable (.ok (BatchResponse.ok [])) = true := by decide +kernel
  have hsizes : ∀ frame ∈ [bad, good], frame.size ≤ Frame.maxPayload := by decide +kernel
  obtain ⟨s, hs⟩ := Frame.exists_writeAll_iff.2 hsizes
  obtain ⟨-, hlength, hinvalid⟩ := serveClient_writeAll decode hs p
  obtain ⟨-, hwithout⟩ := hinvalid bad _ hbad
  rcases reply_cases (.ok (invalidRequest "expected ident at line 1 column 2")) with
    ⟨-, written, hwritten⟩ | ⟨hnot, -⟩
  · obtain ⟨s', hs', hserved⟩ := hwithout [] [good] written rfl hwritten
    refine ⟨s, s', written, hs, hs', hlength.2 ?_, hserved⟩
    rw [run_respondAll_cons, run_respondAll_cons, exec_respond_of_error hbad,
      exec_respond_of_ok hgood]
    exact List.forall_mem_cons.2 ⟨sendable_iff.1 hsend,
      List.forall_mem_cons.2 ⟨sendable_iff.1 hok, nofun⟩⟩
  · exact absurd (hnot.symm.trans hsend) Bool.false_ne_true

/-- **A request that fits into a frame may have a response that does not**: that to a long word
which is no verb, since it repeats the word. -/
theorem serveClient_wordRequest :
    let p := (Interpreter.new (Engine.new none Folder.empty Timestamp.epoch), Session.new)
    ∃ s, Frame.writeAll [(wordRequest 16777192).encode.toUTF8] = .ok s ∧
      ((serveClient (textDecoder fun _ => "") s).run p).1.1 = [] := by
  intro p
  have hsize : (wordRequest 16777192).encode.toUTF8.size ≤ Frame.maxPayload := by
    rw [size_wordRequest]
    decide
  obtain ⟨s, hs⟩ := Frame.exists_writeAll_iff.2 (List.forall_mem_singleton.2 hsize)
  refine ⟨s, hs, ?_⟩
  rw [serveClient_eq hs]
  exact run_answerAll_wordRequest (by decide) _ p

end Server

end Tabular

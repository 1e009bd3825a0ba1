import Tabular.Proofs.Wire.Outcome
import Tabular.Wire.Response

/-!
Reading messages back.

A response is `Representable` when its outcomes are and the number of the statement that failed fits
in 64 bits. Main statement: `decode?_encode_iff`. It is the representable responses that are read
back from their texts, each outcome as one of the kind it was, and every request is read back.
-/

namespace Tabular

/-! ### Failures -/

namespace BatchFailure

variable {f : BatchFailure}

/-- The number of the statement fits in 64 bits. -/
def Representable (f : BatchFailure) : Prop := f.statement < 18446744073709551616

theorem fields?_toJson (f : BatchFailure) :
    Json.fields? ["statement", "message"] f.toJson =
      some [some (.ofNat f.statement), some (.string f.message)] := by
  simp [toJson, Json.fields?, Json.onlyMember?]

theorem ofJson?_toJson (h : f.Representable) : ofJson? f.toJson = some f := by
  have hcount : Json.count? (.ofNat f.statement) = some f.statement := Json.count?_ofNat h
  unfold ofJson?
  rw [fields?_toJson]
  simp only [Json.required?_some, Json.string?, hcount]
  rfl

theorem representable_of_ofJson? {v : Json} (h : ofJson? v = some f) : f.Representable := by
  unfold ofJson? at h
  split at h
  · simp only [Option.bind_eq_bind, Option.bind_eq_some_iff] at h
    obtain ⟨statement, hstatement, message, -, hf⟩ := h
    obtain rfl := Option.some.inj hf
    obtain ⟨w, -, hw⟩ := Json.required?_eq_some_iff.1 hstatement
    exact Json.count?_lt hw
  · exact nomatch h

theorem nullableOfJson?_toJson (h : f.Representable) :
    nullableOfJson? f.toJson = some (some f) := by
  have hread := ofJson?_toJson h
  unfold toJson at *
  rw [nullableOfJson?, hread]
  · rfl
  · exact nofun

theorem representable_of_nullableOfJson? {v : Json} (h : nullableOfJson? v = some (some f)) :
    f.Representable := by
  unfold nullableOfJson? at h
  split at h
  · exact nomatch h
  · obtain ⟨g, hg, hgf⟩ := Option.map_eq_some_iff.1 h
    obtain rfl := Option.some.inj hgf
    exact representable_of_ofJson? hg

theorem isWhole_toJson (f : BatchFailure) : f.toJson.isWhole = true := by
  simp [toJson, Json.isWhole, Json.membersWhole, Json.ofNat]

end BatchFailure

/-! ### Responses -/

theorem Status.ofJson?_word (s : Status) : Status.ofJson? (.string s.word) = some s := by
  cases s <;> rfl

namespace BatchResponse

variable {r : BatchResponse}

/-- The outcomes are representable, and so is the failure if there is one. -/
def Representable (r : BatchResponse) : Prop :=
  (∀ o ∈ r.results, o.Representable) ∧ ∀ f ∈ r.failure, f.Representable

theorem fields?_toJson (r : BatchResponse) :
    Json.fields? ["status", "results", "error"] r.toJson =
      some [some (.string r.status.word), some (.array (r.results.map Outcome.toJson)),
        r.failure.map BatchFailure.toJson] := by
  cases hf : r.failure <;> simp [toJson, hf, Json.fields?, Json.onlyMember?]

theorem ofJson?_toJson (h : r.Representable) : ofJson? r.toJson = some r := by
  have hresults : Json.list? Outcome.ofJson? (.array (r.results.map Outcome.toJson)) =
      some r.results :=
    Json.list?_array fun o ho => Outcome.ofJson?_toJson (h.1 o ho)
  have hfailure : Json.defaulted? BatchFailure.nullableOfJson? none
      (r.failure.map BatchFailure.toJson) = some r.failure := by
    cases hf : r.failure with
    | none => rfl
    | some f =>
      have hread := BatchFailure.nullableOfJson?_toJson (h.2 f hf)
      rw [Option.map_some, Json.defaulted?, hread]
  unfold ofJson?
  rw [fields?_toJson]
  simp only [Json.required?_some, Status.ofJson?_word, hresults, hfailure]
  rfl

/-- **What is read as a response is representable.** -/
theorem representable_of_ofJson? {v : Json} (h : ofJson? v = some r) : r.Representable := by
  unfold ofJson? at h
  split at h
  · next _ _ failure _ =>
    simp only [Option.bind_eq_bind, Option.bind_eq_some_iff] at h
    obtain ⟨_, -, results, hresults, found, hfound, hr⟩ := h
    obtain rfl := Option.some.inj hr
    obtain ⟨w, -, hw⟩ := Json.required?_eq_some_iff.1 hresults
    refine ⟨fun o ho => ?_, fun f hf => ?_⟩
    · obtain ⟨u, hu⟩ := Json.exists_of_mem_list? hw o ho
      exact Outcome.representable_of_ofJson? hu
    · obtain rfl : found = some f := hf
      cases failure with
      | none => exact nomatch hfound
      | some u => exact BatchFailure.representable_of_nullableOfJson? hfound
  · exact nomatch h

theorem isWhole_toJson (r : BatchResponse) : r.toJson.isWhole = true := by
  have hresults : Json.itemsWhole (r.results.map Outcome.toJson) = true :=
    Json.itemsWhole_map fun o _ => o.isWhole_toJson
  cases hf : r.failure <;>
    simp [toJson, hf, Json.isWhole, Json.membersWhole, hresults, BatchFailure.isWhole_toJson]

theorem decode?_encode (r : BatchResponse) : decode? r.encode = ofJson? r.toJson := by
  unfold decode? encode
  rw [Json.parse_compact r.isWhole_toJson, Option.bind_some]

end BatchResponse

/-! ### Requests -/

namespace ClientRequest

theorem ofJson?_toJson (q : ClientRequest) : ofJson? q.toJson = some q := by
  have hfields : Json.fields? ["headers", "body"] q.toJson =
      some [some (.object (q.headers.entries.map fun e => (e.1, .string e.2))),
        some (.ofOption q.body)] := by
    simp [toJson, Json.fields?, Json.onlyMember?]
  have hheaders : Json.keyed? Json.string?
      (.object (q.headers.entries.map fun e => (e.1, .string e.2))) = some q.headers :=
    Json.keyed?_object fun _ _ => rfl
  unfold ofJson?
  rw [hfields]
  simp [Json.defaulted?, Json.optionalString?, Json.nullableString?_ofOption, hheaders]

theorem isWhole_toJson (q : ClientRequest) : q.toJson.isWhole = true := by
  have hheaders : Json.membersWhole (q.headers.entries.map fun e => (e.1, .string e.2)) = true :=
    Json.membersWhole_map fun _ _ => rfl
  simp [toJson, Json.isWhole, Json.membersWhole, Json.isWhole_ofOption, hheaders]

/-- Every request is read back. -/
theorem decode?_encode (q : ClientRequest) : decode? q.encode = some q := by
  unfold decode? encode
  rw [Json.parse_compact q.isWhole_toJson, Option.bind_some, ofJson?_toJson]

end ClientRequest

/-- **Messages are read back from their texts**: of the responses those whose numbers fit in 64 bits
and whose times are valid ones, and every request. -/
theorem decode?_encode_messages (r : BatchResponse) (q : ClientRequest) :
    (BatchResponse.decode? r.encode = some r ↔ r.Representable) ∧
      ClientRequest.decode? q.encode = some q := by
  refine ⟨?_, q.decode?_encode⟩
  rw [r.decode?_encode]
  exact ⟨BatchResponse.representable_of_ofJson?, BatchResponse.ofJson?_toJson⟩

end Tabular

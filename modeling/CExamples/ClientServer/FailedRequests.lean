import CExamples.ClientServer.Segmentation
import CExamples.ClientServer.RoundTrip

/-!
# The caller's response after a failed request

What the two functions of the client return for every file name and every answer of the system. Both
return before they touch the response if the request is not sent, `request_file_metadata` also if
nothing is received, and `parse_message` leaves the payload pointer as it was when it rejects a
message; in these cases the pointer is the caller's (`owns_payload_iff`).
-/

namespace CExamples.ClientServer

open C

/-! ## Metadata -/

section Metadata

variable {env : ClientEnv} {fileName : CString} {sent : List (List UInt8)}

theorem requestFileMetadata_of_sent
    (h : sendRequest env commandRequestMetadata fileName = some (statusOk, sent))
    (buffer : ReceiveBuffer) (segment : Segment) (segments : List Segment) (response : Response) :
    requestFileMetadata env fileName buffer (segment :: segments) response =
      (parseMessage env.payloadMalloc (buffer.receive segment).bytes
        (UInt32.ofNat segment.bytes.length) response).map fun result =>
          { rvalue :=
              if result.1 = statusOk ∧ result.2.header.status.toNat ≠ statusOk then
                result.2.header.status.toNat
              else result.1
            response := result.2
            sent } := by
  rw [requestFileMetadata, h, Option.bind_eq_bind, Option.bind_some]
  dsimp only
  rw [if_neg not_statusOk_ne]
  cases parseMessage env.payloadMalloc (buffer.receive segment).bytes
    (UInt32.ofNat segment.bytes.length) response with
  | none => rfl
  | some result =>
    obtain ⟨rvalue, parsed⟩ := result
    rw [Option.bind_eq_bind, Option.bind_some, Option.map_some]
    dsimp only
    split <;> rfl

theorem requestFileMetadata_of_not_sent {rvalue : ℕ}
    (h : sendRequest env commandRequestMetadata fileName = some (rvalue, sent))
    (hrvalue : rvalue ≠ statusOk) (buffer : ReceiveBuffer) (segments : List Segment)
    (response : Response) :
    requestFileMetadata env fileName buffer segments response =
      some { rvalue, response, sent } := by
  rw [requestFileMetadata, h, Option.bind_eq_bind, Option.bind_some]
  dsimp only
  rw [if_pos hrvalue]
  rfl

theorem requestFileMetadata_of_nil
    (h : sendRequest env commandRequestMetadata fileName = some (statusOk, sent))
    (buffer : ReceiveBuffer) (response : Response) :
    requestFileMetadata env fileName buffer [] response =
      some { rvalue := errorReceiveFailed, response, sent } := by
  rw [requestFileMetadata, h, Option.bind_eq_bind, Option.bind_some]
  dsimp only
  rw [if_neg not_statusOk_ne]
  rfl

end Metadata

theorem requestFileContents_of_not_sent {env : ClientEnv} {fileName : CString}
    {sent : List (List UInt8)} {rvalue : ℕ}
    (h : sendRequest env commandRequestFile fileName = some (rvalue, sent))
    (hrvalue : rvalue ≠ statusOk) (buffer : ReceiveBuffer) (segments : List Segment)
    (response : Response) :
    requestFileContents env fileName buffer segments response =
      some { rvalue, response, sent } := by
  rw [requestFileContents, h, Option.bind_eq_bind, Option.bind_some]
  dsimp only
  rw [if_pos hrvalue]
  rfl

/-! ## The caller's pointer -/

/-- The payload pointer is null, or a block with as many bytes as the header says, which lie behind
each other in what was received. -/
def Response.OwnsPayload (response : Response) (segments : List Segment) : Prop :=
  response.payload = .null ∨
    ∃ bytes, response.payload = .block bytes ∧
      bytes.length = response.header.payloadSize.toNat ∧
      ∃ segment ∈ segments, bytes <:+: segment.bytes

theorem not_ownsPayload_uninitialized (header : Header) (segments : List Segment) :
    ¬({ header, payload := .indeterminate } : Response).OwnsPayload segments := by
  rintro (h | ⟨bytes, h, -⟩) <;> cases h

/-- Whatever the caller's response held, a failed request leaves it with a payload of its own. -/
def FailuresOwnPayload (request : List Segment → Response → Option RequestResult)
    (segments : List Segment) : Prop :=
  ∀ (response : Response) (result : RequestResult), request segments response = some result →
    result.rvalue ≠ statusOk → result.response.OwnsPayload segments

/-- The first message arrives whole. -/
def FirstMessageWhole (segments : List Segment) : Prop :=
  ∃ segment rest, segments = segment :: rest ∧ headerSize ≤ segment.bytes.length ∧
    headerSize + announcedSize segment.bytes ≤ segment.bytes.length

/-- A request that fails and leaves the pointer as it was. -/
theorem not_failuresOwnPayload {request : List Segment → Response → Option RequestResult}
    {segments : List Segment} {response : Response} {rvalue : ℕ} {header : Header}
    {sent : List (List UInt8)}
    (h : request segments response =
      some { rvalue, response := { header, payload := .indeterminate }, sent })
    (hrvalue : rvalue ≠ statusOk) : ¬FailuresOwnPayload request segments := by
  intro howns
  exact not_ownsPayload_uninitialized header segments (howns response _ h hrvalue)

section Owns

variable {env : ClientEnv} {fileName : CString} {buffer : ReceiveBuffer} {segment : Segment}
  {segments : List Segment}

theorem not_failuresOwnPayload_of_short (hrequest : RequestSent env commandRequestMetadata fileName)
    (hshort : ¬FirstMessageWhole (segment :: segments)) :
    ¬FailuresOwnPayload (requestFileMetadata env fileName buffer) (segment :: segments) := by
  have hsent := requestFileMetadata_of_sent (sendRequest_of_requestSent hrequest) buffer segment
    segments { header := .init, payload := .indeterminate }
  -- In both cases `parse_message` rejects the size before it touches the pointer.
  rcases lt_or_ge segment.bytes.length headerSize with hlt | hlen
  · have hsize : (UInt32.ofNat segment.bytes.length).toNat < headerSize := by
      rwa [toNat_dataSize segment.length_le]
    rw [parseMessage_of_lt env.payloadMalloc _ hsize] at hsent
    exact not_failuresOwnPayload hsent (by decide)
  · obtain ⟨header, rest, hsegment⟩ := exists_decodeHeader hlen
    have hannounced : announcedSize segment.bytes = header.payloadSize.toNat := by
      rw [hsegment, announcedSize_encodeHeader_append]
    have hcut : segment.bytes.length < headerSize + header.payloadSize.toNat := by
      rw [← hannounced, ← not_le]
      intro hfits
      exact hshort ⟨segment, segments, rfl, hlen, hfits⟩
    have hzero : header.payloadSize.toNat ≠ 0 := by omega
    have hrvalue : ¬(errorInvalidDataSize = statusOk ∧ header.status.toNat ≠ statusOk) := by
      rintro ⟨⟨⟩, -⟩
    rw [parseMessage_receive _ buffer hsegment, if_neg hzero, if_pos hcut, Option.map_some] at hsent
    dsimp only at hsent
    rw [if_neg hrvalue] at hsent
    exact not_failuresOwnPayload hsent (by decide)

theorem failuresOwnPayload_of_whole (hrequest : RequestSent env commandRequestMetadata fileName)
    (hwhole : FirstMessageWhole segments) :
    FailuresOwnPayload (requestFileMetadata env fileName buffer) segments := by
  obtain ⟨segment, others, rfl, hlen, hfits⟩ := hwhole
  obtain ⟨header, rest, hsegment⟩ := exists_decodeHeader hlen
  rw [hsegment, announcedSize_encodeHeader_append, ← hsegment] at hfits
  have hlength := congrArg List.length hsegment
  rw [List.length_append, length_encodeHeader] at hlength
  intro response result hresult hrvalue
  -- Left are an empty payload, a copy of what was received, and a failed allocation.
  rw [requestFileMetadata_of_sent (sendRequest_of_requestSent hrequest),
    parseMessage_receive _ buffer hsegment, if_neg hfits.not_gt] at hresult
  have hresult := Option.some.inj hresult
  split at hresult
  · rw [← hresult]
    exact .inl rfl
  split at hresult
  · rw [← hresult]
    refine .inr ⟨_, rfl, List.length_take_of_le (by omega), segment, List.mem_cons_self, ?_⟩
    rw [hsegment]
    exact (List.take_prefix _ _).isInfix.trans (List.suffix_append _ _).isInfix
  · rw [← hresult]
    exact .inl rfl

theorem metadata_ownsPayload_iff :
    FailuresOwnPayload (requestFileMetadata env fileName buffer) segments ↔
      RequestSent env commandRequestMetadata fileName ∧ FirstMessageWhole segments := by
  by_cases hrequest : RequestSent env commandRequestMetadata fileName
  swap
  · obtain ⟨rvalue, sent, hsent, hrvalue⟩ := sendRequest_of_not_requestSent hrequest
    have hresult := requestFileMetadata_of_not_sent hsent hrvalue buffer segments
      { header := .init, payload := .indeterminate }
    exact iff_of_false (not_failuresOwnPayload hresult hrvalue) fun h => hrequest h.1
  rw [and_iff_right hrequest]
  constructor
  · intro howns
    cases segments with
    | nil =>
      have hresult := requestFileMetadata_of_nil (sendRequest_of_requestSent hrequest) buffer
        { header := .init, payload := .indeterminate }
      exact absurd howns (not_failuresOwnPayload hresult (by decide))
    | cons segment segments =>
      by_contra hshort
      exact not_failuresOwnPayload_of_short hrequest hshort howns
  · exact failuresOwnPayload_of_whole hrequest

/-- One iteration goes on, completes the payload, or leaves a null pointer. -/
theorem receiveMessage_cases {realloc : ℕ → Bool} {state : ReceiveState} {bytes : List UInt8}
    (h : state.Received bytes) {outcome : ReceiveState ⊕ (ℕ × Response)}
    (hstep : receiveMessage realloc state segment = some outcome) :
    (∃ next received, outcome = .inl next ∧ next.Received received) ∨
      ∃ rvalue response, outcome = .inr (rvalue, response) ∧
        (rvalue = statusOk ∨ response.payload = .null) := by
  rcases lt_or_ge segment.bytes.length headerSize with hlt | hlen
  · rw [receiveMessage_of_lt h hlt] at hstep
    cases hstep
    exact .inr ⟨_, _, rfl, .inr rfl⟩
  obtain ⟨header, rest, hsegment⟩ := exists_decodeHeader hlen
  rw [receiveMessage_of_header h hsegment] at hstep
  split at hstep
  · split at hstep
    · obtain ⟨copied, hcopied, rfl⟩ := Option.map_eq_some_iff.mp hstep
      split
      · exact .inr ⟨_, _, rfl, .inl rfl⟩
      · refine .inl ⟨_, bytes ++ copied, rfl, ?_, .inr rfl⟩
        rw [List.length_append, length_of_slice hcopied]
    · cases hstep
      exact .inr ⟨_, _, rfl, .inr rfl⟩
  · split at hstep <;> cases hstep <;> exact .inr ⟨_, _, rfl, .inr rfl⟩

/-- The loop leaves a null pointer whenever it fails. -/
theorem payload_of_receiveLoop {realloc : ℕ → ℕ → Bool} {state : ReceiveState}
    {bytes : List UInt8} (h : state.Received bytes) {rvalue : ℕ} {response : Response}
    (hloop : receiveLoop realloc state segments = some (rvalue, response))
    (hrvalue : rvalue ≠ statusOk) : response.payload = .null := by
  induction segments generalizing realloc state bytes with
  | nil =>
    rw [receiveLoop, receiveError_of_received h errorReceiveFailed state.response.header] at hloop
    cases hloop
    rfl
  | cons segment segments ih =>
    cases hstep : receiveMessage (realloc 0) state segment with
    | none =>
      rw [receiveLoop, hstep] at hloop
      cases hloop
    | some outcome =>
      rcases receiveMessage_cases h hstep with
        ⟨next, received, rfl, hreceived⟩ | ⟨code, final, rfl, hfinal⟩
      · rw [receiveLoop_of_next hstep] at hloop
        exact ih hreceived hloop
      · rw [receiveLoop_of_result hstep] at hloop
        cases hloop
        exact hfinal.resolve_left hrvalue

theorem contents_ownsPayload_iff :
    FailuresOwnPayload (requestFileContents env fileName buffer) segments ↔
      RequestSent env commandRequestFile fileName := by
  constructor
  · intro howns
    by_contra hrequest
    obtain ⟨rvalue, sent, hsent, hrvalue⟩ := sendRequest_of_not_requestSent hrequest
    have hresult := requestFileContents_of_not_sent hsent hrvalue buffer segments
      { header := .init, payload := .indeterminate }
    exact not_failuresOwnPayload hresult hrvalue howns
  · intro hrequest response result hresult hrvalue
    rw [requestFileContents_of_sent (sendRequest_of_requestSent hrequest),
      Option.map_eq_some_iff] at hresult
    obtain ⟨outcome, hloop, rfl⟩ := hresult
    exact .inl (payload_of_receiveLoop (received_start buffer response) hloop hrvalue)

end Owns

/-- **Responses after a failure.** However the caller's response was initialised, every failure of
`request_file_metadata` leaves it with a payload of its own if and only if the request is sent and
the first message arrives whole, and every failure of `request_file_contents` if and only if the
request is sent. -/
theorem owns_payload_iff (env : ClientEnv) (fileName : CString) (buffer : ReceiveBuffer)
    (segments : List Segment) :
    (FailuresOwnPayload (requestFileMetadata env fileName buffer) segments ↔
      RequestSent env commandRequestMetadata fileName ∧ FirstMessageWhole segments) ∧
    (FailuresOwnPayload (requestFileContents env fileName buffer) segments ↔
      RequestSent env commandRequestFile fileName) :=
  ⟨metadata_ownsPayload_iff, contents_ownsPayload_iff⟩

/-- A stream that ends before the metadata come, and a file name that does not fit in a request. -/
theorem failures_leave_pointer :
    (requestFileMetadata .reliable (.ofLiteral "a.txt")
        ⟨List.replicate maxMessageSize 0, List.length_replicate⟩ []
        { header := .init, payload := .indeterminate }).map
      (fun result => (result.rvalue, result.response.payload)) =
        some (errorReceiveFailed, .indeterminate) ∧
    (requestFileContents .reliable ⟨List.replicate 1024 97, by decide +kernel⟩
        ⟨List.replicate maxMessageSize 0, List.length_replicate⟩ []
        { header := .init, payload := .indeterminate }).map
      (fun result => (result.rvalue, result.response.payload)) =
        some (errorMaxPayloadSizeExceeded, .indeterminate) ∧
    ¬FailuresOwnPayload (requestFileMetadata .reliable (.ofLiteral "a.txt")
        ⟨List.replicate maxMessageSize 0, List.length_replicate⟩) [] := by
  refine ⟨by decide +kernel, by decide +kernel, ?_⟩
  intro howns
  have hresult : requestFileMetadata .reliable (.ofLiteral "a.txt")
      ⟨List.replicate maxMessageSize 0, List.length_replicate⟩ []
      { header := .init, payload := .indeterminate } =
        some {
          rvalue := errorReceiveFailed
          response := { header := .init, payload := .indeterminate }
          sent := [[1, 2, 0, 0, 0, 6, 0, 0, 0, 0, 255, 97, 46, 116, 120, 116, 0]] } := by
    decide +kernel
  exact not_failuresOwnPayload hresult (by decide) howns

end CExamples.ClientServer

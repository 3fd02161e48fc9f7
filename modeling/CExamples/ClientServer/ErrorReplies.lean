import CExamples.ClientServer.FailedRequests
import CExamples.ClientServer.TerminalReply

/-!
# An error reply on the two paths of the client

`request_file_metadata` keeps the text of an error reply in the caller's response, and
`request_file_contents` frees it on its way out. The two agree only where there is no text to keep
(`errorReplies_agree_iff`).
-/

namespace CExamples.ClientServer

open C

section FirstMessage

variable {env : ClientEnv} {fileName : CString} {error : Frame} {segment : Segment}
  {rest : List UInt8}

theorem requestFileMetadata_of_errorReply
    (hrequest : RequestSent env commandRequestMetadata fileName) (herror : IsErrorReply error)
    (hsegment : segment.bytes = error.encode ++ rest) (buffer : ReceiveBuffer)
    (segments : List Segment) (response : Response) :
    requestFileMetadata env fileName buffer (segment :: segments) response =
      some (if error.payload ≠ [] ∧ env.payloadMalloc = false then
          { rvalue := errorMemoryAllocationFailed
            response := { header := error.header, payload := .null }
            sent := [requestBytes commandRequestMetadata fileName] }
        else
          { rvalue := error.header.status.toNat
            response := error.response
            sent := [requestBytes commandRequestMetadata fileName] }) := by
  have hlen := error.length_payload
  rw [Frame.encode, List.append_assoc] at hsegment
  have hfits : ¬segment.bytes.length < headerSize + error.header.payloadSize.toNat := by
    rw [hsegment, List.length_append, List.length_append, length_encodeHeader]
    omega
  rw [requestFileMetadata_of_sent (sendRequest_of_requestSent hrequest),
    parseMessage_receive _ buffer hsegment, if_neg hfits, ← hlen, List.take_left, Option.map_some,
    Frame.response, payloadPtr]
  have hok : statusOk = statusOk ∧ error.header.status.toNat ≠ statusOk := ⟨rfl, herror.2⟩
  have hmemory : ¬(errorMemoryAllocationFailed = statusOk ∧
      error.header.status.toNat ≠ statusOk) := by
    rintro ⟨⟨⟩, -⟩
  by_cases hnil : error.payload = []
  · have hne : ¬(error.payload ≠ [] ∧ env.payloadMalloc = false) := fun h => h.1 hnil
    rw [if_neg hne, if_pos (List.length_eq_zero_iff.mpr hnil), if_pos hnil]
    dsimp only
    rw [if_pos hok]
  · have hpos : error.payload.length ≠ 0 := mt List.length_eq_zero_iff.mp hnil
    rw [if_neg hpos, if_neg hnil]
    cases env.payloadMalloc with
    | false =>
      have hfails : error.payload ≠ [] ∧ false = false := ⟨hnil, rfl⟩
      rw [if_neg Bool.false_ne_true, if_pos hfails]
      dsimp only
      rw [if_neg hmemory]
    | true =>
      have hsucceeds : ¬(error.payload ≠ [] ∧ true = false) := by
        rintro ⟨-, ⟨⟩⟩
      rw [if_pos rfl, if_neg hsucceeds]
      dsimp only
      rw [if_pos hok]

theorem requestFileContents_of_errorReply
    (hrequest : RequestSent env commandRequestFile fileName) (herror : IsErrorReply error)
    (hsegment : segment.bytes = error.encode ++ rest) (buffer : ReceiveBuffer)
    (segments : List Segment) (response : Response) :
    requestFileContents env fileName buffer (segment :: segments) response =
      some {
        rvalue := error.header.status.toNat
        response := { header := error.header, payload := .null }
        sent := [requestBytes commandRequestFile fileName] } := by
  rw [Frame.encode, List.append_assoc] at hsegment
  have hstep : receiveMessage (env.realloc 0) (.start buffer response) segment = _ :=
    receiveMessage_of_error (received_start buffer response) hsegment herror.1 herror.2
  rw [requestFileContents_of_sent (sendRequest_of_requestSent hrequest),
    receiveLoop_of_result hstep]
  rfl

/-- **Error replies.** Of an error reply that is the first message, both functions of the client
make the same value and the same response if and only if the reply has no payload, or there is no
memory for one and the reply itself reports that. -/
theorem errorReplies_agree_iff (hmetadata : RequestSent env commandRequestMetadata fileName)
    (hfile : RequestSent env commandRequestFile fileName) (herror : IsErrorReply error)
    (hsegment : segment.bytes = error.encode ++ rest) (buffer₁ buffer₂ : ReceiveBuffer)
    (segments₁ segments₂ : List Segment) (response₁ response₂ : Response) :
    (∃ result₁ result₂,
      requestFileMetadata env fileName buffer₁ (segment :: segments₁) response₁ = some result₁ ∧
      requestFileContents env fileName buffer₂ (segment :: segments₂) response₂ = some result₂ ∧
      result₁.rvalue = result₂.rvalue ∧ result₁.response = result₂.response) ↔
      error.payload = [] ∨ env.payloadMalloc = false ∧
        error.header.status.toNat = errorMemoryAllocationFailed := by
  rw [requestFileMetadata_of_errorReply hmetadata herror hsegment,
    requestFileContents_of_errorReply hfile herror hsegment]
  by_cases hnil : error.payload = []
  · have hne : ¬(error.payload ≠ [] ∧ env.payloadMalloc = false) := fun h => h.1 hnil
    rw [if_neg hne, Frame.response, payloadPtr, if_pos hnil]
    exact iff_of_true ⟨_, _, rfl, rfl, rfl, rfl⟩ (.inl hnil)
  rw [or_iff_right hnil]
  cases env.payloadMalloc with
  | false =>
    have hfails : error.payload ≠ [] ∧ false = false := ⟨hnil, rfl⟩
    rw [if_pos hfails, and_iff_right rfl]
    constructor
    · rintro ⟨result₁, result₂, h₁, h₂, hrvalue, -⟩
      cases h₁
      cases h₂
      exact hrvalue.symm
    · intro hstatus
      exact ⟨_, _, rfl, rfl, hstatus.symm, rfl⟩
  | true =>
    have hsucceeds : ¬(error.payload ≠ [] ∧ true = false) := by
      rintro ⟨-, ⟨⟩⟩
    rw [if_neg hsucceeds, Frame.response, payloadPtr, if_neg hnil]
    -- A block on one side and a null pointer on the other.
    apply iff_of_false
    · rintro ⟨result₁, result₂, h₁, h₂, -, hresponse⟩
      cases h₁
      cases h₂
      cases hresponse
    · rintro ⟨⟨⟩, -⟩

end FirstMessage

/-- The text of an error reply, kept by one path and lost by the other. -/
theorem errorReply_text_lost :
    (requestFileMetadata .reliable (.ofLiteral "a")
        ⟨List.replicate maxMessageSize 0, List.length_replicate⟩
        [⟨[2, 2, 0, 0, 0, 2, 0, 0, 0, 0, 2, 120, 0], by decide, by decide⟩]
        { header := .init, payload := .indeterminate }).map
      (fun result => (result.rvalue, result.response)) =
        some (errorFileNotFound, { header := ⟨2, 2, 2, 0, 2⟩, payload := .block [120, 0] }) ∧
    (requestFileContents .reliable (.ofLiteral "a")
        ⟨List.replicate maxMessageSize 0, List.length_replicate⟩
        [⟨[2, 2, 0, 0, 0, 2, 0, 0, 0, 0, 2, 120, 0], by decide, by decide⟩]
        { header := .init, payload := .indeterminate }).map
      (fun result => (result.rvalue, result.response)) =
        some (errorFileNotFound, { header := ⟨2, 2, 2, 0, 2⟩, payload := .null }) := by
  constructor
  · decide +kernel
  · decide +kernel

theorem errorReplies_agree_oneLetter :
    (∃ result₁ result₂,
      requestFileMetadata .reliable (.ofLiteral "a")
          ⟨List.replicate maxMessageSize 0, List.length_replicate⟩
          [⟨[2, 2, 0, 0, 0, 2, 0, 0, 0, 0, 2, 120, 0], by decide, by decide⟩]
          { header := .init, payload := .indeterminate } = some result₁ ∧
      requestFileContents .reliable (.ofLiteral "a")
          ⟨List.replicate maxMessageSize 0, List.length_replicate⟩
          [⟨[2, 2, 0, 0, 0, 2, 0, 0, 0, 0, 2, 120, 0], by decide, by decide⟩]
          { header := .init, payload := .indeterminate } = some result₂ ∧
      result₁.rvalue = result₂.rvalue ∧ result₁.response = result₂.response) ↔
      ([120, 0] : List UInt8) = [] ∨ true = false ∧ 2 = errorMemoryAllocationFailed := by
  have hmetadata : RequestSent .reliable commandRequestMetadata (.ofLiteral "a") :=
    ⟨by decide +kernel, Option.some_ne_none _, by decide +kernel⟩
  have hfile : RequestSent .reliable commandRequestFile (.ofLiteral "a") :=
    ⟨by decide +kernel, Option.some_ne_none _, by decide +kernel⟩
  have herror : IsErrorReply ⟨⟨2, 2, 2, 0, 2⟩, [120, 0], rfl, by decide⟩ := ⟨rfl, by decide⟩
  have hsegment : (⟨[2, 2, 0, 0, 0, 2, 0, 0, 0, 0, 2, 120, 0], by decide, by decide⟩ :
      Segment).bytes = Frame.encode ⟨⟨2, 2, 2, 0, 2⟩, [120, 0], rfl, by decide⟩ ++ [] := by
    decide +kernel
  exact errorReplies_agree_iff hmetadata hfile herror hsegment _ _ _ _ _ _

end CExamples.ClientServer

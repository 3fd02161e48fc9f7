import CExamples.ClientServer.ClientFrames

/-!
# What the client returns depends on the segmentation

The receive loop takes every `recv` for one whole message. A stream cut after its first byte makes
it return `ERROR_INVALID_DATA_SIZE`, and there is nearly always another cutting for which it returns
something else (`AllTooShort.beginsWith`). The exceptions are the streams that hold no header at all
and those that begin with just the error reply, `ERROR_INVALID_DATA_SIZE` included, whose header the
caller's response held from the start (`requestFileContents_agree_iff`).
-/

namespace CExamples.ClientServer

open C

/-! ## Cuttings of a stream -/

/-- The segments are the stream, cut somehow. -/
def Cuts (segments : List Segment) (stream : List UInt8) : Prop :=
  segments.flatMap Segment.bytes = stream

def Segment.single (byte : UInt8) : Segment where
  bytes := [byte]
  ne_nil := List.cons_ne_nil byte []
  length_le := show 1 ≤ maxMessageSize by decide

theorem cuts_single (stream : List UInt8) : Cuts (stream.map .single) stream := by
  unfold Cuts
  rw [List.flatMap_map]
  exact List.flatMap_singleton' stream

/-- A stream can be cut after any number of bytes that one `recv` can return. -/
theorem Cuts.cons {segments : List Segment} {first stream : List UInt8} (h : Cuts segments stream)
    (hne : first ≠ []) (hle : first.length ≤ maxMessageSize) :
    Cuts (⟨first, hne, hle⟩ :: segments) (first ++ stream) := by
  unfold Cuts at h ⊢
  rw [List.flatMap_cons, h]

/-- A stream that begins with a header can be cut right behind it. -/
theorem exists_cuts_header (header : Header) (rest : List UInt8) :
    ∃ (segment : Segment) (segments : List Segment), segment.bytes = encodeHeader header ++ [] ∧
      Cuts (segment :: segments) (encodeHeader header ++ rest) := by
  have hne : encodeHeader header ≠ [] := List.cons_ne_nil _ _
  have hle : (encodeHeader header).length ≤ maxMessageSize := by
    rw [length_encodeHeader, maxMessageSize]
    omega
  exact ⟨⟨_, hne, hle⟩, _, (List.append_nil _).symm, (cuts_single rest).cons hne hle⟩

/-! ## One segment -/

/-- What the client returns for a segment of less than a header. -/
def tooShort (response : Response) : ℕ × Response :=
  (errorInvalidDataSize, { header := response.header, payload := .null })

variable {state : ReceiveState} {bytes : List UInt8} {segment : Segment} {segments : List Segment}
  {realloc : ℕ → ℕ → Bool}

/-- A payload that is copied lies in the buffer. -/
theorem payloadSize_le_of_slice {buffer : ReceiveBuffer} {n : ℕ} {copied : List UInt8}
    (h : slice buffer.bytes headerSize n = some copied) : n ≤ maxPayloadSize := by
  have hle := (slice_eq_some_iff.mp h).1
  rw [buffer.length_bytes, maxMessageSize] at hle
  omega

/-- A first segment of less than a header. -/
theorem receiveLoop_of_lt (h : state.Received bytes) (hshort : segment.bytes.length < headerSize) :
    receiveLoop realloc state (segment :: segments) = some (tooShort state.response) :=
  receiveLoop_of_result (receiveMessage_of_lt h hshort) segments

/-- A first segment with a header that does not lead to another iteration is told apart from a
segment of less than a header, unless it brings the reply that the response already holds. -/
theorem header_of_receiveLoop_eq (h : state.Received bytes) {header : Header} {rest : List UInt8}
    (hsegment : segment.bytes = encodeHeader header ++ rest)
    (hchunk : header.messageType = messageResponseChunk →
      maxPayloadSize < header.payloadSize.toNat)
    (hloop : receiveLoop realloc state (segment :: segments) = some (tooShort state.response)) :
    header = state.response.header ∧ header.messageType = messageResponse ∧
      header.status.toNat = errorInvalidDataSize := by
  rw [receiveLoop, receiveMessage_of_header h hsegment] at hloop
  unfold tooShort at hloop
  by_cases htype : header.messageType = messageResponseChunk ∨
      header.messageType = messageResponseLastChunk
  · -- Neither a chunk nor an allocation that fails ends the loop with that error.
    rw [if_pos htype] at hloop
    cases hrealloc : realloc 0 (bytes.length + header.payloadSize.toNat) with
    | false =>
      rw [hrealloc] at hloop
      cases hloop
    | true =>
      rw [hrealloc, if_pos rfl] at hloop
      cases hslice : slice (state.buffer.receive segment).bytes headerSize
          header.payloadSize.toNat with
      | none =>
        rw [hslice] at hloop
        cases hloop
      | some copied =>
        have hle := payloadSize_le_of_slice hslice
        have hlast := htype.resolve_left fun h => (hchunk h).not_ge hle
        rw [hslice, Option.map_some, if_pos hlast] at hloop
        cases hloop
  · rw [if_neg htype] at hloop
    by_cases herror : header.messageType = messageResponse ∧ header.status.toNat ≠ statusOk
    · rw [if_pos herror] at hloop
      have hresult := Option.some.inj hloop
      rw [Prod.mk.injEq, Response.mk.injEq] at hresult
      exact ⟨hresult.2.1, herror.1, hresult.1⟩
    · rw [if_neg herror] at hloop
      cases hloop

/-- A chunk that fits leads to the next iteration, with the response's header as it was, unless
there is no memory for it. -/
theorem receiveMessage_of_fits {realloc : ℕ → Bool} (h : state.Received bytes) {header : Header}
    {rest : List UInt8} (hsegment : segment.bytes = encodeHeader header ++ rest)
    (htype : header.messageType = messageResponseChunk)
    (hfits : header.payloadSize.toNat ≤ maxPayloadSize) :
    (∃ next bytes, receiveMessage realloc state segment = some (.inl next) ∧
      next.Received bytes ∧ next.response.header = state.response.header) ∨
    receiveMessage realloc state segment =
      some (.inr (errorMemoryAllocationFailed,
        { header := state.response.header, payload := .null })) := by
  cases hrealloc : realloc (bytes.length + header.payloadSize.toNat) with
  | false =>
    right
    rw [receiveMessage_of_header h hsegment, if_pos (.inl htype), hrealloc]
    rfl
  | true =>
    left
    have hslice : slice (state.buffer.receive segment).bytes headerSize header.payloadSize.toNat =
        some (((state.buffer.receive segment).bytes.drop headerSize).take
          header.payloadSize.toNat) := by
      rw [slice_eq_some_iff, ReceiveBuffer.length_bytes, maxMessageSize]
      exact ⟨by omega, rfl⟩
    obtain ⟨next, hnext, hreceived, hheader⟩ :=
      receiveMessage_of_slice h hsegment htype hrealloc hslice
    exact ⟨next, _, hnext, hreceived, hheader⟩

/-! ## Two segments -/

/-- A second segment with a header, behind a chunk that fits. -/
theorem header_of_receiveLoop_eq_second (h : state.Received bytes) {header header₂ : Header}
    {rest rest₂ : List UInt8} {segment₂ : Segment}
    (hsegment : segment.bytes = encodeHeader header ++ rest)
    (htype : header.messageType = messageResponseChunk)
    (hfits : header.payloadSize.toNat ≤ maxPayloadSize)
    (hsegment₂ : segment₂.bytes = encodeHeader header₂ ++ rest₂)
    (hchunk₂ : header₂.messageType = messageResponseChunk →
      maxPayloadSize < header₂.payloadSize.toNat)
    (hloop : receiveLoop realloc state (segment :: segment₂ :: segments) =
      some (tooShort state.response)) :
    header₂.messageType = messageResponse ∧ header₂.status.toNat = errorInvalidDataSize := by
  rcases receiveMessage_of_fits h hsegment htype hfits with
    ⟨next, received, hnext, hreceived, hheader⟩ | hmemory
  · rw [receiveLoop_of_next hnext, tooShort, ← hheader] at hloop
    exact (header_of_receiveLoop_eq hreceived hsegment₂ hchunk₂ hloop).2
  · rw [receiveLoop_of_result hmemory] at hloop
    cases hloop

/-! ## All cuttings -/

/-- The stream begins with a reply that reports `ERROR_INVALID_DATA_SIZE`, with the given header. -/
def BeginsWithInvalidDataSize (header : Header) (stream : List UInt8) : Prop :=
  (∃ rest, stream = encodeHeader header ++ rest) ∧ header.messageType = messageResponse ∧
    header.status.toNat = errorInvalidDataSize

/-- However the stream is cut, the client returns what it returns for a segment of less than a
header. -/
def AllTooShort (realloc : ℕ → ℕ → Bool) (buffer : ReceiveBuffer) (response : Response)
    (stream : List UInt8) : Prop :=
  ∀ segments, Cuts segments stream →
    receiveLoop realloc (.start buffer response) segments = some (tooShort response)

section AllCuttings

variable {buffer : ReceiveBuffer} {response : Response} {stream : List UInt8}

/-- A stream that holds a header can be cut so that the first segment holds none. -/
theorem exists_cuts_short (realloc : ℕ → ℕ → Bool) (buffer : ReceiveBuffer) (response : Response)
    (hlen : headerSize ≤ stream.length) :
    ∃ segments, Cuts segments stream ∧
      receiveLoop realloc (.start buffer response) segments = some (tooShort response) := by
  cases stream with
  | nil => cases hlen
  | cons first rest =>
    refine ⟨_, cuts_single (first :: rest), ?_⟩
    exact receiveLoop_of_lt (received_start buffer response) (show 1 < headerSize by decide)

/-- The bytes of a header that starts at an offset. -/
theorem getElem?_of_drop {k : ℕ} {header : Header} {rest : List UInt8}
    (h : stream.drop k = encodeHeader header ++ rest) :
    stream[k]? = some header.messageType ∧ stream[k + 10]? = some header.status := by
  obtain ⟨p₀, p₁, p₂, p₃, hp, -⟩ := exists_toWire header.payloadSize
  obtain ⟨i₀, i₁, i₂, i₃, hi, -⟩ := exists_toWire header.chunkIndex
  have h₀ : (stream.drop k)[0]? = stream[k]? := List.getElem?_drop
  have h₁₀ : (stream.drop k)[10]? = stream[k + 10]? := List.getElem?_drop
  rw [encodeHeader, hp, hi] at h
  rw [h] at h₀ h₁₀
  exact ⟨h₀.symm, h₁₀.symm⟩

/-- A header among bytes that are all those of `MESSAGE_RESPONSE_CHUNK` announces too much. -/
theorem payloadSize_of_threes {k : ℕ} {header : Header} {rest : List UInt8}
    (h : stream.drop k = encodeHeader header ++ rest)
    (hthrees : ∀ j, k ≤ j → j < k + 6 → stream[j]? = some messageResponseChunk) :
    maxPayloadSize < header.payloadSize.toNat := by
  obtain ⟨p₀, p₁, p₂, p₃, hp, hp'⟩ := exists_toWire header.payloadSize
  have hbytes : ∀ j, j < 6 → (encodeHeader header ++ rest)[j]? = some messageResponseChunk := by
    intro j hj
    rw [← h, List.getElem?_drop]
    exact hthrees (k + j) (by omega) (by omega)
  rw [encodeHeader, hp] at hbytes
  have h₀ : p₀ = messageResponseChunk := Option.some.inj (hbytes 2 (by omega))
  have h₁ : p₁ = messageResponseChunk := Option.some.inj (hbytes 3 (by omega))
  have h₂ : p₂ = messageResponseChunk := Option.some.inj (hbytes 4 (by omega))
  have h₃ : p₃ = messageResponseChunk := Option.some.inj (hbytes 5 (by omega))
  rw [← hp', h₀, h₁, h₂, h₃]
  decide

namespace AllTooShort

variable {header header₂ : Header} {rest rest₂ : List UInt8} {k : ℕ}

/-- Behind a chunk that fits, a second segment can be made to start at any header. -/
theorem second (hall : AllTooShort realloc buffer response stream)
    (hstream : stream = encodeHeader header ++ rest)
    (htype : header.messageType = messageResponseChunk)
    (hfits : header.payloadSize.toNat ≤ maxPayloadSize) (hk : headerSize ≤ k)
    (hk' : k ≤ maxMessageSize) (hdrop : stream.drop k = encodeHeader header₂ ++ rest₂)
    (hchunk₂ : header₂.messageType = messageResponseChunk →
      maxPayloadSize < header₂.payloadSize.toNat) :
    header₂.messageType = messageResponse ∧ header₂.status.toNat = errorInvalidDataSize := by
  have hfirst : stream.take k = encodeHeader header ++ rest.take (k - headerSize) := by
    rw [hstream, List.take_append, length_encodeHeader, List.take_of_length_le]
    rwa [length_encodeHeader]
  have hne : stream.take k ≠ [] := by
    rw [hfirst]
    exact encodeHeader_append_ne_nil _ _
  have hle : (stream.take k).length ≤ maxMessageSize := (List.length_take_le _ _).trans hk'
  obtain ⟨segment₂, segments, hsegment₂, hcuts₂⟩ := exists_cuts_header header₂ rest₂
  have hcuts := hcuts₂.cons hne hle
  rw [← hdrop, List.take_append_drop] at hcuts
  exact header_of_receiveLoop_eq_second (received_start buffer response) hfirst htype hfits
    hsegment₂ hchunk₂ (hall _ hcuts)

/-- A stream that begins with a chunk that fits and goes on beyond a `recv`: any byte behind the
header that is not that of another chunk is that of a reply. -/
theorem getElem?_of_ne (hall : AllTooShort realloc buffer response stream)
    (hstream : stream = encodeHeader header ++ rest)
    (htype : header.messageType = messageResponseChunk)
    (hfits : header.payloadSize.toNat ≤ maxPayloadSize) (hk : headerSize ≤ k)
    (hk' : k ≤ maxMessageSize) (hlen : k + headerSize ≤ stream.length)
    (hne : stream[k]? ≠ some messageResponseChunk) :
    stream[k]? = some messageResponse ∧
      ∃ status : UInt8, stream[k + 10]? = some status ∧ status.toNat = errorInvalidDataSize := by
  have hlen' : headerSize ≤ (stream.drop k).length := by
    rw [List.length_drop]
    omega
  obtain ⟨header₂, rest₂, hdrop⟩ := exists_decodeHeader hlen'
  obtain ⟨hbyte, hbyte'⟩ := getElem?_of_drop hdrop
  have hchunk₂ : header₂.messageType ≠ messageResponseChunk := by
    intro htype₂
    rw [hbyte, htype₂] at hne
    exact hne rfl
  obtain ⟨htype₂, hstatus₂⟩ :=
    hall.second hstream htype hfits hk hk' hdrop fun h => absurd h hchunk₂
  rw [htype₂] at hbyte
  exact ⟨hbyte, header₂.status, hbyte', hstatus₂⟩

/-- A stream that is a chunk that fits and no longer than a `recv`: the loop waits for the next
chunk in vain. -/
theorem not_chunk_of_length_le (hall : AllTooShort realloc buffer response stream)
    (hstream : stream = encodeHeader header ++ rest)
    (htype : header.messageType = messageResponseChunk)
    (hfits : header.payloadSize.toNat ≤ maxPayloadSize)
    (hlen : stream.length ≤ maxMessageSize) : False := by
  have hne : stream ≠ [] := by
    rw [hstream]
    exact encodeHeader_append_ne_nil _ _
  let whole : Segment := ⟨stream, hne, hlen⟩
  have hwhole : whole.bytes = encodeHeader header ++ rest := hstream
  have hloop := hall [whole] (List.flatMap_singleton _ _)
  rcases receiveMessage_of_fits (received_start buffer response) hwhole htype hfits with
    ⟨next, received, hnext, hreceived, -⟩ | hmemory
  · rw [receiveLoop_of_next hnext, receiveLoop] at hloop
    have herror := receiveError_of_received hreceived errorReceiveFailed next.response.header
    cases herror.symm.trans hloop
  · rw [receiveLoop_of_result hmemory] at hloop
    cases hloop

/-- A stream that begins with a chunk that fits is not cut so that all results agree. -/
theorem not_chunk (hall : AllTooShort realloc buffer response stream)
    (hstream : stream = encodeHeader header ++ rest)
    (htype : header.messageType = messageResponseChunk)
    (hfits : header.payloadSize.toNat ≤ maxPayloadSize) : False := by
  rcases le_or_gt stream.length maxMessageSize with hshort | hlong
  · exact hall.not_chunk_of_length_le hstream htype hfits hshort
  simp only [maxMessageSize, headerSize, maxPayloadSize] at hlong
  -- A second segment may start anywhere up to here, and its first byte is that of a reply.
  have hreply : ∀ k, headerSize ≤ k → k ≤ 26 → stream[k]? ≠ some messageResponseChunk →
      stream[k]? = some messageResponse ∧
        ∃ status : UInt8, stream[k + 10]? = some status ∧
          status.toNat = errorInvalidDataSize := by
    intro k hk hk'
    apply hall.getElem?_of_ne hstream htype hfits hk
    · simp only [maxMessageSize, headerSize, maxPayloadSize]
      omega
    · rw [headerSize]
      omega
  by_cases hthrees : ∀ j, headerSize ≤ j → j < headerSize + 6 →
      stream[j]? = some messageResponseChunk
  · have hlen : headerSize ≤ (stream.drop headerSize).length := by
      rw [List.length_drop, headerSize]
      omega
    obtain ⟨header₂, rest₂, hdrop⟩ := exists_decodeHeader hlen
    obtain ⟨htype₂, -⟩ := hall.second hstream htype hfits le_rfl (Nat.le_add_right _ _) hdrop
      fun _ => payloadSize_of_threes hdrop hthrees
    have hbyte := (getElem?_of_drop hdrop).1
    rw [hthrees headerSize le_rfl (by omega), htype₂] at hbyte
    cases hbyte
  · push Not at hthrees
    obtain ⟨k, hk, hk', hne⟩ := hthrees
    simp only [headerSize] at hk hk'
    obtain ⟨-, status, hstatus, hcode⟩ := hreply k hk (by omega) hne
    -- The status of that reply is no message type, so another segment may not start there.
    have hne' : stream[k + 10]? ≠ some messageResponseChunk := by
      rw [hstatus]
      rintro ⟨⟩
      cases hcode
    obtain ⟨hbyte, -⟩ := hreply (k + 10) (hk.trans (by omega)) (by omega) hne'
    rw [hstatus] at hbyte
    cases hbyte
    cases hcode

/-- If all cuttings of a stream that holds a header agree, the stream begins with the reply that the
response already holds. -/
theorem beginsWith (hall : AllTooShort realloc buffer response stream)
    (hlen : headerSize ≤ stream.length) : BeginsWithInvalidDataSize response.header stream := by
  obtain ⟨header, rest, hstream⟩ := exists_decodeHeader hlen
  have hchunk : header.messageType = messageResponseChunk →
      maxPayloadSize < header.payloadSize.toNat := by
    intro htype
    by_contra hfits
    exact hall.not_chunk hstream htype (not_lt.mp hfits)
  obtain ⟨segment, segments, hsegment, hcuts⟩ := exists_cuts_header header rest
  rw [← hstream] at hcuts
  obtain ⟨rfl, htype, hstatus⟩ := header_of_receiveLoop_eq (received_start buffer response)
    hsegment hchunk (hall _ hcuts)
  exact ⟨⟨rest, hstream⟩, htype, hstatus⟩

end AllTooShort

/-- Every cutting of a stream that begins with the reply that the response already holds. -/
theorem BeginsWithInvalidDataSize.all (h : BeginsWithInvalidDataSize response.header stream) :
    AllTooShort realloc buffer response stream := by
  intro segments hcuts
  obtain ⟨⟨rest, hrest⟩, htype, hstatus⟩ := h
  cases segments with
  | nil =>
    rw [← hcuts] at hrest
    exact absurd hrest.symm (encodeHeader_append_ne_nil _ _)
  | cons segment segments =>
    rcases lt_or_ge segment.bytes.length headerSize with hshort | hlen
    · exact receiveLoop_of_lt (received_start buffer response) hshort
    obtain ⟨header, tail, hsegment⟩ := exists_decodeHeader hlen
    have hstream : segment.bytes ++ segments.flatMap Segment.bytes =
        encodeHeader response.header ++ rest := by
      rw [← hrest, ← hcuts, List.flatMap_cons]
    rw [hsegment, List.append_assoc] at hstream
    obtain ⟨rfl, -⟩ := headerCode.eq_of_append_eq hstream
    have herror : response.header.status.toNat ≠ statusOk := by
      rw [hstatus]
      decide
    have hstep : receiveMessage (realloc 0) (.start buffer response) segment = _ :=
      receiveMessage_of_error (received_start buffer response) hsegment htype herror
    rw [receiveLoop_of_result hstep, hstatus]
    rfl

/-- Every cutting of a stream of less than a header. -/
theorem receiveLoop_of_short (hlen : stream.length < headerSize) {segments : List Segment}
    (hcuts : Cuts segments stream) :
    receiveLoop realloc (.start buffer response) segments =
      some (if stream = [] then errorReceiveFailed else errorInvalidDataSize,
        { header := response.header, payload := .null }) := by
  cases segments with
  | nil =>
    rw [← hcuts]
    rfl
  | cons segment segments =>
    rw [← hcuts, List.flatMap_cons, List.length_append] at hlen
    have hne : stream ≠ [] := by
      rw [← hcuts, List.flatMap_cons]
      exact List.append_ne_nil_of_left_ne_nil segment.ne_nil _
    rw [if_neg hne]
    exact receiveLoop_of_lt (received_start buffer response) (by omega)

end AllCuttings

/-! ## The request -/

/-- What the client does once its request is sent. -/
theorem requestFileContents_of_sent {env : ClientEnv} {fileName : CString}
    {sent : List (List UInt8)}
    (h : sendRequest env commandRequestFile fileName = some (statusOk, sent))
    (buffer : ReceiveBuffer) (segments : List Segment) (response : Response) :
    requestFileContents env fileName buffer segments response =
      (receiveLoop env.realloc (.start buffer response) segments).map fun result =>
        { rvalue := result.1, response := result.2, sent } := by
  rw [requestFileContents, h, Option.bind_eq_bind, Option.bind_some]
  dsimp only
  rw [if_neg (by decide), Option.map_eq_bind]
  rfl

/-- **Segmentation.** With its request sent, the client returns the same for every cutting of the
stream if and only if the stream holds no header, or begins with a reply of
`ERROR_INVALID_DATA_SIZE` whose header is the one that the caller's response held before. -/
theorem requestFileContents_agree_iff {env : ClientEnv} {fileName : CString}
    {sent : List (List UInt8)}
    (hsent : sendRequest env commandRequestFile fileName = some (statusOk, sent))
    (buffer : ReceiveBuffer) (response : Response) (stream : List UInt8) :
    (∀ segments₁ segments₂, Cuts segments₁ stream → Cuts segments₂ stream →
      requestFileContents env fileName buffer segments₁ response =
        requestFileContents env fileName buffer segments₂ response) ↔
      stream.length < headerSize ∨ BeginsWithInvalidDataSize response.header stream := by
  simp only [requestFileContents_of_sent hsent]
  constructor
  · intro hagree
    rw [or_iff_not_imp_left, not_lt]
    intro hlen
    obtain ⟨short, hcuts, hshort⟩ := exists_cuts_short env.realloc buffer response hlen
    have hall : AllTooShort env.realloc buffer response stream := by
      intro segments hsegments
      rw [← hshort]
      refine Option.map_injective ?_ (hagree segments short hsegments hcuts)
      rintro ⟨rvalue₁, response₁⟩ ⟨rvalue₂, response₂⟩ h
      cases h
      rfl
    exact hall.beginsWith hlen
  · rintro (hlen | hbegins) segments₁ segments₂ hcuts₁ hcuts₂
    · rw [receiveLoop_of_short hlen hcuts₁, receiveLoop_of_short hlen hcuts₂]
    · rw [hbegins.all segments₁ hcuts₁, hbegins.all segments₂ hcuts₂]

/-- A last chunk of three bytes, cut before its last two: the client returns what the buffer
held. -/
theorem lastChunk_cut :
    ∃ segments₁ segments₂, Cuts segments₁ [4, 1, 0, 0, 0, 3, 0, 0, 0, 0, 0, 65, 66, 67] ∧
      Cuts segments₂ [4, 1, 0, 0, 0, 3, 0, 0, 0, 0, 0, 65, 66, 67] ∧
      (requestFileContents .reliable (.ofLiteral "three.txt")
          ⟨List.replicate maxMessageSize 0, List.length_replicate⟩ segments₁
          { header := .init, payload := .null }).map (fun r => (r.rvalue, r.response.payload)) =
        some (statusOk, .block [65, 66, 67]) ∧
      (requestFileContents .reliable (.ofLiteral "three.txt")
          ⟨List.replicate maxMessageSize 0, List.length_replicate⟩ segments₂
          { header := .init, payload := .null }).map (fun r => (r.rvalue, r.response.payload)) =
        some (statusOk, .block [65, 0, 0]) := by
  refine ⟨[⟨[4, 1, 0, 0, 0, 3, 0, 0, 0, 0, 0, 65, 66, 67], by decide, by decide⟩],
    [⟨[4, 1, 0, 0, 0, 3, 0, 0, 0, 0, 0, 65], by decide, by decide⟩,
      ⟨[66, 67], by decide, by decide⟩], rfl, rfl, ?_, ?_⟩
  · decide +kernel
  · decide +kernel

theorem requestFileContents_agree_lastChunk :
    (∀ segments₁ segments₂, Cuts segments₁ [4, 1, 0, 0, 0, 3, 0, 0, 0, 0, 0, 65, 66, 67] →
      Cuts segments₂ [4, 1, 0, 0, 0, 3, 0, 0, 0, 0, 0, 65, 66, 67] →
      requestFileContents .reliable (.ofLiteral "three.txt")
          ⟨List.replicate maxMessageSize 0, List.length_replicate⟩ segments₁
          { header := .init, payload := .null } =
        requestFileContents .reliable (.ofLiteral "three.txt")
          ⟨List.replicate maxMessageSize 0, List.length_replicate⟩ segments₂
          { header := .init, payload := .null }) ↔
      14 < headerSize ∨
        BeginsWithInvalidDataSize .init [4, 1, 0, 0, 0, 3, 0, 0, 0, 0, 0, 65, 66, 67] :=
  requestFileContents_agree_iff (sendRequest_eq (by decide) (Option.some_ne_none _) fun _ => rfl)
    _ _ _

end CExamples.ClientServer

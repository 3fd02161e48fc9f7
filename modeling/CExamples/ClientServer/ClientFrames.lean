import CExamples.ClientServer.Client
import CExamples.ClientServer.ServerFrames

/-!
# The frames the client sends and receives

A request is sent or fails with an error (`sendRequest_of_requestSent`,
`sendRequest_of_not_requestSent`); for a file name that fits in a message it is the word of a frame
(`sendRequest_eq`). One iteration of the receive loop depends on the header at the front of the
segment and on the buffer behind it (`receiveMessage_of_header`); the invariant of the loop,
`ReceiveState.Received`, says which payload bytes it has put together. Chunks that arrive whole are
put together in their order (`receiveLoop_of_chunks`).
-/

namespace CExamples.ClientServer

open C

/-! ## The request -/

/-- The bytes of a request: as much of the file name as its length says, modulo 2^32. -/
def requestBytes (command : UInt8) (fileName : CString) : List UInt8 :=
  encodeHeader (requestHeader command fileName) ++
    fileName.memory.take (requestHeader command fileName).payloadSize.toNat

/-- The request fits in a message, there is memory for it, and some of it is accepted. -/
def RequestSent (env : ClientEnv) (command : UInt8) (fileName : CString) : Prop :=
  (requestHeader command fileName).payloadSize.toNat ≤ maxPayloadSize ∧
    env.requestMalloc ≠ none ∧ 0 < env.send (requestBytes command fileName)

section Requests

variable {env : ClientEnv} {command : UInt8} {fileName : CString}

/-- The length that the header announces is not greater than that of the file name. -/
theorem payloadSize_requestHeader_le (command : UInt8) (fileName : CString) :
    (requestHeader command fileName).payloadSize.toNat ≤ fileName.memory.length := by
  have hwrap : ((requestHeader command fileName).payloadSize.toNat : ℤ) = _ := toNat_ofInt_bmod _
  rw [CString.length_memory]
  omega

/-- The message of a request that fits. -/
def sentRequest (command : UInt8) (fileName : CString)
    (h : (requestHeader command fileName).payloadSize.toNat ≤ maxPayloadSize) : Frame where
  header := requestHeader command fileName
  payload := fileName.memory.take (requestHeader command fileName).payloadSize.toNat
  length_payload := List.length_take_of_le (payloadSize_requestHeader_le command fileName)
  payload_le := (List.length_take_le _ _).trans h

theorem pointsTo_sentRequest (h :
    (requestHeader command fileName).payloadSize.toNat ≤ maxPayloadSize) :
    PointsTo (.block fileName.memory) (sentRequest command fileName h).payload := by
  unfold sentRequest
  dsimp only
  exact pointsTo_take _ _

theorem encode_sentRequest (h :
    (requestHeader command fileName).payloadSize.toNat ≤ maxPayloadSize) :
    (sentRequest command fileName h).encode = requestBytes command fileName := by
  simp only [Frame.encode, requestBytes, sentRequest]

theorem createMessage_request (junk : ℕ → UInt8) (h :
    (requestHeader command fileName).payloadSize.toNat ≤ maxPayloadSize) :
    createMessage (some junk) (requestHeader command fileName) (.block fileName.memory)
      .uninitialized = some (statusOk, (sentRequest command fileName h).message) :=
  createMessage_of_pointsTo junk (sentRequest command fileName h) (pointsTo_sentRequest h)
    .uninitialized

/-- A request that is built is sent, or none of it is accepted. -/
theorem sendRequest_of_malloc
    (hle : (requestHeader command fileName).payloadSize.toNat ≤ maxPayloadSize)
    (hmalloc : env.requestMalloc ≠ none) :
    sendRequest env command fileName =
      some (if env.send (requestBytes command fileName) ≤ 0 then errorSendFailed else statusOk,
        [requestBytes command fileName]) := by
  obtain ⟨junk, hjunk⟩ := Option.ne_none_iff_exists'.mp hmalloc
  rw [sendRequest, hjunk, createMessage_request junk hle, Option.bind_eq_bind, Option.bind_some]
  dsimp only
  rw [if_neg not_statusOk_ne, Frame.bytes_message, Option.bind_eq_bind, Option.bind_some,
    Frame.destroyMessage_message, Option.bind_eq_bind, Option.bind_some, encode_sentRequest]
  split <;> rfl

theorem sendRequest_of_requestSent (h : RequestSent env command fileName) :
    sendRequest env command fileName = some (statusOk, [requestBytes command fileName]) := by
  obtain ⟨hle, hmalloc, hsend⟩ := h
  rw [sendRequest_of_malloc hle hmalloc, if_neg hsend.not_ge]

theorem sendRequest_of_not_requestSent (h : ¬RequestSent env command fileName) :
    ∃ rvalue sent, sendRequest env command fileName = some (rvalue, sent) ∧
      rvalue ≠ statusOk := by
  rcases lt_or_ge maxPayloadSize (requestHeader command fileName).payloadSize.toNat with hgt | hle
  · have hne : errorMaxPayloadSizeExceeded ≠ statusOk := by decide
    refine ⟨errorMaxPayloadSizeExceeded, [], ?_, hne⟩
    rw [sendRequest, createMessage, if_pos hgt, Option.bind_eq_bind, Option.bind_some]
    dsimp only
    rw [if_pos hne]
    rfl
  by_cases hmalloc : env.requestMalloc = none
  · refine ⟨errorMemoryAllocationFailed, [], ?_, errorMemoryAllocationFailed_ne⟩
    rw [sendRequest, hmalloc, createMessage_none hle, Option.bind_eq_bind, Option.bind_some]
    dsimp only
    rw [if_pos errorMemoryAllocationFailed_ne]
    rfl
  · have hsend : env.send (requestBytes command fileName) ≤ 0 := by
      by_contra hpos
      exact h ⟨hle, hmalloc, not_le.mp hpos⟩
    refine ⟨errorSendFailed, [requestBytes command fileName], ?_, by decide⟩
    rw [sendRequest_of_malloc hle hmalloc, if_pos hsend]

/-- The request that `_send_request` builds for a file name that fits in a message. -/
def requestFrame (command : UInt8) (fileName : CString)
    (h : fileName.chars.length < maxPayloadSize) : Frame where
  header := requestHeader command fileName
  payload := fileName.memory
  length_payload := length_memory_eq h
  payload_le := length_memory_le h

/-- A file name that fits is sent whole. -/
theorem requestBytes_eq (command : UInt8) (h : fileName.chars.length < maxPayloadSize) :
    requestBytes command fileName = (requestFrame command fileName h).encode := by
  have hsize : fileName.memory.length = (requestHeader command fileName).payloadSize.toNat :=
    length_memory_eq h
  rw [requestBytes, List.take_of_length_le hsize.le]
  rfl

theorem requestSent_of_lt (command : UInt8) (h : fileName.chars.length < maxPayloadSize)
    (hmalloc : env.requestMalloc ≠ none) (hsend : ∀ data, env.send data = data.length) :
    RequestSent env command fileName := by
  refine ⟨(payloadSize_requestHeader_le command fileName).trans (length_memory_le h), hmalloc, ?_⟩
  rw [hsend, requestBytes_eq command h, Frame.length_encode, headerSize]
  omega

/-- A request whose allocation and `send` succeed. -/
theorem sendRequest_eq (h : fileName.chars.length < maxPayloadSize)
    (hmalloc : env.requestMalloc ≠ none) (hsend : ∀ data, env.send data = data.length) :
    sendRequest env command fileName =
      some (statusOk, [(requestFrame command fileName h).encode]) := by
  rw [sendRequest_of_requestSent (requestSent_of_lt command h hmalloc hsend),
    requestBytes_eq command h]

end Requests

/-! ## Messages as segments -/

theorem encodeHeader_append_ne_nil (header : Header) (rest : List UInt8) :
    encodeHeader header ++ rest ≠ [] := by
  unfold encodeHeader
  exact List.cons_ne_nil _ _

/-- A frame that is received in one piece. -/
def Frame.segment (frame : Frame) : Segment where
  bytes := frame.encode
  ne_nil := encodeHeader_append_ne_nil _ _
  length_le := frame.length_encode_le

theorem map_segment (frames : List Frame) :
    (frames.map Frame.segment).map Segment.bytes = frames.map Frame.encode := by
  rw [List.map_map]
  rfl

/-! ## The payload received so far -/

/-- The bytes received so far, before the first chunk behind a null pointer. -/
def ReceiveState.Received (state : ReceiveState) (bytes : List UInt8) : Prop :=
  state.totalBytesReceived = bytes.length ∧
    (state.response.payload = .null ∧ bytes = [] ∨ state.response.payload = .block bytes)

theorem received_start (buffer : ReceiveBuffer) (response : Response) :
    (ReceiveState.start buffer response).Received [] :=
  ⟨rfl, .inl ⟨rfl, rfl⟩⟩

variable {state : ReceiveState} {bytes : List UInt8} {segment : Segment} {realloc : ℕ → Bool}

theorem appendChunk_of_received (h : state.Received bytes) (copied : List UInt8) :
    appendChunk state.response.payload copied = some (.block (bytes ++ copied)) := by
  rcases h.2 with ⟨hnull, rfl⟩ | hblock
  · rw [hnull]
    rfl
  · rw [hblock]
    rfl

/-- Every error leaves the loop with the payload freed and its pointer null. -/
theorem receiveError_of_received (h : state.Received bytes) (rvalue : ℕ) (header : Header) :
    receiveError rvalue { state.response with header } =
      some (rvalue, { header, payload := .null }) := by
  rcases h.2 with ⟨hnull, -⟩ | hblock
  · rw [receiveError, hnull]
    rfl
  · rw [receiveError, hblock]
    rfl

/-! ## One iteration -/

theorem ReceiveBuffer.bytes_receive (buffer : ReceiveBuffer) (segment : Segment) :
    (buffer.receive segment).bytes = segment.bytes ++ buffer.bytes.drop segment.bytes.length :=
  rfl

theorem bytes_receive_of_header (buffer : ReceiveBuffer) {header : Header} {rest : List UInt8}
    (hsegment : segment.bytes = encodeHeader header ++ rest) :
    (buffer.receive segment).bytes = encodeHeader header ++
      (rest ++ buffer.bytes.drop segment.bytes.length) := by
  rw [ReceiveBuffer.bytes_receive, ← List.append_assoc, ← hsegment]

/-- The header at the front of a segment is found in the buffer. -/
theorem extractHeader_receive (buffer : ReceiveBuffer) {header : Header} {rest : List UInt8}
    (hsegment : segment.bytes = encodeHeader header ++ rest) :
    extractHeader (buffer.receive segment).bytes (UInt32.ofNat segment.bytes.length) =
      some (.ok header) := by
  have hlen : headerSize ≤ (UInt32.ofNat segment.bytes.length).toNat := by
    rw [toNat_dataSize segment.length_le, hsegment, List.length_append, length_encodeHeader]
    omega
  rw [bytes_receive_of_header buffer hsegment]
  exact extractHeader_encodeHeader_append header _ hlen

/-- What `parse_message` does with a segment, whatever the buffer holds behind it. -/
theorem parseMessage_receive (malloc : Bool) (buffer : ReceiveBuffer) {header : Header}
    {rest : List UInt8} (hsegment : segment.bytes = encodeHeader header ++ rest)
    (response : Response) :
    parseMessage malloc (buffer.receive segment).bytes (UInt32.ofNat segment.bytes.length)
      response =
      some (if header.payloadSize.toNat = 0 then (statusOk, { header, payload := .null })
        else if segment.bytes.length < headerSize + header.payloadSize.toNat then
          (errorInvalidDataSize, { response with header })
        else if malloc then
          (statusOk, { header, payload := .block (rest.take header.payloadSize.toNat) })
        else (errorMemoryAllocationFailed, { header, payload := .null })) := by
  have hsize := toNat_dataSize segment.length_le
  have hlen := congrArg List.length hsegment
  rw [List.length_append, length_encodeHeader] at hlen
  rw [bytes_receive_of_header buffer hsegment,
    parseMessage_encodeHeader_append malloc header _ _ (by omega)
      (by simp only [List.length_append, length_encodeHeader]; omega), hsize]
  split
  · rfl
  split
  · rfl
  · rw [List.take_append_of_le_length (by omega)]

/-- Fewer bytes than a header. -/
theorem receiveMessage_of_lt (h : state.Received bytes)
    (hshort : segment.bytes.length < headerSize) :
    receiveMessage realloc state segment =
      some (.inr (errorInvalidDataSize, { state.response with payload := .null })) := by
  rw [receiveMessage, extractHeader, toNat_dataSize segment.length_le, if_pos hshort]
  simp only [Option.bind_eq_bind, Option.bind_some]
  rw [receiveError_of_received h errorInvalidDataSize state.response.header]
  rfl

/-- A header and whatever follows it in the buffer. -/
theorem receiveMessage_of_header (h : state.Received bytes) {header : Header} {rest : List UInt8}
    (hsegment : segment.bytes = encodeHeader header ++ rest) :
    receiveMessage realloc state segment =
      if header.messageType = messageResponseChunk ∨
          header.messageType = messageResponseLastChunk then
        if realloc (bytes.length + header.payloadSize.toNat) then
          (slice (state.buffer.receive segment).bytes headerSize header.payloadSize.toNat).map
            fun copied =>
              if header.messageType = messageResponseLastChunk then
                .inr (statusOk,
                  { header := completedHeader header (bytes.length + header.payloadSize.toNat)
                    payload := .block (bytes ++ copied) })
              else
                .inl
                  { buffer := state.buffer.receive segment
                    totalBytesReceived := bytes.length + header.payloadSize.toNat
                    response := { state.response with payload := .block (bytes ++ copied) } }
        else some (.inr (errorMemoryAllocationFailed, { state.response with payload := .null }))
      else if header.messageType = messageResponse ∧ header.status.toNat ≠ statusOk then
        some (.inr (header.status.toNat, { header, payload := .null }))
      else some (.inr (errorUnexpectedMessageType, { state.response with payload := .null })) := by
  have hmemory := receiveError_of_received h errorMemoryAllocationFailed state.response.header
  have htype := receiveError_of_received h errorUnexpectedMessageType state.response.header
  have hstatus := receiveError_of_received h header.status.toNat header
  rw [receiveMessage, extractHeader_receive state.buffer hsegment]
  simp only [Option.bind_eq_bind, Option.bind_some, h.1, appendChunk_of_received h, hmemory, htype,
    hstatus]
  split
  · cases realloc (bytes.length + header.payloadSize.toNat) with
    | false => rfl
    | true =>
      cases slice (state.buffer.receive segment).bytes headerSize header.payloadSize.toNat with
      | none => rfl
      | some copied =>
        simp only [Option.bind_some, Option.map_some]
        rw [if_neg (not_not.mpr trivial), if_pos trivial]
        split <;> rfl
  · split <;> rfl

/-- An error reply ends the loop with its status and its header. -/
theorem receiveMessage_of_error (h : state.Received bytes) {header : Header} {rest : List UInt8}
    (hsegment : segment.bytes = encodeHeader header ++ rest)
    (htype : header.messageType = messageResponse) (hstatus : header.status.toNat ≠ statusOk) :
    receiveMessage realloc state segment =
      some (.inr (header.status.toNat, { header, payload := .null })) := by
  have hchunk : ¬(header.messageType = messageResponseChunk ∨
      header.messageType = messageResponseLastChunk) := by
    rw [htype]
    decide
  rw [receiveMessage_of_header h hsegment, if_neg hchunk, if_pos ⟨htype, hstatus⟩]

theorem receiveLoop_of_next {realloc : ℕ → ℕ → Bool} {next : ReceiveState}
    (h : receiveMessage (realloc 0) state segment = some (.inl next)) (segments : List Segment) :
    receiveLoop realloc state (segment :: segments) =
      receiveLoop (fun i => realloc (i + 1)) next segments := by
  rw [receiveLoop, h]
  rfl

theorem receiveLoop_of_result {realloc : ℕ → ℕ → Bool} {result : ℕ × Response}
    (h : receiveMessage (realloc 0) state segment = some (.inr result)) (segments : List Segment) :
    receiveLoop realloc state (segment :: segments) = some result := by
  rw [receiveLoop, h]
  rfl

/-! ## A sequence of chunks -/

/-- A payload that was received lies in the buffer. -/
theorem slice_of_le (buffer : ReceiveBuffer) {header : Header} {rest : List UInt8}
    (hsegment : segment.bytes = encodeHeader header ++ rest)
    (hfits : header.payloadSize.toNat ≤ rest.length) :
    slice (buffer.receive segment).bytes headerSize header.payloadSize.toNat =
      some (rest.take header.payloadSize.toNat) := by
  rw [bytes_receive_of_header buffer hsegment, slice_eq_some_iff,
    List.drop_left' (length_encodeHeader header), List.take_append_of_le_length hfits,
    List.length_append, List.length_append, length_encodeHeader]
  exact ⟨by omega, rfl⟩

/-- What is copied from the buffer when a segment begins with a whole message. -/
theorem slice_receive (buffer : ReceiveBuffer) {frame : Frame}
    (h : frame.encode <+: segment.bytes) :
    slice (buffer.receive segment).bytes headerSize frame.header.payloadSize.toNat =
      some frame.payload := by
  obtain ⟨rest, hsegment⟩ := h
  rw [Frame.encode, List.append_assoc] at hsegment
  have hfits : frame.header.payloadSize.toNat ≤ (frame.payload ++ rest).length := by
    rw [List.length_append, frame.length_payload]
    exact Nat.le_add_right _ _
  have hslice := slice_of_le buffer hsegment.symm hfits
  rwa [← frame.length_payload, List.take_left, frame.length_payload] at hslice

/-- A chunk for which there is memory extends the payload by what is copied, and leaves the
response's header as it was. -/
theorem receiveMessage_of_slice (h : state.Received bytes) {header : Header}
    {rest copied : List UInt8} (hsegment : segment.bytes = encodeHeader header ++ rest)
    (htype : header.messageType = messageResponseChunk)
    (hrealloc : realloc (bytes.length + header.payloadSize.toNat) = true)
    (hslice : slice (state.buffer.receive segment).bytes headerSize header.payloadSize.toNat =
      some copied) :
    ∃ next, receiveMessage realloc state segment = some (.inl next) ∧
      next.Received (bytes ++ copied) ∧ next.response.header = state.response.header := by
  have hne : header.messageType ≠ messageResponseLastChunk := by
    rw [htype]
    decide
  have hmessage : receiveMessage realloc state segment = _ := receiveMessage_of_header h hsegment
  rw [if_pos (.inl htype), if_pos hrealloc, hslice, Option.map_some, if_neg hne] at hmessage
  refine ⟨_, hmessage, ⟨?_, .inr rfl⟩, rfl⟩
  rw [List.length_append, length_of_slice hslice]

/-- The header of a message at the front of a segment. -/
theorem exists_bytes_eq_of_prefix {frame : Frame} (h : frame.encode <+: segment.bytes) :
    ∃ rest, segment.bytes = encodeHeader frame.header ++ rest := by
  obtain ⟨rest, hsegment⟩ := h
  rw [Frame.encode, List.append_assoc] at hsegment
  exact ⟨_, hsegment.symm⟩

/-- A chunk that arrives whole extends the payload, whatever the segment holds behind it. -/
theorem receiveMessage_of_chunk (h : state.Received bytes) (hrealloc : ∀ size, realloc size = true)
    {frame : Frame} (htype : frame.header.messageType = messageResponseChunk)
    (hsegment : frame.encode <+: segment.bytes) :
    ∃ next, receiveMessage realloc state segment = some (.inl next) ∧
      next.Received (bytes ++ frame.payload) ∧ next.response.header = state.response.header := by
  obtain ⟨rest, hbytes⟩ := exists_bytes_eq_of_prefix hsegment
  exact receiveMessage_of_slice h hbytes htype (hrealloc _) (slice_receive state.buffer hsegment)

/-- A last chunk that arrives whole completes the payload. -/
theorem receiveMessage_of_lastChunk (h : state.Received bytes)
    (hrealloc : ∀ size, realloc size = true) {frame : Frame}
    (htype : frame.header.messageType = messageResponseLastChunk)
    (hsegment : segment.bytes = frame.encode) :
    receiveMessage realloc state segment =
      some (.inr (statusOk,
        { header := completedHeader frame.header (bytes ++ frame.payload).length
          payload := .block (bytes ++ frame.payload) })) := by
  have hprefix : frame.encode <+: segment.bytes := ⟨[], by rw [List.append_nil, hsegment]⟩
  rw [receiveMessage_of_header h hsegment, if_pos (.inr htype), hrealloc, if_pos rfl,
    slice_receive _ hprefix, Option.map_some, if_pos htype, List.length_append,
    frame.length_payload]

/-- Each segment begins with a whole message. -/
def BeginWith (segments : List Segment) (frames : List Frame) : Prop :=
  List.Forall₂ (fun segment frame => Frame.encode frame <+: segment.bytes) segments frames

theorem beginWith_of_eq {segments : List Segment} {frames : List Frame}
    (h : segments.map Segment.bytes = frames.map Frame.encode) : BeginWith segments frames := by
  induction frames generalizing segments with
  | nil =>
    rw [List.map_nil, List.map_eq_nil_iff] at h
    rw [h]
    exact .nil
  | cons frame frames ih =>
    obtain ⟨segment, segments, rfl, hsegment, hsegments⟩ := List.map_eq_cons_iff.mp h
    exact .cons ⟨[], by rw [List.append_nil, hsegment]⟩ (ih hsegments)

/-- Behind segments that begin with chunks, the loop goes on with the payloads of these received. -/
theorem exists_receiveLoop_append {realloc : ℕ → ℕ → Bool}
    (hrealloc : ∀ i size, realloc i size = true) {chunks : List Frame}
    (hchunks : ∀ frame ∈ chunks, frame.header.messageType = messageResponseChunk)
    {segments : List Segment} (hsegments : BeginWith segments chunks)
    (h : state.Received bytes) (rest : List Segment) :
    ∃ (later : ℕ → ℕ → Bool) (next : ReceiveState), (∀ i size, later i size = true) ∧
      next.Received (bytes ++ chunks.flatMap Frame.payload) ∧
      next.response.header = state.response.header ∧
      receiveLoop realloc state (segments ++ rest) = receiveLoop later next rest := by
  induction chunks generalizing state bytes segments realloc with
  | nil =>
    cases hsegments
    rw [List.flatMap_nil, List.append_nil]
    exact ⟨realloc, state, hrealloc, h, rfl, rfl⟩
  | cons first chunks ih =>
    obtain - | ⟨hsegment, hsegments'⟩ := hsegments
    have hfirst := hchunks first List.mem_cons_self
    obtain ⟨next, hnext, hreceived, hheader⟩ :=
      receiveMessage_of_chunk h (hrealloc 0) hfirst hsegment
    have hchunks' : ∀ frame ∈ chunks, frame.header.messageType = messageResponseChunk := by
      intro frame hframe
      exact hchunks frame (List.mem_cons_of_mem first hframe)
    rw [List.cons_append, receiveLoop_of_next hnext, List.flatMap_cons, ← List.append_assoc,
      ← hheader]
    exact ih (fun i => hrealloc (i + 1)) hchunks' hsegments' hreceived

/-- Chunks that arrive whole, in their order, are put together. -/
theorem receiveLoop_of_chunks {realloc : ℕ → ℕ → Bool} (hrealloc : ∀ i size, realloc i size = true)
    {chunks : List Frame} {last : Frame}
    (hchunks : ∀ frame ∈ chunks, frame.header.messageType = messageResponseChunk)
    (hlast : last.header.messageType = messageResponseLastChunk) {segments : List Segment}
    (hsegments : segments.map Segment.bytes = (chunks ++ [last]).map Frame.encode)
    (h : state.Received bytes) :
    receiveLoop realloc state segments =
      some (statusOk,
        { header := completedHeader last.header
            (bytes ++ (chunks ++ [last]).flatMap Frame.payload).length
          payload := .block (bytes ++ (chunks ++ [last]).flatMap Frame.payload) }) := by
  rw [List.map_append] at hsegments
  obtain ⟨segments, tail, rfl, hsegments', htail⟩ := List.map_eq_append_iff.mp hsegments
  obtain ⟨segment, rfl, hsegment⟩ := List.map_eq_singleton_iff.mp htail
  obtain ⟨later, next, hlater, hreceived, -, hloop⟩ :=
    exists_receiveLoop_append hrealloc hchunks (beginWith_of_eq hsegments') h [segment]
  rw [hloop,
    receiveLoop_of_result (receiveMessage_of_lastChunk hreceived (hlater 0) hlast hsegment)]
  simp

end CExamples.ClientServer

import CExamples.ClientServer.Blocks
import CExamples.ClientServer.ClientMain

/-!
# The client on the heap (`client_server/src/client.c`, `client_server/src/file_transfer.c`)

The client's functions as they allocate and free. `realloc` frees the block it is given, and the
grown payload may be anywhere. Asked for zero bytes in place of a block, it allocates a new object,
as the comment in the loop says, or, as glibc's does, frees the block and returns null
(`freesAtZero`): the loop then takes it for a failure and frees the block again. That happens
exactly behind two chunks without payload (`freesTwice`). Otherwise every function owns the payload
of the caller's response and nothing else (`requests_own_payload`), and the program frees all that
it allocates, except that it exits with the payload of a failed request for metadata
(`clientMain_releases`).
-/

namespace CExamples.ClientServer.Heap

open C Holding

/-! ## Requests -/

/-- The outcome of a request. -/
structure RequestResult where
  rvalue : ℕ
  response : Response
  sent : List (List UInt8)
deriving DecidableEq, Repr

def RequestResult.value (result : RequestResult) : ClientServer.RequestResult where
  rvalue := result.rvalue
  response := result.response.value
  sent := result.sent

/-- `_send_request`. -/
def sendRequest (env : ClientEnv) (command : UInt8) (fileName : CString) :
    Holding Kind (ℕ × List (List UInt8)) := do
  let header := requestHeader command fileName
  let (rvalue, message) ←
    createMessage env.requestMalloc header (.block fileName.memory) .uninitialized
  -- A message that could not be created is not destroyed.
  if rvalue ≠ statusOk then
    return (rvalue, [])
  let data ← message.bytes
  let _ ← destroyMessage message
  if env.send data ≤ 0 then
    return (errorSendFailed, [data])
  return (statusOk, [data])

/-- `request_file_metadata`, with a response whose payload is not set. -/
def requestFileMetadata (env : ClientEnv) (fileName : CString) (buffer : ReceiveBuffer)
    (segments : List Segment) (header : Header) : Holding Kind RequestResult := do
  let response := { header, payload := .indeterminate }
  let (rvalue, sent) ← sendRequest env commandRequestMetadata fileName
  if rvalue ≠ statusOk then
    return { rvalue, response, sent }
  match segments with
  | [] => return { rvalue := errorReceiveFailed, response, sent }
  | segment :: _ =>
    let (rvalue, response) ← parseMessage env.payloadMalloc (buffer.receive segment).bytes
      (UInt32.ofNat segment.bytes.length) response
    if rvalue = statusOk ∧ response.header.status.toNat ≠ statusOk then
      return { rvalue := response.header.status.toNat, response, sent }
    return { rvalue, response, sent }

/-! ## The receive loop -/

/-- The variables of the loop. -/
structure ReceiveState where
  buffer : ReceiveBuffer
  totalBytesReceived : ℕ
  response : Response
deriving DecidableEq

def ReceiveState.value (state : ReceiveState) : ClientServer.ReceiveState where
  buffer := state.buffer
  totalBytesReceived := state.totalBytesReceived
  response := state.response.value

/-- The state before the first `recv`. -/
def ReceiveState.start (buffer : ReceiveBuffer) (header : Header) : ReceiveState where
  buffer := buffer
  totalBytesReceived := 0
  response := { header, payload := .null }

/-- `realloc` and `memcpy`. -/
def appendChunk (payload : BlockPtr) (chunk : List UInt8) : Holding Kind BlockPtr := do
  payload.free
  let address ← acquire .block
  let grown ← ClientServer.appendChunk payload.value chunk
  return .ofPtr address grown

/-- The statements after the label `error`. -/
def receiveError (rvalue : ℕ) (response : Response) : Holding Kind (ℕ × Response) := do
  response.payload.free
  return (rvalue, { response with payload := .null })

/-- The body of the loop once `recv` has returned a segment. -/
def receiveMessage (freesAtZero : Bool) (realloc : ℕ → Bool) (state : ReceiveState)
    (segment : Segment) : Holding Kind (ReceiveState ⊕ (ℕ × Response)) := do
  let buffer := state.buffer.receive segment
  match ← liftM (extractHeader buffer.bytes (UInt32.ofNat segment.bytes.length)) with
  | .error rvalue => return .inr (← receiveError rvalue state.response)
  | .ok header =>
    if header.messageType = messageResponseChunk ∨
        header.messageType = messageResponseLastChunk then
      let totalBytesReceived := state.totalBytesReceived + header.payloadSize.toNat
      if freesAtZero ∧ totalBytesReceived = 0 ∧ state.response.payload ≠ .null then
        -- `realloc` frees the block and returns null, and `response->payload` still points to it.
        state.response.payload.free
        return .inr (← receiveError errorMemoryAllocationFailed state.response)
      if ¬realloc totalBytesReceived then
        return .inr (← receiveError errorMemoryAllocationFailed state.response)
      let chunk ← slice buffer.bytes headerSize header.payloadSize.toNat
      let payload ← appendChunk state.response.payload chunk
      if header.messageType = messageResponseLastChunk then
        return .inr (statusOk, { header := completedHeader header totalBytesReceived, payload })
      return .inl { buffer, totalBytesReceived, response := { state.response with payload } }
    else if header.messageType = messageResponse ∧ header.status.toNat ≠ statusOk then
      return .inr (← receiveError header.status.toNat { state.response with header })
    else return .inr (← receiveError errorUnexpectedMessageType state.response)

/-- The loop. -/
def receiveLoop (freesAtZero : Bool) (realloc : ℕ → ℕ → Bool) (state : ReceiveState) :
    List Segment → Holding Kind (ℕ × Response)
  | [] => receiveError errorReceiveFailed state.response
  | segment :: segments => do
    match ← receiveMessage freesAtZero (realloc 0) state segment with
    | .inl state => receiveLoop freesAtZero (fun i => realloc (i + 1)) state segments
    | .inr result => return result

/-- `request_file_contents`, with a response whose payload is not set. -/
def requestFileContents (freesAtZero : Bool) (env : ClientEnv) (fileName : CString)
    (buffer : ReceiveBuffer) (segments : List Segment) (header : Header) :
    Holding Kind RequestResult := do
  let (rvalue, sent) ← sendRequest env commandRequestFile fileName
  if rvalue ≠ statusOk then
    return { rvalue, response := { header, payload := .indeterminate }, sent }
  let (rvalue, response) ← receiveLoop freesAtZero env.realloc (.start buffer header) segments
  return { rvalue, response, sent }

/-! ## The program -/

/-- A case of the `switch`, with the payload that `response` holds when `main` returns. -/
def runCommand (sys : ClientSystem) (announced : CString)
    (request : Header → Holding Kind RequestResult) (failure : ℕ → UInt8 → CString → CString)
    (report : Header → CString → CString) : Holding Kind (ClientRun × BlockPtr) := do
  let connection := connectWithRetryOrDie sys.sockets 3 1
  match connection.outcome with
  | .error exitCode =>
    return ({ exitCode, output := announced, calls := connection.calls }, .indeterminate)
  | .ok serverSocket =>
    let result ← request sys.header
    let calls := connection.calls ++ (socketCleanup serverSocket).calls
    let payload ← result.response.payload.toCString
    if result.rvalue ≠ statusOk then
      let output := announced ++ failure result.rvalue result.response.header.status payload
      return ({ exitCode := 1, output, calls }, result.response.payload)
    else
      let output := announced ++ report result.response.header payload
      let response ← destroyResponse result.response
      return ({ exitCode := 0, output, calls }, response.payload)

def metadataCommand (sys : ClientSystem) (fileName : CString) (segments : List Segment) :
    Holding Kind (ClientRun × BlockPtr) :=
  runCommand sys (metadataAnnouncement fileName)
    (requestFileMetadata sys.env fileName sys.buffer segments) metadataFailure
    fun _ => metadataReport fileName

def contentsCommand (freesAtZero : Bool) (sys : ClientSystem) (fileName : CString)
    (segments : List Segment) : Holding Kind (ClientRun × BlockPtr) :=
  runCommand sys (contentsAnnouncement fileName)
    (requestFileContents freesAtZero sys.env fileName sys.buffer segments) contentsFailure
    (contentsReport fileName)

theorem zero_notMem_unknownCommand : 0 ∉ ascii "Unknown command\n" := by
  decide

/-- `main`. -/
def clientMain (freesAtZero : Bool) (sys : ClientSystem) (segments : List Segment) :
    List CString → Holding Kind (ClientRun × BlockPtr)
  | [_, command, fileName] => do
    let command ← atoi command
    if command = 0 then
      metadataCommand sys fileName segments
    else if command = 1 then
      contentsCommand freesAtZero sys fileName segments
    else
      let output := .ofLiteral "Unknown command\n" zero_notMem_unknownCommand
      return ({ exitCode := 0, output, calls := [] }, .indeterminate)
  | program :: _ => return ({ exitCode := 1, output := usage program, calls := [] }, .indeterminate)
  | [] => liftM (none : Option (ClientRun × BlockPtr))

/-! ## What they own -/

theorem owns_sendRequest (env : ClientEnv) (command : UInt8) (fileName : CString) :
    Owns ∅ (sendRequest env command fileName) (ClientServer.sendRequest env command fileName) id
      fun _ => ∅ := by
  refine owns_bind (owns_createMessage _ _ _) ?_
  rintro ⟨rvalue, message⟩ hcreate
  refine owns_ite (fun hrvalue => ?_) fun _ => ?_
  · exact owns_pure (BlockPtr.owned_eq_empty (ne_block_of_createMessage hcreate hrvalue)) rfl
  · refine owns_bind (owns_bytes message) fun data _ => ?_
    refine owns_bind (owns_destroyMessage message) fun _ _ => ?_
    exact owns_ite (fun _ => owns_pure rfl rfl) fun _ => owns_pure rfl rfl

theorem owns_requestFileMetadata (env : ClientEnv) (fileName : CString) (buffer : ReceiveBuffer)
    (segments : List Segment) (header : Header) :
    Owns ∅ (requestFileMetadata env fileName buffer segments header)
      (ClientServer.requestFileMetadata env fileName buffer segments
        { header, payload := .indeterminate })
      RequestResult.value fun result => result.response.payload.owned := by
  refine owns_bind (owns_sendRequest _ _ _) ?_
  rintro ⟨rvalue, sent⟩ -
  refine owns_ite (fun _ => owns_pure rfl rfl) fun _ => ?_
  cases segments with
  | nil => exact owns_pure rfl rfl
  | cons segment segments =>
    refine owns_bind (owns_parseMessage _ _ _ _) ?_
    rintro ⟨rvalue, response⟩ -
    exact owns_ite (fun _ => owns_pure rfl rfl) fun _ => owns_pure rfl rfl

theorem owns_appendChunk (payload : BlockPtr) (chunk : List UInt8) :
    Owns payload.owned (appendChunk payload chunk)
      (ClientServer.appendChunk payload.value chunk) BlockPtr.value BlockPtr.owned := by
  cases payload with
  | null => exact owns_acquire_bind Kind.block fun address => owns_pure rfl rfl
  | block old bytes =>
    exact owns_release_given_bind (owns_acquire_bind Kind.block fun address => owns_pure rfl rfl)
  | indeterminate => exact owns_none

theorem owns_receiveError (rvalue : ℕ) (response : Response) :
    Owns response.payload.owned (receiveError rvalue response)
      (ClientServer.receiveError rvalue response.value) (fun r => (r.1, r.2.value))
      fun r => r.2.payload.owned :=
  owns_bind response.payload.owns_free fun _ _ => owns_pure rfl rfl

/-! ## Chunks without payload -/

/-- The segment begins with the header of a message of this type without payload. -/
def isEmptyMessage (messageType : UInt8) (segment : Segment) : Bool :=
  (decodeHeader segment.bytes).any fun r =>
    r.1.messageType = messageType ∧ r.1.payloadSize.toNat = 0

/-- Two chunks without payload come first, and there is memory for the first one: `realloc` is
called with the block of the first one and the size zero. -/
def freesTwice (realloc : ℕ → ℕ → Bool) : List Segment → Bool
  | first :: second :: _ =>
    realloc 0 0 && isEmptyMessage messageResponseChunk first &&
      (isEmptyMessage messageResponseChunk second ||
        isEmptyMessage messageResponseLastChunk second)
  | _ => false

theorem isEmptyMessage_iff {messageType : UInt8} {segment : Segment} :
    isEmptyMessage messageType segment = true ↔ ∃ header rest,
      segment.bytes = encodeHeader header ++ rest ∧ header.messageType = messageType ∧
        header.payloadSize.toNat = 0 := by
  constructor
  · intro h
    rw [isEmptyMessage, Option.any_eq_true] at h
    obtain ⟨⟨header, rest⟩, hdecode, h⟩ := h
    exact ⟨header, rest, eq_append_of_decodeHeader hdecode, of_decide_eq_true h⟩
  · rintro ⟨header, rest, hsegment, h⟩
    rw [isEmptyMessage, hsegment, decodeHeader_encodeHeader_append]
    exact decide_eq_true h

/-- A header without payload that the loop finds in its buffer is that of the segment. -/
theorem isEmptyMessage_of_extractHeader {buffer : ReceiveBuffer} {segment : Segment}
    {header : Header}
    (hextract : extractHeader (buffer.receive segment).bytes
      (UInt32.ofNat segment.bytes.length) = some (.ok header))
    (hsize : header.payloadSize.toNat = 0) :
    isEmptyMessage header.messageType segment = true := by
  rcases lt_or_ge segment.bytes.length headerSize with hshort | hlen
  · rw [extractHeader, toNat_dataSize segment.length_le, if_pos hshort] at hextract
    cases hextract
  · obtain ⟨found, rest, hsegment⟩ := exists_decodeHeader hlen
    rw [extractHeader_receive buffer hsegment] at hextract
    cases hextract
    exact isEmptyMessage_iff.mpr ⟨header, rest, hsegment, rfl, hsize⟩

/-- What an iteration that goes on has received. -/
theorem exists_header_of_receiveMessage {realloc : ℕ → Bool}
    {state next : ClientServer.ReceiveState} {segment : Segment}
    (h : ClientServer.receiveMessage realloc state segment = some (.inl next)) :
    ∃ header, extractHeader (state.buffer.receive segment).bytes
        (UInt32.ofNat segment.bytes.length) = some (.ok header) ∧
      header.messageType = messageResponseChunk ∧
      next.totalBytesReceived = state.totalBytesReceived + header.payloadSize.toNat ∧
      realloc next.totalBytesReceived = true := by
  rw [ClientServer.receiveMessage, Option.bind_eq_bind, Option.bind_eq_some_iff] at h
  obtain ⟨rvalue | header, hextract, h⟩ := h
  · obtain ⟨_, -, h⟩ := Option.bind_eq_some_iff.mp h
    cases h
  refine ⟨header, hextract, ?_⟩
  dsimp only at h
  split at h
  · rename_i htype
    split at h
    · obtain ⟨_, -, h⟩ := Option.bind_eq_some_iff.mp h
      cases h
    · rename_i hrealloc
      obtain ⟨copied, -, h⟩ := Option.bind_eq_some_iff.mp h
      obtain ⟨payload, -, h⟩ := Option.bind_eq_some_iff.mp h
      split at h
      · cases h
      · rename_i hlast
        cases h
        exact ⟨htype.resolve_right hlast, rfl, not_not.mp hrealloc⟩
  · split at h
    · obtain ⟨_, -, h⟩ := Option.bind_eq_some_iff.mp h
      cases h
    · obtain ⟨_, -, h⟩ := Option.bind_eq_some_iff.mp h
      cases h

/-- The payload is kept for the next iteration or handed to the caller. -/
theorem owns_receiveMessage {freesAtZero : Bool} (realloc : ℕ → Bool) (state : ReceiveState)
    {segment : Segment}
    (hsafe : ∀ header, extractHeader (state.buffer.receive segment).bytes
        (UInt32.ofNat segment.bytes.length) = some (.ok header) →
      header.messageType = messageResponseChunk ∨
        header.messageType = messageResponseLastChunk →
      ¬(freesAtZero = true ∧ state.totalBytesReceived + header.payloadSize.toNat = 0 ∧
        state.response.payload ≠ .null)) :
    Owns state.response.payload.owned (receiveMessage freesAtZero realloc state segment)
      (ClientServer.receiveMessage realloc state.value segment)
      (Sum.map ReceiveState.value fun r => (r.1, r.2.value))
      (Sum.elim (fun next => next.response.payload.owned) fun r => r.2.payload.owned) := by
  refine owns_bind (owns_lift _) ?_
  rintro (rvalue | header) hextract
  · exact owns_bind (owns_receiveError _ _) fun _ _ => owns_pure rfl rfl
  dsimp only [id]
  refine owns_ite (fun htype => ?_) fun _ => owns_ite (fun _ => ?_) fun _ => ?_
  · rw [if_neg (hsafe header hextract htype)]
    refine owns_ite (fun _ => ?_) fun _ => ?_
    · exact owns_bind (owns_receiveError _ _) fun _ _ => owns_pure rfl rfl
    · refine owns_bind (owns_lift _) fun chunk _ => ?_
      refine owns_bind (owns_appendChunk _ _) fun payload _ => ?_
      exact owns_ite (fun _ => owns_pure rfl rfl) fun _ => owns_pure rfl rfl
  · exact owns_bind (owns_receiveError _ { state.response with header }) fun _ _ =>
      owns_pure rfl rfl
  · exact owns_bind (owns_receiveError _ _) fun _ _ => owns_pure rfl rfl

/-- A loop in which `realloc` is not asked for zero bytes any more. -/
theorem owns_receiveLoop {freesAtZero : Bool} (segments : List Segment)
    (realloc : ℕ → ℕ → Bool) {state : ReceiveState}
    (hsafe : freesAtZero = true → 0 < state.totalBytesReceived) :
    Owns state.response.payload.owned (receiveLoop freesAtZero realloc state segments)
      (ClientServer.receiveLoop realloc state.value segments) (fun r => (r.1, r.2.value))
      fun r => r.2.payload.owned := by
  induction segments generalizing realloc state with
  | nil => exact owns_receiveError _ _
  | cons segment segments ih =>
    refine owns_bind (owns_receiveMessage (realloc 0) state ?_) ?_
    · rintro header - - ⟨hfrees, hzero, -⟩
      have hpos := hsafe hfrees
      omega
    rintro (next | result) hplain
    · refine ih _ fun hfrees => ?_
      obtain ⟨header, -, -, htotal, -⟩ := exists_header_of_receiveMessage hplain
      have hpos : 0 < next.value.totalBytesReceived := by
        rw [htotal]
        exact Nat.add_pos_left (hsafe hfrees) _
      exact hpos
    · exact owns_pure rfl rfl

/-- Behind a first chunk without payload, another chunk has one. -/
theorem owns_receiveLoop_of_empty {freesAtZero : Bool} (segments : List Segment)
    (realloc : ℕ → ℕ → Bool) {state : ReceiveState} (htotal : state.totalBytesReceived = 0)
    (hsafe : freesAtZero = true → ∀ second ∈ segments.head?,
      isEmptyMessage messageResponseChunk second = false ∧
        isEmptyMessage messageResponseLastChunk second = false) :
    Owns state.response.payload.owned (receiveLoop freesAtZero realloc state segments)
      (ClientServer.receiveLoop realloc state.value segments) (fun r => (r.1, r.2.value))
      fun r => r.2.payload.owned := by
  cases segments with
  | nil => exact owns_receiveError _ _
  | cons segment segments =>
    have hempty : freesAtZero = true → ∀ header,
        extractHeader (state.buffer.receive segment).bytes
          (UInt32.ofNat segment.bytes.length) = some (.ok header) →
        header.messageType = messageResponseChunk ∨
          header.messageType = messageResponseLastChunk →
        header.payloadSize.toNat ≠ 0 := by
      intro hfrees header hextract htype hsize
      have hfound := isEmptyMessage_of_extractHeader hextract hsize
      obtain ⟨hchunk, hlast⟩ := hsafe hfrees segment rfl
      rcases htype with htype | htype
      · rw [htype, hchunk] at hfound
        cases hfound
      · rw [htype, hlast] at hfound
        cases hfound
    refine owns_bind (owns_receiveMessage (realloc 0) state ?_) ?_
    · rintro header hextract htype ⟨hfrees, hzero, -⟩
      exact hempty hfrees header hextract htype (by omega)
    rintro (next | result) hplain
    · refine owns_receiveLoop segments _ fun hfrees => ?_
      obtain ⟨header, hextract, htype, hnext, -⟩ := exists_header_of_receiveMessage hplain
      have hsize := hempty hfrees header hextract (.inl htype)
      have hpos : 0 < next.value.totalBytesReceived := by omega
      exact hpos
    · exact owns_pure rfl rfl

/-- The loop from its start, where no block is reallocated to size zero. -/
theorem owns_receiveLoop_start {freesAtZero : Bool} {segments : List Segment}
    {realloc : ℕ → ℕ → Bool} (hsafe : freesAtZero = true → freesTwice realloc segments = false)
    (buffer : ReceiveBuffer) (header : Header) :
    Owns ∅ (receiveLoop freesAtZero realloc (.start buffer header) segments)
      (ClientServer.receiveLoop realloc (.start buffer { header, payload := .indeterminate })
        segments) (fun r => (r.1, r.2.value)) fun r => r.2.payload.owned := by
  cases segments with
  | nil => exact owns_receiveError _ { header, payload := .null }
  | cons first segments =>
    refine owns_bind (owns_receiveMessage (realloc 0) (.start buffer header) ?_) ?_
    · exact fun _ _ _ h => h.2.2 rfl
    rintro (next | result) hplain
    swap
    · exact owns_pure rfl rfl
    obtain ⟨found, hextract, htype, htotal, hrealloc⟩ := exists_header_of_receiveMessage hplain
    rcases Nat.eq_zero_or_pos next.totalBytesReceived with hzero | hpos
    · apply owns_receiveLoop_of_empty segments _ hzero
      intro hfrees second hsecond
      obtain ⟨others, rfl⟩ := List.head?_eq_some_iff.mp hsecond
      have hsize : found.payloadSize.toNat = 0 := by
        have hnext : next.totalBytesReceived = 0 + found.payloadSize.toNat := htotal
        omega
      have hempty := isEmptyMessage_of_extractHeader hextract hsize
      have hmemory : realloc 0 next.totalBytesReceived = true := hrealloc
      have hother := hsafe hfrees
      rw [htype] at hempty
      rw [hzero] at hmemory
      rw [freesTwice, hmemory, hempty, Bool.true_and, Bool.true_and, Bool.or_eq_false_iff] at hother
      exact hother
    · exact owns_receiveLoop segments _ fun _ => hpos

/-- `request_file_contents` comes to free a payload that `realloc` has freed. -/
structure FreesTwice (freesAtZero : Bool) (env : ClientEnv) (fileName : CString)
    (segments : List Segment) : Prop where
  freesAtZero : freesAtZero = true
  request : RequestSent env commandRequestFile fileName
  segments : freesTwice env.realloc segments = true

theorem owns_requestFileContents {freesAtZero : Bool} {env : ClientEnv} {segments : List Segment}
    {fileName : CString} (h : ¬FreesTwice freesAtZero env fileName segments)
    (buffer : ReceiveBuffer) (header : Header) :
    Owns ∅ (requestFileContents freesAtZero env fileName buffer segments header)
      (ClientServer.requestFileContents env fileName buffer segments
        { header, payload := .indeterminate })
      RequestResult.value fun result => result.response.payload.owned := by
  refine owns_bind (owns_sendRequest _ _ _) ?_
  rintro ⟨rvalue, sent⟩ hsent
  refine owns_ite (fun _ => owns_pure rfl rfl) fun hrvalue => ?_
  refine owns_bind (owns_receiveLoop_start ?_ buffer header) fun _ _ => owns_pure rfl rfl
  intro hfrees
  rw [Bool.eq_false_iff]
  intro htwice
  refine h ⟨hfrees, ?_, htwice⟩
  by_contra hrequest
  obtain ⟨code, bytes, hfailed, hcode⟩ := sendRequest_of_not_requestSent hrequest
  obtain ⟨rfl, -⟩ := Prod.mk.inj (Option.some.inj (hfailed.symm.trans hsent))
  exact hrvalue hcode

/-! ## The payload freed twice -/

section FreesTwice

variable {buffer : ReceiveBuffer} {segment : Segment} {found : Header} {rest : List UInt8}

theorem slice_zero (buffer : ReceiveBuffer) : slice buffer.bytes headerSize 0 = some [] := by
  refine slice_eq_some_iff.mpr ⟨?_, rfl⟩
  rw [ReceiveBuffer.length_bytes, maxMessageSize]
  omega

/-- A first chunk without payload. -/
theorem receiveMessage_of_first {freesAtZero : Bool} {realloc : ℕ → Bool} (header : Header)
    (hsegment : segment.bytes = encodeHeader found ++ rest)
    (htype : found.messageType = messageResponseChunk) (hsize : found.payloadSize.toNat = 0)
    (hmemory : realloc 0 = true) :
    receiveMessage freesAtZero realloc (.start buffer header) segment =
      acquire Kind.block >>= fun address => pure (.inl
        { buffer := buffer.receive segment
          totalBytesReceived := 0
          response := { header, payload := .block address [] } }) := by
  have hlast : found.messageType ≠ messageResponseLastChunk := by
    rw [htype]
    decide
  have hmemory' : ¬¬realloc (0 + 0) = true := not_not.mpr hmemory
  have hnull : ¬(freesAtZero = true ∧ 0 + 0 = 0 ∧ BlockPtr.null ≠ .null) := fun h => h.2.2 rfl
  unfold receiveMessage ReceiveState.start
  dsimp only
  rw [extractHeader_receive buffer hsegment]
  show (if _ then _ else _) = _
  rw [if_pos (.inl htype), hsize, if_neg hnull, if_neg hmemory', slice_zero]
  show (acquire Kind.block >>= _) >>= _ = _
  simp only [if_neg hlast]
  rfl

/-- A second one, with the block of the first. -/
theorem receiveMessage_of_second {realloc : ℕ → Bool} {state : ReceiveState} {address : ℕ}
    {bytes : List UInt8} (htotal : state.totalBytesReceived = 0)
    (hpayload : state.response.payload = .block address bytes)
    (hsegment : segment.bytes = encodeHeader found ++ rest)
    (htype : found.messageType = messageResponseChunk ∨
      found.messageType = messageResponseLastChunk) (hsize : found.payloadSize.toNat = 0) :
    receiveMessage true realloc state segment =
      release Kind.block address >>= fun _ => release Kind.block address >>= fun _ =>
        pure (.inr (errorMemoryAllocationFailed, { state.response with payload := .null })) := by
  have hzero : true = true ∧ state.totalBytesReceived + found.payloadSize.toNat = 0 ∧
      state.response.payload ≠ .null := by
    rw [htotal, hsize, hpayload]
    exact ⟨rfl, rfl, BlockPtr.noConfusion⟩
  unfold receiveMessage
  dsimp only
  rw [extractHeader_receive state.buffer hsegment]
  show (if _ then _ else _) = _
  rw [if_pos htype, if_pos hzero, receiveError, hpayload]
  rfl

end FreesTwice

theorem run_receiveLoop_of_freesTwice {realloc : ℕ → ℕ → Bool} {segments : List Segment}
    (h : freesTwice realloc segments = true) (allocator : Allocator Kind) (buffer : ReceiveBuffer)
    (header : Header) (held : Finset (Kind × ℕ)) :
    (receiveLoop true realloc (.start buffer header) segments).run allocator held =
      .error .misuse := by
  match segments, h with
  | first :: second :: others, h =>
    rw [freesTwice, Bool.and_eq_true, Bool.and_eq_true, Bool.or_eq_true] at h
    obtain ⟨⟨hmemory, hfirst⟩, hsecond⟩ := h
    obtain ⟨found, rest, hsegment, htype, hsize⟩ := isEmptyMessage_iff.mp hfirst
    obtain ⟨found', rest', hsegment', htype', hsize'⟩ : ∃ found' rest',
        second.bytes = encodeHeader found' ++ rest' ∧
          (found'.messageType = messageResponseChunk ∨
            found'.messageType = messageResponseLastChunk) ∧ found'.payloadSize.toNat = 0 := by
      rcases hsecond with hchunk | hlast
      · obtain ⟨found', rest', hsegment', htype', hsize'⟩ := isEmptyMessage_iff.mp hchunk
        exact ⟨found', rest', hsegment', .inl htype', hsize'⟩
      · obtain ⟨found', rest', hsegment', htype', hsize'⟩ := isEmptyMessage_iff.mp hlast
        exact ⟨found', rest', hsegment', .inr htype', hsize'⟩
    rw [receiveLoop, receiveMessage_of_first header hsegment htype hsize hmemory]
    show run allocator (receiveLoop true (fun i => realloc (i + 1))
      { buffer := buffer.receive first
        totalBytesReceived := 0
        response := { header, payload := .block (allocator.fresh .block held) [] } }
      (second :: others)) (insert (.block, allocator.fresh .block held) held) = _
    rw [receiveLoop, receiveMessage_of_second rfl rfl hsegment' htype' hsize']
    exact run_release_twice allocator Kind.block _ (fun _ => pure _) _

theorem run_requestFileContents_of_freesTwice {env : ClientEnv} {fileName : CString}
    {segments : List Segment} (hrequest : RequestSent env commandRequestFile fileName)
    (h : freesTwice env.realloc segments = true) (allocator : Allocator Kind)
    (buffer : ReceiveBuffer) (header : Header) (held : Finset (Kind × ℕ)) :
    (requestFileContents true env fileName buffer segments header).run allocator held =
      .error .misuse := by
  have hplain := sendRequest_of_requestSent hrequest
  rw [requestFileContents, run_bind]
  rcases (owns_sendRequest env commandRequestFile fileName).run_of_empty allocator held with
    ⟨-, hnone⟩ | ⟨sent, hrun, hsent⟩
  · cases hnone.symm.trans hplain
  · obtain rfl : sent = _ := Option.some.inj (hsent.symm.trans hplain)
    rw [hrun]
    show run allocator (if statusOk ≠ statusOk then _ else _) _ = _
    rw [if_neg not_statusOk_ne, run_bind, run_receiveLoop_of_freesTwice h]
    rfl

/-- **Memory safety of the requests.** Whatever the allocator and the system answer and whatever is
received, either function of the client does what it does without a heap, uses and frees only blocks
that it has, and keeps the payload of the caller's response and nothing else, but for this:
`request_file_contents` frees a payload twice, if and only if its request is sent, `realloc` frees a
block that it is to resize to zero bytes, and two chunks without payload come first. -/
theorem requests_own_payload (allocator : Allocator Kind) (freesAtZero : Bool) (env : ClientEnv)
    (fileName : CString) (buffer : ReceiveBuffer) (segments : List Segment) (header : Header)
    (held : Finset (Kind × ℕ)) :
    EndsAs ((requestFileMetadata env fileName buffer segments header).run allocator held) held
        (ClientServer.requestFileMetadata env fileName buffer segments
          { header, payload := .indeterminate })
        RequestResult.value (fun result => result.response.payload.owned) ∧
      ((requestFileContents freesAtZero env fileName buffer segments header).run allocator held =
          .error .misuse ↔ FreesTwice freesAtZero env fileName segments) ∧
      (¬FreesTwice freesAtZero env fileName segments →
        EndsAs ((requestFileContents freesAtZero env fileName buffer segments header).run allocator
            held) held
          (ClientServer.requestFileContents env fileName buffer segments
            { header, payload := .indeterminate })
          RequestResult.value fun result => result.response.payload.owned) := by
  have hends : ¬FreesTwice freesAtZero env fileName segments → EndsAs _ _ _ _ _ := fun h =>
    (owns_requestFileContents h buffer header).run_of_empty allocator held
  refine ⟨(owns_requestFileMetadata _ _ _ _ _).run_of_empty allocator held, ⟨?_, ?_⟩, hends⟩
  · intro hmisuse
    by_contra h
    exact (hends h).ne_misuse hmisuse
  · rintro ⟨rfl, hrequest, hfrees⟩
    exact run_requestFileContents_of_freesTwice hrequest hfrees allocator buffer header held

/-- A chunk without payload, and a last one: `realloc` frees the payload, and then the loop does. -/
example : (requestFileContents true .reliable (.ofLiteral "a") ClientSystem.reliable.buffer
    [⟨[3, 1, 0, 0, 0, 0, 0, 0, 0, 0, 0], by decide, by decide⟩,
      ⟨[4, 1, 0, 0, 0, 0, 0, 0, 0, 1, 0], by decide, by decide⟩] .init).run (.next Kind) ∅ =
    .error .misuse := by
  decide +kernel

/-- What a command leaves behind when it fails, if it may leave anything. -/
def leftover (leaves : Prop) [Decidable leaves] (r : ClientRun × BlockPtr) : Finset (Kind × ℕ) :=
  if leaves ∧ r.1.exitCode ≠ 0 then r.2.owned else ∅

theorem leftover_congr {p q : Prop} [Decidable p] [Decidable q] (h : p ↔ q) :
    leftover p = leftover q := by
  funext r
  simp only [leftover, h]

section Commands

variable {sys : ClientSystem} {leaves : Prop} [Decidable leaves]

/-- A response whose payload is no string leaves the run undefined. -/
theorem owns_runCommand {request : Header → Holding Kind RequestResult}
    {plain : ClientServer.Response → Option ClientServer.RequestResult}
    (hrequest : (∃ n, sys.sockets.Connects 3 n) → Owns ∅ (request sys.header)
      (plain { header := sys.header, payload := .indeterminate }) RequestResult.value
      fun result => result.response.payload.owned)
    (hfailed : ¬leaves → ∀ result,
      plain { header := sys.header, payload := .indeterminate } = some result →
      result.rvalue ≠ statusOk → result.response.payload.toCString = none)
    (announced : CString) (failure : ℕ → UInt8 → CString → CString)
    (report : Header → CString → CString) :
    Owns ∅ (runCommand sys announced request failure report)
      (ClientServer.runCommand sys announced plain failure report) Prod.fst (leftover leaves) := by
  unfold runCommand ClientServer.runCommand
  dsimp only
  cases hconnection : (connectWithRetryOrDie sys.sockets 3 1).outcome with
  | error exitCode => exact owns_pure (ite_self _).symm rfl
  | ok serverSocket =>
    have hconnects : ∃ n, sys.sockets.Connects 3 n := by
      by_contra hnot
      cases hconnection.symm.trans (connectWithRetryOrDie_of_not_connects (not_exists.mp hnot) 1)
    refine owns_bind (hrequest hconnects) fun result hresult => ?_
    refine owns_bind result.response.payload.owns_toCString fun payload hpayload => ?_
    refine owns_ite (fun hrvalue => owns_pure ?_ rfl) fun _ => ?_
    · have hleaves : leaves := by
        by_contra hnot
        cases hpayload.symm.trans (hfailed hnot _ hresult hrvalue)
      exact (if_pos ⟨hleaves, one_ne_zero⟩).symm
    · refine owns_bind (owns_destroyResponse result.response) fun _ _ => owns_pure ?_ rfl
      exact (if_neg fun h => h.2 rfl).symm

/-- A request that misuses the heap is the end of the run. -/
theorem run_runCommand_of_misuse {request : Header → Holding Kind RequestResult}
    (hconnects : ∃ n, sys.sockets.Connects 3 n) (allocator : Allocator Kind)
    {held : Finset (Kind × ℕ)}
    (h : (request sys.header).run allocator held = .error .misuse) (announced : CString)
    (failure : ℕ → UInt8 → CString → CString) (report : Header → CString → CString) :
    (runCommand sys announced request failure report).run allocator held = .error .misuse := by
  obtain ⟨n, hconnects⟩ := hconnects
  unfold runCommand
  dsimp only
  rw [connectWithRetryOrDie_of_connects hconnects]
  dsimp only
  rw [run_bind, h]
  rfl

theorem owns_metadataCommand (fileName : CString) (segments : List Segment) :
    Owns ∅ (metadataCommand sys fileName segments)
      (ClientServer.metadataCommand sys fileName segments) Prod.fst (leftover True) :=
  owns_runCommand (fun _ => owns_requestFileMetadata _ _ _ _ _) (fun h => absurd trivial h) _ _ _

theorem owns_contentsCommand {freesAtZero : Bool} {fileName : CString} {segments : List Segment}
    (h : (∃ n, sys.sockets.Connects 3 n) → ¬FreesTwice freesAtZero sys.env fileName segments) :
    Owns ∅ (contentsCommand freesAtZero sys fileName segments)
      (ClientServer.contentsCommand sys fileName segments) Prod.fst (leftover False) :=
  owns_runCommand (fun hconnects => owns_requestFileContents (h hconnects) _ _)
    (fun _ _ hresult hrvalue => toCString_of_requestFileContents hresult hrvalue) _ _ _

end Commands

/-- Whether the arguments ask for metadata. -/
def AsksMetadata : List CString → Prop
  | [_, command, _] => atoi command = some 0
  | _ => False

instance (args : List CString) : Decidable (AsksMetadata args) :=
  match args with
  | [_, command, _] => inferInstanceAs (Decidable (atoi command = some 0))
  | [] | [_] | [_, _] | _ :: _ :: _ :: _ :: _ => .isFalse id

/-- The arguments ask for contents, the client is connected, and its request comes to free the
payload twice. -/
def MainFreesTwice (freesAtZero : Bool) (sys : ClientSystem) (segments : List Segment) :
    List CString → Prop
  | [_, command, fileName] =>
    atoi command = some 1 ∧ (∃ n, sys.sockets.Connects 3 n) ∧
      FreesTwice freesAtZero sys.env fileName segments
  | _ => False

theorem owns_clientMain {freesAtZero : Bool} {sys : ClientSystem} {segments : List Segment}
    {args : List CString} (h : ¬MainFreesTwice freesAtZero sys segments args) :
    Owns ∅ (clientMain freesAtZero sys segments args) (ClientServer.clientMain sys segments args)
      Prod.fst (leftover (AsksMetadata args)) := by
  match args, h with
  | [program, command, fileName], h =>
    refine owns_bind (owns_lift _) fun number hnumber => ?_
    have hasks : AsksMetadata [program, command, fileName] ↔ number = 0 := by
      rw [AsksMetadata, hnumber, Option.some_inj, id]
    refine owns_ite (fun hzero => ?_) fun hzero => owns_ite (fun hone => ?_) fun _ => ?_
    · rw [leftover_congr (hasks.trans (iff_true_intro hzero))]
      exact owns_metadataCommand fileName segments
    · rw [leftover_congr (hasks.trans (iff_false_intro hzero))]
      apply owns_contentsCommand
      intro hconnects hfrees
      exact h ⟨hnumber.trans (congrArg some hone), hconnects, hfrees⟩
    · exact owns_pure (ite_self _).symm rfl
  | [], _ => exact owns_none
  | [_], _ | [_, _], _ | _ :: _ :: _ :: _ :: _, _ => exact owns_pure (ite_self _).symm rfl

theorem run_clientMain_of_freesTwice {freesAtZero : Bool} {sys : ClientSystem}
    {segments : List Segment} {args : List CString}
    (h : MainFreesTwice freesAtZero sys segments args) (allocator : Allocator Kind)
    (held : Finset (Kind × ℕ)) :
    (clientMain freesAtZero sys segments args).run allocator held = .error .misuse := by
  match args, h with
  | [program, command, fileName], ⟨hcommand, hconnects, hfreesAtZero, hrequest, hfrees⟩ =>
    subst hfreesAtZero
    rw [clientMain, hcommand]
    exact run_runCommand_of_misuse hconnects allocator
      (run_requestFileContents_of_freesTwice hrequest hfrees allocator sys.buffer sys.header held)
      _ _ _

/-- **Memory safety of the client.** Whatever the allocator and the system answer and whatever is
received, the client does what it does without a heap, uses and frees only blocks that it has, and
frees each of them, except that it exits with the payload of a failed request for metadata, and that
a request for contents may free a payload twice. -/
theorem clientMain_releases (allocator : Allocator Kind) (freesAtZero : Bool) (sys : ClientSystem)
    (segments : List Segment) (args : List CString) (held : Finset (Kind × ℕ)) :
    ((clientMain freesAtZero sys segments args).run allocator held = .error .misuse ↔
        MainFreesTwice freesAtZero sys segments args) ∧
      (¬MainFreesTwice freesAtZero sys segments args →
        EndsAs ((clientMain freesAtZero sys segments args).run allocator held) held
          (ClientServer.clientMain sys segments args) Prod.fst (leftover (AsksMetadata args))) := by
  have hends : ¬MainFreesTwice freesAtZero sys segments args → EndsAs _ _ _ _ _ :=
    fun h => (owns_clientMain h).run_of_empty allocator held
  refine ⟨⟨?_, fun h => run_clientMain_of_freesTwice h allocator held⟩, hends⟩
  intro hmisuse
  by_contra h
  exact (hends h).ne_misuse hmisuse

end CExamples.ClientServer.Heap

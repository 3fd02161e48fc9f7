import CExamples.ClientServer.Server

/-!
# The client's side of a transfer (`client_server/src/file_transfer.c`)

A call of `recv` that succeeds returns a `Segment`. The client is given the segments that arrive, in
order; once they are used up, `recv` reports the end of the stream. The receive buffer keeps what
earlier calls left in it. A function is `none` where the behaviour of the C code is undefined.
-/

namespace CExamples.ClientServer

open C

/-- What one successful `recv` stores. -/
structure Segment where
  bytes : List UInt8
  ne_nil : bytes ≠ []
  length_le : bytes.length ≤ maxMessageSize
deriving DecidableEq

/-- `uint8_t buffer[MAX_MESSAGE_SIZE]`, uninitialised at first. -/
structure ReceiveBuffer where
  bytes : List UInt8
  length_bytes : bytes.length = maxMessageSize
deriving DecidableEq

/-- `recv` overwrites the front of the buffer. -/
def ReceiveBuffer.receive (buffer : ReceiveBuffer) (segment : Segment) : ReceiveBuffer where
  bytes := segment.bytes ++ buffer.bytes.drop segment.bytes.length
  length_bytes := by
    have hlen := buffer.length_bytes
    have hle := segment.length_le
    rw [List.length_append, List.length_drop]
    omega

/-- What the system answers while the client makes one request. -/
structure ClientEnv where
  requestMalloc : Option (ℕ → UInt8)
  /-- The value of `send` for the request. -/
  send : List UInt8 → ℤ
  send_le : ∀ data, send data ≤ data.length
  /-- Whether `malloc` succeeds for a payload. -/
  payloadMalloc : Bool
  /-- Whether the `i`-th `realloc` succeeds for a given size. A `realloc` to size zero returns an
  object like any other, as the comment in the loop says. (glibc's frees the block and returns null
  there: see `Heap.requests_own_payload`.) -/
  realloc : ℕ → ℕ → Bool

/-- A system in which nothing fails. -/
def ClientEnv.reliable : ClientEnv where
  requestMalloc := some fun _ => 0
  send data := data.length
  send_le _ := le_rfl
  payloadMalloc := true
  realloc _ _ := true

/-- The outcome of a request: the value returned, the caller's response and the messages sent. -/
structure RequestResult where
  rvalue : ℕ
  response : Response
  sent : List (List UInt8)
deriving DecidableEq, Repr

/-- The header of a request. -/
def requestHeader (command : UInt8) (fileName : CString) : Header where
  messageType := messageRequest
  command := command
  payloadSize := UInt32.ofInt (strlenNullTerm fileName)
  chunkIndex := 0
  status := notSet

/-- `_send_request`: the value returned and the messages sent. -/
def sendRequest (env : ClientEnv) (command : UInt8) (fileName : CString) :
    Option (ℕ × List (List UInt8)) := do
  let header := requestHeader command fileName
  let (rvalue, message) ←
    createMessage env.requestMalloc header (.block fileName.memory) .uninitialized
  if rvalue ≠ statusOk then
    return (rvalue, [])
  let data ← message.bytes
  let _ ← destroyMessage message
  if env.send data ≤ 0 then
    return (errorSendFailed, [data])
  return (statusOk, [data])

/-- `request_file_metadata`. -/
def requestFileMetadata (env : ClientEnv) (fileName : CString) (buffer : ReceiveBuffer)
    (segments : List Segment) (response : Response) : Option RequestResult := do
  let (rvalue, sent) ← sendRequest env commandRequestMetadata fileName
  if rvalue ≠ statusOk then
    return { rvalue, response, sent }
  match segments with
  | [] => return { rvalue := errorReceiveFailed, response, sent }
  | segment :: _ =>
    let (rvalue, response) ← parseMessage env.payloadMalloc (buffer.receive segment).bytes
      (UInt32.ofNat segment.bytes.length) response
    if rvalue = statusOk ∧ response.header.status.toNat ≠ statusOk then
      return { rvalue := response.header.status.toNat, response, sent }
    return { rvalue, response, sent }

/-! ## The receive loop -/

/-- The variables of the loop. -/
structure ReceiveState where
  buffer : ReceiveBuffer
  totalBytesReceived : ℕ
  response : Response
deriving DecidableEq

/-- The state before the first `recv`, with `response->payload` set to null. -/
def ReceiveState.start (buffer : ReceiveBuffer) (response : Response) : ReceiveState where
  buffer := buffer
  totalBytesReceived := 0
  response := { response with payload := .null }

/-- `realloc` keeps the bytes received so far, and the chunk fills the room it adds. -/
def appendChunk (payload : Ptr) (chunk : List UInt8) : Option Ptr :=
  match payload with
  | .null => some (.block chunk)
  | .block bytes => some (.block (bytes ++ chunk))
  | .indeterminate => none

/-- The statements after the label `error`. -/
def receiveError (rvalue : ℕ) (response : Response) : Option (ℕ × Response) := do
  response.payload.free
  return (rvalue, { response with payload := .null })

/-- The header returned after the last chunk. -/
def completedHeader (header : Header) (totalBytesReceived : ℕ) : Header :=
  { header with
    messageType := messageResponse
    payloadSize := UInt32.ofNat totalBytesReceived
    status := UInt8.ofNat statusOk }

/-- The body of the loop once `recv` has returned a segment: the state for the next iteration, or
the value returned with the caller's response. -/
def receiveMessage (realloc : ℕ → Bool) (state : ReceiveState) (segment : Segment) :
    Option (ReceiveState ⊕ (ℕ × Response)) := do
  let buffer := state.buffer.receive segment
  match ← extractHeader buffer.bytes (UInt32.ofNat segment.bytes.length) with
  | .error rvalue => return .inr (← receiveError rvalue state.response)
  | .ok header =>
    if header.messageType = messageResponseChunk ∨
        header.messageType = messageResponseLastChunk then
      let totalBytesReceived := state.totalBytesReceived + header.payloadSize.toNat
      if ¬realloc totalBytesReceived then
        return .inr (← receiveError errorMemoryAllocationFailed state.response)
      let chunk ← slice buffer.bytes headerSize header.payloadSize.toNat
      let payload ← appendChunk state.response.payload chunk
      if header.messageType = messageResponseLastChunk then
        return .inr (statusOk, { header := completedHeader header totalBytesReceived, payload })
      return .inl { buffer, totalBytesReceived, response := { state.response with payload } }
    else if header.messageType = messageResponse ∧ header.status.toNat ≠ statusOk then
      return .inr (← receiveError header.status.toNat { state.response with header })
    else return .inr (← receiveError errorUnexpectedMessageType state.response)

/-- The loop, with the answers of the calls of `realloc` to come. -/
def receiveLoop (realloc : ℕ → ℕ → Bool) (state : ReceiveState) :
    List Segment → Option (ℕ × Response)
  | [] => receiveError errorReceiveFailed state.response
  | segment :: segments => do
    match ← receiveMessage (realloc 0) state segment with
    | .inl state => receiveLoop (fun i => realloc (i + 1)) state segments
    | .inr result => return result

/-- `request_file_contents`, which sends its request the way `_send_request` does. -/
def requestFileContents (env : ClientEnv) (fileName : CString) (buffer : ReceiveBuffer)
    (segments : List Segment) (response : Response) : Option RequestResult := do
  let (rvalue, sent) ← sendRequest env commandRequestFile fileName
  if rvalue ≠ statusOk then
    return { rvalue, response, sent }
  let (rvalue, response) ← receiveLoop env.realloc (.start buffer response) segments
  return { rvalue, response, sent }

end CExamples.ClientServer

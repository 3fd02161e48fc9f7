import CExamples.ClientServer.Protocol
import CExamples.Common.CString

/-!
# The server's side of a transfer (`client_server/src/file_transfer.c`)

`ServerEnv` fixes what every system call and allocation of one request will answer, and a function
returns a `Reply`: its return value and the calls it made, in order. A function is `none` where the
behaviour of the C code is undefined.
-/

namespace CExamples.ClientServer

open C

/-- `SERVER_FILE_PATH`. -/
def serverFilePath : CString :=
  .ofLiteral "/code/c_examples/client_server/tests/fake_server_files"

/-- What the system answers while the server handles one request. -/
structure ServerEnv where
  /-- The size of the file at a path, or `none` if `stat` fails. -/
  stat : CString → Option ℤ
  fopen : CString → Bool
  ftell : ℤ
  ftell_inRange : InRange 64 ftell
  /-- The bytes that the `i`-th `fread` stores in the buffer. -/
  fread : ℕ → List UInt8
  length_fread_le : ∀ i, (fread i).length ≤ maxPayloadSize
  /-- `malloc` for the message of the `i`-th chunk. -/
  chunkMalloc : ℕ → Option (ℕ → UInt8)
  metadataMalloc : Option (ℕ → UInt8)
  errorMalloc : Option (ℕ → UInt8)
  /-- The value of the `n`-th `send`: the number of bytes accepted, or a negative number. -/
  send : ℕ → List UInt8 → ℤ
  send_le : ∀ n data, send n data ≤ data.length

/-- A system in which nothing fails and every path leads to a file with the given contents. -/
def ServerEnv.serving (contents : List UInt8) (h : contents.length < 2 ^ 63) : ServerEnv where
  stat _ := some contents.length
  fopen _ := true
  ftell := contents.length
  ftell_inRange := ⟨by omega, by omega⟩
  fread i := (contents.drop (maxPayloadSize * i)).take maxPayloadSize
  length_fread_le _ := List.length_take_le _ _
  chunkMalloc _ := some fun _ => 0
  metadataMalloc := some fun _ => 0
  errorMalloc := some fun _ => 0
  send _ data := data.length
  send_le _ _ := le_rfl

/-- A system that serves a file of one byte. -/
def ServerEnv.oneByte : ServerEnv :=
  .serving [65] (by decide)

/-- A call the server makes that can be observed from outside, or that a message depends on. -/
inductive Event
  | stat (path : CString)
  | fopen (path : CString)
  | createMessage (header : Header) (payload : Ptr)
  | send (data : List UInt8) (bytesSent : ℤ)
deriving DecidableEq, Repr

structure Reply where
  rvalue : ℕ
  events : List Event
deriving DecidableEq, Repr

/-- The reply preceded by other calls. -/
def Reply.after (events : List Event) (reply : Reply) : Reply :=
  { reply with events := events ++ reply.events }

/-- `strlen_null_term` (`utils.c`): a `size_t` converted to `int`. -/
def strlenNullTerm (string : CString) : ℤ :=
  Int.bmod (string.chars.length + 1) (2 ^ 32)

/-- The bytes that `send` is given. -/
def Message.bytes (message : Message) : Option (List UInt8) :=
  message.data.read message.size.toNat

/-! ## Error replies -/

/-- The header of an error reply. -/
def errorHeader (command errorCode : UInt8) (errorMessage : CString) : Header where
  messageType := messageResponse
  command := command
  payloadSize := UInt32.ofInt (strlenNullTerm errorMessage)
  chunkIndex := 0
  status := errorCode

/-- `_send_error_response`, after `sent` earlier calls of `send`. -/
def sendErrorResponse (env : ServerEnv) (sent : ℕ) (command errorCode : UInt8)
    (errorMessage : CString) : Option Reply := do
  let header := errorHeader command errorCode errorMessage
  let payload := Ptr.block errorMessage.memory
  let (rvalue, message) ← createMessage env.errorMalloc header payload .uninitialized
  if rvalue ≠ statusOk then
    let _ ← destroyMessage message
    return { rvalue, events := [.createMessage header payload] }
  let data ← message.bytes
  let _ ← destroyMessage message
  return {
    rvalue := errorCode.toNat
    events := [.createMessage header payload, .send data (env.send sent data)] }

/-! ## Error texts -/

def fullPathError (rvalue : ℤ) : CString :=
  (snprintf 256 (.ofLiteral "Error creating full path; status: " ++ .ofInt rvalue)).2

def statError : CString :=
  .ofLiteral "Error getting file stats"

def metadataMessageError (rvalue : ℤ) : CString :=
  (snprintf 256 (.ofLiteral "Error creating message; status: " ++ .ofInt rvalue)).2

def metadataSendError : CString :=
  .ofLiteral "Error sending message"

def openError (fullPath : CString) : CString :=
  (snprintf 500 (.ofLiteral "Error opening file: " ++ fullPath)).2

/-- The `uint32_t` index is printed as an `int`. -/
def chunkMessageError (chunkIndex : ℕ) (rvalue : ℤ) : CString :=
  (snprintf 256 (.ofLiteral "Error creating message (chunk " ++
    .ofInt (Int.bmod chunkIndex (2 ^ 32)) ++ .ofLiteral "), status: " ++ .ofInt rvalue)).2

def chunkSendError (chunkIndex : ℕ) (bytesSent : ℤ) : CString :=
  (snprintf 256 (.ofLiteral "Error sending chunk " ++
    .ofInt (Int.bmod chunkIndex (2 ^ 32)) ++ .ofLiteral ", bytes_sent: " ++ .ofInt bytesSent)).2

def invalidCommandError (command : UInt8) : CString :=
  (snprintf 256 (.ofLiteral "Invalid command: " ++ .ofInt command.toNat)).2

/-! ## Metadata -/

/-- The path of a served file. -/
def fullPath (fileName : CString) : CString :=
  serverFilePath ++ .ofLiteral "/" ++ fileName

/-- `send_file_metadata`. -/
def sendFileMetadata (env : ServerEnv) (fileName : CString) : Option Reply := do
  let (rvalue, path) := snprintf 256 (fullPath fileName)
  if rvalue < 0 ∨ 256 ≤ rvalue then
    let reply ← sendErrorResponse env 0 commandRequestMetadata (UInt8.ofNat errorFileOpenFailed)
      (fullPathError rvalue)
    return { reply with rvalue := errorFileOpenFailed }
  match env.stat path with
  | none =>
    let reply ← sendErrorResponse env 0 commandRequestMetadata (UInt8.ofNat errorFileNotFound)
      statError
    return ({ reply with rvalue := errorFileNotFound }).after [.stat path]
  | some size =>
    let (_, metadata) := snprintf 256 (.ofLiteral "Size: " ++ .ofInt size)
    let header : Header :=
      { messageType := messageResponse
        command := commandRequestMetadata
        payloadSize := UInt32.ofInt (strlenNullTerm metadata)
        chunkIndex := 0
        status := UInt8.ofNat statusOk }
    let payload := Ptr.block metadata.memory
    let events := [Event.stat path, .createMessage header payload]
    let (rvalue, message) ← createMessage env.metadataMalloc header payload .uninitialized
    if rvalue ≠ statusOk then
      let _ ← destroyMessage message
      let reply ← sendErrorResponse env 0 commandRequestMetadata (UInt8.ofNat rvalue)
        (metadataMessageError rvalue)
      return ({ reply with rvalue }).after events
    let data ← message.bytes
    let _ ← destroyMessage message
    let bytesSent := env.send 0 data
    if bytesSent ≤ 0 then
      let reply ← sendErrorResponse env 1 commandRequestMetadata (UInt8.ofNat errorSendFailed)
        metadataSendError
      return ({ reply with rvalue := errorSendFailed }).after
        (events ++ [Event.send data bytesSent])
    return { rvalue := statusOk, events := events ++ [Event.send data bytesSent] }

/-! ## Contents -/

/-- `calculate_total_chunks`: a computation in `long` whose result is converted to `int`. -/
def calculateTotalChunks (fileSize : ℤ) : Option ℤ := do
  let rounded ← sub 64 (← add 64 fileSize maxPayloadSize) 1
  let chunks ← div 64 rounded maxPayloadSize
  return Int.bmod chunks (2 ^ 32)

/-- The header of a chunk of which `bytesRead` bytes were read. -/
def chunkHeader (totalChunks : UInt32) (chunkIndex bytesRead : ℕ) : Header where
  messageType :=
    if UInt32.ofNat chunkIndex = totalChunks - 1 then messageResponseLastChunk
    else messageResponseChunk
  command := commandRequestFile
  payloadSize := UInt32.ofNat bytesRead
  chunkIndex := UInt32.ofNat chunkIndex
  status := UInt8.ofNat statusOk

/-- The loop of `send_file_contents` from chunk `chunkIndex` on, with `remaining` chunks to go;
`chunkIndex + remaining` is `totalChunks`. Every earlier chunk took one call of `send`. -/
def sendChunks (env : ServerEnv) (totalChunks : UInt32) (chunkIndex : ℕ) : ℕ → Option Reply
  | 0 => some { rvalue := statusOk, events := [] }
  | remaining + 1 => do
    -- The rest of the array is never read, so the buffer is the bytes just read.
    let buffer := env.fread chunkIndex
    let header := chunkHeader totalChunks chunkIndex buffer.length
    let (rvalue, message) ←
      createMessage (env.chunkMalloc chunkIndex) header (.block buffer) .uninitialized
    let events := [Event.createMessage header (.block buffer)]
    if rvalue ≠ statusOk then
      let _ ← destroyMessage message
      let reply ← sendErrorResponse env chunkIndex commandRequestFile (UInt8.ofNat rvalue)
        (chunkMessageError chunkIndex rvalue)
      return reply.after events
    let data ← message.bytes
    let bytesSent := env.send chunkIndex data
    let events := events ++ [Event.send data bytesSent]
    let _ ← destroyMessage message
    if bytesSent ≠ message.size.toNat then
      let reply ← sendErrorResponse env (chunkIndex + 1) commandRequestFile
        (UInt8.ofNat errorSendFailed) (chunkSendError chunkIndex bytesSent)
      return reply.after events
    let reply ← sendChunks env totalChunks (chunkIndex + 1) remaining
    return reply.after events

/-- `send_file_contents`. -/
def sendFileContents (env : ServerEnv) (fileName : CString) : Option Reply := do
  let (rvalue, path) := snprintf 256 (fullPath fileName)
  if rvalue < 0 ∨ 256 ≤ rvalue then
    let reply ← sendErrorResponse env 0 commandRequestFile (UInt8.ofNat errorFileOpenFailed)
      (fullPathError rvalue)
    return { reply with rvalue := errorFileOpenFailed }
  if ¬env.fopen path then
    let reply ← sendErrorResponse env 0 commandRequestFile (UInt8.ofNat errorFileNotFound)
      (openError path)
    return reply.after [.fopen path]
  let totalChunks := UInt32.ofInt (← calculateTotalChunks env.ftell)
  let reply ← sendChunks env totalChunks 0 totalChunks.toNat
  return reply.after [.fopen path]

/-- `handle_request`. The payload is used as a C string. -/
def handleRequest (env : ServerEnv) (header : Header) (payload : Ptr) : Option Reply :=
  if header.command = commandRequestMetadata then do
    sendFileMetadata env (← payload.toCString)
  else if header.command = commandRequestFile then do
    sendFileContents env (← payload.toCString)
  else
    sendErrorResponse env 0 header.command (UInt8.ofNat errorInvalidCommand)
      (invalidCommandError header.command)

end CExamples.ClientServer

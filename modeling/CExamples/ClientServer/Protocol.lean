import CExamples.Common.ByteOrder

/-!
# The message format (`client_server/src/protocol.c`)

A function is `none` where the C code would read or write outside a block or use a pointer that was
never set. `malloc` appears as a parameter: whether it succeeds and, where they can be observed, the
bytes that the new block holds. Sizes are compared as natural numbers, as the code compares them in
`size_t`.
-/

namespace CExamples.ClientServer

open C

/-! ## Constants -/

def notSet : UInt8 := 255

def messageRequest : UInt8 := 1

def messageResponse : UInt8 := 2

def messageResponseChunk : UInt8 := 3

def messageResponseLastChunk : UInt8 := 4

def commandRequestFile : UInt8 := 1

def commandRequestMetadata : UInt8 := 2

def statusOk : ℕ := 0

def errorFileNotFound : ℕ := 2

def errorMaxPayloadSizeExceeded : ℕ := 3

def errorMemoryAllocationFailed : ℕ := 4

def errorInvalidDataSize : ℕ := 5

def errorSendFailed : ℕ := 6

def errorReceiveFailed : ℕ := 7

def errorFileOpenFailed : ℕ := 8

def errorInvalidCommand : ℕ := 9

def errorUnexpectedMessageType : ℕ := 11

def headerOffsetMessageType : ℕ := 0

def headerOffsetCommand : ℕ := 1

def headerOffsetPayloadSize : ℕ := 2

def headerOffsetChunkIndex : ℕ := 6

def headerOffsetStatus : ℕ := 10

def maxPayloadSize : ℕ := 1024

/-- `sizeof(Header)`; the struct is packed. -/
def headerSize : ℕ := 11

def maxMessageSize : ℕ := headerSize + maxPayloadSize

/-! ## Data -/

structure Header where
  messageType : UInt8
  command : UInt8
  payloadSize : UInt32
  chunkIndex : UInt32
  status : UInt8
deriving DecidableEq, Repr

/-- `HEADER_INIT`. -/
def Header.init : Header where
  messageType := notSet
  command := notSet
  payloadSize := 0
  chunkIndex := 0
  status := notSet

structure Message where
  data : Ptr
  size : UInt32
deriving DecidableEq, Repr

/-- A local `Message` before `create_message` has set it. -/
def Message.uninitialized : Message where
  data := .indeterminate
  size := 0

structure Response where
  header : Header
  payload : Ptr
deriving DecidableEq, Repr

/-! ## Functions -/

/-- `create_message`: the value returned and the caller's message. A null payload leaves the bytes
after the header as `malloc` returned them. -/
def createMessage (malloc : Option (ℕ → UInt8)) (header : Header) (payload : Ptr)
    (message : Message) : Option (ℕ × Message) :=
  if maxPayloadSize < header.payloadSize.toNat then some (errorMaxPayloadSizeExceeded, message)
  else
    let size := UInt32.ofNat (headerSize + header.payloadSize.toNat)
    match malloc with
    | none => some (errorMemoryAllocationFailed, { data := .null, size })
    | some junk => do
      let data := (List.range size.toNat).map junk
      let data ← overwrite data headerOffsetMessageType [header.messageType]
      let data ← overwrite data headerOffsetCommand [header.command]
      let data ← overwrite data headerOffsetPayloadSize (storeWord (htonl header.payloadSize))
      let data ← overwrite data headerOffsetChunkIndex (storeWord (htonl header.chunkIndex))
      let data ← overwrite data headerOffsetStatus [header.status]
      let data ←
        if 0 < header.payloadSize ∧ payload ≠ .null then do
          overwrite data headerSize (← payload.read header.payloadSize.toNat)
        else some data
      return (statusOk, { data := .block data, size })

/-- `extract_header`: the header, or the error code returned without one. -/
def extractHeader (data : List UInt8) (dataSize : UInt32) : Option (Except ℕ Header) :=
  if dataSize.toNat < headerSize then some (.error errorInvalidDataSize)
  else do
    let messageType ← data[headerOffsetMessageType]?
    let command ← data[headerOffsetCommand]?
    let payloadSize ← slice data headerOffsetPayloadSize 4
    let chunkIndex ← slice data headerOffsetChunkIndex 4
    let status ← data[headerOffsetStatus]?
    return .ok
      { messageType
        command
        payloadSize := ntohl (loadWord payloadSize)
        chunkIndex := ntohl (loadWord chunkIndex)
        status }

/-- `parse_message`: the value returned and the caller's response. The header is stored before the
size is checked. -/
def parseMessage (malloc : Bool) (data : List UInt8) (dataSize : UInt32) (response : Response) :
    Option (ℕ × Response) := do
  match ← extractHeader data dataSize with
  | .error status => return (status, response)
  | .ok header =>
    if 0 < header.payloadSize then
      if dataSize.toNat < headerSize + header.payloadSize.toNat then
        return (errorInvalidDataSize, { response with header })
      else if malloc then
        let payload ← slice data headerSize header.payloadSize.toNat
        return (statusOk, { header, payload := .block payload })
      else return (errorMemoryAllocationFailed, { header, payload := .null })
    else return (statusOk, { header, payload := .null })

/-- `destroy_message`. -/
def destroyMessage (message : Message) : Option Message := do
  message.data.free
  return { data := .null, size := 0 }

/-- `destroy_response`. -/
def destroyResponse (response : Response) : Option Response := do
  response.payload.free
  return { header := .init, payload := .null }

end CExamples.ClientServer

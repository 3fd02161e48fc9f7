import CExamples.ClientServer.Server
import CExamples.ClientServer.Codec

/-!
# The frames the server sends

Every message that `file_transfer.c` hands to `send` is the word of a frame. An error reply is an
`errorFrame` (`sendErrorResponse_eq`) and a chunk is a `chunkFrame`; one iteration of the loop sends
its chunk, or an error reply if the chunk cannot be built (`sendChunks_of_malloc`,
`sendChunks_of_malloc_none`).
-/

namespace CExamples.ClientServer

open C

theorem pointsTo_block (bytes : List UInt8) : PointsTo (.block bytes) bytes :=
  .inr ⟨[], by rw [List.append_nil]⟩

theorem pointsTo_take (bytes : List UInt8) (n : ℕ) : PointsTo (.block bytes) (bytes.take n) :=
  .inr ⟨bytes.drop n, by rw [List.take_append_drop]⟩

theorem Frame.bytes_message (frame : Frame) : frame.message.bytes = some frame.encode := by
  rw [Message.bytes, frame.toNat_message_size]
  exact slice_eq_some_iff.mpr ⟨by omega, List.take_length⟩

theorem destroyMessage_null (size : UInt32) :
    destroyMessage { data := .null, size } = some { data := .null, size := 0 } :=
  rfl

@[simp] theorem Frame.destroyMessage_message (frame : Frame) :
    destroyMessage frame.message = some { data := .null, size := 0 } :=
  rfl

/-- The message of a call of `send`. -/
def Event.sent : Event → Option (List UInt8)
  | .stat _ => none
  | .fopen _ => none
  | .createMessage _ _ => none
  | .send data _ => some data

/-- The messages handed to `send`, in order. -/
def Reply.sent (reply : Reply) : List (List UInt8) :=
  reply.events.filterMap Event.sent

/-! ## Error replies -/

/-! A text that fits in a payload fills it with its terminator. -/

theorem length_memory_eq {string : CString} (h : string.chars.length < maxPayloadSize) :
    string.memory.length = (UInt32.ofInt (strlenNullTerm string)).toNat := by
  have hwrap : ((UInt32.ofInt (strlenNullTerm string)).toNat : ℤ) = _ := toNat_ofInt_bmod _
  simp only [maxPayloadSize] at h
  rw [CString.length_memory]
  omega

theorem length_memory_le {string : CString} (h : string.chars.length < maxPayloadSize) :
    string.memory.length ≤ maxPayloadSize := by
  rwa [CString.length_memory]

/-- The reply that `_send_error_response` builds from a text that fits in a message. -/
def errorFrame (command errorCode : UInt8) (errorMessage : CString)
    (h : errorMessage.chars.length < maxPayloadSize) : Frame where
  header := errorHeader command errorCode errorMessage
  payload := errorMessage.memory
  length_payload := length_memory_eq h
  payload_le := length_memory_le h

theorem sendErrorResponse_eq (env : ServerEnv) (sent : ℕ) (command errorCode : UInt8)
    {errorMessage : CString} (h : errorMessage.chars.length < maxPayloadSize)
    (hmalloc : env.errorMalloc ≠ none) :
    sendErrorResponse env sent command errorCode errorMessage =
      some {
        rvalue := errorCode.toNat
        events := [
          .createMessage (errorHeader command errorCode errorMessage) (.block errorMessage.memory),
          .send (errorFrame command errorCode errorMessage h).encode
            (env.send sent (errorFrame command errorCode errorMessage h).encode)] } := by
  obtain ⟨junk, hjunk⟩ := Option.ne_none_iff_exists'.mp hmalloc
  have hcreate : createMessage (some junk) (errorHeader command errorCode errorMessage)
      (.block errorMessage.memory) .uninitialized =
        some (statusOk, (errorFrame command errorCode errorMessage h).message) :=
    createMessage_of_pointsTo junk (errorFrame command errorCode errorMessage h)
      (pointsTo_block _) .uninitialized
  rw [sendErrorResponse, hjunk]
  simp [hcreate, Frame.bytes_message]

/-! ## Chunks -/

def chunkFrame (env : ServerEnv) (totalChunks : UInt32) (chunkIndex : ℕ) : Frame where
  header := chunkHeader totalChunks chunkIndex (env.fread chunkIndex).length
  payload := env.fread chunkIndex
  length_payload :=
    (UInt32.toNat_ofNat_of_lt' ((env.length_fread_le chunkIndex).trans_lt (by decide))).symm
  payload_le := env.length_fread_le chunkIndex

theorem messageType_chunkFrame (env : ServerEnv) (totalChunks : UInt32) (chunkIndex : ℕ) :
    (chunkFrame env totalChunks chunkIndex).header.messageType = messageResponseChunk ∨
      (chunkFrame env totalChunks chunkIndex).header.messageType = messageResponseLastChunk := by
  by_cases hlast : UInt32.ofNat chunkIndex = totalChunks - 1
  · exact .inr (if_pos hlast)
  · exact .inl (if_neg hlast)

theorem messageType_chunkFrame_ne (env : ServerEnv) (totalChunks : UInt32) (chunkIndex : ℕ) :
    (chunkFrame env totalChunks chunkIndex).header.messageType ≠ messageResponse := by
  rcases messageType_chunkFrame env totalChunks chunkIndex with hchunk | hlast
  · rw [hchunk]
    decide
  · rw [hlast]
    decide

/-- The comparison that marks the last chunk. -/
theorem ofNat_eq_sub_one_iff {totalChunks : UInt32} {chunkIndex : ℕ}
    (h : chunkIndex < totalChunks.toNat) :
    UInt32.ofNat chunkIndex = totalChunks - 1 ↔ chunkIndex + 1 = totalChunks.toNat := by
  have hle : (1 : UInt32) ≤ totalChunks := by
    rw [UInt32.le_iff_toNat_le, UInt32.toNat_one]
    omega
  rw [← UInt32.toNat_inj, UInt32.toNat_ofNat_of_lt' (h.trans totalChunks.toNat_lt),
    UInt32.toNat_sub_of_le _ _ hle, UInt32.toNat_one]
  omega

theorem messageType_of_last {totalChunks : UInt32} {chunkIndex : ℕ}
    (h : chunkIndex + 1 = totalChunks.toNat) (bytesRead : ℕ) :
    (chunkHeader totalChunks chunkIndex bytesRead).messageType = messageResponseLastChunk :=
  if_pos ((ofNat_eq_sub_one_iff (by omega)).mpr h)

theorem messageType_of_lt {totalChunks : UInt32} {chunkIndex : ℕ}
    (h : chunkIndex + 1 < totalChunks.toNat) (bytesRead : ℕ) :
    (chunkHeader totalChunks chunkIndex bytesRead).messageType = messageResponseChunk := by
  apply if_neg
  rw [ofNat_eq_sub_one_iff (by omega)]
  exact h.ne

theorem toNat_chunkIndex {totalChunks : UInt32} {chunkIndex : ℕ}
    (h : chunkIndex < totalChunks.toNat) (bytesRead : ℕ) :
    (chunkHeader totalChunks chunkIndex bytesRead).chunkIndex.toNat = chunkIndex :=
  UInt32.toNat_ofNat_of_lt' (h.trans totalChunks.toNat_lt)

/-- A chunk that is built and accepted whole takes the loop to the next one. -/
theorem sendChunks_of_malloc {env : ServerEnv} {chunkIndex : ℕ}
    (hmalloc : env.chunkMalloc chunkIndex ≠ none) (totalChunks : UInt32)
    (hsend : env.send chunkIndex (chunkFrame env totalChunks chunkIndex).encode =
      (chunkFrame env totalChunks chunkIndex).encode.length) (remaining : ℕ) :
    sendChunks env totalChunks chunkIndex (remaining + 1) =
      (sendChunks env totalChunks (chunkIndex + 1) remaining).map
        (Reply.after [
          .createMessage (chunkFrame env totalChunks chunkIndex).header
            (.block (env.fread chunkIndex)),
          .send (chunkFrame env totalChunks chunkIndex).encode
            (chunkFrame env totalChunks chunkIndex).encode.length]) := by
  obtain ⟨junk, hjunk⟩ := Option.ne_none_iff_exists'.mp hmalloc
  have hcreate := createMessage_of_pointsTo junk (chunkFrame env totalChunks chunkIndex)
    (pointsTo_block _) .uninitialized
  have hheader : chunkHeader totalChunks chunkIndex (env.fread chunkIndex).length =
      (chunkFrame env totalChunks chunkIndex).header := rfl
  have hpayload : env.fread chunkIndex = (chunkFrame env totalChunks chunkIndex).payload := rfl
  rw [sendChunks, hjunk]
  simp only [hheader]
  rw [hpayload, hcreate]
  cases sendChunks env totalChunks (chunkIndex + 1) remaining <;>
    simp [Frame.bytes_message, hsend]

/-- A chunk that cannot be built ends the loop with an error reply. -/
theorem sendChunks_of_malloc_none {env : ServerEnv} {chunkIndex : ℕ}
    (hmalloc : env.chunkMalloc chunkIndex = none) (totalChunks : UInt32) (remaining : ℕ) :
    sendChunks env totalChunks chunkIndex (remaining + 1) =
      (sendErrorResponse env chunkIndex commandRequestFile
        (UInt8.ofNat errorMemoryAllocationFailed)
        (chunkMessageError chunkIndex errorMemoryAllocationFailed)).map
        (Reply.after [
          .createMessage (chunkFrame env totalChunks chunkIndex).header
            (.block (env.fread chunkIndex))]) := by
  have hle : (chunkFrame env totalChunks chunkIndex).header.payloadSize.toNat ≤ maxPayloadSize := by
    rw [← Frame.length_payload]
    exact Frame.payload_le _
  have hcreate := createMessage_none hle (.block (env.fread chunkIndex)) .uninitialized
  rw [chunkFrame] at hcreate
  rw [sendChunks, hmalloc, hcreate, Option.bind_eq_bind, Option.bind_some]
  dsimp only
  rw [if_pos errorMemoryAllocationFailed_ne, destroyMessage_null, Option.bind_eq_bind,
    Option.bind_some, Option.map_eq_bind]
  rfl

/-! ## The whole reply -/

/-- The chunk count overflows close to the largest `long`. -/
theorem calculateTotalChunks_eq {fileSize : ℤ} (h : InRange 64 fileSize) :
    calculateTotalChunks fileSize =
      if fileSize + 1024 < 2 ^ 63 then
        some (Int.bmod ((fileSize + 1023).tdiv 1024) (2 ^ 32))
      else none := by
  have hlow : -2 ^ 63 ≤ fileSize := h.1
  have hmax : (maxPayloadSize : ℤ) = 1024 := rfl
  rw [calculateTotalChunks, hmax]
  split
  · rename_i hfits
    have hadd : InRange 64 (fileSize + 1024) := ⟨by omega, hfits⟩
    have hsub : InRange 64 (fileSize + 1024 - 1) := ⟨by omega, by omega⟩
    have hsum : fileSize + 1024 - 1 = fileSize + 1023 := by omega
    rw [add_of_inRange hadd, Option.bind_eq_bind, Option.bind_some, sub_of_inRange hsub,
      Option.bind_some, div_of_pos hsub (by decide), hsum]
    rfl
  · rename_i hlarge
    have hadd : ¬InRange 64 (fileSize + 1024) := by
      intro h
      exact hlarge h.2
    rw [add, checked, if_neg hadd]
    rfl

/-- A path that does not fit in its buffer. -/
theorem sendFileContents_of_le {env : ServerEnv} {fileName : CString}
    (h : 256 ≤ (fullPath fileName).chars.length) :
    sendFileContents env fileName =
      (sendErrorResponse env 0 commandRequestFile (UInt8.ofNat errorFileOpenFailed)
        (fullPathError (snprintf 256 (fullPath fileName)).1)).map
        fun reply => { reply with rvalue := errorFileOpenFailed } := by
  have hlong : (snprintf 256 (fullPath fileName)).1 < 0 ∨
      256 ≤ (snprintf 256 (fullPath fileName)).1 := snprintf_of_le h
  rw [sendFileContents]
  dsimp only
  rw [if_pos hlong, Option.bind_eq_bind, Option.map_eq_bind]
  rfl

/-- A path that fits. -/
theorem sendFileContents_of_lt {env : ServerEnv} {fileName : CString}
    (h : (fullPath fileName).chars.length < 256) :
    sendFileContents env fileName =
      if env.fopen (fullPath fileName) then
        (calculateTotalChunks env.ftell).bind fun chunks =>
          (sendChunks env (UInt32.ofInt chunks) 0 (UInt32.ofInt chunks).toNat).map
            (Reply.after [.fopen (fullPath fileName)])
      else
        (sendErrorResponse env 0 commandRequestFile (UInt8.ofNat errorFileNotFound)
          (openError (fullPath fileName))).map (Reply.after [.fopen (fullPath fileName)]) := by
  rw [sendFileContents, snprintf_of_lt h (by decide)]
  dsimp only
  rw [if_neg (by omega)]
  cases env.fopen (fullPath fileName) with
  | false =>
    rw [if_pos nofun, Option.bind_eq_bind, Option.map_eq_bind]
    rfl
  | true =>
    rw [if_neg (by decide), if_pos rfl, Option.bind_eq_bind]
    congr 1
    funext chunks
    rw [Option.map_eq_bind]
    rfl

/-! ## Requests -/

section Requests

variable {env : ServerEnv} {header : Header}

theorem handleRequest_of_metadata (h : header.command = commandRequestMetadata) (payload : Ptr) :
    handleRequest env header payload = payload.toCString.bind (sendFileMetadata env) :=
  if_pos h

theorem handleRequest_of_file (h : header.command = commandRequestFile) (payload : Ptr) :
    handleRequest env header payload = payload.toCString.bind (sendFileContents env) := by
  have hne : header.command ≠ commandRequestMetadata := by
    rw [h]
    decide
  rw [handleRequest, if_neg hne, if_pos h]
  rfl

end Requests

end CExamples.ClientServer

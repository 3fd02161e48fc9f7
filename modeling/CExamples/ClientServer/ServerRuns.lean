import CExamples.ClientServer.ServerFrames

/-!
# How the server's functions end

The outcome of each function of the server, for every answer of the system. An error reply is sent
or cannot be built (`sendErrorResponse_of_lt`), and the loop over the chunks sends some of them
whole and then ends in one of three ways (`LoopEnd`, `exists_loopEnd`): all chunks are sent, one
cannot be built, or one is not accepted whole. `ContentsOutcome` and `MetadataOutcome` list the
replies to the two commands.
-/

namespace CExamples.ClientServer

open C

@[simp] theorem Reply.rvalue_after (reply : Reply) (events : List Event) :
    (reply.after events).rvalue = reply.rvalue :=
  rfl

@[simp] theorem Reply.events_after (reply : Reply) (events : List Event) :
    (reply.after events).events = events ++ reply.events :=
  rfl

/-! ## Error replies -/

/-- A text printed into a buffer that is no larger than a payload. -/
theorem length_snprintf_lt {size : ℕ} (h : size ≤ maxPayloadSize) (text : CString) :
    (snprintf size text).2.chars.length < maxPayloadSize := by
  have hle := length_snprintf_le size text
  rw [maxPayloadSize] at h ⊢
  omega

/-! Every error text fits in a message. -/

theorem length_fullPathError_lt (rvalue : ℤ) :
    (fullPathError rvalue).chars.length < maxPayloadSize :=
  length_snprintf_lt (by decide) _

theorem length_metadataMessageError_lt (rvalue : ℤ) :
    (metadataMessageError rvalue).chars.length < maxPayloadSize :=
  length_snprintf_lt (by decide) _

theorem length_openError_lt (path : CString) : (openError path).chars.length < maxPayloadSize :=
  length_snprintf_lt (by decide) _

theorem length_chunkMessageError_lt (chunkIndex : ℕ) (rvalue : ℤ) :
    (chunkMessageError chunkIndex rvalue).chars.length < maxPayloadSize :=
  length_snprintf_lt (by decide) _

theorem length_chunkSendError_lt (chunkIndex : ℕ) (bytesSent : ℤ) :
    (chunkSendError chunkIndex bytesSent).chars.length < maxPayloadSize :=
  length_snprintf_lt (by decide) _

theorem length_statError_lt : statError.chars.length < maxPayloadSize := by
  decide

theorem length_metadataSendError_lt : metadataSendError.chars.length < maxPayloadSize := by
  decide

/-- The bytes of an error reply. -/
def errorBytes (command errorCode : UInt8) (errorMessage : CString) : List UInt8 :=
  encodeHeader (errorHeader command errorCode errorMessage) ++ errorMessage.memory

/-- What `_send_error_response` does with a text that fits in a message: without memory for the
message nothing is sent. -/
def errorReply (env : ServerEnv) (sent : ℕ) (command errorCode : UInt8) (errorMessage : CString) :
    Reply :=
  let created := Event.createMessage (errorHeader command errorCode errorMessage)
    (.block errorMessage.memory)
  match env.errorMalloc with
  | none => { rvalue := errorMemoryAllocationFailed, events := [created] }
  | some _ =>
    let data := errorBytes command errorCode errorMessage
    { rvalue := errorCode.toNat, events := [created, .send data (env.send sent data)] }

theorem sendErrorResponse_of_lt (env : ServerEnv) (sent : ℕ) (command errorCode : UInt8)
    {errorMessage : CString} (h : errorMessage.chars.length < maxPayloadSize) :
    sendErrorResponse env sent command errorCode errorMessage =
      some (errorReply env sent command errorCode errorMessage) := by
  unfold errorReply
  cases hmalloc : env.errorMalloc with
  | none =>
    have hle : (errorHeader command errorCode errorMessage).payloadSize.toNat ≤
        maxPayloadSize := by
      have hframe := (errorFrame command errorCode errorMessage h).payload_le
      rwa [Frame.length_payload] at hframe
    rw [sendErrorResponse, hmalloc, createMessage_none hle, Option.bind_eq_bind,
      Option.bind_some]
    dsimp only
    rw [if_pos errorMemoryAllocationFailed_ne, destroyMessage_null]
    rfl
  | some junk =>
    have hsome : env.errorMalloc ≠ none := by
      rw [hmalloc]
      exact Option.some_ne_none junk
    exact sendErrorResponse_eq env sent command errorCode h hsome

/-! ## The loop over the chunks -/

/-- A chunk that is built and not accepted whole ends the loop with an error reply. -/
theorem sendChunks_of_short {env : ServerEnv} {chunkIndex : ℕ}
    (hmalloc : env.chunkMalloc chunkIndex ≠ none) {totalChunks : UInt32}
    (hsend : env.send chunkIndex (chunkFrame env totalChunks chunkIndex).encode ≠
      (chunkFrame env totalChunks chunkIndex).encode.length) (remaining : ℕ) :
    sendChunks env totalChunks chunkIndex (remaining + 1) =
      (sendErrorResponse env (chunkIndex + 1) commandRequestFile (UInt8.ofNat errorSendFailed)
        (chunkSendError chunkIndex
          (env.send chunkIndex (chunkFrame env totalChunks chunkIndex).encode))).map
        (Reply.after [
          .createMessage (chunkFrame env totalChunks chunkIndex).header
            (.block (env.fread chunkIndex)),
          .send (chunkFrame env totalChunks chunkIndex).encode
            (env.send chunkIndex (chunkFrame env totalChunks chunkIndex).encode)]) := by
  obtain ⟨junk, hjunk⟩ := Option.ne_none_iff_exists'.mp hmalloc
  have hcreate := createMessage_of_pointsTo junk (chunkFrame env totalChunks chunkIndex)
    (pointsTo_block _) .uninitialized
  have hheader : chunkHeader totalChunks chunkIndex (env.fread chunkIndex).length =
      (chunkFrame env totalChunks chunkIndex).header := rfl
  have hpayload : env.fread chunkIndex = (chunkFrame env totalChunks chunkIndex).payload := rfl
  have hsize : env.send chunkIndex (chunkFrame env totalChunks chunkIndex).encode ≠
      ((chunkFrame env totalChunks chunkIndex).message.size.toNat : ℤ) := by
    rwa [Frame.toNat_message_size]
  rw [sendChunks, hjunk]
  simp only [hheader]
  rw [hpayload, hcreate, Option.bind_eq_bind, Option.bind_some]
  dsimp only
  rw [if_neg not_statusOk_ne, Frame.bytes_message, Option.bind_eq_bind, Option.bind_some,
    Frame.destroyMessage_message, Option.bind_eq_bind, Option.bind_some, if_pos hsize,
    Option.map_eq_bind]
  rfl

/-- The calls for a chunk that is built and accepted whole. -/
def chunkEvents (env : ServerEnv) (totalChunks : UInt32) (chunkIndex : ℕ) : List Event :=
  [.createMessage (chunkFrame env totalChunks chunkIndex).header
      (.block (env.fread chunkIndex)),
    .send (chunkFrame env totalChunks chunkIndex).encode
      (chunkFrame env totalChunks chunkIndex).encode.length]

/-- Chunk `chunkIndex` is built and accepted whole. -/
def ChunkSent (env : ServerEnv) (totalChunks : UInt32) (chunkIndex : ℕ) : Prop :=
  env.chunkMalloc chunkIndex ≠ none ∧
    env.send chunkIndex (chunkFrame env totalChunks chunkIndex).encode =
      (chunkFrame env totalChunks chunkIndex).encode.length

/-- What the loop does once `n` chunks are sent: nothing if they are all, and else it fails to build
or to send the next one, and sends an error reply in its place. -/
inductive LoopEnd (env : ServerEnv) (totalChunks : UInt32) (n : ℕ) : Reply → Prop
  | finished (hn : n = totalChunks.toNat) :
    LoopEnd env totalChunks n { rvalue := statusOk, events := [] }
  | notCreated (hlt : n < totalChunks.toNat) (hmalloc : env.chunkMalloc n = none) :
    LoopEnd env totalChunks n
      ((errorReply env n commandRequestFile (UInt8.ofNat errorMemoryAllocationFailed)
        (chunkMessageError n errorMemoryAllocationFailed)).after
          [.createMessage (chunkFrame env totalChunks n).header (.block (env.fread n))])
  | notSent (hlt : n < totalChunks.toNat) (hmalloc : env.chunkMalloc n ≠ none)
      (hsend : env.send n (chunkFrame env totalChunks n).encode ≠
        (chunkFrame env totalChunks n).encode.length) :
    LoopEnd env totalChunks n
      ((errorReply env (n + 1) commandRequestFile (UInt8.ofNat errorSendFailed)
        (chunkSendError n (env.send n (chunkFrame env totalChunks n).encode))).after [
          .createMessage (chunkFrame env totalChunks n).header (.block (env.fread n)),
          .send (chunkFrame env totalChunks n).encode
            (env.send n (chunkFrame env totalChunks n).encode)])

/-- The loop stops at the first chunk that is not sent. -/
theorem LoopEnd.not_chunkSent {env : ServerEnv} {totalChunks : UInt32} {n : ℕ} {tail : Reply}
    (h : LoopEnd env totalChunks n tail) (hlt : n < totalChunks.toNat) :
    ¬ChunkSent env totalChunks n := by
  rintro ⟨hcreated, hsent⟩
  cases h with
  | finished hn => exact hlt.ne hn
  | notCreated _ hmalloc => exact hcreated hmalloc
  | notSent _ _ hsend => exact hsend hsent

theorem LoopEnd.le {env : ServerEnv} {totalChunks : UInt32} {n : ℕ} {tail : Reply}
    (h : LoopEnd env totalChunks n tail) : n ≤ totalChunks.toNat := by
  cases h with
  | finished hn => exact hn.le
  | notCreated hlt _ => exact hlt.le
  | notSent hlt _ _ => exact hlt.le

theorem LoopEnd.eq_of_not_chunkSent {env : ServerEnv} {totalChunks : UInt32} {n i : ℕ}
    {tail : Reply} (h : LoopEnd env totalChunks n tail)
    (hsent : ∀ j < n, ChunkSent env totalChunks j) (hi : i < totalChunks.toNat)
    (hearlier : ∀ j < i, ChunkSent env totalChunks j) (hnot : ¬ChunkSent env totalChunks i) :
    i = n := by
  rcases lt_trichotomy i n with hlt | heq | hgt
  · exact absurd (hsent i hlt) hnot
  · exact heq
  · exact absurd (hearlier n hgt) (h.not_chunkSent (hgt.trans hi))

theorem Reply.after_append (first second : List Event) (reply : Reply) :
    (reply.after second).after first = reply.after (first ++ second) := by
  unfold Reply.after
  rw [List.append_assoc]

/-- From any chunk on, the loop sends some chunks and then ends. -/
theorem exists_loopEnd_from (env : ServerEnv) {totalChunks : UInt32} {chunkIndex remaining : ℕ}
    (h : chunkIndex + remaining = totalChunks.toNat) :
    ∃ count tail, (∀ i, chunkIndex ≤ i → i < chunkIndex + count → ChunkSent env totalChunks i) ∧
      LoopEnd env totalChunks (chunkIndex + count) tail ∧
      sendChunks env totalChunks chunkIndex remaining =
        some (tail.after
          ((List.range' chunkIndex count).flatMap (chunkEvents env totalChunks))) := by
  -- On the rounds that are left: each one sends its chunk or is the last.
  induction remaining generalizing chunkIndex with
  | zero => exact ⟨0, _, by omega, .finished h, rfl⟩
  | succ remaining ih =>
    have hlt : chunkIndex + 0 < totalChunks.toNat := by omega
    by_cases hmalloc : env.chunkMalloc chunkIndex = none
    · have hstep := sendChunks_of_malloc_none hmalloc totalChunks remaining
      rw [sendErrorResponse_of_lt _ _ _ _ (length_chunkMessageError_lt _ _)] at hstep
      exact ⟨0, _, by omega, .notCreated hlt hmalloc, hstep⟩
    by_cases hsend : env.send chunkIndex (chunkFrame env totalChunks chunkIndex).encode =
        (chunkFrame env totalChunks chunkIndex).encode.length
    swap
    · have hstep := sendChunks_of_short hmalloc hsend remaining
      rw [sendErrorResponse_of_lt _ _ _ _ (length_chunkSendError_lt _ _)] at hstep
      exact ⟨0, _, by omega, .notSent hlt hmalloc hsend, hstep⟩
    obtain ⟨count, tail, hsent, htail, hrest⟩ :=
      ih (show chunkIndex + 1 + remaining = totalChunks.toNat by omega)
    have hstep := sendChunks_of_malloc hmalloc totalChunks hsend remaining
    rw [hrest, Option.map_some, Reply.after_append] at hstep
    have hcount : chunkIndex + 1 + count = chunkIndex + (count + 1) := by omega
    rw [hcount] at hsent htail
    refine ⟨count + 1, tail, ?_, htail, hstep⟩
    intro i hle hi
    rcases hle.eq_or_lt with rfl | hgt
    · exact ⟨hmalloc, hsend⟩
    · exact hsent i hgt hi

/-- The loop sends chunks `0` to `n - 1` and then ends. -/
theorem exists_loopEnd (env : ServerEnv) (totalChunks : UInt32) :
    ∃ n tail, (∀ i < n, ChunkSent env totalChunks i) ∧ LoopEnd env totalChunks n tail ∧
      sendChunks env totalChunks 0 totalChunks.toNat =
        some (tail.after ((List.range n).flatMap (chunkEvents env totalChunks))) := by
  obtain ⟨n, tail, hsent, htail, hreply⟩ :=
    exists_loopEnd_from env (Nat.zero_add totalChunks.toNat)
  rw [Nat.zero_add] at hsent htail
  rw [← List.range_eq_range'] at hreply
  exact ⟨n, tail, fun i hi => hsent i i.zero_le hi, htail, hreply⟩

/-- The loop sends all chunks if each of them is built and accepted whole. -/
theorem sendChunks_of_chunkSent {env : ServerEnv} {totalChunks : UInt32}
    (h : ∀ i < totalChunks.toNat, ChunkSent env totalChunks i) :
    sendChunks env totalChunks 0 totalChunks.toNat =
      some {
        rvalue := statusOk
        events := (List.range totalChunks.toNat).flatMap (chunkEvents env totalChunks) } := by
  obtain ⟨n, tail, -, htail, hreply⟩ := exists_loopEnd env totalChunks
  cases htail with
  | finished hn =>
    rw [hreply, hn]
    unfold Reply.after
    rw [List.append_nil]
  | notCreated hlt hmalloc => exact absurd hmalloc (h n hlt).1
  | notSent hlt hmalloc hsend => exact absurd (h n hlt).2 hsend

/-! ## What is handed to `send` -/

theorem Reply.sent_after (reply : Reply) (events : List Event) :
    (reply.after events).sent = events.filterMap Event.sent ++ reply.sent := by
  rw [sent, sent, events_after, List.filterMap_append]

theorem Reply.sent_after_createMessage (reply : Reply) (header : Header) (payload : Ptr) :
    (reply.after [.createMessage header payload]).sent = reply.sent := by
  rw [sent_after]
  rfl

theorem Reply.sent_after_fopen (reply : Reply) (path : CString) :
    (reply.after [.fopen path]).sent = reply.sent := by
  rw [sent_after]
  rfl

theorem sent_chunkEvents (env : ServerEnv) (totalChunks : UInt32) (indices : List ℕ) :
    (indices.flatMap (chunkEvents env totalChunks)).filterMap Event.sent =
      (indices.map (chunkFrame env totalChunks)).map Frame.encode := by
  induction indices with
  | nil => rfl
  | cons i indices ih =>
    rw [List.flatMap_cons, List.filterMap_append, ih]
    rfl

/-- An error reply for which there is memory. -/
theorem errorReply_of_malloc {env : ServerEnv} (hmalloc : env.errorMalloc ≠ none) (sent : ℕ)
    (command errorCode : UInt8) {errorMessage : CString}
    (h : errorMessage.chars.length < maxPayloadSize) :
    (errorReply env sent command errorCode errorMessage).rvalue = errorCode.toNat ∧
      (errorReply env sent command errorCode errorMessage).sent =
        [(errorFrame command errorCode errorMessage h).encode] := by
  obtain ⟨junk, hjunk⟩ := Option.ne_none_iff_exists'.mp hmalloc
  unfold errorReply
  rw [hjunk]
  exact ⟨rfl, rfl⟩

/-! ## Contents -/

section Contents

variable {env : ServerEnv} {fileName : CString}

theorem sendFileContents_of_long (h : 256 ≤ (fullPath fileName).chars.length) :
    sendFileContents env fileName =
      some { errorReply env 0 commandRequestFile (UInt8.ofNat errorFileOpenFailed)
          (fullPathError (snprintf 256 (fullPath fileName)).1) with
        rvalue := errorFileOpenFailed } := by
  rw [sendFileContents_of_le h, sendErrorResponse_of_lt _ _ _ _ (length_fullPathError_lt _)]
  rfl

theorem sendFileContents_of_not_fopen (h : (fullPath fileName).chars.length < 256)
    (hopen : env.fopen (fullPath fileName) = false) :
    sendFileContents env fileName =
      some ((errorReply env 0 commandRequestFile (UInt8.ofNat errorFileNotFound)
        (openError (fullPath fileName))).after [.fopen (fullPath fileName)]) := by
  rw [sendFileContents_of_lt h, hopen, if_neg Bool.false_ne_true,
    sendErrorResponse_of_lt _ _ _ _ (length_openError_lt _)]
  rfl

theorem sendFileContents_of_fopen (h : (fullPath fileName).chars.length < 256)
    (hopen : env.fopen (fullPath fileName) = true) :
    sendFileContents env fileName =
      (calculateTotalChunks env.ftell).bind fun chunks =>
        (sendChunks env (UInt32.ofInt chunks) 0 (UInt32.ofInt chunks).toNat).map
          (Reply.after [.fopen (fullPath fileName)]) := by
  rw [sendFileContents_of_lt h, if_pos hopen]

/-- The replies to a request for the contents of a file. -/
inductive ContentsOutcome (env : ServerEnv) (fileName : CString) : Reply → Prop
  | pathTooLong (hlong : 256 ≤ (fullPath fileName).chars.length) :
    ContentsOutcome env fileName
      { errorReply env 0 commandRequestFile (UInt8.ofNat errorFileOpenFailed)
          (fullPathError (snprintf 256 (fullPath fileName)).1) with
        rvalue := errorFileOpenFailed }
  | notOpened (hshort : (fullPath fileName).chars.length < 256)
      (hopen : env.fopen (fullPath fileName) = false) :
    ContentsOutcome env fileName
      ((errorReply env 0 commandRequestFile (UInt8.ofNat errorFileNotFound)
        (openError (fullPath fileName))).after [.fopen (fullPath fileName)])
  | opened (hshort : (fullPath fileName).chars.length < 256)
      (hopen : env.fopen (fullPath fileName) = true) {chunks : ℤ}
      (hchunks : calculateTotalChunks env.ftell = some chunks) {n : ℕ} {tail : Reply}
      (hsent : ∀ i < n, ChunkSent env (UInt32.ofInt chunks) i)
      (htail : LoopEnd env (UInt32.ofInt chunks) n tail) :
    ContentsOutcome env fileName
      ((tail.after ((List.range n).flatMap (chunkEvents env (UInt32.ofInt chunks)))).after
        [.fopen (fullPath fileName)])

theorem contentsOutcome {reply : Reply} (h : sendFileContents env fileName = some reply) :
    ContentsOutcome env fileName reply := by
  rcases le_or_gt 256 (fullPath fileName).chars.length with hlong | hshort
  · rw [sendFileContents_of_long hlong] at h
    obtain rfl := Option.some.inj h
    exact .pathTooLong hlong
  cases hopen : env.fopen (fullPath fileName) with
  | false =>
    rw [sendFileContents_of_not_fopen hshort hopen] at h
    obtain rfl := Option.some.inj h
    exact .notOpened hshort hopen
  | true =>
    rw [sendFileContents_of_fopen hshort hopen, Option.bind_eq_some_iff] at h
    obtain ⟨chunks, hchunks, h⟩ := h
    obtain ⟨n, tail, hsent, htail, hloop⟩ := exists_loopEnd env (UInt32.ofInt chunks)
    rw [hloop] at h
    obtain rfl := Option.some.inj h
    exact .opened hshort hopen hchunks hsent htail

end Contents

/-! ## Metadata -/

theorem zero_notMem_size : 0 ∉ ascii "Size: " := by
  decide

/-- The text with the size of a file. -/
def metadataText (size : ℤ) : CString :=
  (snprintf 256 (.ofLiteral "Size: " zero_notMem_size ++ .ofInt size)).2

theorem length_metadataText_lt (size : ℤ) : (metadataText size).chars.length < maxPayloadSize :=
  length_snprintf_lt (by decide) _

/-- The reply with the size of a file. -/
def metadataFrame (size : ℤ) : Frame where
  header :=
    { messageType := messageResponse
      command := commandRequestMetadata
      payloadSize := UInt32.ofInt (strlenNullTerm (metadataText size))
      chunkIndex := 0
      status := UInt8.ofNat statusOk }
  payload := (metadataText size).memory
  length_payload := length_memory_eq (length_metadataText_lt size)
  payload_le := length_memory_le (length_metadataText_lt size)

section Metadata

variable {env : ServerEnv} {fileName : CString}

theorem sendFileMetadata_of_long (h : 256 ≤ (fullPath fileName).chars.length) :
    sendFileMetadata env fileName =
      some { errorReply env 0 commandRequestMetadata (UInt8.ofNat errorFileOpenFailed)
          (fullPathError (snprintf 256 (fullPath fileName)).1) with
        rvalue := errorFileOpenFailed } := by
  have hlong : (snprintf 256 (fullPath fileName)).1 < 0 ∨
      256 ≤ (snprintf 256 (fullPath fileName)).1 := snprintf_of_le h
  rw [sendFileMetadata]
  dsimp only
  rw [if_pos hlong, sendErrorResponse_of_lt _ _ _ _ (length_fullPathError_lt _)]
  rfl

theorem sendFileMetadata_of_stat_none (h : (fullPath fileName).chars.length < 256)
    (hstat : env.stat (fullPath fileName) = none) :
    sendFileMetadata env fileName =
      some (({ errorReply env 0 commandRequestMetadata (UInt8.ofNat errorFileNotFound)
          statError with rvalue := errorFileNotFound }).after [.stat (fullPath fileName)]) := by
  have hfits : ¬(((fullPath fileName).chars.length : ℤ) < 0 ∨
      256 ≤ ((fullPath fileName).chars.length : ℤ)) := by omega
  rw [sendFileMetadata, snprintf_of_lt h (by decide)]
  dsimp only
  rw [if_neg hfits, hstat]
  dsimp only
  rw [sendErrorResponse_of_lt _ _ _ _ length_statError_lt]
  rfl

/-- What the server does for a file that exists. -/
def metadataReply (env : ServerEnv) (fileName : CString) (size : ℤ) : Reply :=
  let events := [Event.stat (fullPath fileName),
    .createMessage (metadataFrame size).header (.block (metadataText size).memory)]
  match env.metadataMalloc with
  | none =>
    -- The function returns its own error, whatever becomes of the error reply.
    ({ errorReply env 0 commandRequestMetadata (UInt8.ofNat errorMemoryAllocationFailed)
        (metadataMessageError errorMemoryAllocationFailed) with
      rvalue := errorMemoryAllocationFailed }).after events
  | some _ =>
    let bytesSent := env.send 0 (metadataFrame size).encode
    let events := events ++ [Event.send (metadataFrame size).encode bytesSent]
    if bytesSent ≤ 0 then
      ({ errorReply env 1 commandRequestMetadata (UInt8.ofNat errorSendFailed)
        metadataSendError with rvalue := errorSendFailed }).after events
    else { rvalue := statusOk, events }

theorem sendFileMetadata_of_stat (h : (fullPath fileName).chars.length < 256) {size : ℤ}
    (hstat : env.stat (fullPath fileName) = some size) :
    sendFileMetadata env fileName = some (metadataReply env fileName size) := by
  have hfits : ¬(((fullPath fileName).chars.length : ℤ) < 0 ∨
      256 ≤ ((fullPath fileName).chars.length : ℤ)) := by omega
  have hframe : (metadataFrame size).header.payloadSize.toNat ≤ maxPayloadSize := by
    rw [← Frame.length_payload]
    exact Frame.payload_le _
  have hheader : (metadataFrame size).header =
      { messageType := messageResponse
        command := commandRequestMetadata
        payloadSize := UInt32.ofInt (strlenNullTerm (metadataText size))
        chunkIndex := 0
        status := UInt8.ofNat statusOk } := rfl
  have htext : (snprintf 256 (.ofLiteral "Size: " ++ .ofInt size)).2 = metadataText size := rfl
  rw [sendFileMetadata, snprintf_of_lt h (by decide)]
  dsimp only
  rw [if_neg hfits, hstat]
  dsimp only
  rw [htext, ← hheader]
  unfold metadataReply
  cases hmalloc : env.metadataMalloc with
  | none =>
    rw [createMessage_none hframe, Option.bind_eq_bind, Option.bind_some]
    dsimp only
    rw [if_pos errorMemoryAllocationFailed_ne, destroyMessage_null,
      sendErrorResponse_of_lt _ _ _ _ (length_metadataMessageError_lt _)]
    rfl
  | some junk =>
    have hcreate := createMessage_of_pointsTo junk (metadataFrame size) (pointsTo_block _)
      .uninitialized
    have hpayload : (metadataText size).memory = (metadataFrame size).payload := rfl
    rw [hpayload, hcreate, Option.bind_eq_bind, Option.bind_some]
    dsimp only
    rw [if_neg not_statusOk_ne, Frame.bytes_message, Option.bind_eq_bind, Option.bind_some,
      Frame.destroyMessage_message, Option.bind_eq_bind, Option.bind_some]
    by_cases hsend : env.send 0 (metadataFrame size).encode ≤ 0
    · rw [if_pos hsend, if_pos hsend, sendErrorResponse_of_lt _ _ _ _ length_metadataSendError_lt]
      rfl
    · rw [if_neg hsend, if_neg hsend]
      rfl

/-- The calls before the metadata of a file is sent. -/
def metadataEvents (fileName : CString) (size : ℤ) : List Event :=
  [.stat (fullPath fileName),
    .createMessage (metadataFrame size).header (.block (metadataText size).memory)]

/-- The replies to a request for the metadata of a file. -/
inductive MetadataOutcome (env : ServerEnv) (fileName : CString) : Reply → Prop
  | pathTooLong (hlong : 256 ≤ (fullPath fileName).chars.length) :
    MetadataOutcome env fileName
      { errorReply env 0 commandRequestMetadata (UInt8.ofNat errorFileOpenFailed)
          (fullPathError (snprintf 256 (fullPath fileName)).1) with
        rvalue := errorFileOpenFailed }
  | notFound (hshort : (fullPath fileName).chars.length < 256)
      (hstat : env.stat (fullPath fileName) = none) :
    MetadataOutcome env fileName
      (({ errorReply env 0 commandRequestMetadata (UInt8.ofNat errorFileNotFound)
          statError with rvalue := errorFileNotFound }).after [.stat (fullPath fileName)])
  | notCreated (hshort : (fullPath fileName).chars.length < 256) {size : ℤ}
      (hstat : env.stat (fullPath fileName) = some size) (hmalloc : env.metadataMalloc = none) :
    MetadataOutcome env fileName
      (({ errorReply env 0 commandRequestMetadata (UInt8.ofNat errorMemoryAllocationFailed)
          (metadataMessageError errorMemoryAllocationFailed) with
        rvalue := errorMemoryAllocationFailed }).after (metadataEvents fileName size))
  | notSent (hshort : (fullPath fileName).chars.length < 256) {size : ℤ}
      (hstat : env.stat (fullPath fileName) = some size) (hmalloc : env.metadataMalloc ≠ none)
      (hsend : env.send 0 (metadataFrame size).encode ≤ 0) :
    MetadataOutcome env fileName
      (({ errorReply env 1 commandRequestMetadata (UInt8.ofNat errorSendFailed)
          metadataSendError with rvalue := errorSendFailed }).after
        (metadataEvents fileName size ++
          [Event.send (metadataFrame size).encode (env.send 0 (metadataFrame size).encode)]))
  | sent (hshort : (fullPath fileName).chars.length < 256) {size : ℤ}
      (hstat : env.stat (fullPath fileName) = some size) (hmalloc : env.metadataMalloc ≠ none)
      (hsend : ¬env.send 0 (metadataFrame size).encode ≤ 0) :
    MetadataOutcome env fileName
      { rvalue := statusOk
        events := metadataEvents fileName size ++
          [Event.send (metadataFrame size).encode (env.send 0 (metadataFrame size).encode)] }

/-- `send_file_metadata` is defined for every answer of the system. -/
theorem exists_metadataOutcome (env : ServerEnv) (fileName : CString) :
    ∃ reply, sendFileMetadata env fileName = some reply ∧ MetadataOutcome env fileName reply := by
  rcases le_or_gt 256 (fullPath fileName).chars.length with hlong | hshort
  · exact ⟨_, sendFileMetadata_of_long hlong, .pathTooLong hlong⟩
  cases hstat : env.stat (fullPath fileName) with
  | none => exact ⟨_, sendFileMetadata_of_stat_none hshort hstat, .notFound hshort hstat⟩
  | some size =>
    refine ⟨_, sendFileMetadata_of_stat hshort hstat, ?_⟩
    unfold metadataReply
    split
    · rename_i hmalloc
      exact .notCreated hshort hstat hmalloc
    · rename_i junk hjunk
      have hmalloc : env.metadataMalloc ≠ none := by
        rw [hjunk]
        exact Option.some_ne_none junk
      dsimp only
      split
      · rename_i hsend
        exact .notSent hshort hstat hmalloc hsend
      · rename_i hsend
        exact .sent hshort hstat hmalloc hsend

theorem metadataOutcome {reply : Reply} (h : sendFileMetadata env fileName = some reply) :
    MetadataOutcome env fileName reply := by
  obtain ⟨reply', hreply, houtcome⟩ := exists_metadataOutcome env fileName
  obtain rfl : reply' = reply := Option.some.inj (hreply.symm.trans h)
  exact houtcome

end Metadata

end CExamples.ClientServer

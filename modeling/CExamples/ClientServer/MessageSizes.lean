import CExamples.ClientServer.ServerRuns

/-!
# The sizes of the server's messages

Every message of the server carries an error text, the text with a file's size or the bytes of one
`fread`. Each is no larger than `MAX_PAYLOAD_SIZE`, and the size in the header is that of the bytes
behind the pointer. So `create_message` never returns `ERROR_MAX_PAYLOAD_SIZE_EXCEEDED`, with which
it leaves the caller's message as it was, and `destroy_message` never frees a pointer that was not
set (`handleRequest_messages_fit`).
-/

namespace CExamples.ClientServer

open C

/-- The payload is no larger than a message allows, and is initialised. -/
def PayloadFits (header : Header) (payload : Ptr) : Prop :=
  header.payloadSize.toNat ≤ maxPayloadSize ∧
    ∃ bytes, payload = .block bytes ∧ header.payloadSize.toNat ≤ bytes.length

/-- A call of `create_message` has a payload that fits. -/
def Event.Fits : Event → Prop
  | stat _ => True
  | fopen _ => True
  | createMessage header payload => PayloadFits header payload
  | send _ _ => True

/-- Every call of `create_message` has a payload that fits. -/
def Reply.Fits (reply : Reply) : Prop :=
  ∀ event ∈ reply.events, event.Fits

/-! ## What follows for `create_message` -/

/-- The frame with as many bytes of a payload as its header says. -/
def prefixFrame (header : Header) (bytes : List UInt8)
    (hsize : header.payloadSize.toNat ≤ maxPayloadSize)
    (hbytes : header.payloadSize.toNat ≤ bytes.length) : Frame where
  header := header
  payload := bytes.take header.payloadSize.toNat
  length_payload := List.length_take_of_le hbytes
  payload_le := (List.length_take_le _ _).trans hsize

/-- A payload that fits is copied into a new message, or there is no memory for it. In both cases
the caller's message is set. -/
theorem createMessage_of_fits {header : Header} {payload : Ptr} (h : PayloadFits header payload)
    (malloc : Option (ℕ → UInt8)) (message : Message) :
    ∃ rvalue created, createMessage malloc header payload message = some (rvalue, created) ∧
      rvalue ≠ errorMaxPayloadSizeExceeded ∧ (destroyMessage created).isSome := by
  obtain ⟨hsize, bytes, rfl, hbytes⟩ := h
  cases malloc with
  | none => exact ⟨_, _, createMessage_none hsize _ _, by decide, rfl⟩
  | some junk =>
    have hcreate := createMessage_of_pointsTo junk (prefixFrame header bytes hsize hbytes)
      (pointsTo_take bytes _) message
    exact ⟨_, _, hcreate, by decide, rfl⟩

/-! ## The replies -/

theorem Frame.payloadFits (frame : Frame) : PayloadFits frame.header (.block frame.payload) := by
  have hlength := frame.length_payload
  exact ⟨hlength ▸ frame.payload_le, frame.payload, rfl, hlength.ge⟩

theorem Reply.Fits.after {reply : Reply} (h : reply.Fits) {events : List Event}
    (hevents : ∀ event ∈ events, event.Fits) : (reply.after events).Fits :=
  List.forall_mem_append.mpr ⟨hevents, h⟩

theorem fits_errorReply (env : ServerEnv) (sent : ℕ) (command errorCode : UInt8)
    {errorMessage : CString} (h : errorMessage.chars.length < maxPayloadSize) :
    (errorReply env sent command errorCode errorMessage).Fits := by
  have hfits : PayloadFits (errorHeader command errorCode errorMessage)
      (.block errorMessage.memory) := (errorFrame command errorCode errorMessage h).payloadFits
  unfold errorReply
  split
  · exact List.forall_mem_singleton.mpr hfits
  · exact List.forall_mem_cons.mpr ⟨hfits, List.forall_mem_singleton.mpr trivial⟩

theorem fits_chunkEvents (env : ServerEnv) (totalChunks : UInt32) (chunkIndex : ℕ) :
    ∀ event ∈ chunkEvents env totalChunks chunkIndex, event.Fits :=
  List.forall_mem_cons.mpr ⟨(chunkFrame env totalChunks chunkIndex).payloadFits,
    List.forall_mem_singleton.mpr trivial⟩

theorem LoopEnd.fits {env : ServerEnv} {totalChunks : UInt32} {n : ℕ} {tail : Reply}
    (h : LoopEnd env totalChunks n tail) : tail.Fits := by
  cases h with
  | finished hn => exact List.forall_mem_nil _
  | notCreated hlt hmalloc =>
    apply (fits_errorReply _ _ _ _ (length_chunkMessageError_lt _ _)).after
    exact List.forall_mem_singleton.mpr (chunkFrame env totalChunks n).payloadFits
  | notSent hlt hmalloc hsend =>
    apply (fits_errorReply _ _ _ _ (length_chunkSendError_lt _ _)).after
    exact List.forall_mem_cons.mpr ⟨(chunkFrame env totalChunks n).payloadFits,
      List.forall_mem_singleton.mpr trivial⟩

/-! ## The functions -/

section Functions

variable {env : ServerEnv} {fileName : CString} {reply : Reply}

theorem fits_metadataEvents (fileName : CString) (size : ℤ) :
    ∀ event ∈ metadataEvents fileName size, event.Fits :=
  List.forall_mem_cons.mpr ⟨trivial, List.forall_mem_singleton.mpr (metadataFrame size).payloadFits⟩

theorem MetadataOutcome.fits (h : MetadataOutcome env fileName reply) : reply.Fits := by
  cases h with
  | pathTooLong hlong => exact fits_errorReply env _ _ _ (length_fullPathError_lt _)
  | notFound hshort hstat =>
    have herror := fits_errorReply env 0 commandRequestMetadata (UInt8.ofNat errorFileNotFound)
      length_statError_lt
    exact Reply.Fits.after herror (List.forall_mem_singleton.mpr trivial)
  | @notCreated hshort size hstat hmalloc =>
    have herror := fits_errorReply env 0 commandRequestMetadata
      (UInt8.ofNat errorMemoryAllocationFailed)
      (length_metadataMessageError_lt errorMemoryAllocationFailed)
    exact Reply.Fits.after herror (fits_metadataEvents fileName size)
  | @notSent hshort size hstat hmalloc hsend =>
    have herror := fits_errorReply env 1 commandRequestMetadata (UInt8.ofNat errorSendFailed)
      length_metadataSendError_lt
    exact Reply.Fits.after herror (List.forall_mem_append.mpr
      ⟨fits_metadataEvents fileName size, List.forall_mem_singleton.mpr trivial⟩)
  | @sent hshort size hstat hmalloc hsend =>
    exact List.forall_mem_append.mpr
      ⟨fits_metadataEvents fileName size, List.forall_mem_singleton.mpr trivial⟩

theorem ContentsOutcome.fits (h : ContentsOutcome env fileName reply) : reply.Fits := by
  cases h with
  | pathTooLong hlong => exact fits_errorReply env _ _ _ (length_fullPathError_lt _)
  | notOpened hshort hopen =>
    have herror := fits_errorReply env 0 commandRequestFile (UInt8.ofNat errorFileNotFound)
      (length_openError_lt (fullPath fileName))
    exact herror.after (List.forall_mem_singleton.mpr trivial)
  | @opened hshort hopen chunks hchunks n tail hsent htail =>
    refine (htail.fits.after ?_).after (List.forall_mem_singleton.mpr trivial)
    intro event hevent
    obtain ⟨i, -, hevent⟩ := List.mem_flatMap.mp hevent
    exact fits_chunkEvents env (UInt32.ofInt chunks) i event hevent

/-- The file is opened, and the computation of its chunk count overflows. No message has been built
by then. -/
def CountOverflows (env : ServerEnv) (fileName : CString) : Prop :=
  (fullPath fileName).chars.length < 256 ∧ env.fopen (fullPath fileName) = true ∧
    calculateTotalChunks env.ftell = none

theorem sendFileContents_eq_none_iff :
    sendFileContents env fileName = none ↔ CountOverflows env fileName := by
  constructor
  · intro hnone
    have hshort : (fullPath fileName).chars.length < 256 := by
      by_contra hlong
      rw [sendFileContents_of_long (not_lt.mp hlong)] at hnone
      cases hnone
    have hopen : env.fopen (fullPath fileName) = true := by
      by_contra hclosed
      rw [sendFileContents_of_not_fopen hshort (Bool.eq_false_of_not_eq_true hclosed)] at hnone
      cases hnone
    refine ⟨hshort, hopen, ?_⟩
    by_contra hcount
    obtain ⟨chunks, hchunks⟩ := Option.ne_none_iff_exists'.mp hcount
    -- Whatever the count is, the loop comes to an end.
    obtain ⟨n, tail, -, -, hloop⟩ := exists_loopEnd env (UInt32.ofInt chunks)
    rw [sendFileContents_of_fopen hshort hopen, hchunks, Option.bind_some, hloop] at hnone
    cases hnone
  · rintro ⟨hshort, hopen, hcount⟩
    rw [sendFileContents_of_fopen hshort hopen, hcount, Option.bind_none]

end Functions

theorem length_invalidCommandError_lt (command : UInt8) :
    (invalidCommandError command).chars.length < maxPayloadSize :=
  length_snprintf_lt (by decide) _

section Requests

variable {env : ServerEnv} {header : Header} {payload : Ptr} {fileName : CString} {reply : Reply}

theorem fits_of_handleRequest (hname : payload.toCString = some fileName)
    (hreply : handleRequest env header payload = some reply) : reply.Fits := by
  by_cases hmetadata : header.command = commandRequestMetadata
  · rw [handleRequest_of_metadata hmetadata, hname, Option.bind_some] at hreply
    exact (metadataOutcome hreply).fits
  by_cases hfile : header.command = commandRequestFile
  · rw [handleRequest_of_file hfile, hname, Option.bind_some] at hreply
    exact (contentsOutcome hreply).fits
  · rw [handleRequest, if_neg hmetadata, if_neg hfile,
      sendErrorResponse_of_lt _ _ _ _ (length_invalidCommandError_lt _)] at hreply
    obtain rfl := Option.some.inj hreply
    exact fits_errorReply _ _ _ _ (length_invalidCommandError_lt _)

theorem handleRequest_eq_none_iff (hname : payload.toCString = some fileName) :
    handleRequest env header payload = none ↔
      header.command = commandRequestFile ∧ CountOverflows env fileName := by
  by_cases hmetadata : header.command = commandRequestMetadata
  · have hne : commandRequestMetadata ≠ commandRequestFile := by decide
    obtain ⟨reply, hreply, -⟩ := exists_metadataOutcome env fileName
    rw [handleRequest_of_metadata hmetadata, hname, Option.bind_some, hreply, hmetadata]
    exact iff_of_false (Option.some_ne_none reply) fun h => hne h.1
  by_cases hfile : header.command = commandRequestFile
  · rw [handleRequest_of_file hfile, hname, Option.bind_some, sendFileContents_eq_none_iff,
      and_iff_right hfile]
  · rw [handleRequest, if_neg hmetadata, if_neg hfile,
      sendErrorResponse_of_lt _ _ _ _ (length_invalidCommandError_lt _)]
    exact iff_of_false (Option.some_ne_none _) fun h => hfile h.1

/-- **Message sizes.** Whatever the request, the files and the system's answers are, every call of
`create_message` made for a request has a payload that fits, so it does not fail with
`ERROR_MAX_PAYLOAD_SIZE_EXCEEDED`, whether or not there is memory, and sets the message that the
server destroys. Handling a request is undefined in one case only, in which no message was built. -/
theorem handleRequest_messages_fit (hname : payload.toCString = some fileName) :
    (∀ reply, handleRequest env header payload = some reply →
      ∀ created buffer, .createMessage created buffer ∈ reply.events →
        created.payloadSize.toNat ≤ maxPayloadSize ∧
        (∃ bytes, buffer = .block bytes ∧ created.payloadSize.toNat ≤ bytes.length) ∧
        ∀ malloc message, ∃ rvalue built,
          createMessage malloc created buffer message = some (rvalue, built) ∧
          rvalue ≠ errorMaxPayloadSizeExceeded ∧ (destroyMessage built).isSome) ∧
      (handleRequest env header payload = none ↔
        header.command = commandRequestFile ∧ CountOverflows env fileName) := by
  refine ⟨?_, handleRequest_eq_none_iff hname⟩
  intro reply hreply created buffer hcreated
  have hpayload : PayloadFits created buffer := fits_of_handleRequest hname hreply _ hcreated
  exact ⟨hpayload.1, hpayload.2, createMessage_of_fits hpayload⟩

end Requests

/-- A request for the size of a file of one byte. -/
theorem handleRequest_messages_fit_oneByte :
    ∃ reply, handleRequest .oneByte
        { messageType := messageRequest
          command := commandRequestMetadata
          payloadSize := 8
          chunkIndex := 0
          status := notSet }
        (.block (CString.ofLiteral "one.txt").memory) = some reply ∧
      .createMessage (metadataFrame 1).header (.block (metadataText 1).memory) ∈ reply.events ∧
      (metadataFrame 1).header.payloadSize.toNat ≤ maxPayloadSize := by
  have hname := Ptr.toCString_memory (.ofLiteral "one.txt")
  have hcommand : (⟨messageRequest, commandRequestMetadata, 8, 0, notSet⟩ : Header).command =
      commandRequestMetadata := rfl
  have hreply : handleRequest .oneByte ⟨messageRequest, commandRequestMetadata, 8, 0, notSet⟩
      (.block (CString.ofLiteral "one.txt").memory) =
        some (metadataReply .oneByte (.ofLiteral "one.txt") 1) := by
    rw [handleRequest_of_metadata hcommand, hname, Option.bind_some]
    exact sendFileMetadata_of_stat (by decide) rfl
  have hcreated : .createMessage (metadataFrame 1).header (.block (metadataText 1).memory) ∈
      (metadataReply .oneByte (.ofLiteral "one.txt") 1).events :=
    List.mem_cons_of_mem _ List.mem_cons_self
  have hfits := (handleRequest_messages_fit hname).1 _ hreply _ _ hcreated
  exact ⟨_, hreply, hcreated, hfits.1⟩

end CExamples.ClientServer

import CExamples.ClientServer.ErrorReplies
import CExamples.ClientServer.ServerRuns
import CExamples.ClientServer.ServerWorker
import CExamples.ClientServer.Transfer
import Mathlib.Data.List.Forall2

/-!
# Error codes from the server to the client

Every failure of the server, whatever comes before it, is the last message of its reply
(`exists_error_of_sendFileMetadata`, `exists_error_of_sendFileContents`), and the client returns its
status with its header, and none of the chunks before it. But the client takes each `recv` for one
message, so an error reply behind a short chunk is lost with the rest of the segment when both
arrive together. The errors are propagated if and only if no error reply fits in a `recv` with the
chunk before it (`errors_propagate_iff`), as when every read fills its buffer
(`errorStandsAlone_of_full`).
-/

namespace CExamples.ClientServer

open C

/-- Every message is accepted whole, and there is memory for the error replies. -/
structure ServerEnv.ReportsErrors (env : ServerEnv) : Prop where
  send : ∀ n data, env.send n data = data.length
  errorMalloc : env.errorMalloc ≠ none

/-- The file is opened, and chunk `n` of its `totalChunks` is the first for which there is no
memory. -/
structure ServerEnv.StopsAt (env : ServerEnv) (fileName : CString) (totalChunks : UInt32)
    (n : ℕ) : Prop where
  path : (fullPath fileName).chars.length < 256
  fopen : env.fopen (fullPath fileName) = true
  planned : (calculateTotalChunks env.ftell).map UInt32.ofInt = some totalChunks
  lt : n < totalChunks.toNat
  chunkMalloc : env.chunkMalloc n = none
  earlier : ∀ i < n, env.chunkMalloc i ≠ none

/-- No error reply behind a chunk fits in one `recv` together with that chunk. -/
def ServerEnv.ErrorStandsAlone (env : ServerEnv) (fileName : CString) : Prop :=
  ∀ totalChunks n, env.StopsAt fileName totalChunks (n + 1) →
    maxMessageSize < headerSize + (env.fread n).length +
      (headerSize + (chunkMessageError (n + 1) errorMemoryAllocationFailed).memory.length)

/-- The frame is an error reply to a command. -/
def Frame.Reports (frame : Frame) (command : UInt8) (code : ℕ) : Prop :=
  frame.header.messageType = messageResponse ∧ frame.header.command = command ∧
    frame.header.status.toNat = code

/-! ## The server -/

section Server

variable {env : ServerEnv} {fileName : CString} {reply : Reply}

theorem exists_errorFrame (hmalloc : env.errorMalloc ≠ none) (sent : ℕ)
    (command errorCode : UInt8) {errorMessage : CString}
    (h : errorMessage.chars.length < maxPayloadSize) :
    ∃ error : Frame,
      (errorReply env sent command errorCode errorMessage).sent = [error.encode] ∧
        error.Reports command errorCode.toNat ∧
        (errorReply env sent command errorCode errorMessage).rvalue = errorCode.toNat := by
  obtain ⟨hrvalue, hsent⟩ := errorReply_of_malloc hmalloc sent command errorCode h
  exact ⟨_, hsent, ⟨rfl, rfl, rfl⟩, hrvalue⟩

theorem exists_error_of_sendFileMetadata (h : env.ReportsErrors)
    (hreply : sendFileMetadata env fileName = some reply) (hrvalue : reply.rvalue ≠ statusOk) :
    ∃ error : Frame, reply.sent = [error.encode] ∧
      error.Reports commandRequestMetadata reply.rvalue := by
  cases metadataOutcome hreply with
  | pathTooLong hlong =>
    obtain ⟨error, hsent, hreports, -⟩ := exists_errorFrame h.errorMalloc 0 commandRequestMetadata
      (UInt8.ofNat errorFileOpenFailed) (length_fullPathError_lt _)
    exact ⟨error, hsent, hreports⟩
  | notFound hshort hstat =>
    obtain ⟨error, hsent, hreports, -⟩ := exists_errorFrame h.errorMalloc 0 commandRequestMetadata
      (UInt8.ofNat errorFileNotFound) length_statError_lt
    refine ⟨error, ?_, hreports⟩
    rw [Reply.sent_after]
    exact hsent
  | notCreated hshort hstat hmalloc =>
    obtain ⟨error, hsent, hreports, -⟩ := exists_errorFrame h.errorMalloc 0 commandRequestMetadata
      (UInt8.ofNat errorMemoryAllocationFailed) (length_metadataMessageError_lt _)
    refine ⟨error, ?_, hreports⟩
    rw [Reply.sent_after]
    exact hsent
  | notSent hshort hstat hmalloc hsend =>
    -- A message that is accepted whole is accepted.
    rw [h.send, Frame.length_encode, headerSize] at hsend
    omega
  | sent hshort hstat hmalloc hsend => exact absurd rfl hrvalue

/-- The error reply to a chunk that cannot be built. -/
def chunkErrorFrame (n : ℕ) : Frame :=
  errorFrame commandRequestFile (UInt8.ofNat errorMemoryAllocationFailed)
    (chunkMessageError n errorMemoryAllocationFailed) (length_chunkMessageError_lt _ _)

theorem chunkErrorFrame_reports (n : ℕ) :
    (chunkErrorFrame n).Reports commandRequestFile errorMemoryAllocationFailed :=
  ⟨rfl, rfl, rfl⟩

theorem length_encode_chunkErrorFrame (n : ℕ) :
    (chunkErrorFrame n).encode.length =
      headerSize + (chunkMessageError n errorMemoryAllocationFailed).memory.length :=
  Frame.length_encode _

/-- The reply that stops at chunk `n`. -/
theorem exists_reply_of_stopsAt (h : env.ReportsErrors) {totalChunks : UInt32} {n : ℕ}
    (hstops : env.StopsAt fileName totalChunks n) :
    ∃ reply, sendFileContents env fileName = some reply ∧
      reply.rvalue = errorMemoryAllocationFailed ∧
      reply.sent = ((List.range n).map (chunkFrame env totalChunks) ++
        [chunkErrorFrame n]).map Frame.encode := by
  obtain ⟨chunks, hchunks, rfl⟩ := Option.map_eq_some_iff.mp hstops.planned
  obtain ⟨m, tail, hsent, htail, hloop⟩ := exists_loopEnd env (UInt32.ofInt chunks)
  have hearlier : ∀ j < n, ChunkSent env (UInt32.ofInt chunks) j :=
    fun j hj => ⟨hstops.earlier j hj, h.send _ _⟩
  obtain rfl : n = m := htail.eq_of_not_chunkSent hsent hstops.lt hearlier
    fun hchunk => hchunk.1 hstops.chunkMalloc
  rw [sendFileContents_of_fopen hstops.path hstops.fopen, hchunks, Option.bind_some, hloop]
  refine ⟨_, rfl, ?_⟩
  rw [Reply.rvalue_after, Reply.rvalue_after, Reply.sent_after_fopen, Reply.sent_after,
    sent_chunkEvents, List.map_append]
  cases htail with
  | finished hn => exact absurd hn hstops.lt.ne
  | notSent _ hmalloc _ => exact absurd hstops.chunkMalloc hmalloc
  | notCreated _ _ =>
    obtain ⟨hrvalue, hsentError⟩ := errorReply_of_malloc h.errorMalloc n commandRequestFile
      (UInt8.ofNat errorMemoryAllocationFailed)
      (length_chunkMessageError_lt n errorMemoryAllocationFailed)
    rw [Reply.rvalue_after, Reply.sent_after_createMessage, hrvalue, hsentError]
    exact ⟨rfl, rfl⟩

/-- A failed request is answered by an error reply, behind chunks only where one of these could not
be built. -/
theorem exists_error_of_sendFileContents (h : env.ReportsErrors)
    (hreply : sendFileContents env fileName = some reply) (hrvalue : reply.rvalue ≠ statusOk) :
    ∃ (totalChunks : UInt32) (n : ℕ) (error : Frame),
      reply.sent =
        ((List.range n).map (chunkFrame env totalChunks) ++ [error]).map Frame.encode ∧
      error.Reports commandRequestFile reply.rvalue ∧
      (0 < n → env.StopsAt fileName totalChunks n ∧ error = chunkErrorFrame n) := by
  cases contentsOutcome hreply with
  | pathTooLong hlong =>
    obtain ⟨error, hsent, hreports, -⟩ := exists_errorFrame h.errorMalloc 0 commandRequestFile
      (UInt8.ofNat errorFileOpenFailed) (length_fullPathError_lt _)
    exact ⟨0, 0, error, hsent, hreports, nofun⟩
  | notOpened hshort hopen =>
    obtain ⟨error, hsent, hreports, hcode⟩ := exists_errorFrame h.errorMalloc 0 commandRequestFile
      (UInt8.ofNat errorFileNotFound) (length_openError_lt _)
    refine ⟨0, 0, error, ?_, ?_, nofun⟩
    · rw [Reply.sent_after]
      exact hsent
    · rw [← hcode] at hreports
      exact hreports
  | @opened hshort hopen chunks hchunks n tail hsent htail =>
    -- Of the three ends only a chunk that cannot be built is left.
    cases htail with
    | finished hn => exact absurd rfl hrvalue
    | notSent hlt hmalloc hsend => exact absurd (h.send _ _) hsend
    | notCreated hlt hmalloc =>
      have hplanned : (calculateTotalChunks env.ftell).map UInt32.ofInt =
          some (UInt32.ofInt chunks) := by
        rw [hchunks, Option.map_some]
      have hstops : env.StopsAt fileName (UInt32.ofInt chunks) n :=
        ⟨hshort, hopen, hplanned, hlt, hmalloc, fun i hi => (hsent i hi).1⟩
      obtain ⟨_, hreply', hcode, hsent'⟩ := exists_reply_of_stopsAt h hstops
      obtain rfl := Option.some.inj (hreply'.symm.trans hreply)
      refine ⟨_, n, chunkErrorFrame n, hsent', ?_, fun _ => ⟨hstops, rfl⟩⟩
      rw [hcode]
      exact chunkErrorFrame_reports n

/-- The messages before an error reply are chunks of which more would follow. -/
theorem messageType_of_stopsAt {totalChunks : UInt32} {n : ℕ}
    (h : 0 < n → env.StopsAt fileName totalChunks n) :
    ∀ frame ∈ (List.range n).map (chunkFrame env totalChunks),
      frame.header.messageType = messageResponseChunk := by
  intro frame hframe
  obtain ⟨i, hi, rfl⟩ := List.mem_map.mp hframe
  rw [List.mem_range] at hi
  have hlt := (h (by omega)).lt
  exact messageType_of_lt (by omega) _

section FullReads

variable (hftell : -1 ≤ env.ftell)
  (hfread : ∀ i : ℕ, (maxPayloadSize * (i + 1) : ℕ) ≤ env.ftell →
    (env.fread i).length = maxPayloadSize)
include hftell hfread

/-- If every read before the end of the file fills its buffer, the chunks before an error reply are
full. -/
theorem length_fread_of_stopsAt {totalChunks : UInt32} {n : ℕ}
    (hstops : env.StopsAt fileName totalChunks n) {i : ℕ} (hi : i < n) :
    (env.fread i).length = maxPayloadSize := by
  obtain ⟨chunks, hchunks, rfl⟩ := Option.map_eq_some_iff.mp hstops.planned
  have hlt := hstops.lt
  apply hfread
  rw [calculateTotalChunks_eq env.ftell_inRange] at hchunks
  split at hchunks
  · have htotal := toNat_ofInt_bmod ((env.ftell + 1023).tdiv 1024)
    rw [Int.tdiv_eq_ediv_of_nonneg (by omega)] at hchunks htotal
    cases hchunks
    rw [maxPayloadSize]
    omega
  · cases hchunks

theorem errorStandsAlone_of_full : env.ErrorStandsAlone fileName := by
  intro totalChunks n hstops
  rw [length_fread_of_stopsAt hftell hfread hstops (Nat.lt_succ_self n), maxMessageSize, headerSize]
  omega

/-- Full chunks and an error reply behind them are received one by one. -/
theorem fullUntilLast_of_stopsAt {totalChunks : UInt32} {n : ℕ}
    (h : 0 < n → env.StopsAt fileName totalChunks n) (error : Frame) :
    FullUntilLast maxMessageSize
      (((List.range n).map (chunkFrame env totalChunks) ++ [error]).map Frame.encode) := by
  rw [List.map_append]
  apply FullUntilLast.concat
  · intro message hmessage
    rw [List.map_map, List.mem_map] at hmessage
    obtain ⟨i, hi, rfl⟩ := hmessage
    rw [List.mem_range] at hi
    have hfull := length_fread_of_stopsAt hftell hfread (h (by omega)) hi
    rw [Function.comp_apply, Frame.length_encode, maxMessageSize, ← hfull]
    rfl
  · exact encodeHeader_append_ne_nil _ _
  · exact Frame.length_encode_le _

end FullReads

end Server

/-! ## The client -/

section Client

variable {client : ClientEnv} {fileName : CString}

theorem ClientEnv.Succeeds.requestSent (h : client.Succeeds)
    (hname : fileName.chars.length < maxPayloadSize) (command : UInt8) :
    RequestSent client command fileName :=
  requestSent_of_lt command hname h.requestMalloc h.send

/-- Chunks are dropped when an error reply follows them. -/
theorem requestFileContents_of_chunks_errorReply (h : client.Succeeds)
    (hrequest : RequestSent client commandRequestFile fileName) {chunks : List Frame}
    {error : Frame} (hchunks : ∀ frame ∈ chunks, frame.header.messageType = messageResponseChunk)
    (herror : IsErrorReply error) {segments : List Segment} (hsegments : BeginWith segments chunks)
    {segment : Segment} (hsegment : segment.bytes = error.encode) (buffer : ReceiveBuffer)
    (response : Response) :
    requestFileContents client fileName buffer (segments ++ [segment]) response =
      some {
        rvalue := error.header.status.toNat
        response := { header := error.header, payload := .null }
        sent := [requestBytes commandRequestFile fileName] } := by
  obtain ⟨later, next, -, hreceived, -, hloop⟩ := exists_receiveLoop_append h.realloc hchunks
    hsegments (received_start buffer response) [segment]
  have hstep : receiveMessage (later 0) next segment = _ :=
    receiveMessage_of_error hreceived hsegment herror.1 herror.2
  rw [requestFileContents_of_sent (sendRequest_of_requestSent hrequest), hloop,
    receiveLoop_of_result hstep]
  rfl

/-- Behind chunks alone the client waits for more in vain. -/
theorem requestFileContents_of_only_chunks (h : client.Succeeds)
    (hrequest : RequestSent client commandRequestFile fileName) {chunks : List Frame}
    (hchunks : ∀ frame ∈ chunks, frame.header.messageType = messageResponseChunk)
    {segments : List Segment} (hsegments : BeginWith segments chunks) (buffer : ReceiveBuffer)
    (response : Response) :
    requestFileContents client fileName buffer segments response =
      some {
        rvalue := errorReceiveFailed
        response := { header := response.header, payload := .null }
        sent := [requestBytes commandRequestFile fileName] } := by
  obtain ⟨later, next, -, hreceived, hheader, hloop⟩ := exists_receiveLoop_append h.realloc hchunks
    hsegments (received_start buffer response) []
  have herror := receiveError_of_received hreceived errorReceiveFailed next.response.header
  rw [List.append_nil] at hloop
  rw [requestFileContents_of_sent (sendRequest_of_requestSent hrequest), hloop, receiveLoop, herror,
    hheader]
  rfl

end Client

/-- However whole messages are coalesced, each segment begins with one of them. -/
theorem exists_beginWith_of_coalesces {frames : List Frame} {segments : List Segment}
    (h : Coalesces (frames.map Frame.encode) (segments.map Segment.bytes)) :
    ∃ firsts, BeginWith segments firsts ∧ ∀ frame ∈ firsts, frame ∈ frames := by
  obtain ⟨groups, hne, hflatten, hsegments⟩ := h
  induction groups generalizing frames segments with
  | nil =>
    rw [List.map_nil, List.map_eq_nil_iff] at hsegments
    rw [hsegments]
    exact ⟨[], .nil, List.forall_mem_nil _⟩
  | cons group groups ih =>
    obtain ⟨segment, segments, rfl, hsegment, hsegments'⟩ := List.map_eq_cons_iff.mp hsegments
    rw [List.flatten_cons] at hflatten
    obtain ⟨collected, others, rfl, hcollected, hothers⟩ := List.map_eq_append_iff.mp hflatten.symm
    have hgroup := hne group List.mem_cons_self
    obtain ⟨firsts, hfirsts, hmem⟩ := ih (fun g hg => hne g (List.mem_cons_of_mem group hg))
      hothers.symm hsegments'
    cases collected with
    | nil => exact absurd hcollected.symm hgroup
    | cons first collected =>
      refine ⟨first :: firsts, .cons ?_ hfirsts, ?_⟩
      · rw [hsegment, ← hcollected, List.map_cons, List.flatten_cons]
        exact List.prefix_append _ _
      · intro frame hframe
        rcases List.mem_cons.mp hframe with rfl | hframe
        · simp
        · exact List.mem_append_right _ (hmem frame hframe)

/-! ## From one end to the other -/

/-- The client returns an error that the server returned, with the header of its reply. -/
def RequestResult.Reports (result : RequestResult) (command : UInt8) (code : ℕ) : Prop :=
  result.rvalue = code ∧ result.response.header.messageType = messageResponse ∧
    result.response.header.command = command ∧ result.response.header.status.toNat = code

/-- The client's request reaches the server, and whatever error the server returns for it reaches
the client, for all the ways in which the messages of the reply can be received. -/
def PropagatesErrors (received : List (List UInt8) → List (List UInt8) → Prop)
    (server : ServerEnv) (client : ClientEnv) (command : UInt8) (fileName : CString)
    (request : ReceiveBuffer → List Segment → Response → Option RequestResult) : Prop :=
  ∃ message : Segment, sendRequest client command fileName = some (statusOk, [message.bytes]) ∧
    ∀ (serverBuffer : ReceiveBuffer) (parsed : Response) (reply : Reply),
      serverWorker server true serverBuffer message parsed = some (some reply) →
      reply.rvalue ≠ statusOk →
      ∀ (buffer : ReceiveBuffer) (segments : List Segment) (response : Response),
        received reply.sent (segments.map Segment.bytes) →
        ∃ result, request buffer segments response = some result ∧
          result.Reports command reply.rvalue

section Requests

variable {server : ServerEnv} {client : ClientEnv} {fileName : CString}

/-- The server reads back the file name that the client sent. -/
theorem serverWorker_of_metadataRequest (hname : fileName.chars.length < maxPayloadSize)
    {message : Segment}
    (hmessage : message.bytes = (requestFrame commandRequestMetadata fileName hname).encode)
    (buffer : ReceiveBuffer) (parsed : Response) :
    serverWorker server true buffer message parsed =
      (sendFileMetadata server fileName).map some := by
  have hcommand : (requestHeader commandRequestMetadata fileName).command =
      commandRequestMetadata := rfl
  rw [serverWorker_of_requestFrame hname hmessage, handleRequest_of_metadata hcommand,
    Ptr.toCString_memory, Option.bind_some]

theorem serverWorker_of_fileRequest (hname : fileName.chars.length < maxPayloadSize)
    {message : Segment}
    (hmessage : message.bytes = (requestFrame commandRequestFile fileName hname).encode)
    (buffer : ReceiveBuffer) (parsed : Response) :
    serverWorker server true buffer message parsed =
      (sendFileContents server fileName).map some := by
  have hcommand : (requestHeader commandRequestFile fileName).command = commandRequestFile := rfl
  rw [serverWorker_of_requestFrame hname hmessage, handleRequest_of_file hcommand,
    Ptr.toCString_memory, Option.bind_some]

/-- A request for metadata is answered by one message. -/
theorem propagatesErrors_metadata (hname : fileName.chars.length < maxPayloadSize)
    (hserver : server.ReportsErrors) (hclient : client.Succeeds)
    (hpayload : client.payloadMalloc = true) :
    PropagatesErrors Coalesces server client commandRequestMetadata fileName
      (requestFileMetadata client fileName) := by
  refine ⟨(requestFrame commandRequestMetadata fileName hname).segment,
    sendRequest_eq hname hclient.requestMalloc hclient.send, ?_⟩
  intro serverBuffer parsed reply hworker hrvalue buffer segments response hcoalesces
  rw [serverWorker_of_metadataRequest hname rfl, Option.map_eq_some_iff] at hworker
  obtain ⟨_, hreply, ⟨⟩⟩ := hworker
  obtain ⟨error, hsent, htype, hcommand, hstatus⟩ :=
    exists_error_of_sendFileMetadata hserver hreply hrvalue
  have herror : IsErrorReply error := ⟨htype, hstatus ▸ hrvalue⟩
  have hframes : reply.sent = [error].map Frame.encode := hsent
  rw [hframes] at hcoalesces
  obtain ⟨firsts, hfirsts, hmem⟩ := exists_beginWith_of_coalesces hcoalesces
  -- The reply is not empty, and its first segment begins with the error.
  obtain ⟨groups, -, hflatten, hsegments⟩ := hcoalesces
  cases hfirsts with
  | nil =>
    rw [List.map_nil, eq_comm, List.map_eq_nil_iff] at hsegments
    rw [hsegments] at hflatten
    cases hflatten
  | @cons segment first segments firsts hprefix hrest =>
    obtain rfl := List.mem_singleton.mp (hmem first List.mem_cons_self)
    obtain ⟨rest, hsegment⟩ := hprefix
    have hmalloc : ¬(first.payload ≠ [] ∧ client.payloadMalloc = false) := by
      rw [hpayload]
      rintro ⟨-, ⟨⟩⟩
    have hresult := requestFileMetadata_of_errorReply (hclient.requestSent hname _) herror
      hsegment.symm buffer segments response
    rw [if_neg hmalloc] at hresult
    exact ⟨_, hresult, hstatus, htype, hcommand, hstatus⟩

/-- An error reply that stands alone is received behind the chunks. -/
theorem exists_result_of_chunks_error (hclient : client.Succeeds)
    (hname : fileName.chars.length < maxPayloadSize) {chunks : List Frame} {error : Frame}
    (hchunks : ∀ frame ∈ chunks, frame.header.messageType = messageResponseChunk) {code : ℕ}
    (hreports : error.Reports commandRequestFile code) (hcode : code ≠ statusOk)
    (halone : ∀ last ∈ chunks.getLast?, maxMessageSize < last.encode.length + error.encode.length)
    {segments : List Segment}
    (hcoalesces : Coalesces ((chunks ++ [error]).map Frame.encode) (segments.map Segment.bytes))
    (buffer : ReceiveBuffer) (response : Response) :
    ∃ result, requestFileContents client fileName buffer segments response = some result ∧
      result.Reports commandRequestFile code := by
  obtain ⟨htype, hcommand, hstatus⟩ := hreports
  have herror : IsErrorReply error := ⟨htype, hstatus ▸ hcode⟩
  rw [List.map_append, List.map_singleton] at hcoalesces
  have hle : ∀ bytes ∈ segments.map Segment.bytes, bytes.length ≤ maxMessageSize := by
    intro bytes hbytes
    obtain ⟨segment, -, rfl⟩ := List.mem_map.mp hbytes
    exact segment.length_le
  have hlast : ∀ bytes ∈ (chunks.map Frame.encode).getLast?,
      maxMessageSize < bytes.length + error.encode.length := by
    intro bytes hbytes
    rw [List.getLast?_map] at hbytes
    obtain ⟨frame, hframe, rfl⟩ := Option.mem_map.mp hbytes
    exact halone frame hframe
  obtain ⟨earlier, hsegments, hearlier⟩ := hcoalesces.exists_last hle hlast
  obtain ⟨collected, tail, rfl, rfl, htail⟩ := List.map_eq_append_iff.mp hsegments
  obtain ⟨segment, rfl, hsegment⟩ := List.map_eq_singleton_iff.mp htail
  obtain ⟨firsts, hfirsts, hmem⟩ := exists_beginWith_of_coalesces hearlier
  have hresult := requestFileContents_of_chunks_errorReply hclient (hclient.requestSent hname _)
    (fun frame hframe => hchunks frame (hmem frame hframe)) herror hfirsts hsegment buffer response
  exact ⟨_, hresult, hstatus, htype, hcommand, hstatus⟩

theorem propagatesErrors_contents (hname : fileName.chars.length < maxPayloadSize)
    (hserver : server.ReportsErrors) (hclient : client.Succeeds)
    (halone : server.ErrorStandsAlone fileName) :
    PropagatesErrors Coalesces server client commandRequestFile fileName
      (requestFileContents client fileName) := by
  refine ⟨(requestFrame commandRequestFile fileName hname).segment,
    sendRequest_eq hname hclient.requestMalloc hclient.send, ?_⟩
  intro serverBuffer parsed reply hworker hrvalue buffer segments response hcoalesces
  rw [serverWorker_of_fileRequest hname rfl, Option.map_eq_some_iff] at hworker
  obtain ⟨_, hreply, ⟨⟩⟩ := hworker
  obtain ⟨totalChunks, n, error, hsent, hreports, hstops⟩ :=
    exists_error_of_sendFileContents hserver hreply hrvalue
  rw [hsent] at hcoalesces
  apply exists_result_of_chunks_error hclient hname _ hreports hrvalue _ hcoalesces
  · exact messageType_of_stopsAt fun hpos => (hstops hpos).1
  · intro last hlast
    cases n with
    | zero => cases hlast
    | succ n =>
      obtain ⟨hstops', rfl⟩ := hstops n.succ_pos
      rw [List.range_succ, List.map_append, List.map_singleton, List.getLast?_concat] at hlast
      obtain rfl := Option.some.inj hlast
      rw [Frame.length_encode, length_encode_chunkErrorFrame]
      exact halone totalChunks n hstops'

/-- With full chunks the errors also reach a client whose `recv` may cut a message. -/
theorem propagatesErrors_of_full (hname : fileName.chars.length < maxPayloadSize)
    (hserver : server.ReportsErrors) (hclient : client.Succeeds) (hftell : -1 ≤ server.ftell)
    (hfread : ∀ i : ℕ, (maxPayloadSize * (i + 1) : ℕ) ≤ server.ftell →
      (server.fread i).length = maxPayloadSize) :
    PropagatesErrors (fun messages => Delivers maxMessageSize messages []) server client
      commandRequestFile fileName (requestFileContents client fileName) := by
  obtain ⟨message, hmessage, hpropagates⟩ := propagatesErrors_contents hname hserver hclient
    (errorStandsAlone_of_full hftell hfread)
  refine ⟨message, hmessage, ?_⟩
  intro serverBuffer parsed reply hworker hrvalue buffer segments response hdelivers
  apply hpropagates serverBuffer parsed reply hworker hrvalue
  -- No two messages fit in one `recv`, so the client gets them one by one.
  rw [sendRequest_eq hname hclient.requestMalloc hclient.send, Option.some.injEq,
    Prod.mk.injEq, List.cons.injEq] at hmessage
  rw [serverWorker_of_fileRequest hname hmessage.2.1.symm, Option.map_eq_some_iff] at hworker
  obtain ⟨_, hreply, ⟨⟩⟩ := hworker
  obtain ⟨totalChunks, n, error, hsent, -, hstops⟩ :=
    exists_error_of_sendFileContents hserver hreply hrvalue
  have hfull := fullUntilLast_of_stopsAt hftell hfread (fun hpos => (hstops hpos).1) error
  rw [← hsent] at hfull
  rw [hdelivers.eq_messages (by decide) hfull]
  exact coalesces_self _

/-- A chunk and the error reply behind it, received together: the client does not see the error. -/
theorem not_propagatesErrors_of_fits (hname : fileName.chars.length < maxPayloadSize)
    (hserver : server.ReportsErrors) (hclient : client.Succeeds) {totalChunks : UInt32} {n : ℕ}
    (hstops : server.StopsAt fileName totalChunks (n + 1))
    (hfits : headerSize + (server.fread n).length +
      (headerSize + (chunkMessageError (n + 1) errorMemoryAllocationFailed).memory.length) ≤
        maxMessageSize) :
    ¬PropagatesErrors Coalesces server client commandRequestFile fileName
      (requestFileContents client fileName) := by
  rintro ⟨message, hmessage, hpropagates⟩
  rw [sendRequest_eq hname hclient.requestMalloc hclient.send, Option.some.injEq,
    Prod.mk.injEq, List.cons.injEq] at hmessage
  obtain ⟨reply, hreply, hcode, hsent⟩ := exists_reply_of_stopsAt hserver hstops
  let buffer : ReceiveBuffer := ⟨List.replicate maxMessageSize 0, List.length_replicate⟩
  let response : Response := { header := .init, payload := .null }
  have hworker : serverWorker server true buffer message response = _ :=
    serverWorker_of_fileRequest hname hmessage.2.1.symm buffer response
  rw [hreply, Option.map_some] at hworker
  -- The earlier chunks arrive one by one, and then the last one with the error behind it.
  have hlen : ((chunkFrame server totalChunks n).encode ++
      (chunkErrorFrame (n + 1)).encode).length ≤ maxMessageSize := by
    rw [List.length_append, Frame.length_encode, length_encode_chunkErrorFrame]
    exact hfits
  let together : Segment :=
    ⟨_, List.append_ne_nil_of_left_ne_nil (encodeHeader_append_ne_nil _ _) _, hlen⟩
  let segments :=
    ((List.range n).map (chunkFrame server totalChunks)).map Frame.segment ++ [together]
  have hcoalesces : Coalesces reply.sent (segments.map Segment.bytes) := by
    rw [hsent, List.range_succ, List.map_append, List.map_append, List.map_append,
      List.map_append, map_segment, List.append_assoc]
    exact coalesces_concat _ _ _
  have hbegin : BeginWith segments ((List.range (n + 1)).map (chunkFrame server totalChunks)) := by
    rw [List.range_succ, List.map_append]
    exact List.rel_append (beginWith_of_eq (map_segment _))
      (.cons (List.prefix_append _ _) .nil)
  have hchunks : ∀ frame ∈ (List.range (n + 1)).map (chunkFrame server totalChunks),
      frame.header.messageType = messageResponseChunk := messageType_of_stopsAt fun _ => hstops
  have hlost := requestFileContents_of_only_chunks hclient (hclient.requestSent hname _) hchunks
    hbegin buffer response
  obtain ⟨result, hresult, hrvalue, -⟩ := hpropagates buffer response reply hworker
    (by rw [hcode]; exact errorMemoryAllocationFailed_ne) buffer segments response hcoalesces
  obtain rfl := Option.some.inj (hlost.symm.trans hresult)
  rw [hcode] at hrvalue
  cases hrvalue

end Requests

/-- **Error propagation.** For both commands, every error that the server returns for the client's
request is the value that the client's function returns, with an error reply to that command as the
header of its response, if and only if no error reply behind a chunk fits in one `recv` with it. -/
theorem errors_propagate_iff {server : ServerEnv} {client : ClientEnv} {fileName : CString}
    (hname : fileName.chars.length < maxPayloadSize) (hserver : server.ReportsErrors)
    (hclient : client.Succeeds) (hpayload : client.payloadMalloc = true) :
    (PropagatesErrors Coalesces server client commandRequestMetadata fileName
        (requestFileMetadata client fileName) ∧
      PropagatesErrors Coalesces server client commandRequestFile fileName
        (requestFileContents client fileName)) ↔
      server.ErrorStandsAlone fileName := by
  constructor
  · rintro ⟨-, hcontents⟩ totalChunks n hstops
    by_contra hfits
    exact not_propagatesErrors_of_fits hname hserver hclient hstops (not_lt.mp hfits) hcontents
  · intro halone
    exact ⟨propagatesErrors_metadata hname hserver hclient hpayload,
      propagatesErrors_contents hname hserver hclient halone⟩

theorem length_replicate_2000 : (List.replicate 2000 (65 : UInt8)).length < 2 ^ 63 := by
  decide +kernel

theorem length_replicate_10 : (List.replicate 10 (65 : UInt8)).length ≤ maxPayloadSize := by
  decide

/-- A server that reads ten bytes of a file of two chunks, and has memory for the first chunk and no
other. -/
def shortChunkNoMemory : ServerEnv :=
  { ServerEnv.serving (List.replicate 2000 65) length_replicate_2000 with
    fread := fun _ => List.replicate 10 65
    length_fread_le := fun _ => length_replicate_10
    chunkMalloc := fun i => if i = 0 then some fun _ => 0 else none }

theorem reportsErrors_shortChunkNoMemory : shortChunkNoMemory.ReportsErrors :=
  ⟨fun _ _ => rfl, Option.some_ne_none _⟩

theorem stopsAt_shortChunkNoMemory : shortChunkNoMemory.StopsAt (.ofLiteral "two.txt") 2 1 where
  path := by decide
  fopen := rfl
  planned := by decide +kernel
  lt := by decide
  chunkMalloc := rfl
  earlier i hi := by
    obtain rfl := Nat.lt_one_iff.mp hi
    exact Option.some_ne_none _

/-- The short chunk and the error reply arrive together: the server returns
`ERROR_MEMORY_ALLOCATION_FAILED`, and the client `ERROR_RECEIVE_FAILED`. -/
theorem shortChunk_hides_error :
    (∃ (reply : Reply) (segment : Segment),
      sendFileContents shortChunkNoMemory (.ofLiteral "two.txt") = some reply ∧
        reply.rvalue = errorMemoryAllocationFailed ∧
        reply.sent.flatten = segment.bytes ∧
        (requestFileContents .reliable (.ofLiteral "two.txt")
            ⟨List.replicate maxMessageSize 0, List.length_replicate⟩ [segment]
            { header := .init, payload := .null }).map RequestResult.rvalue =
          some errorReceiveFailed) ∧
    ¬PropagatesErrors Coalesces shortChunkNoMemory .reliable commandRequestFile
      (.ofLiteral "two.txt") (requestFileContents .reliable (.ofLiteral "two.txt")) := by
  constructor
  · obtain ⟨reply, hreply, hrvalue, hsent⟩ :=
      exists_reply_of_stopsAt reportsErrors_shortChunkNoMemory stopsAt_shortChunkNoMemory
    have hbytes : reply.sent.flatten =
        (chunkFrame shortChunkNoMemory 2 0).encode ++ (chunkErrorFrame 1).encode := by
      rw [hsent]
      simp
    have hne : reply.sent.flatten ≠ [] := by
      rw [hbytes]
      exact List.append_ne_nil_of_left_ne_nil (encodeHeader_append_ne_nil _ _) _
    have hle : reply.sent.flatten.length ≤ maxMessageSize := by
      rw [hbytes, List.length_append, Frame.length_encode, length_encode_chunkErrorFrame]
      decide +kernel
    refine ⟨reply, ⟨_, hne, hle⟩, hreply, hrvalue, rfl, ?_⟩
    rw [requestFileContents_of_only_chunks succeeds_reliable
      (succeeds_reliable.requestSent (by decide) _)
      (messageType_of_stopsAt fun _ => stopsAt_shortChunkNoMemory) (.cons ⟨_, hbytes.symm⟩ .nil)]
    rfl
  · exact not_propagatesErrors_of_fits (by decide) reportsErrors_shortChunkNoMemory
      succeeds_reliable stopsAt_shortChunkNoMemory (by decide +kernel)

/-- A server with memory for the first chunk of a file of two, and for no other. -/
def twoChunksNoMemory : ServerEnv :=
  { ServerEnv.serving (List.replicate 2000 65) length_replicate_2000 with
    chunkMalloc := fun i => if i = 0 then some fun _ => 0 else none }

theorem errors_propagate_twoChunks :
    PropagatesErrors Coalesces twoChunksNoMemory .reliable commandRequestMetadata
        (.ofLiteral "two.txt") (requestFileMetadata .reliable (.ofLiteral "two.txt")) ∧
      PropagatesErrors Coalesces twoChunksNoMemory .reliable commandRequestFile
        (.ofLiteral "two.txt") (requestFileContents .reliable (.ofLiteral "two.txt")) := by
  have hserver : twoChunksNoMemory.ReportsErrors := ⟨fun _ _ => rfl, Option.some_ne_none _⟩
  refine (errors_propagate_iff (by decide) hserver succeeds_reliable rfl).mpr ?_
  apply errorStandsAlone_of_full
  · decide +kernel
  · intro i hi
    have hread : twoChunksNoMemory.fread i = chunk maxPayloadSize (List.replicate 2000 65) i := rfl
    have hsize : twoChunksNoMemory.ftell = (List.replicate 2000 (65 : UInt8)).length := rfl
    rw [hsize] at hi
    rw [hread]
    exact length_chunk (Int.ofNat_le.mp hi)

end CExamples.ClientServer

import CExamples.ClientServer.ClientFrames
import CExamples.ClientServer.ServerRuns
import CExamples.Common.MessageQueue

/-!
# End-to-end file transfer

The server sends the chunks of a file as frames of which all but the last fill a message, so however
the messages are coalesced the client receives them one by one, and puts the file together again
(`transfer_contents`).
-/

namespace CExamples.ClientServer

open C

/-- The system serves a file with the given contents at a path, reads it in full chunks, and fails
in no allocation and no `send`. -/
structure ServerEnv.Serves (env : ServerEnv) (path : CString) (contents : List UInt8) : Prop where
  fopen : env.fopen path = true
  ftell : env.ftell = contents.length
  fread : ∀ i, env.fread i = chunk maxPayloadSize contents i
  chunkMalloc : ∀ i, env.chunkMalloc i ≠ none
  send : ∀ n data, env.send n data = data.length

theorem serves_serving {contents : List UInt8} (h : contents.length < 2 ^ 63) (path : CString) :
    (ServerEnv.serving contents h).Serves path contents :=
  ⟨rfl, rfl, fun _ => rfl, fun _ => Option.some_ne_none _, fun _ _ => rfl⟩

/-- No allocation of the client fails, and its request is accepted whole. -/
structure ClientEnv.Succeeds (env : ClientEnv) : Prop where
  requestMalloc : env.requestMalloc ≠ none
  send : ∀ data, env.send data = data.length
  realloc : ∀ i size, env.realloc i size = true

theorem succeeds_reliable : ClientEnv.reliable.Succeeds :=
  ⟨Option.some_ne_none _, fun _ => rfl, fun _ _ => rfl⟩

/-! ## The plan of chunks -/

/-- The number of chunks of a file. -/
def chunkCount (contents : List UInt8) : ℕ :=
  (contents.length + 1023) / 1024

/-- The frames of a file that is served. -/
def fileFrames (env : ServerEnv) (contents : List UInt8) : List Frame :=
  (List.range (chunkCount contents)).map (chunkFrame env (UInt32.ofNat (chunkCount contents)))

/-- The chunks of a file that the loop's `uint32_t` can count. -/
theorem toNat_chunkCount {contents : List UInt8}
    (hle : contents.length ≤ 1024 * (2 ^ 32 - 1)) :
    (UInt32.ofNat (chunkCount contents)).toNat = chunkCount contents := by
  apply UInt32.toNat_ofNat_of_lt'
  rw [chunkCount, UInt32.size]
  omega

theorem exists_calculateTotalChunks {size : ℕ} (hle : size ≤ 1024 * (2 ^ 32 - 1)) :
    ∃ chunks, calculateTotalChunks size = some chunks ∧
      (UInt32.ofInt chunks).toNat = (size + 1023) / 1024 := by
  have hsmall : (size : ℤ) + 1024 < 2 ^ 63 := by omega
  have hrange : InRange 64 size := ⟨by omega, by omega⟩
  rw [calculateTotalChunks_eq hrange, if_pos hsmall]
  refine ⟨_, rfl, ?_⟩
  have hcount := toNat_ofInt_bmod ((size + 1023 : ℤ).tdiv 1024)
  rw [Int.tdiv_eq_ediv_of_nonneg (by omega)] at hcount ⊢
  omega

/-- The server sends the frames of the file and reports success. -/
theorem exists_sendFileContents {env : ServerEnv} {fileName : CString} {contents : List UInt8}
    (h : env.Serves (fullPath fileName) contents) (hpath : (fullPath fileName).chars.length < 256)
    (hle : contents.length ≤ 1024 * (2 ^ 32 - 1)) :
    ∃ reply, sendFileContents env fileName = some reply ∧ reply.rvalue = statusOk ∧
      reply.sent = (fileFrames env contents).map Frame.encode := by
  obtain ⟨chunks, hchunks, hcount⟩ := exists_calculateTotalChunks hle
  have htotal : UInt32.ofInt chunks = UInt32.ofNat (chunkCount contents) :=
    UInt32.toNat_inj.mp (hcount.trans (toNat_chunkCount hle).symm)
  have hloop := sendChunks_of_chunkSent fun i (_ : i < (UInt32.ofInt chunks).toNat) =>
    ⟨h.chunkMalloc i, h.send i _⟩
  rw [sendFileContents_of_fopen hpath h.fopen, h.ftell, hchunks, Option.bind_some, hloop]
  refine ⟨_, rfl, rfl, ?_⟩
  rw [Reply.sent_after_fopen, Reply.sent, sent_chunkEvents, htotal, toNat_chunkCount hle]
  rfl

/-! ## The transfer -/

section Frames

variable {env : ServerEnv} {path : CString} {contents : List UInt8}

theorem flatMap_fileFrames (h : env.Serves path contents) :
    (fileFrames env contents).flatMap Frame.payload = contents := by
  have hpayload : ∀ i, (chunkFrame env (UInt32.ofNat (chunkCount contents)) i).payload =
      chunk maxPayloadSize contents i := h.fread
  rw [fileFrames, List.flatMap_map]
  simp only [hpayload]
  rw [flatMap_chunk]
  apply List.take_of_length_le
  simp only [chunkCount, maxPayloadSize]
  omega

theorem fileFrames_of_chunkCount (env : ServerEnv) {count : ℕ}
    (hcount : chunkCount contents = count + 1) :
    fileFrames env contents =
      (List.range count).map (chunkFrame env (UInt32.ofNat (count + 1))) ++
        [chunkFrame env (UInt32.ofNat (count + 1)) count] := by
  rw [fileFrames, hcount, List.range_succ, List.map_append]
  rfl

/-- All chunks but the last are full. -/
theorem ServerEnv.Serves.length_fread (h : env.Serves path contents) {i : ℕ}
    (hi : i + 1 < chunkCount contents) : (env.fread i).length = maxPayloadSize := by
  rw [h.fread]
  apply length_chunk
  simp only [chunkCount, maxPayloadSize] at hi ⊢
  omega

/-- All frames but the last fill a message. -/
theorem fullUntilLast_fileFrames (h : env.Serves path contents) {count : ℕ}
    (hcount : chunkCount contents = count + 1) :
    FullUntilLast maxMessageSize ((fileFrames env contents).map Frame.encode) := by
  rw [fileFrames_of_chunkCount env hcount, List.map_append]
  apply FullUntilLast.concat
  · intro message hmessage
    rw [List.map_map, List.mem_map] at hmessage
    obtain ⟨i, hi, rfl⟩ := hmessage
    rw [List.mem_range] at hi
    have hfull := h.length_fread (show i + 1 < chunkCount contents by omega)
    rw [Function.comp_apply, Frame.length_encode, maxMessageSize, ← hfull]
    rfl
  · intro hnil
    have hlen := congrArg List.length hnil
    rw [Frame.length_encode, List.length_nil, headerSize] at hlen
    omega
  · exact Frame.length_encode_le _

end Frames

theorem length_fileName_lt {fileName : CString} (h : (fullPath fileName).chars.length < 256) :
    fileName.chars.length < maxPayloadSize := by
  rw [fullPath, CString.chars_append, List.length_append] at h
  rw [maxPayloadSize]
  omega

/-- The client returns the chunks that it receives whole and in order. -/
theorem requestFileContents_of_chunks {client : ClientEnv} (h : client.Succeeds)
    {fileName : CString} (hname : fileName.chars.length < maxPayloadSize) {chunks : List Frame}
    {last : Frame} (hchunks : ∀ frame ∈ chunks, frame.header.messageType = messageResponseChunk)
    (hlast : last.header.messageType = messageResponseLastChunk) {segments : List Segment}
    (hsegments : segments.map Segment.bytes = (chunks ++ [last]).map Frame.encode)
    (buffer : ReceiveBuffer) (response : Response) :
    requestFileContents client fileName buffer segments response =
      some {
        rvalue := statusOk
        response :=
          { header :=
              completedHeader last.header ((chunks ++ [last]).flatMap Frame.payload).length
            payload := .block ((chunks ++ [last]).flatMap Frame.payload) }
        sent := [(requestFrame commandRequestFile fileName hname).encode] } := by
  have hloop := receiveLoop_of_chunks h.realloc hchunks hlast hsegments
    (received_start buffer response)
  rw [List.nil_append] at hloop
  rw [requestFileContents, sendRequest_eq hname h.requestMalloc h.send, Option.bind_eq_bind,
    Option.bind_some]
  dsimp only
  rw [if_neg (by decide), hloop]
  rfl

theorem exists_chunkCount_eq {contents : List UInt8} (hne : contents ≠ []) :
    ∃ count, chunkCount contents = count + 1 := by
  have hpos : 0 < contents.length := List.length_pos_iff.mpr hne
  apply Nat.exists_eq_add_one.mpr
  rw [chunkCount]
  omega

/-- The client returns the file whose frames it receives. -/
theorem requestFileContents_of_fileFrames {server : ServerEnv} {client : ClientEnv}
    {path fileName : CString} {contents : List UInt8} (hserver : server.Serves path contents)
    (hle : contents.length ≤ 1024 * (2 ^ 32 - 1)) (hclient : client.Succeeds)
    (hname : fileName.chars.length < maxPayloadSize) {count : ℕ}
    (hcount : chunkCount contents = count + 1) {segments : List Segment}
    (hsegments : segments.map Segment.bytes = (fileFrames server contents).map Frame.encode)
    (buffer : ReceiveBuffer) (response : Response) :
    requestFileContents client fileName buffer segments response =
      some {
        rvalue := statusOk
        response :=
          { header := completedHeader (chunkFrame server (UInt32.ofNat (count + 1)) count).header
              contents.length
            payload := .block contents }
        sent := [(requestFrame commandRequestFile fileName hname).encode] } := by
  have htotal := toNat_chunkCount hle
  rw [hcount] at htotal
  have hchunks : ∀ frame ∈ (List.range count).map (chunkFrame server (UInt32.ofNat (count + 1))),
      frame.header.messageType = messageResponseChunk := by
    intro frame hframe
    obtain ⟨i, hi, rfl⟩ := List.mem_map.mp hframe
    rw [List.mem_range] at hi
    exact messageType_of_lt (by omega) _
  have hcontents := flatMap_fileFrames hserver
  rw [fileFrames_of_chunkCount server hcount] at hsegments hcontents
  have hresult := requestFileContents_of_chunks hclient hname hchunks
    (messageType_of_last htotal.symm _) hsegments buffer response
  rwa [hcontents] at hresult

/-- **File transfer.** A served file of at least one byte and less than 2^32 is sent whole, and
however its messages are coalesced on the way, the client returns its contents. -/
theorem transfer_contents {server : ServerEnv} {client : ClientEnv} {fileName : CString}
    {contents : List UInt8} (hne : contents ≠ []) (hlt : contents.length < 2 ^ 32)
    (hpath : (fullPath fileName).chars.length < 256)
    (hserver : server.Serves (fullPath fileName) contents) (hclient : client.Succeeds)
    (buffer : ReceiveBuffer) (response : Response) :
    ∃ reply, sendFileContents server fileName = some reply ∧ reply.rvalue = statusOk ∧
      ∀ segments : List Segment,
        Delivers maxMessageSize reply.sent [] (segments.map Segment.bytes) →
        ∃ result, requestFileContents client fileName buffer segments response = some result ∧
          result.rvalue = statusOk ∧
          result.response.payload = .block contents ∧
          result.response.header.payloadSize.toNat = contents.length ∧
          result.response.header.chunkIndex.toNat + 1 = (contents.length + 1023) / 1024 ∧
          result.response.header.messageType = messageResponse ∧
          result.response.header.command = commandRequestFile ∧
          result.response.header.status.toNat = statusOk := by
  have hle : contents.length ≤ 1024 * (2 ^ 32 - 1) := by omega
  obtain ⟨reply, hreply, hrvalue, hsent⟩ := exists_sendFileContents hserver hpath hle
  refine ⟨reply, hreply, hrvalue, ?_⟩
  intro segments hdelivers
  obtain ⟨count, hcount⟩ := exists_chunkCount_eq hne
  have hsegments : segments.map Segment.bytes = (fileFrames server contents).map Frame.encode := by
    rw [hsent] at hdelivers
    exact hdelivers.eq_messages (by decide) (fullUntilLast_fileFrames hserver hcount)
  have hresult := requestFileContents_of_fileFrames hserver hle hclient (length_fileName_lt hpath)
    hcount hsegments buffer response
  have htotal := toNat_chunkCount hle
  rw [hcount] at htotal
  have hindex := toNat_chunkIndex (show count < (UInt32.ofNat (count + 1)).toNat by omega)
    (server.fread count).length
  refine ⟨_, hresult, rfl, rfl, UInt32.toNat_ofNat_of_lt' hlt, ?_, rfl, rfl, rfl⟩
  rw [← chunkCount, hcount]
  exact congrArg (· + 1) hindex

/-- All messages of a file may have arrived before the first `recv`. -/
theorem exists_segments_arrived {env : ServerEnv} {path : CString} {contents : List UInt8}
    (h : env.Serves path contents) (hne : contents ≠ []) :
    ∃ segments : List Segment, segments.length = chunkCount contents ∧
      Delivers maxMessageSize ((fileFrames env contents).map Frame.encode) []
        (segments.map Segment.bytes) ∧
      Delivers maxMessageSize [] ((fileFrames env contents).map Frame.encode).flatten
        (segments.map Segment.bytes) := by
  obtain ⟨count, hcount⟩ := exists_chunkCount_eq hne
  have hfull := fullUntilLast_fileFrames h hcount
  refine ⟨(fileFrames env contents).map Frame.segment, ?_, ?_, ?_⟩
  · rw [List.length_map, fileFrames, List.length_map, List.length_range]
  · rw [map_segment]
    exact hfull.delivers_arrived (by decide)
  · rw [map_segment]
    exact hfull.delivers_queued (by decide)

/-- A file of two chunks. -/
def twoChunks : List UInt8 :=
  List.replicate 1025 65

theorem length_twoChunks_lt : twoChunks.length < 2 ^ 63 := by
  decide +kernel

/-- Two messages that have both arrived before the first `recv`. -/
theorem transfer_contents_twoChunks :
    ∃ (reply : Reply) (segments : List Segment) (result : RequestResult),
      sendFileContents (.serving twoChunks length_twoChunks_lt) (.ofLiteral "two.txt") =
          some reply ∧
        Delivers maxMessageSize [] reply.sent.flatten (segments.map Segment.bytes) ∧
        segments.length = 2 ∧
        requestFileContents .reliable (.ofLiteral "two.txt")
          ⟨List.replicate maxMessageSize 0, List.length_replicate⟩ segments
          { header := .init, payload := .indeterminate } = some result ∧
        result.rvalue = statusOk ∧ result.response.payload = .block twoChunks := by
  have hserver : (ServerEnv.serving twoChunks length_twoChunks_lt).Serves
      (fullPath (.ofLiteral "two.txt")) twoChunks := serves_serving _ _
  have hne : twoChunks ≠ [] := by decide +kernel
  obtain ⟨reply, hreply, -, hsent⟩ :=
    exists_sendFileContents hserver (by decide) (by decide +kernel)
  obtain ⟨segments, hlength, harrived, hqueued⟩ := exists_segments_arrived hserver hne
  obtain ⟨reply', hreply', -, h⟩ := transfer_contents hne (by decide +kernel) (by decide)
    hserver succeeds_reliable ⟨List.replicate maxMessageSize 0, List.length_replicate⟩
    { header := .init, payload := .indeterminate }
  obtain rfl := Option.some.inj (hreply.symm.trans hreply')
  rw [← hsent] at harrived hqueued
  obtain ⟨result, hresult, hrvalue, hpayload, -⟩ := h segments harrived
  have htwo : chunkCount twoChunks = 2 := by decide +kernel
  exact ⟨reply, segments, result, hreply, hqueued, hlength.trans htwo, hresult, hrvalue, hpayload⟩

end CExamples.ClientServer

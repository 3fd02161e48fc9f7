import CExamples.ClientServer.Segmentation
import CExamples.ClientServer.Transfer

/-!
# The limits of a transfer

`calculate_total_chunks` rounds up in `long`, its result is converted to `int` and then to the
`uint32_t` bound of the loop. The conversions lose nothing up to `2^32 - 1` chunks. A larger file
has a smaller bound, so that the loop stops before its end (`exists_chunkPlan_iff`).

The client counts the bytes in a `size_t` and reports them in a field of 32 bits, which is too small
for a payload of `2^32` bytes (`requestFileContents_payloadSize_iff`).
-/

namespace CExamples.ClientServer

open C

/-! ## The plan of chunks -/

/-- The reply sends `contents` in `n` chunks, all of them full but the last, which alone is marked
as the last. -/
def Reply.SendsInChunks (reply : Reply) (contents : List UInt8) (n : ℕ) : Prop :=
  ∃ frames : List Frame, reply.sent = frames.map Frame.encode ∧ frames.length = n ∧
    frames.flatMap Frame.payload = contents ∧
    ∀ i (hi : i < frames.length),
      (i + 1 < n → frames[i].payload.length = maxPayloadSize) ∧
        (frames[i].header.messageType = messageResponseLastChunk ↔ i + 1 = n)

/-- The loop bound `n` is the number of chunks of a file, and with it the loop sends every file of
that size. -/
structure ChunkPlan (fileSize : ℤ) (n : UInt32) : Prop where
  totalChunks : (calculateTotalChunks fileSize).map UInt32.ofInt = some n
  covers : fileSize ≤ 1024 * n.toNat
  tight : 0 < fileSize → 1024 * ((n.toNat : ℤ) - 1) < fileSize
  sends : ∀ (env : ServerEnv) (fileName : CString) (contents : List UInt8),
    (contents.length : ℤ) = fileSize → (fullPath fileName).chars.length < 256 →
    env.Serves (fullPath fileName) contents →
    ∃ reply, sendFileContents env fileName = some reply ∧ reply.rvalue = statusOk ∧
      reply.SendsInChunks contents n.toNat

theorem messageType_lastChunk_iff {totalChunks : UInt32} {chunkIndex : ℕ}
    (h : chunkIndex < totalChunks.toNat) (bytesRead : ℕ) :
    (chunkHeader totalChunks chunkIndex bytesRead).messageType = messageResponseLastChunk ↔
      chunkIndex + 1 = totalChunks.toNat := by
  rcases (Nat.succ_le_of_lt h).lt_or_eq with hlt | heq
  · rw [messageType_of_lt hlt]
    exact iff_of_false (by decide) hlt.ne
  · rw [messageType_of_last heq]
    exact iff_of_true rfl heq

/-- The frames of a file that the loop can count are its chunks. -/
theorem ServerEnv.Serves.sendsInChunks {env : ServerEnv} {path : CString} {contents : List UInt8}
    (h : env.Serves path contents) (hle : contents.length ≤ 1024 * (2 ^ 32 - 1)) {reply : Reply}
    (hsent : reply.sent = (fileFrames env contents).map Frame.encode) :
    reply.SendsInChunks contents (chunkCount contents) := by
  have hlength : (fileFrames env contents).length = chunkCount contents := by
    rw [fileFrames, List.length_map, List.length_range]
  refine ⟨fileFrames env contents, hsent, hlength, flatMap_fileFrames h, ?_⟩
  intro i hi
  have hframe : (fileFrames env contents)[i] =
      chunkFrame env (UInt32.ofNat (chunkCount contents)) i := by
    simp only [fileFrames, List.getElem_map, List.getElem_range]
  have htotal := toNat_chunkCount hle
  rw [hlength, ← htotal] at hi
  have hlast := messageType_lastChunk_iff hi (env.fread i).length
  rw [htotal] at hlast
  rw [hframe]
  exact ⟨h.length_fread, hlast⟩

/-- **The chunk plan.** For every size of a file, the code computes a loop bound that covers the
file and no chunk more, if and only if the chunks of the file can be counted in a `uint32_t`. -/
theorem exists_chunkPlan_iff {fileSize : ℤ} (hnonneg : 0 ≤ fileSize) (hmax : fileSize < 2 ^ 63) :
    (∃ n, ChunkPlan fileSize n) ↔ fileSize ≤ 1024 * (2 ^ 32 - 1) := by
  constructor
  · rintro ⟨n, hplan⟩
    have hcovers := hplan.covers
    have hn := n.toNat_lt
    omega
  · intro hle
    obtain ⟨size, rfl⟩ := Int.eq_ofNat_of_zero_le hnonneg
    have hsize : size ≤ 1024 * (2 ^ 32 - 1) := by omega
    obtain ⟨chunks, hchunks, hcount⟩ := exists_calculateTotalChunks hsize
    have htotal : (calculateTotalChunks size).map UInt32.ofInt = some (UInt32.ofInt chunks) := by
      rw [hchunks, Option.map_some]
    refine ⟨UInt32.ofInt chunks, htotal, by omega, by omega, ?_⟩
    intro env fileName contents hlength hpath hserves
    have hcontents : contents.length = size := by omega
    rw [← hcontents] at hsize hcount
    obtain ⟨reply, hreply, hrvalue, hsent⟩ := exists_sendFileContents hserves hpath hsize
    refine ⟨reply, hreply, hrvalue, ?_⟩
    rw [hcount]
    exact hserves.sendsInChunks hsize hsent

theorem exists_chunkPlan_threeChunks : ∃ n, ChunkPlan 2049 n :=
  (exists_chunkPlan_iff (by decide) (by decide)).mpr (by decide)

/-- Of a file of 2^42 + 1 bytes a single chunk is sent, as the last. -/
theorem calculateTotalChunks_wraps :
    (calculateTotalChunks 4398046511105).map UInt32.ofInt = some 1 ∧
      ¬∃ n, ChunkPlan 4398046511105 n := by
  refine ⟨by decide, ?_⟩
  rintro ⟨n, hplan⟩
  have hcovers := hplan.covers
  have hn := n.toNat_lt
  omega

/-! ## The reported size -/

theorem length_flatMap_payload (frames : List Frame) :
    (frames.flatMap Frame.payload).length =
      (frames.map fun frame => frame.header.payloadSize.toNat).sum := by
  simp only [List.length_flatMap, Frame.length_payload]

/-- **The reported size.** For every sequence of chunks that ends in a last one, the client returns
their payloads, and the size in its header is the number of these bytes if and only if the sizes of
the chunks add up to less than 2^32. -/
theorem requestFileContents_payloadSize_iff {env : ClientEnv} {fileName : CString}
    {sent : List (List UInt8)}
    (hsent : sendRequest env commandRequestFile fileName = some (statusOk, sent))
    (hrealloc : ∀ i size, env.realloc i size = true) {chunks : List Frame} {last : Frame}
    (hchunks : ∀ frame ∈ chunks, frame.header.messageType = messageResponseChunk)
    (hlast : last.header.messageType = messageResponseLastChunk) {segments : List Segment}
    (hsegments : segments.map Segment.bytes = (chunks ++ [last]).map Frame.encode)
    (buffer : ReceiveBuffer) (response : Response) :
    ∃ result bytes, requestFileContents env fileName buffer segments response = some result ∧
      result.rvalue = statusOk ∧ result.response.payload = .block bytes ∧
      bytes = (chunks ++ [last]).flatMap Frame.payload ∧
      (result.response.header.payloadSize.toNat = bytes.length ↔
        ((chunks ++ [last]).map fun frame => frame.header.payloadSize.toNat).sum < 2 ^ 32) := by
  have hloop := receiveLoop_of_chunks hrealloc hchunks hlast hsegments
    (received_start buffer response)
  rw [List.nil_append] at hloop
  rw [requestFileContents_of_sent hsent, hloop, ← length_flatMap_payload]
  refine ⟨_, _, rfl, rfl, rfl, rfl, ?_⟩
  generalize (chunks ++ [last]).flatMap Frame.payload = bytes
  show (UInt32.ofNat bytes.length).toNat = bytes.length ↔ bytes.length < 2 ^ 32
  rw [UInt32.toNat_ofNat']
  omega

theorem requestFileContents_payloadSize_twoChunks :
    ∃ result bytes,
      requestFileContents .reliable (.ofLiteral "three.txt")
          ⟨List.replicate maxMessageSize 0, List.length_replicate⟩
          [⟨[3, 1, 0, 0, 0, 2, 0, 0, 0, 0, 0, 65, 66], by decide, by decide⟩,
            ⟨[4, 1, 0, 0, 0, 1, 0, 0, 0, 1, 0, 67], by decide, by decide⟩]
          { header := .init, payload := .indeterminate } = some result ∧
        result.response.payload = .block bytes ∧
        result.response.header.payloadSize.toNat = bytes.length := by
  have hname : (CString.ofLiteral "three.txt").chars.length < maxPayloadSize := by decide
  have hsent : sendRequest .reliable commandRequestFile (.ofLiteral "three.txt") = _ :=
    sendRequest_eq hname (Option.some_ne_none _) fun _ => rfl
  have hchunks : ∀ frame ∈ [(⟨⟨3, 1, 2, 0, 0⟩, [65, 66], rfl, by decide⟩ : Frame)],
      frame.header.messageType = messageResponseChunk := by
    intro frame hframe
    rw [List.mem_singleton.mp hframe]
    rfl
  have hlast : (⟨⟨4, 1, 1, 1, 0⟩, [67], rfl, by decide⟩ : Frame).header.messageType =
      messageResponseLastChunk := rfl
  have hsegments : ([⟨[3, 1, 0, 0, 0, 2, 0, 0, 0, 0, 0, 65, 66], by decide, by decide⟩,
      ⟨[4, 1, 0, 0, 0, 1, 0, 0, 0, 1, 0, 67], by decide, by decide⟩] : List Segment).map
        Segment.bytes =
      ([(⟨⟨3, 1, 2, 0, 0⟩, [65, 66], rfl, by decide⟩ : Frame)] ++
        [(⟨⟨4, 1, 1, 1, 0⟩, [67], rfl, by decide⟩ : Frame)]).map Frame.encode := rfl
  obtain ⟨result, bytes, hresult, -, hpayload, -, hsize⟩ :=
    requestFileContents_payloadSize_iff hsent (fun _ _ => rfl) hchunks hlast hsegments
      ⟨List.replicate maxMessageSize 0, List.length_replicate⟩
      { header := .init, payload := .indeterminate }
  exact ⟨result, bytes, hresult, hpayload, hsize.mpr (by decide)⟩

/-! ## A file of 4 GiB -/

/-- A file of 2^32 bytes is received whole, and its size is reported as zero. -/
theorem payloadSize_of_length_eq {contents : List UInt8} (h : contents.length < 2 ^ 63)
    (hlength : contents.length = 2 ^ 32) (buffer : ReceiveBuffer) (response : Response) :
    ∃ result,
      requestFileContents .reliable (.ofLiteral "large.bin") buffer
          ((fileFrames (.serving contents h) contents).map Frame.segment) response = some result ∧
        result.rvalue = statusOk ∧ result.response.payload = .block contents ∧
        result.response.header.payloadSize = 0 := by
  have hserver := serves_serving h (fullPath (.ofLiteral "large.bin"))
  have hne : contents ≠ [] := by
    rintro rfl
    cases hlength
  obtain ⟨count, hcount⟩ := exists_chunkCount_eq hne
  have hname : (CString.ofLiteral "large.bin").chars.length < maxPayloadSize := by decide
  have hresult := requestFileContents_of_fileFrames hserver (by omega) succeeds_reliable hname
    hcount (map_segment _) buffer response
  refine ⟨_, hresult, rfl, rfl, ?_⟩
  show UInt32.ofNat contents.length = 0
  rw [hlength]
  decide

theorem length_replicate_fourGiB : (List.replicate (2 ^ 32) (0 : UInt8)).length < 2 ^ 63 := by
  rw [List.length_replicate]
  decide

/-- The chunks of a file of 2^32 bytes, all of them zero. -/
theorem largeFile_payloadSize :
    ∃ result,
      requestFileContents .reliable (.ofLiteral "large.bin")
          ⟨List.replicate maxMessageSize 0, List.length_replicate⟩
          ((fileFrames (.serving (List.replicate (2 ^ 32) 0) length_replicate_fourGiB)
            (List.replicate (2 ^ 32) 0)).map Frame.segment)
          { header := .init, payload := .indeterminate } = some result ∧
        result.rvalue = statusOk ∧
        result.response.payload = .block (List.replicate (2 ^ 32) 0) ∧
        result.response.header.payloadSize = 0 :=
  payloadSize_of_length_eq length_replicate_fourGiB List.length_replicate _ _

end CExamples.ClientServer

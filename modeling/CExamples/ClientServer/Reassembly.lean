import CExamples.ClientServer.Segmentation

/-!
# The receive loop on whole messages

Given whole messages, of any types and from any peer, the client returns what a scan from left to
right finds (`requestFileContents_eq_reassemble`): the payloads of the chunks up to the first
message that is not a `MESSAGE_RESPONSE_CHUNK`, and then the outcome that this message decides.
-/

namespace CExamples.ClientServer

open C

/-- A message that the loop collects and goes on. -/
def Frame.isChunk (frame : Frame) : Bool :=
  frame.header.messageType = messageResponseChunk

/-- What the messages of a reply mean to a caller whose response held `header`: the first one that
is not a chunk completes the payloads before it, reports an error or is out of place. -/
def reassemble (frames : List Frame) (header : Header) : ℕ × Response :=
  let received := (frames.takeWhile Frame.isChunk).flatMap Frame.payload
  match frames.dropWhile Frame.isChunk with
  | [] => (errorReceiveFailed, { header, payload := .null })
  | frame :: _ =>
    if frame.header.messageType = messageResponseLastChunk then
      (statusOk,
        { header :=
            { messageType := messageResponse
              command := frame.header.command
              payloadSize := UInt32.ofNat ((received ++ frame.payload).length % 2 ^ 32)
              chunkIndex := frame.header.chunkIndex
              status := UInt8.ofNat statusOk }
          payload := .block (received ++ frame.payload) })
    else if frame.header.messageType = messageResponse ∧ frame.header.status.toNat ≠ statusOk then
      (frame.header.status.toNat, { header := frame.header, payload := .null })
    else (errorUnexpectedMessageType, { header, payload := .null })

variable {state : ReceiveState} {bytes : List UInt8} {segment : Segment}

/-- A message that is not a chunk ends the loop. -/
theorem receiveLoop_of_not_isChunk {realloc : ℕ → ℕ → Bool}
    (hrealloc : ∀ i size, realloc i size = true) {frame : Frame} (hframe : frame.isChunk = false)
    (hsegment : segment.bytes = frame.encode) (h : state.Received bytes)
    (segments : List Segment) :
    receiveLoop realloc state (segment :: segments) =
      some (if frame.header.messageType = messageResponseLastChunk then
          (statusOk,
            { header := completedHeader frame.header (bytes ++ frame.payload).length
              payload := .block (bytes ++ frame.payload) })
        else if frame.header.messageType = messageResponse ∧
            frame.header.status.toNat ≠ statusOk then
          (frame.header.status.toNat, { header := frame.header, payload := .null })
        else
          (errorUnexpectedMessageType, { header := state.response.header, payload := .null })) := by
  have htype : frame.header.messageType ≠ messageResponseChunk := of_decide_eq_false hframe
  apply receiveLoop_of_result
  by_cases hlast : frame.header.messageType = messageResponseLastChunk
  · rw [if_pos hlast]
    exact receiveMessage_of_lastChunk h (hrealloc 0) hlast hsegment
  · rw [receiveMessage_of_header h hsegment, if_neg (not_or.mpr ⟨htype, hlast⟩), if_neg hlast]
    split <;> rfl

/-- The header of a completed payload, field by field. -/
theorem completedHeader_eq (header : Header) (totalBytesReceived : ℕ) :
    completedHeader header totalBytesReceived =
      { messageType := messageResponse
        command := header.command
        payloadSize := UInt32.ofNat (totalBytesReceived % 2 ^ 32)
        chunkIndex := header.chunkIndex
        status := UInt8.ofNat statusOk } := by
  have hmod : UInt32.ofNat (totalBytesReceived % 2 ^ 32) = UInt32.ofNat totalBytesReceived :=
    UInt32.ofNat_mod_size
  rw [completedHeader, hmod]

/-- **Reassembly.** With its request sent and memory for the payload, the client returns what the
messages mean, in whatever order and of whatever types they come, until the stream ends. -/
theorem requestFileContents_eq_reassemble {env : ClientEnv} {fileName : CString}
    {sent : List (List UInt8)}
    (hsent : sendRequest env commandRequestFile fileName = some (statusOk, sent))
    (hrealloc : ∀ i size, env.realloc i size = true) {frames : List Frame}
    {segments : List Segment} (hsegments : segments.map Segment.bytes = frames.map Frame.encode)
    (buffer : ReceiveBuffer) (response : Response) :
    requestFileContents env fileName buffer segments response =
      some {
        rvalue := (reassemble frames response.header).1
        response := (reassemble frames response.header).2
        sent } := by
  have hsplit : segments.map Segment.bytes = (frames.takeWhile Frame.isChunk).map Frame.encode ++
      (frames.dropWhile Frame.isChunk).map Frame.encode := by
    rw [hsegments, ← List.map_append, List.takeWhile_append_dropWhile]
  obtain ⟨collected, rest, rfl, hcollected, hrest⟩ := List.map_eq_append_iff.mp hsplit
  have hchunks : ∀ frame ∈ frames.takeWhile Frame.isChunk,
      frame.header.messageType = messageResponseChunk := by
    intro frame hframe
    have htrue := List.mem_takeWhile_imp hframe
    exact of_decide_eq_true htrue
  obtain ⟨later, next, hlater, hreceived, hheader, hloop⟩ := exists_receiveLoop_append hrealloc
    hchunks (beginWith_of_eq hcollected) (received_start buffer response) rest
  rw [List.nil_append] at hreceived
  rw [requestFileContents_of_sent hsent, hloop]
  unfold reassemble
  cases hdrop : frames.dropWhile Frame.isChunk with
  | nil =>
    rw [hdrop, List.map_nil, List.map_eq_nil_iff] at hrest
    have herror := receiveError_of_received hreceived errorReceiveFailed next.response.header
    rw [hrest, receiveLoop, herror, hheader]
    rfl
  | cons frame others =>
    rw [hdrop] at hrest
    obtain ⟨segment, segments, rfl, hsegment, -⟩ := List.map_eq_cons_iff.mp hrest
    have hframe : frame.isChunk = false := by
      have hhead := List.head?_dropWhile_not Frame.isChunk frames
      rwa [hdrop] at hhead
    rw [receiveLoop_of_not_isChunk hlater hframe hsegment hreceived, hheader, completedHeader_eq]
    rfl

/-- Two chunks, of which the second is the last. -/
theorem requestFileContents_reassembles_twoChunks :
    (requestFileContents .reliable (.ofLiteral "three.txt")
        ⟨List.replicate maxMessageSize 0, List.length_replicate⟩
        [⟨[3, 1, 0, 0, 0, 2, 0, 0, 0, 0, 0, 65, 66], by decide, by decide⟩,
          ⟨[4, 1, 0, 0, 0, 1, 0, 0, 0, 1, 0, 67], by decide, by decide⟩]
        { header := .init, payload := .indeterminate }).map
      (fun result => (result.rvalue, result.response)) =
      some (statusOk, { header := ⟨2, 1, 3, 1, 0⟩, payload := .block [65, 66, 67] }) := by
  have hsent : sendRequest .reliable commandRequestFile (.ofLiteral "three.txt") =
      some (statusOk,
        [(requestFrame commandRequestFile (.ofLiteral "three.txt") (by decide)).encode]) :=
    sendRequest_eq (by decide) (Option.some_ne_none _) fun _ => rfl
  have hresult := @requestFileContents_eq_reassemble .reliable _ _ hsent (fun _ _ => rfl)
    [⟨⟨3, 1, 2, 0, 0⟩, [65, 66], rfl, by decide⟩, ⟨⟨4, 1, 1, 1, 0⟩, [67], rfl, by decide⟩]
    [⟨[3, 1, 0, 0, 0, 2, 0, 0, 0, 0, 0, 65, 66], by decide, by decide⟩,
      ⟨[4, 1, 0, 0, 0, 1, 0, 0, 0, 1, 0, 67], by decide, by decide⟩] rfl
    ⟨List.replicate maxMessageSize 0, List.length_replicate⟩
    { header := .init, payload := .indeterminate }
  rw [hresult]
  rfl

end CExamples.ClientServer

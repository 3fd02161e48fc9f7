import CExamples.ClientServer.ClientFrames

/-!
# What the receive loop copies

The loop of `request_file_contents` copies as many bytes as the header in its buffer announces. The
payload that it returns is what it copied (`payload_of_loopCopies`), and it is undefined only where
a copy leaves the buffer (`receiveLoop_eq_none_iff`). It copies only received bytes if and only if
every chunk that it gets to arrived whole (`copies_received_iff`), which is what `parse_message`
asks of the same bytes.
-/

namespace CExamples.ClientServer

open C

/-- A call of `memcpy` in the loop: the buffer after `recv`, what `recv` stored, and the number of
bytes copied from behind the header. -/
structure Copy where
  buffer : ReceiveBuffer
  segment : Segment
  size : ℕ

/-- The copy that one iteration makes, if it gets that far. -/
def messageCopy (realloc : ℕ → Bool) (state : ReceiveState) (segment : Segment) : Option Copy :=
  match extractHeader (state.buffer.receive segment).bytes
    (UInt32.ofNat segment.bytes.length) with
  | some (.ok header) =>
    if (header.messageType = messageResponseChunk ∨
        header.messageType = messageResponseLastChunk) ∧
        realloc (state.totalBytesReceived + header.payloadSize.toNat) then
      some
        { buffer := state.buffer.receive segment
          segment
          size := header.payloadSize.toNat }
    else none
  | _ => none

/-- The copies of the whole loop, in order. -/
def loopCopies (realloc : ℕ → ℕ → Bool) (state : ReceiveState) : List Segment → List Copy
  | [] => []
  | segment :: segments =>
    (messageCopy (realloc 0) state segment).toList ++
      match receiveMessage (realloc 0) state segment with
      | some (.inl next) => loopCopies (fun i => realloc (i + 1)) next segments
      | _ => []

/-- All bytes copied were received. -/
def Copy.Received (copy : Copy) : Prop :=
  headerSize + copy.size ≤ copy.segment.bytes.length

/-- `parse_message` accepts what was received. -/
def Copy.Accepted (copy : Copy) : Prop :=
  ∀ response, ∃ parsed, parseMessage true copy.buffer.bytes
    (UInt32.ofNat copy.segment.bytes.length) response = some (statusOk, parsed)

/-- As long as chunks arrive, behind which `total` bytes were announced, and there is memory for
them, each one brings the payload that its header announces. -/
def ChunksWhole (realloc : ℕ → ℕ → Bool) (total : ℕ) : List Segment → Prop
  | [] => True
  | segment :: segments =>
    match decodeHeader segment.bytes with
    | none => True
    | some (header, rest) =>
      (header.messageType = messageResponseChunk ∨
        header.messageType = messageResponseLastChunk) →
      realloc 0 (total + header.payloadSize.toNat) = true →
      header.payloadSize.toNat ≤ rest.length ∧
        (header.messageType = messageResponseChunk →
          ChunksWhole (fun i => realloc (i + 1)) (total + header.payloadSize.toNat) segments)

/-! ## One iteration -/

section Iteration

variable {realloc : ℕ → Bool} {state : ReceiveState} {bytes : List UInt8} {segment : Segment}
  {header : Header} {rest : List UInt8}

theorem messageCopy_of_lt (hshort : segment.bytes.length < headerSize) :
    messageCopy realloc state segment = none := by
  rw [messageCopy, extractHeader, toNat_dataSize segment.length_le, if_pos hshort]

theorem messageCopy_of_header (h : state.Received bytes)
    (hsegment : segment.bytes = encodeHeader header ++ rest) :
    messageCopy realloc state segment =
      if (header.messageType = messageResponseChunk ∨
          header.messageType = messageResponseLastChunk) ∧
          realloc (bytes.length + header.payloadSize.toNat) then
        some
          { buffer := state.buffer.receive segment
            segment
            size := header.payloadSize.toNat }
      else none := by
  rw [messageCopy, extractHeader_receive state.buffer hsegment, ← h.1]

/-- The behaviour of an iteration is undefined only where its copy leaves the buffer. -/
theorem receiveMessage_eq_none_iff (h : state.Received bytes) :
    receiveMessage realloc state segment = none ↔
      ∃ copy, messageCopy realloc state segment = some copy ∧
        slice copy.buffer.bytes headerSize copy.size = none := by
  rcases lt_or_ge segment.bytes.length headerSize with hshort | hlen
  · rw [receiveMessage_of_lt h hshort, messageCopy_of_lt hshort]
    simp
  obtain ⟨header, rest, hsegment⟩ := exists_decodeHeader hlen
  rw [receiveMessage_of_header h hsegment, messageCopy_of_header h hsegment]
  by_cases htype : header.messageType = messageResponseChunk ∨
      header.messageType = messageResponseLastChunk
  · cases hrealloc : realloc (bytes.length + header.payloadSize.toNat) with
    | false =>
      have hcopy : ¬((header.messageType = messageResponseChunk ∨
          header.messageType = messageResponseLastChunk) ∧ false = true) := by
        rintro ⟨-, ⟨⟩⟩
      rw [if_pos htype, if_neg Bool.false_ne_true, if_neg hcopy]
      simp
    | true =>
      rw [if_pos htype, if_pos rfl, if_pos ⟨htype, rfl⟩]
      simp
  · have hcopy : ¬((header.messageType = messageResponseChunk ∨
        header.messageType = messageResponseLastChunk) ∧
        realloc (bytes.length + header.payloadSize.toNat) = true) := fun h => htype h.1
    rw [if_neg htype, if_neg hcopy]
    split <;> simp

/-- An iteration with a copy appends what it copies, and goes on or returns it. -/
theorem receiveMessage_of_copy (h : state.Received bytes) {copy : Copy}
    (hcopy : messageCopy realloc state segment = some copy) {copied : List UInt8}
    (hslice : slice copy.buffer.bytes headerSize copy.size = some copied) :
    (∃ next, receiveMessage realloc state segment = some (.inl next) ∧
      next.Received (bytes ++ copied)) ∨
    ∃ header, receiveMessage realloc state segment =
      some (.inr (statusOk, { header, payload := .block (bytes ++ copied) })) := by
  rcases lt_or_ge segment.bytes.length headerSize with hshort | hlen
  · rw [messageCopy_of_lt hshort] at hcopy
    cases hcopy
  obtain ⟨header, rest, hsegment⟩ := exists_decodeHeader hlen
  rw [messageCopy_of_header h hsegment] at hcopy
  split at hcopy
  swap
  · cases hcopy
  rename_i hcopies
  cases hcopy
  by_cases hlast : header.messageType = messageResponseLastChunk
  · refine .inr ⟨completedHeader header (bytes.length + header.payloadSize.toNat), ?_⟩
    rw [receiveMessage_of_header h hsegment, if_pos hcopies.1, if_pos hcopies.2, hslice,
      Option.map_some, if_pos hlast]
  · obtain ⟨next, hnext, hreceived, -⟩ := receiveMessage_of_slice h hsegment
      (hcopies.1.resolve_right hlast) hcopies.2 hslice
    exact .inl ⟨next, hnext, hreceived⟩

/-- Without a copy the loop ends, with an error and a null pointer. -/
theorem receiveMessage_of_not_copy (h : state.Received bytes)
    (hcopy : messageCopy realloc state segment = none) :
    ∃ rvalue header, receiveMessage realloc state segment =
      some (.inr (rvalue, { header, payload := .null })) ∧ rvalue ≠ statusOk := by
  rcases lt_or_ge segment.bytes.length headerSize with hshort | hlen
  · exact ⟨_, _, receiveMessage_of_lt h hshort, by decide⟩
  obtain ⟨header, rest, hsegment⟩ := exists_decodeHeader hlen
  rw [messageCopy_of_header h hsegment] at hcopy
  rw [receiveMessage_of_header h hsegment]
  split at hcopy
  · cases hcopy
  rename_i hcopies
  split
  · rename_i htype
    have hrealloc : ¬realloc (bytes.length + header.payloadSize.toNat) = true :=
      fun hrealloc => hcopies ⟨htype, hrealloc⟩
    rw [if_neg hrealloc]
    exact ⟨_, _, rfl, errorMemoryAllocationFailed_ne⟩
  · split
    · rename_i herror
      exact ⟨_, _, rfl, herror.2⟩
    · exact ⟨_, _, rfl, by decide⟩

end Iteration

/-! ## The loop -/

theorem decodeHeader_of_lt {word : List UInt8} (h : word.length < headerSize) :
    decodeHeader word = none := by
  rw [Option.eq_none_iff_forall_ne_some]
  rintro ⟨header, rest⟩ hdecode
  rw [eq_append_of_decodeHeader hdecode, List.length_append, length_encodeHeader] at h
  omega

/-- The behaviour of the loop is undefined only where one of its copies leaves the buffer. -/
theorem receiveLoop_eq_none_iff {realloc : ℕ → ℕ → Bool} {state : ReceiveState}
    {bytes : List UInt8} (h : state.Received bytes) (segments : List Segment) :
    receiveLoop realloc state segments = none ↔
      ∃ copy ∈ loopCopies realloc state segments,
        slice copy.buffer.bytes headerSize copy.size = none := by
  induction segments generalizing realloc state bytes with
  | nil =>
    have hend := receiveError_of_received h errorReceiveFailed state.response.header
    rw [receiveLoop, hend]
    simp [loopCopies]
  | cons segment segments ih =>
    rw [loopCopies]
    cases hcopy : messageCopy (realloc 0) state segment with
    | none =>
      obtain ⟨rvalue, final, hresult, -⟩ := receiveMessage_of_not_copy h hcopy
      rw [receiveLoop_of_result hresult, hresult]
      simp
    | some copy =>
      cases hslice : slice copy.buffer.bytes headerSize copy.size with
      | none =>
        have hnone : receiveMessage (realloc 0) state segment = none :=
          (receiveMessage_eq_none_iff h).mpr ⟨copy, hcopy, hslice⟩
        rw [receiveLoop, hnone]
        simp [hslice]
      | some copied =>
        rcases receiveMessage_of_copy h hcopy hslice with ⟨next, hnext, hreceived⟩ | ⟨final, hfinal⟩
        · rw [receiveLoop_of_next hnext, hnext, ih hreceived]
          simp [hslice]
        · rw [receiveLoop_of_result hfinal, hfinal]
          simp [hslice]

/-- A payload that the loop returns is what it copied, in order. -/
theorem payload_of_loopCopies {realloc : ℕ → ℕ → Bool} {state : ReceiveState}
    {bytes : List UInt8} (h : state.Received bytes) {segments : List Segment}
    {response : Response} (hloop : receiveLoop realloc state segments = some (statusOk, response)) :
    ∃ copied : List (List UInt8),
      (loopCopies realloc state segments).map
        (fun copy => slice copy.buffer.bytes headerSize copy.size) = copied.map some ∧
      response.payload = .block (bytes ++ copied.flatten) := by
  induction segments generalizing realloc state bytes with
  | nil =>
    have hend := receiveError_of_received h errorReceiveFailed state.response.header
    rw [receiveLoop, hend] at hloop
    cases hloop
  | cons segment segments ih =>
    rw [loopCopies]
    cases hcopy : messageCopy (realloc 0) state segment with
    | none =>
      obtain ⟨rvalue, final, hresult, hne⟩ := receiveMessage_of_not_copy h hcopy
      rw [receiveLoop_of_result hresult] at hloop
      exact absurd (Prod.mk.inj (Option.some.inj hloop)).1 hne
    | some copy =>
      cases hslice : slice copy.buffer.bytes headerSize copy.size with
      | none =>
        have hnone : receiveMessage (realloc 0) state segment = none :=
          (receiveMessage_eq_none_iff h).mpr ⟨copy, hcopy, hslice⟩
        rw [receiveLoop, hnone] at hloop
        cases hloop
      | some copied =>
        rcases receiveMessage_of_copy h hcopy hslice with ⟨next, hnext, hreceived⟩ | ⟨final, hfinal⟩
        · rw [receiveLoop_of_next hnext] at hloop
          obtain ⟨later, hlater, hpayload⟩ := ih hreceived hloop
          refine ⟨copied :: later, ?_, ?_⟩
          · rw [hnext, List.map_append, hlater]
            simp [hslice]
          · rw [hpayload, List.flatten_cons, List.append_assoc]
        · rw [receiveLoop_of_result hfinal] at hloop
          cases hloop
          refine ⟨[copied], ?_, ?_⟩
          · rw [hfinal]
            simp [hslice]
          · rw [List.flatten_singleton]

/-- A copy of a header's payload, from a buffer that starts with what `recv` stored. -/
def Copy.WellFormed (copy : Copy) : Prop :=
  ∃ (buffer : ReceiveBuffer) (header : Header) (rest : List UInt8),
    copy.buffer = buffer.receive copy.segment ∧
    copy.segment.bytes = encodeHeader header ++ rest ∧ copy.size = header.payloadSize.toNat

theorem Copy.WellFormed.accepted_iff {copy : Copy} (h : copy.WellFormed) :
    copy.Accepted ↔ copy.Received := by
  obtain ⟨buffer, header, rest, hbuffer, hsegment, hsize⟩ := h
  have hlen := congrArg List.length hsegment
  rw [List.length_append, length_encodeHeader] at hlen
  unfold Accepted Received
  rw [hbuffer, hsize]
  constructor
  · intro haccepted
    obtain ⟨parsed, hparsed⟩ := haccepted { header := .init, payload := .null }
    rw [parseMessage_receive true buffer hsegment] at hparsed
    by_contra hcut
    have hzero : header.payloadSize.toNat ≠ 0 := by omega
    rw [if_neg hzero, if_pos (not_le.mp hcut)] at hparsed
    cases hparsed
  · intro hreceived response
    rw [parseMessage_receive true buffer hsegment, if_neg hreceived.not_gt, if_pos rfl]
    split
    · exact ⟨_, rfl⟩
    · exact ⟨_, rfl⟩

theorem wellFormed_of_mem_loopCopies {realloc : ℕ → ℕ → Bool} {state : ReceiveState}
    {segments : List Segment} {copy : Copy} (h : copy ∈ loopCopies realloc state segments) :
    copy.WellFormed := by
  induction segments generalizing realloc state with
  | nil => cases h
  | cons segment segments ih =>
    rw [loopCopies, List.mem_append] at h
    rcases h with h | h
    · rcases lt_or_ge segment.bytes.length headerSize with hshort | hlen
      · rw [messageCopy_of_lt hshort] at h
        cases h
      obtain ⟨header, rest, hsegment⟩ := exists_decodeHeader hlen
      rw [messageCopy, extractHeader_receive state.buffer hsegment] at h
      dsimp only at h
      split at h
      · rw [Option.toList_some, List.mem_singleton] at h
        subst h
        exact ⟨state.buffer, header, rest, rfl, hsegment, rfl⟩
      · cases h
    · split at h
      · exact ih h
      · cases h

theorem copies_received_of_state {realloc : ℕ → ℕ → Bool} {state : ReceiveState}
    {bytes : List UInt8} (h : state.Received bytes) (segments : List Segment) :
    (∀ copy ∈ loopCopies realloc state segments, copy.Received) ↔
      ChunksWhole realloc bytes.length segments := by
  induction segments generalizing realloc state bytes with
  | nil => exact iff_of_true nofun trivial
  | cons segment segments ih =>
    rw [loopCopies, ChunksWhole]
    rcases lt_or_ge segment.bytes.length headerSize with hshort | hlen
    · have hstep : receiveMessage (realloc 0) state segment = _ := receiveMessage_of_lt h hshort
      rw [messageCopy_of_lt hshort, hstep, decodeHeader_of_lt hshort]
      exact iff_of_true nofun trivial
    obtain ⟨header, rest, hsegment⟩ := exists_decodeHeader hlen
    have hlength := congrArg List.length hsegment
    rw [List.length_append, length_encodeHeader] at hlength
    have hdecode : decodeHeader segment.bytes = some (header, rest) := by
      rw [hsegment, decodeHeader_encodeHeader_append]
    have hcopy : messageCopy (realloc 0) state segment = _ := messageCopy_of_header h hsegment
    rw [hdecode]
    dsimp only
    by_cases hcopies : (header.messageType = messageResponseChunk ∨
        header.messageType = messageResponseLastChunk) ∧
        realloc 0 (bytes.length + header.payloadSize.toNat) = true
    swap
    · -- Without a copy the loop ends, and whatever comes later is not copied either.
      rw [if_neg hcopies] at hcopy
      obtain ⟨rvalue, final, hresult, -⟩ := receiveMessage_of_not_copy h hcopy
      rw [hcopy, hresult]
      exact iff_of_true nofun fun htype hrealloc => absurd ⟨htype, hrealloc⟩ hcopies
    rw [if_pos hcopies] at hcopy
    -- The copy of this iteration, and those of the loop behind it.
    rw [hcopy, List.forall_mem_append, Option.toList_some, List.forall_mem_singleton,
      Copy.Received, hlength, Nat.add_le_add_iff_left, forall_prop_of_true hcopies.1,
      forall_prop_of_true hcopies.2]
    apply and_congr_right
    intro hfits
    have hslice := slice_of_le state.buffer hsegment hfits
    rcases hcopies.1 with hchunk | hlast
    · obtain ⟨next, hnext, hreceived, -⟩ :=
        receiveMessage_of_slice h hsegment hchunk hcopies.2 hslice
      have htotal : (bytes ++ rest.take header.payloadSize.toNat).length =
          bytes.length + header.payloadSize.toNat := by
        rw [List.length_append, List.length_take_of_le hfits]
      rw [hnext, forall_prop_of_true hchunk, ← htotal]
      exact ih hreceived
    · have hstep : receiveMessage (realloc 0) state segment = _ :=
        receiveMessage_of_header h hsegment
      have hchunk : header.messageType ≠ messageResponseChunk := by
        rw [hlast]
        decide
      rw [if_pos (.inr hlast), if_pos hcopies.2, hslice, Option.map_some, if_pos hlast] at hstep
      rw [hstep]
      exact iff_of_true nofun fun h => absurd h hchunk

/-- **Copied bytes.** The loop copies only bytes that were received if and only if every chunk that
it gets to brings the payload that its header announces, and if and only if `parse_message` accepts
every message of which it copies the payload. -/
theorem copies_received_iff (realloc : ℕ → ℕ → Bool) (buffer : ReceiveBuffer)
    (segments : List Segment) (response : Response) :
    ((∀ copy ∈ loopCopies realloc (.start buffer response) segments, copy.Received) ↔
      ChunksWhole realloc 0 segments) ∧
    ((∀ copy ∈ loopCopies realloc (.start buffer response) segments, copy.Received) ↔
      ∀ copy ∈ loopCopies realloc (.start buffer response) segments, copy.Accepted) := by
  constructor
  · exact copies_received_of_state (received_start buffer response) segments
  · apply forall₂_congr
    intro copy hcopy
    exact (wellFormed_of_mem_loopCopies hcopy).accepted_iff.symm

/-- A last chunk of three bytes of which one arrives: three are copied. -/
theorem lastChunk_copies_unreceived :
    (loopCopies (fun _ _ => true)
        (.start ⟨List.replicate maxMessageSize 0, List.length_replicate⟩
          { header := .init, payload := .null })
        [⟨[4, 1, 0, 0, 0, 3, 0, 0, 0, 0, 0, 65], by decide, by decide⟩]).map
      (fun copy => (copy.size, copy.segment.bytes.length)) = [(3, 12)] ∧
    ¬∀ copy ∈ loopCopies (fun _ _ => true)
        (.start ⟨List.replicate maxMessageSize 0, List.length_replicate⟩
          { header := .init, payload := .null })
        [⟨[4, 1, 0, 0, 0, 3, 0, 0, 0, 0, 0, 65], by decide, by decide⟩], copy.Received := by
  have hsizes : (loopCopies (fun _ _ => true)
      (.start ⟨List.replicate maxMessageSize 0, List.length_replicate⟩
        { header := .init, payload := .null })
      [⟨[4, 1, 0, 0, 0, 3, 0, 0, 0, 0, 0, 65], by decide, by decide⟩]).map
      (fun copy => (copy.size, copy.segment.bytes.length)) = [(3, 12)] := by
    decide +kernel
  refine ⟨hsizes, ?_⟩
  intro hreceived
  obtain ⟨copy, hcopies, hcopy⟩ := List.map_eq_singleton_iff.mp hsizes
  rw [hcopies] at hreceived
  have hle := hreceived copy List.mem_cons_self
  rw [Prod.mk.injEq] at hcopy
  rw [Copy.Received, hcopy.1, hcopy.2] at hle
  exact absurd hle (by decide)

end CExamples.ClientServer

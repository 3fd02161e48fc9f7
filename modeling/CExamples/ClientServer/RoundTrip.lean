import CExamples.ClientServer.Codec

/-!
# Round trips through the message format

`createMessage_parseMessage` encodes and then decodes, with arbitrary bytes after the message;
`parseMessage_createMessage` decodes and then encodes, over everything a `recv` can deliver.
-/

namespace CExamples.ClientServer

open C

/-- The payload size in the header that the data begins with. -/
def announcedSize (data : List UInt8) : ℕ :=
  ofBigEndian ((data.drop headerOffsetPayloadSize).take 4)

theorem announcedSize_encodeHeader_append (header : Header) (rest : List UInt8) :
    announcedSize (encodeHeader header ++ rest) = header.payloadSize.toNat := by
  have hwire : ((encodeHeader header ++ rest).drop headerOffsetPayloadSize).take 4 =
      toWire header.payloadSize := by
    simp [encodeHeader, headerOffsetPayloadSize]
  rw [announcedSize, hwire, toWire, ofBigEndian_bigEndian]
  exact header.payloadSize.toNat_lt

/-- Input that can be received holds a frame exactly when it is as long as its header says. -/
theorem exists_decode_iff {data : List UInt8} (hle : data.length ≤ maxMessageSize) :
    (∃ frame rest, Frame.decode data = some (frame, rest)) ↔
      headerSize ≤ data.length ∧ headerSize + announcedSize data ≤ data.length := by
  constructor
  · rintro ⟨frame, rest, h⟩
    have hlen := frame.length_payload
    rw [Frame.eq_append_of_decode h, Frame.encode, List.append_assoc,
      announcedSize_encodeHeader_append, List.length_append, List.length_append,
      length_encodeHeader]
    omega
  · rintro ⟨hheader, hfits⟩
    obtain ⟨header, rest, rfl⟩ := exists_decodeHeader hheader
    rw [announcedSize_encodeHeader_append] at hfits
    cases hdecode : Frame.decode (encodeHeader header ++ rest) with
    | some p => exact ⟨p.1, p.2, rfl⟩
    | none =>
      have hshort := Frame.lt_of_decode_eq_none hdecode
      rw [List.length_append, length_encodeHeader] at hfits hle
      simp only [maxMessageSize] at hle
      omega

theorem Frame.take_of_decode {data rest : List UInt8} {frame : Frame}
    (h : Frame.decode data = some (frame, rest)) :
    data.take (headerSize + announcedSize data) = frame.encode := by
  have hlen := frame.length_payload
  rw [Frame.eq_append_of_decode h]
  apply List.take_left'
  rw [Frame.encode, List.append_assoc, announcedSize_encodeHeader_append, List.length_append,
    length_encodeHeader, hlen]

/-- **Encoding, then decoding.** A header with its payload makes a message of their size, and
parsing it, whatever follows it, gives both back. -/
theorem createMessage_parseMessage {header : Header} {payload : List UInt8}
    (hlen : payload.length = header.payloadSize.toNat)
    (hle : header.payloadSize.toNat ≤ maxPayloadSize) {pointer : Ptr}
    (hpointer : PointsTo pointer payload) (junk : ℕ → UInt8) (message : Message) :
    ∃ created bytes,
      createMessage (some junk) header pointer message = some (statusOk, created) ∧
      created.data = .block bytes ∧ created.size.toNat = bytes.length ∧
      bytes.length = headerSize + header.payloadSize.toNat ∧
      ∀ (rest : List UInt8) (response : Response), (bytes ++ rest).length < 2 ^ 32 →
        parseMessage true (bytes ++ rest) (UInt32.ofNat (bytes ++ rest).length) response =
          some (statusOk, { header, payload := payloadPtr payload }) := by
  let frame : Frame := ⟨header, payload, hlen, hlen ▸ hle⟩
  have hbytes : frame.encode.length = headerSize + header.payloadSize.toNat := by
    rw [Frame.length_encode, hlen]
  refine ⟨frame.message, frame.encode, createMessage_of_pointsTo junk frame hpointer message, rfl,
    frame.toNat_message_size, hbytes, ?_⟩
  · intro rest response hlt
    exact parseMessage_of_decode (Frame.decode_encode_append frame rest) hlt response

theorem createMessage_parseMessage_three :
    ∃ created bytes,
      createMessage (some fun _ => 0)
          { messageType := 3, command := 1, payloadSize := 3, chunkIndex := 258, status := 0 }
          (.block [7, 0, 9]) .uninitialized = some (statusOk, created) ∧
      created.data = .block bytes ∧ created.size.toNat = bytes.length ∧ bytes.length = 11 + 3 ∧
      ∀ (rest : List UInt8) (response : Response), (bytes ++ rest).length < 2 ^ 32 →
        parseMessage true (bytes ++ rest) (UInt32.ofNat (bytes ++ rest).length) response =
          some (statusOk,
            { header :=
                { messageType := 3, command := 1, payloadSize := 3, chunkIndex := 258, status := 0 }
              payload := .block [7, 0, 9] }) :=
  createMessage_parseMessage (show ([7, 0, 9] : List UInt8).length = _ from rfl) (by decide)
    (.inr ⟨[], rfl⟩) _ _

/-- **Decoding, then encoding.** Of what a `recv` can deliver, `parse_message` accepts exactly the
data that is as long as its header says, what it accepts is created again byte for byte, and every
proper prefix of a created message is rejected for its size. -/
theorem parseMessage_createMessage :
    (∀ (data : List UInt8) (response : Response), data.length ≤ maxMessageSize →
      ((∃ r, parseMessage true data (UInt32.ofNat data.length) response = some (statusOk, r)) ↔
        headerSize ≤ data.length ∧ headerSize + announcedSize data ≤ data.length) ∧
      ∀ r, parseMessage true data (UInt32.ofNat data.length) response = some (statusOk, r) →
        ∀ (junk : ℕ → UInt8) (message : Message), ∃ created,
          createMessage (some junk) r.header r.payload message = some (statusOk, created) ∧
          created.data = .block (data.take (headerSize + announcedSize data)) ∧
          created.size.toNat = headerSize + announcedSize data) ∧
    ∀ (malloc : Option (ℕ → UInt8)) (header : Header) (pointer : Ptr) (message created : Message)
      (part rest : List UInt8) (response : Response),
      createMessage malloc header pointer message = some (statusOk, created) →
      created.data = .block (part ++ rest) → rest ≠ [] →
      ∃ r, parseMessage true part (UInt32.ofNat part.length) response =
        some (errorInvalidDataSize, r) := by
  constructor
  · intro data response hle
    constructor
    · rw [← exists_decode_iff hle]
      constructor
      · rintro ⟨r, h⟩
        obtain ⟨frame, rest, hdecode, -⟩ := (parseMessage_eq_statusOk_iff hle response r).mp h
        exact ⟨frame, rest, hdecode⟩
      · rintro ⟨frame, rest, hdecode⟩
        exact ⟨_, (parseMessage_eq_statusOk_iff hle response _).mpr ⟨frame, rest, hdecode, rfl⟩⟩
    · intro r h junk message
      obtain ⟨frame, rest, hdecode, rfl⟩ := (parseMessage_eq_statusOk_iff hle response r).mp h
      have hlen := frame.length_payload
      have htake := Frame.take_of_decode hdecode
      have hsize : announcedSize data = frame.payload.length := by
        rw [Frame.eq_append_of_decode hdecode, Frame.encode, List.append_assoc,
          announcedSize_encodeHeader_append, hlen]
      refine ⟨frame.message, createMessage_of_pointsTo junk frame (pointsTo_payloadPtr _) message,
        ?_, ?_⟩
      · rw [htake]
        rfl
      · rw [hsize, frame.toNat_message_size, Frame.length_encode]
  · intro malloc header pointer message created part rest response h hdata hrest
    obtain ⟨frame, -, hframe⟩ := exists_frame_of_createMessage h
    rw [hframe, Ptr.block.injEq] at hdata
    have hnone := Frame.code.decode_eq_none_of_prefix hdata hrest
    -- A proper prefix is shorter than the message, so it could have been received.
    have hle : part.length ≤ maxMessageSize := by
      have hlen := congrArg List.length hdata
      have hmax := frame.payload_le
      rw [Frame.encode, List.length_append, List.length_append, length_encodeHeader] at hlen
      simp only [maxMessageSize]
      omega
    exact parseMessage_of_decode_eq_none hnone hle true response

theorem parseMessage_createMessage_twelve :
    (∃ created,
      createMessage (some fun _ => 0)
          { messageType := 2, command := 1, payloadSize := 1, chunkIndex := 0, status := 0 }
          (.block [65]) .uninitialized = some (statusOk, created) ∧
      created.data = .block [2, 1, 0, 0, 0, 1, 0, 0, 0, 0, 0, 65] ∧ created.size.toNat = 12) ∧
    ∃ r, parseMessage true [2, 1, 0, 0, 0, 1, 0, 0, 0, 0, 0] 11
        { header := .init, payload := .null } = some (errorInvalidDataSize, r) := by
  have hcreated := (parseMessage_createMessage.1 [2, 1, 0, 0, 0, 1, 0, 0, 0, 0, 0, 65]
    { header := .init, payload := .null } (by decide)).2 _ rfl (fun _ => 0) .uninitialized
  refine ⟨hcreated, ?_⟩
  exact parseMessage_createMessage.2 (some fun _ => 0) _ (.block [65]) .uninitialized _
    [2, 1, 0, 0, 0, 1, 0, 0, 0, 0, 0] [65] { header := .init, payload := .null }
    hcreated.choose_spec.1 hcreated.choose_spec.2.1 (by decide)

end CExamples.ClientServer

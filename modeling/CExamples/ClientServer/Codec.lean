import CExamples.ClientServer.Protocol
import CExamples.Common.PrefixCode

/-!
# The messages as a self-delimiting code

A `Frame` is a header with the payload it announces, of at most `MAX_PAYLOAD_SIZE` bytes. Its word
is the header's eleven bytes followed by the payload, and `Frame.code` shows that these words
delimit themselves. `createMessage` writes exactly the words of frames (`createMessage_of_pointsTo`,
`exists_frame_of_createMessage`) and `parseMessage` reads one from the front of its input
(`parseMessage_of_decode`, `parseMessage_of_decode_eq_none`), so both directions of the round trip
come from the laws of the code.
-/

namespace CExamples.ClientServer

open C

/-- The `uint32_t` size of anything that fits in a message. -/
theorem toNat_dataSize {data : List UInt8} (h : data.length ≤ maxMessageSize) :
    (UInt32.ofNat data.length).toNat = data.length := by
  apply UInt32.toNat_ofNat_of_lt'
  simp only [maxMessageSize, headerSize, maxPayloadSize, UInt32.size] at h ⊢
  omega

/-! ## Headers -/

def encodeHeader (header : Header) : List UInt8 :=
  header.messageType :: header.command ::
    (toWire header.payloadSize ++ toWire header.chunkIndex ++ [header.status])

def decodeHeader : List UInt8 → Option (Header × List UInt8)
  | messageType :: command :: p₀ :: p₁ :: p₂ :: p₃ :: i₀ :: i₁ :: i₂ :: i₃ :: status :: rest =>
    some
      ({ messageType
         command
         payloadSize := ofWire [p₀, p₁, p₂, p₃]
         chunkIndex := ofWire [i₀, i₁, i₂, i₃]
         status }, rest)
  | _ => none

@[simp] theorem length_encodeHeader (header : Header) :
    (encodeHeader header).length = headerSize := by
  simp [encodeHeader, headerSize]

theorem exists_toWire (v : UInt32) :
    ∃ a b c d, toWire v = [a, b, c, d] ∧ ofWire [a, b, c, d] = v := by
  have h := List.eq_getElem_of_length_eq_four _ (length_toWire v)
  refine ⟨_, _, _, _, h, ?_⟩
  rw [← h, ofWire_toWire]

theorem decodeHeader_encodeHeader_append (header : Header) (rest : List UInt8) :
    decodeHeader (encodeHeader header ++ rest) = some (header, rest) := by
  obtain ⟨p₀, p₁, p₂, p₃, hp, hp'⟩ := exists_toWire header.payloadSize
  obtain ⟨i₀, i₁, i₂, i₃, hi, hi'⟩ := exists_toWire header.chunkIndex
  rw [encodeHeader, hp, hi]
  simp only [List.cons_append, List.nil_append, decodeHeader, hp', hi']

theorem eq_append_of_decodeHeader {word rest : List UInt8} {header : Header}
    (h : decodeHeader word = some (header, rest)) : word = encodeHeader header ++ rest := by
  unfold decodeHeader at h
  split at h
  · cases h
    simp [encodeHeader, toWire_ofWire]
  · cases h

theorem exists_decodeHeader {word : List UInt8} (h : headerSize ≤ word.length) :
    ∃ header rest, word = encodeHeader header ++ rest := by
  match word, h with
  | t :: c :: p₀ :: p₁ :: p₂ :: p₃ :: i₀ :: i₁ :: i₂ :: i₃ :: s :: rest, _ =>
    exact ⟨_, rest, eq_append_of_decodeHeader rfl⟩

/-- The headers alone. -/
def headerCode : PrefixCode Header UInt8 where
  encode := encodeHeader
  decode := decodeHeader
  decode_encode_append := decodeHeader_encodeHeader_append
  eq_append_of_decode := eq_append_of_decodeHeader

/-! ## Frames -/

structure Frame where
  header : Header
  payload : List UInt8
  length_payload : payload.length = header.payloadSize.toNat
  payload_le : payload.length ≤ maxPayloadSize
deriving DecidableEq

namespace Frame

def encode (frame : Frame) : List UInt8 :=
  encodeHeader frame.header ++ frame.payload

def decode (word : List UInt8) : Option (Frame × List UInt8) :=
  match decodeHeader word with
  | none => none
  | some (header, rest) =>
    if h : header.payloadSize.toNat ≤ rest.length ∧ header.payloadSize.toNat ≤ maxPayloadSize then
      some
        ({ header
           payload := rest.take header.payloadSize.toNat
           length_payload := List.length_take_of_le h.1
           payload_le := (List.length_take_le _ _).trans h.2 },
          rest.drop header.payloadSize.toNat)
    else none

theorem decode_encode_append (frame : Frame) (rest : List UInt8) :
    decode (frame.encode ++ rest) = some (frame, rest) := by
  have hlen := frame.length_payload
  have hle := frame.payload_le
  have hbounds : frame.header.payloadSize.toNat ≤ (frame.payload ++ rest).length ∧
      frame.header.payloadSize.toNat ≤ maxPayloadSize := by
    rw [List.length_append]
    omega
  rw [decode, encode, List.append_assoc, decodeHeader_encodeHeader_append]
  simp only
  rw [dif_pos hbounds]
  simp [← hlen]

theorem eq_append_of_decode {word : List UInt8} {frame : Frame} {rest : List UInt8}
    (h : decode word = some (frame, rest)) : word = frame.encode ++ rest := by
  unfold decode at h
  split at h
  · cases h
  · rename_i header tail hheader
    split at h
    · cases h
      rw [eq_append_of_decodeHeader hheader, encode, List.append_assoc, List.take_append_drop]
    · cases h

@[simp] theorem length_encode (frame : Frame) :
    frame.encode.length = headerSize + frame.payload.length := by
  rw [encode, List.length_append, length_encodeHeader]

theorem length_encode_le (frame : Frame) : frame.encode.length ≤ maxMessageSize := by
  rw [length_encode, maxMessageSize]
  exact Nat.add_le_add_left frame.payload_le _

def code : PrefixCode Frame UInt8 where
  encode := encode
  decode := decode
  decode_encode_append := decode_encode_append
  eq_append_of_decode := eq_append_of_decode

end Frame

/-! ## Writing -/

/-- The value of `message.size` for a header: the addition does not wrap. -/
theorem toNat_messageSize {header : Header} (h : header.payloadSize.toNat ≤ maxPayloadSize) :
    (UInt32.ofNat (headerSize + header.payloadSize.toNat)).toNat =
      headerSize + header.payloadSize.toNat := by
  rw [UInt32.toNat_ofNat']
  simp only [headerSize, maxPayloadSize] at h ⊢
  omega

/-- The assignments of the header's fields, at their offsets in the message. -/
theorem overwrite_header (header : Header) {data : List UInt8} (h : headerSize ≤ data.length) :
    (do
      let data ← overwrite data headerOffsetMessageType [header.messageType]
      let data ← overwrite data headerOffsetCommand [header.command]
      let data ← overwrite data headerOffsetPayloadSize (storeWord (htonl header.payloadSize))
      let data ← overwrite data headerOffsetChunkIndex (storeWord (htonl header.chunkIndex))
      overwrite data headerOffsetStatus [header.status]) =
      some (encodeHeader header ++ data.drop headerSize) := by
  obtain ⟨t, c, p, i, s⟩ := header
  simp only [headerSize] at h
  have h₁ : overwrite ([] ++ data.drop 0) 0 [t] = some ([t] ++ data.drop 1) :=
    overwrite_append_drop rfl rfl (by omega)
  have h₂ : overwrite ([t] ++ data.drop 1) 1 [c] = some ([t] ++ [c] ++ data.drop 2) :=
    overwrite_append_drop rfl rfl (by omega)
  have h₃ : overwrite ([t] ++ [c] ++ data.drop 2) 2 (toWire p) =
      some ([t] ++ [c] ++ toWire p ++ data.drop 6) :=
    overwrite_append_drop rfl rfl (by omega)
  have h₄ : overwrite ([t] ++ [c] ++ toWire p ++ data.drop 6) 6 (toWire i) =
      some ([t] ++ [c] ++ toWire p ++ toWire i ++ data.drop 10) :=
    overwrite_append_drop rfl rfl (by omega)
  have h₅ : overwrite ([t] ++ [c] ++ toWire p ++ toWire i ++ data.drop 10) 10 [s] =
      some ([t] ++ [c] ++ toWire p ++ toWire i ++ [s] ++ data.drop 11) :=
    overwrite_append_drop rfl rfl (by omega)
  rw [List.nil_append, List.drop_zero] at h₁
  simp only [headerOffsetMessageType, headerOffsetCommand, headerOffsetPayloadSize,
    headerOffsetChunkIndex, headerOffsetStatus, storeWord_htonl, Option.bind_eq_bind, h₁, h₂, h₃,
    h₄, h₅, Option.bind_some]
  simp [encodeHeader, headerSize]

/-! What the callers of `create_message` check. -/

theorem not_statusOk_ne : ¬statusOk ≠ statusOk :=
  not_not.mpr rfl

theorem errorMemoryAllocationFailed_ne : errorMemoryAllocationFailed ≠ statusOk := by
  decide

/-- `create_message` once `malloc` has succeeded: the header, then the bytes behind `payload`, or
what `malloc` left there if nothing is copied. -/
theorem createMessage_some (junk : ℕ → UInt8) {header : Header}
    (hle : header.payloadSize.toNat ≤ maxPayloadSize) (payload : Ptr) (message : Message) :
    createMessage (some junk) header payload message =
      (if 0 < header.payloadSize.toNat ∧ payload ≠ .null then payload.read header.payloadSize.toNat
        else some ((List.range header.payloadSize.toNat).map fun i => junk (headerSize + i))).map
          fun body =>
        (statusOk,
          { data := .block (encodeHeader header ++ body)
            size := UInt32.ofNat (headerSize + header.payloadSize.toNat) }) := by
  have hsize := toNat_messageSize hle
  have hlen : headerSize ≤
      ((List.range (headerSize + header.payloadSize.toNat)).map junk).length := by
    simp
  have hheader := overwrite_header header hlen
  rw [createMessage, if_neg (by omega)]
  simp only [hsize, UInt32.lt_iff_toNat_lt, UInt32.toNat_zero]
  simp only [← bind_assoc] at hheader ⊢
  rw [hheader]
  have hjunk : ((List.range (headerSize + header.payloadSize.toNat)).map junk).drop headerSize =
      (List.range header.payloadSize.toNat).map fun i => junk (headerSize + i) := by
    rw [List.range_add]
    simp [Function.comp_def]
  rw [hjunk]
  split
  · cases hread : payload.read header.payloadSize.toNat with
    | none => rfl
    | some body =>
      have hlen := Ptr.length_of_read hread
      have hbody : ∀ tail : List UInt8, tail.length = body.length →
          overwrite (encodeHeader header ++ tail) headerSize body =
            some (encodeHeader header ++ body) := by
        intro tail htail
        simp [overwrite, htail]
      simp [hbody, hlen]
  · rfl

theorem createMessage_none {header : Header} (hle : header.payloadSize.toNat ≤ maxPayloadSize)
    (payload : Ptr) (message : Message) :
    createMessage none header payload message =
      some (errorMemoryAllocationFailed,
        { data := .null, size := UInt32.ofNat (headerSize + header.payloadSize.toNat) }) := by
  rw [createMessage, if_neg hle.not_gt]

/-- A message that `create_message` succeeds in building is a header, of a payload that fits, and as
many bytes as it announces. -/
theorem exists_body_of_createMessage {malloc : Option (ℕ → UInt8)} {header : Header} {payload : Ptr}
    {message created : Message}
    (h : createMessage malloc header payload message = some (statusOk, created)) :
    ∃ body : List UInt8, body.length = header.payloadSize.toNat ∧
      header.payloadSize.toNat ≤ maxPayloadSize ∧
      created.data = .block (encodeHeader header ++ body) := by
  by_cases hle : header.payloadSize.toNat ≤ maxPayloadSize
  swap
  · rw [createMessage, if_pos (by omega)] at h
    cases h
  cases malloc with
  | none =>
    rw [createMessage_none hle] at h
    cases h
  | some junk =>
    rw [createMessage_some junk hle, Option.map_eq_some_iff] at h
    obtain ⟨body, hbody, hcreated⟩ := h
    cases hcreated
    refine ⟨body, ?_, hle, rfl⟩
    split at hbody
    · exact Ptr.length_of_read hbody
    · cases hbody
      simp

/-- The pointer leads to the bytes; where there are none, any pointer does. -/
def PointsTo (pointer : Ptr) (bytes : List UInt8) : Prop :=
  bytes = [] ∨ ∃ rest, pointer = .block (bytes ++ rest)

/-- The message that carries a frame. -/
def Frame.message (frame : Frame) : Message where
  data := .block frame.encode
  size := UInt32.ofNat frame.encode.length

@[simp] theorem Frame.toNat_message_size (frame : Frame) :
    frame.message.size.toNat = frame.encode.length :=
  toNat_dataSize frame.length_encode_le

theorem createMessage_of_pointsTo (junk : ℕ → UInt8) (frame : Frame) {pointer : Ptr}
    (h : PointsTo pointer frame.payload) (message : Message) :
    createMessage (some junk) frame.header pointer message = some (statusOk, frame.message) := by
  have hlen := frame.length_payload
  have hle : frame.header.payloadSize.toNat ≤ maxPayloadSize := hlen ▸ frame.payload_le
  rw [createMessage_some junk hle, ← hlen, Frame.message, Frame.length_encode, Frame.encode]
  rcases h with hnil | ⟨rest, rfl⟩
  · simp [hnil]
  · by_cases hpos : 0 < frame.payload.length
    · have hread : (Ptr.block (frame.payload ++ rest)).read frame.payload.length =
          some frame.payload := by
        rw [Ptr.read, slice_eq_some_iff]
        simp
      rw [if_pos ⟨hpos, nofun⟩, hread]
      rfl
    · have hnil : frame.payload = [] := by
        rw [← List.length_eq_zero_iff]
        omega
      simp [hnil]

/-- A message that was created is the word of a frame. -/
theorem exists_frame_of_createMessage {malloc : Option (ℕ → UInt8)} {header : Header}
    {pointer : Ptr} {message created : Message}
    (h : createMessage malloc header pointer message = some (statusOk, created)) :
    ∃ frame : Frame, frame.header = header ∧ created.data = .block frame.encode := by
  obtain ⟨body, hlen, hle, hdata⟩ := exists_body_of_createMessage h
  exact ⟨⟨header, body, hlen, hlen ▸ hle⟩, rfl, hdata⟩

/-! ## Reading -/

theorem extractHeader_encodeHeader_append (header : Header) (rest : List UInt8) {dataSize : UInt32}
    (h : headerSize ≤ dataSize.toNat) :
    extractHeader (encodeHeader header ++ rest) dataSize = some (.ok header) := by
  obtain ⟨p₀, p₁, p₂, p₃, hp, hp'⟩ := exists_toWire header.payloadSize
  obtain ⟨i₀, i₁, i₂, i₃, hi, hi'⟩ := exists_toWire header.chunkIndex
  have hpayload : ntohl (loadWord [p₀, p₁, p₂, p₃]) = header.payloadSize := by
    rw [ntohl_loadWord rfl, hp']
  have hchunk : ntohl (loadWord [i₀, i₁, i₂, i₃]) = header.chunkIndex := by
    rw [ntohl_loadWord rfl, hi']
  rw [extractHeader, if_neg (by omega), encodeHeader, hp, hi]
  simp [headerOffsetMessageType, headerOffsetCommand, headerOffsetPayloadSize,
    headerOffsetChunkIndex, headerOffsetStatus, slice, hpayload, hchunk]

theorem parseMessage_of_lt (malloc : Bool) (data : List UInt8) {dataSize : UInt32}
    (h : dataSize.toNat < headerSize) (response : Response) :
    parseMessage malloc data dataSize response = some (errorInvalidDataSize, response) := by
  rw [parseMessage, extractHeader, if_pos h]
  rfl

/-- Every outcome of `parse_message` on data that holds a header. -/
theorem parseMessage_encodeHeader_append (malloc : Bool) (header : Header) (rest : List UInt8)
    (dataSize : UInt32) (h : headerSize ≤ dataSize.toNat)
    (hdata : dataSize.toNat ≤ (encodeHeader header ++ rest).length) (response : Response) :
    parseMessage malloc (encodeHeader header ++ rest) dataSize response =
      some (if header.payloadSize.toNat = 0 then (statusOk, { header, payload := .null })
        else if dataSize.toNat < headerSize + header.payloadSize.toNat then
          (errorInvalidDataSize, { response with header })
        else if malloc then
          (statusOk, { header, payload := .block (rest.take header.payloadSize.toNat) })
        else (errorMemoryAllocationFailed, { header, payload := .null })) := by
  rw [parseMessage, extractHeader_encodeHeader_append header rest h]
  simp only [Option.bind_eq_bind, Option.bind_some, Option.pure_def, UInt32.lt_iff_toNat_lt,
    UInt32.toNat_zero]
  rcases Nat.eq_zero_or_pos header.payloadSize.toNat with hzero | hpos
  · rw [hzero]
    rfl
  simp only [if_pos hpos, if_neg hpos.ne']
  rcases lt_or_ge dataSize.toNat (headerSize + header.payloadSize.toNat) with hshort | hfits
  · simp only [if_pos hshort]
  have hslice : slice (encodeHeader header ++ rest) headerSize header.payloadSize.toNat =
      some (rest.take header.payloadSize.toNat) := by
    rw [slice_eq_some_iff, List.drop_left' (length_encodeHeader header)]
    exact ⟨hfits.trans hdata, rfl⟩
  simp only [if_neg hfits.not_gt, hslice, Option.bind_some]
  split <;> rfl

/-- The payload pointer of a parsed message: null for an empty payload. -/
def payloadPtr (payload : List UInt8) : Ptr :=
  if payload = [] then .null else .block payload

theorem pointsTo_payloadPtr (payload : List UInt8) : PointsTo (payloadPtr payload) payload := by
  unfold payloadPtr
  split
  · exact .inl ‹_›
  · exact .inr ⟨[], by rw [List.append_nil]⟩

/-- What a frame is read as. -/
def Frame.response (frame : Frame) : Response where
  header := frame.header
  payload := payloadPtr frame.payload

/-- `parse_message` reads a frame from the front of its input and ignores what follows. -/
theorem parseMessage_of_decode {data rest : List UInt8} {frame : Frame}
    (h : Frame.decode data = some (frame, rest)) (hlt : data.length < 2 ^ 32)
    (response : Response) :
    parseMessage true data (UInt32.ofNat data.length) response =
      some (statusOk, frame.response) := by
  have hsize : (UInt32.ofNat data.length).toNat = data.length := UInt32.toNat_ofNat_of_lt' hlt
  have hdata := Frame.eq_append_of_decode h
  rw [Frame.encode, List.append_assoc] at hdata
  have hlen := congrArg List.length hdata
  have hpayload := frame.length_payload
  rw [List.length_append, List.length_append, length_encodeHeader] at hlen
  have hparse := parseMessage_encodeHeader_append true frame.header (frame.payload ++ rest)
    (UInt32.ofNat data.length) (by omega) (by rw [hsize, hdata]) response
  rw [← hdata, hsize] at hparse
  have hfits : ¬data.length < headerSize + frame.header.payloadSize.toNat := by omega
  rw [hparse, if_neg hfits, Frame.response, payloadPtr, ← hpayload, List.take_left]
  simp only [List.length_eq_zero_iff, if_true]
  split <;> rfl

theorem Frame.lt_of_decode_eq_none {header : Header} {rest : List UInt8}
    (h : Frame.decode (encodeHeader header ++ rest) = none) :
    rest.length < header.payloadSize.toNat ∨ maxPayloadSize < header.payloadSize.toNat := by
  by_contra hfits
  rw [not_or, not_lt, not_lt] at hfits
  rw [Frame.decode, decodeHeader_encodeHeader_append] at h
  simp only [dif_pos hfits, reduceCtorEq] at h

/-- Input that can be received and holds no frame is rejected for its size. -/
theorem parseMessage_of_decode_eq_none {data : List UInt8} (h : Frame.decode data = none)
    (hle : data.length ≤ maxMessageSize) (malloc : Bool) (response : Response) :
    ∃ r, parseMessage malloc data (UInt32.ofNat data.length) response =
      some (errorInvalidDataSize, r) := by
  have hsize := toNat_dataSize hle
  rcases lt_or_ge data.length headerSize with hshort | hheader
  · refine ⟨response, parseMessage_of_lt malloc data ?_ response⟩
    rwa [hsize]
  obtain ⟨header, rest, rfl⟩ := exists_decodeHeader hheader
  have hparse := parseMessage_encodeHeader_append malloc header rest
    (UInt32.ofNat (encodeHeader header ++ rest).length) (by omega) hsize.le response
  -- A payload that fits in what was received also fits in a message.
  have hshort := Frame.lt_of_decode_eq_none h
  rw [List.length_append, length_encodeHeader] at hsize hle
  refine ⟨{ response with header }, ?_⟩
  simp only [maxMessageSize] at hle
  rw [hparse, List.length_append, length_encodeHeader, hsize, if_neg (by omega), if_pos (by omega)]

/-- What is accepted of the input that can be received: the frames at its front. -/
theorem parseMessage_eq_statusOk_iff {data : List UInt8} (hle : data.length ≤ maxMessageSize)
    (response r : Response) :
    parseMessage true data (UInt32.ofNat data.length) response = some (statusOk, r) ↔
      ∃ frame rest, Frame.decode data = some (frame, rest) ∧ r = frame.response := by
  cases hdecode : Frame.decode data with
  | none =>
    obtain ⟨r', hr'⟩ := parseMessage_of_decode_eq_none hdecode hle true response
    rw [hr']
    simp [statusOk, errorInvalidDataSize]
  | some p =>
    have hlt : data.length < 2 ^ 32 := by
      simp only [maxMessageSize, headerSize, maxPayloadSize] at hle
      omega
    rw [parseMessage_of_decode hdecode hlt]
    constructor
    · intro h
      cases h
      exact ⟨p.1, p.2, rfl, rfl⟩
    · rintro ⟨frame, rest, h, rfl⟩
      cases h
      rfl

end CExamples.ClientServer

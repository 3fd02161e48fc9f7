import CExamples.ClientServer.ClientFrames
import CExamples.ClientServer.RoundTrip

/-!
# The server's worker (`client_server/src/server.c`)

`server_worker` parses what its only `recv` returns and passes the payload on as a C string, to
`printf` and through `handle_request` to `snprintf`. Nothing on the way looks for the terminator: it
is there if and only if the peer sent it (`handleRequest_fileName_iff`).
-/

namespace CExamples.ClientServer

open C

/-- `server_worker` once `recv` has returned a segment: the reply, or none to data that cannot be
parsed. -/
def serverWorker (env : ServerEnv) (malloc : Bool) (buffer : ReceiveBuffer) (segment : Segment)
    (response : Response) : Option (Option Reply) := do
  let (rvalue, response) ← parseMessage malloc (buffer.receive segment).bytes
    (UInt32.ofNat segment.bytes.length) response
  if rvalue ≠ statusOk then
    return none
  -- The `%s` of `printf`.
  let _ ← response.payload.toCString
  let reply ← handleRequest env response.header response.payload
  let _ ← destroyResponse response
  return some reply

/-! ## Requests that are accepted -/

/-- The payload of the message in a segment, as long as its header says. -/
def Segment.payload (segment : Segment) : List UInt8 :=
  (segment.bytes.drop headerSize).take (announcedSize segment.bytes)

/-- What `parse_message` accepts of a segment, whatever the buffer held behind it. -/
theorem payload_of_parseMessage {malloc : Bool} {buffer : ReceiveBuffer} {segment : Segment}
    {response request : Response}
    (h : parseMessage malloc (buffer.receive segment).bytes (UInt32.ofNat segment.bytes.length)
      response = some (statusOk, request)) :
    segment.payload.length = request.header.payloadSize.toNat ∧
      request.payload = payloadPtr segment.payload := by
  have hsize := toNat_dataSize segment.length_le
  rcases lt_or_ge segment.bytes.length headerSize with hshort | hlen
  · rw [parseMessage_of_lt malloc _ (by rwa [hsize])] at h
    cases h
  obtain ⟨header, rest, hsegment⟩ := exists_decodeHeader hlen
  have hpayload : segment.payload = rest.take header.payloadSize.toNat := by
    rw [Segment.payload, hsegment, announcedSize_encodeHeader_append,
      List.drop_left' (length_encodeHeader header)]
  rw [parseMessage_receive malloc buffer hsegment, hsegment, List.length_append,
    length_encodeHeader] at h
  have hresult := Option.some.inj h
  rw [hpayload, payloadPtr]
  split at hresult
  · rename_i hzero
    cases hresult
    rw [hzero, List.take_zero]
    exact ⟨rfl, (if_pos rfl).symm⟩
  split at hresult
  · cases hresult
  split at hresult
  · -- A payload that is not empty is copied, and its pointer is not null.
    rename_i hpos hfits _
    cases hresult
    have hlength : (rest.take header.payloadSize.toNat).length = header.payloadSize.toNat :=
      List.length_take_of_le (by omega)
    have hne : rest.take header.payloadSize.toNat ≠ [] := by
      rw [← List.length_pos_iff, hlength]
      omega
    exact ⟨hlength, (if_neg hne).symm⟩
  · cases hresult

/-- The payload pointer leads to as many bytes as the header says, and the C string that starts
there ends among them. -/
def Response.HoldsFileName (request : Response) : Prop :=
  ∃ (bytes : List UInt8) (fileName : CString), request.payload = .block bytes ∧
    bytes.length = request.header.payloadSize.toNat ∧
    request.payload.toCString = some fileName ∧ fileName.memory <+: bytes

section Accepted

variable {malloc : Bool} {buffer : ReceiveBuffer} {segment : Segment} {response request : Response}

/-- The string lies in the payload exactly if its terminator does. -/
theorem holdsFileName_iff_zero_mem
    (h : parseMessage malloc (buffer.receive segment).bytes (UInt32.ofNat segment.bytes.length)
      response = some (statusOk, request)) :
    request.HoldsFileName ↔ 0 ∈ segment.payload := by
  obtain ⟨hlength, hpayload⟩ := payload_of_parseMessage h
  unfold Response.HoldsFileName
  rw [hpayload, payloadPtr]
  split
  · rename_i hnil
    rw [hnil]
    exact iff_of_false (by rintro ⟨_, _, ⟨⟩, _⟩) List.not_mem_nil
  · constructor
    · rintro ⟨bytes, fileName, hbytes, -, hname, -⟩
      cases hbytes
      rw [← CString.read_ne_none_iff]
      intro hnone
      cases hnone.symm.trans hname
    · intro hzero
      obtain ⟨fileName, hname⟩ :=
        Option.ne_none_iff_exists'.mp (CString.read_ne_none_iff.mpr hzero)
      exact ⟨_, fileName, rfl, hlength, hname, CString.memory_prefix_of_read hname⟩

/-- Without the terminator there is no string to read. -/
theorem toCString_of_zero_notMem
    (h : parseMessage malloc (buffer.receive segment).bytes (UInt32.ofNat segment.bytes.length)
      response = some (statusOk, request))
    (hzero : 0 ∉ segment.payload) : request.payload.toCString = none := by
  rw [(payload_of_parseMessage h).2, payloadPtr]
  split
  · rfl
  · exact not_not.mp (mt CString.read_ne_none_iff.mp hzero)

/-- **File names.** Of a request for a file or its metadata that is accepted, `handle_request`
passes on a string that lies in the payload if and only if the payload that the peer sent has a zero
byte. If it has none, the behaviour of `handle_request` and of the worker is undefined. -/
theorem handleRequest_fileName_iff
    (hcommand : request.header.command = commandRequestMetadata ∨
      request.header.command = commandRequestFile)
    (h : parseMessage malloc (buffer.receive segment).bytes (UInt32.ofNat segment.bytes.length)
      response = some (statusOk, request)) :
    (request.HoldsFileName ↔ 0 ∈ segment.payload) ∧
      (0 ∉ segment.payload → ∀ env, handleRequest env request.header request.payload = none ∧
        serverWorker env malloc buffer segment response = none) := by
  refine ⟨holdsFileName_iff_zero_mem h, ?_⟩
  intro hzero env
  have hnone := toCString_of_zero_notMem h hzero
  constructor
  · rcases hcommand with hmetadata | hfile
    · rw [handleRequest_of_metadata hmetadata, hnone, Option.bind_none]
    · rw [handleRequest_of_file hfile, hnone, Option.bind_none]
  · rw [serverWorker, h, Option.bind_eq_bind, Option.bind_some]
    dsimp only
    rw [if_neg not_statusOk_ne, hnone]
    rfl

end Accepted

theorem handleRequest_fileName_oneLetter :
    (⟨⟨1, 2, 2, 0, 255⟩, .block [97, 0]⟩ : Response).HoldsFileName ↔
      0 ∈ (⟨[1, 2, 0, 0, 0, 2, 0, 0, 0, 0, 255, 97, 0], by decide, by decide⟩ :
        Segment).payload := by
  have h : parseMessage true
      ((⟨List.replicate maxMessageSize 0, List.length_replicate⟩ : ReceiveBuffer).receive
        ⟨[1, 2, 0, 0, 0, 2, 0, 0, 0, 0, 255, 97, 0], by decide, by decide⟩).bytes
      13 { header := .init, payload := .indeterminate } =
        some (statusOk, ⟨⟨1, 2, 2, 0, 255⟩, .block [97, 0]⟩) := by
    decide +kernel
  exact (handleRequest_fileName_iff (.inl rfl) h).1

/-- Two requests that are accepted: one without a payload, whose pointer is null, and one whose
payload is a single letter. -/
theorem requests_without_terminator :
    (∃ request : Response,
      parseMessage true
          ((⟨List.replicate maxMessageSize 0, List.length_replicate⟩ : ReceiveBuffer).receive
            ⟨[1, 2, 0, 0, 0, 0, 0, 0, 0, 0, 255], by decide, by decide⟩).bytes
          11 { header := .init, payload := .indeterminate } = some (statusOk, request) ∧
        request.header.command = commandRequestMetadata ∧ request.payload = .null ∧
        ¬request.HoldsFileName) ∧
    ∃ request : Response,
      parseMessage true
          ((⟨List.replicate maxMessageSize 0, List.length_replicate⟩ : ReceiveBuffer).receive
            ⟨[1, 1, 0, 0, 0, 1, 0, 0, 0, 0, 255, 65], by decide, by decide⟩).bytes
          12 { header := .init, payload := .indeterminate } = some (statusOk, request) ∧
        request.header.command = commandRequestFile ∧ request.payload = .block [65] ∧
        ¬request.HoldsFileName := by
  refine ⟨⟨⟨⟨1, 2, 0, 0, 255⟩, .null⟩, by decide +kernel, rfl, rfl, ?_⟩,
    ⟨⟨⟨1, 1, 1, 0, 255⟩, .block [65]⟩, by decide +kernel, rfl, rfl, ?_⟩⟩
  · rintro ⟨_, _, ⟨⟩, _⟩
  · rintro ⟨_, _, -, -, ⟨⟩, -⟩

/-- The request that `_send_request` builds is accepted, and its file name is the one that was
asked for. -/
theorem serverWorker_of_requestFrame {command : UInt8} {fileName : CString}
    (h : fileName.chars.length < maxPayloadSize) {segment : Segment}
    (hsegment : segment.bytes = (requestFrame command fileName h).encode) (env : ServerEnv)
    (buffer : ReceiveBuffer) (response : Response) :
    serverWorker env true buffer segment response =
      (handleRequest env (requestHeader command fileName) (.block fileName.memory)).map some := by
  have hlen := (requestFrame command fileName h).length_payload
  have hheader : (requestFrame command fileName h).header = requestHeader command fileName := rfl
  have hpayload : (requestFrame command fileName h).payload = fileName.memory := rfl
  rw [hpayload, hheader, CString.length_memory] at hlen
  have hzero : (requestHeader command fileName).payloadSize.toNat ≠ 0 := by omega
  have hfits : ¬segment.bytes.length <
      headerSize + (requestHeader command fileName).payloadSize.toNat := by
    rw [hsegment, Frame.length_encode, hpayload, CString.length_memory, hlen]
    exact lt_irrefl _
  have htake : fileName.memory.take (requestHeader command fileName).payloadSize.toNat =
      fileName.memory := List.take_of_length_le (by rw [CString.length_memory, hlen])
  rw [serverWorker, parseMessage_receive true buffer hsegment, hheader, hpayload, if_neg hzero,
    if_neg hfits, if_pos rfl, htake, Option.bind_eq_bind, Option.bind_some]
  dsimp only
  rw [if_neg not_statusOk_ne, Ptr.toCString_memory, Option.map_eq_bind]
  rfl

end CExamples.ClientServer

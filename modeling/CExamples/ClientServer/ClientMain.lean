import CExamples.ClientServer.FailedRequests
import CExamples.ClientServer.ServerWorker
import CExamples.ClientServer.Sockets

/-!
# The client program (`client_server/src/client.c`)

`clientMain` is `main`: its exit code, what it prints and its calls on sockets, or `none` where its
behaviour is undefined. Both commands print a payload with `%s`, so they are defined only if the
payload holds a terminator (`clientMain_defined_iff`). A run that is defined closes its socket
(`clientMain_closesSockets`).
-/

namespace CExamples.ClientServer

open C Trace

/-! ## Texts -/

/-- `isspace` in the C locale. -/
def isSpace (c : UInt8) : Bool :=
  c = 32 ∨ 9 ≤ c ∧ c ≤ 13

def isDigit (c : UInt8) : Bool :=
  48 ≤ c ∧ c ≤ 57

/-- The number that the digits at the front of a text make. -/
def readDigits (text : List UInt8) : ℤ :=
  (text.takeWhile isDigit).foldl (fun n c => 10 * n + (c.toNat - 48)) 0

/-- `atoi`: white space, a sign and digits. A value that is no `int` is undefined behaviour. -/
def atoi (string : CString) : Option ℤ :=
  match string.chars.dropWhile isSpace with
  | [] => some 0
  | sign :: rest =>
    if sign = 45 then checked 32 (-readDigits rest)
    else if sign = 43 then checked 32 (readDigits rest)
    else checked 32 (readDigits (sign :: rest))

/-- `%d` of a `uint32_t`. -/
def unsignedAsInt (n : UInt32) : CString :=
  .ofInt (Int.bmod n.toNat (2 ^ 32))

def usage (program : CString) : CString :=
  .ofLiteral "Usage: " ++ program ++ .ofLiteral " <command> <file_name>\n"

/-- Printed before the connection. -/
def metadataAnnouncement (fileName : CString) : CString :=
  .ofLiteral "\n\nRequesting File Metadata: `" ++ fileName ++ .ofLiteral "`\n"

def contentsAnnouncement (fileName : CString) : CString :=
  .ofLiteral "\n\nRequesting File Contents: `" ++ fileName ++ .ofLiteral "`\n"

/-- Printed after a request that failed. -/
def failureText (subject : CString) (rvalue : ℕ) (status : UInt8) (payload : CString) : CString :=
  .ofLiteral "Error requesting file " ++ subject ++ .ofLiteral ": `" ++ .ofInt rvalue ++
    .ofLiteral "`==`" ++ .ofInt status.toNat ++ .ofLiteral "`?\nError message: " ++ payload ++
    .ofLiteral "\n"

def metadataFailure : ℕ → UInt8 → CString → CString :=
  failureText (.ofLiteral "metadata")

def contentsFailure : ℕ → UInt8 → CString → CString :=
  failureText (.ofLiteral "contents")

/-- Printed after a request that succeeded. -/
def metadataReport (fileName payload : CString) : CString :=
  .ofLiteral "Received metadata for file `" ++ fileName ++ .ofLiteral "` - `" ++ payload ++
    .ofLiteral "`\n\n"

def contentsText (fileName : CString) (payloadSize chunks : UInt32) (payload : CString) :
    CString :=
  .ofLiteral "Payload size: " ++ unsignedAsInt payloadSize ++
    .ofLiteral "\nNumber of chunks: " ++ unsignedAsInt chunks ++
    .ofLiteral "\nReceived contents for file `" ++ fileName ++
    .ofLiteral "`:\nContents:\n------\n" ++ payload ++ .ofLiteral "\n------\n\n"

def contentsReport (fileName : CString) (header : Header) : CString → CString :=
  contentsText fileName header.payloadSize (header.chunkIndex + 1)

/-! ## The program -/

/-- What the system answers while the client runs. -/
structure ClientSystem where
  sockets : SocketSystem
  env : ClientEnv
  buffer : ReceiveBuffer
  /-- The header of the local `Response`, which is not initialised. -/
  header : Header

/-- A system in which nothing fails. -/
def ClientSystem.reliable : ClientSystem where
  sockets :=
    { socket := 3
      setsockopt := 0
      inetPton := 1
      connect := fun _ => .established
      bind := 0
      listen := 0
      accept := 4
      recv := 1 }
  env := .reliable
  buffer := ⟨List.replicate maxMessageSize 1, List.length_replicate⟩
  header := .init

theorem connects_reliable : ClientSystem.reliable.sockets.Connects 3 0 :=
  ⟨by decide, by decide, by decide, rfl, fun _ h => absurd h (Nat.not_lt_zero _)⟩

structure ClientRun where
  exitCode : ℤ
  output : CString
  calls : List SocketCall
deriving DecidableEq, Repr

/-- A case of the `switch`: `failure` and `report` are what it prints of a response and the string
that its payload points to. -/
def runCommand (sys : ClientSystem) (announced : CString)
    (request : Response → Option RequestResult) (failure : ℕ → UInt8 → CString → CString)
    (report : Header → CString → CString) : Option ClientRun := do
  let connection := connectWithRetryOrDie sys.sockets 3 1
  match connection.outcome with
  | .error exitCode => return { exitCode, output := announced, calls := connection.calls }
  | .ok serverSocket =>
    let result ← request { header := sys.header, payload := .indeterminate }
    let calls := connection.calls ++ (socketCleanup serverSocket).calls
    let payload ← result.response.payload.toCString
    if result.rvalue ≠ statusOk then
      let output := announced ++ failure result.rvalue result.response.header.status payload
      return { exitCode := 1, output, calls }
    else
      let output := announced ++ report result.response.header payload
      let _ ← destroyResponse result.response
      return { exitCode := 0, output, calls }

/-- The case of command 0. -/
def metadataCommand (sys : ClientSystem) (fileName : CString) (segments : List Segment) :
    Option ClientRun :=
  runCommand sys (metadataAnnouncement fileName)
    (requestFileMetadata sys.env fileName sys.buffer segments) metadataFailure
    fun _ => metadataReport fileName

/-- The case of command 1. -/
def contentsCommand (sys : ClientSystem) (fileName : CString) (segments : List Segment) :
    Option ClientRun :=
  runCommand sys (contentsAnnouncement fileName)
    (requestFileContents sys.env fileName sys.buffer segments) contentsFailure
    (contentsReport fileName)

/-- `main`, given the segments that its request receives. -/
def clientMain (sys : ClientSystem) (segments : List Segment) :
    List CString → Option ClientRun
  | [_, command, fileName] => do
    let command ← atoi command
    if command = 0 then
      metadataCommand sys fileName segments
    else if command = 1 then
      contentsCommand sys fileName segments
    else
      return { exitCode := 0, output := .ofLiteral "Unknown command\n", calls := [] }
  | program :: _ => some { exitCode := 1, output := usage program, calls := [] }
  -- `printf` is given a null pointer.
  | [] => none

example : atoi (.ofLiteral " -12a") = some (-12) := by
  decide +kernel

/-! ## Runs that connect -/

/-- The calls on sockets of a client whose `n`-th attempt to connect succeeds. -/
def clientCalls (socket : ℤ) (n : ℕ) : List SocketCall :=
  connectCalls socket 1 n ++ [.shutdown socket, .close socket]

/-- What a command does once its request has returned a payload that is a string. -/
def answeredRun (calls : List SocketCall) (announced : CString)
    (failure : ℕ → UInt8 → CString → CString) (report : Header → CString → CString)
    (result : RequestResult) (payload : CString) : ClientRun :=
  if result.rvalue ≠ statusOk then
    { exitCode := 1
      output := announced ++ failure result.rvalue result.response.header.status payload
      calls }
  else
    { exitCode := 0, output := announced ++ report result.response.header payload, calls }

section Connected

variable {sys : ClientSystem} {n : ℕ} {announced : CString}
  {request : Response → Option RequestResult} {failure : ℕ → UInt8 → CString → CString}
  {report : Header → CString → CString}

theorem destroyResponse_of_toCString {response : Response} {payload : CString}
    (h : response.payload.toCString = some payload) :
    destroyResponse response = some { header := .init, payload := .null } := by
  rw [destroyResponse]
  cases hpayload : response.payload with
  | null => rfl
  | block bytes => rfl
  | indeterminate =>
    rw [hpayload] at h
    cases h

theorem runCommand_of_connects (h : sys.sockets.Connects 3 n) :
    runCommand sys announced request failure report =
      (request { header := sys.header, payload := .indeterminate }).bind fun result =>
        result.response.payload.toCString.map
          (answeredRun (clientCalls sys.sockets.socket n) announced failure report result) := by
  have hcleanup : (socketCleanup sys.sockets.socket).calls =
      [.shutdown sys.sockets.socket, .close sys.sockets.socket] := by
    rw [socketCleanup, if_pos h.1]
    rfl
  rw [runCommand, connectWithRetryOrDie_of_connects h]
  dsimp only
  rw [hcleanup, ← clientCalls]
  congr 1
  funext result
  cases hpayload : result.response.payload.toCString with
  | none => rfl
  | some payload =>
    rw [Option.bind_eq_bind, Option.bind_some, Option.map_some, answeredRun,
      destroyResponse_of_toCString hpayload]
    split <;> rfl

theorem clientMain_metadata {command : CString} (hcommand : atoi command = some 0)
    (program fileName : CString) (segments : List Segment) :
    clientMain sys segments [program, command, fileName] =
      metadataCommand sys fileName segments := by
  rw [clientMain, hcommand, Option.bind_eq_bind, Option.bind_some, if_pos rfl]

theorem clientMain_contents {command : CString} (hcommand : atoi command = some 1)
    (program fileName : CString) (segments : List Segment) :
    clientMain sys segments [program, command, fileName] =
      contentsCommand sys fileName segments := by
  rw [clientMain, hcommand, Option.bind_eq_bind, Option.bind_some, if_neg one_ne_zero, if_pos rfl]

end Connected

/-! ## When a command is defined -/

section Defined

variable {sys : ClientSystem} {fileName : CString} {segments : List Segment} {n : ℕ}

/-- The first segment is a message with a terminator in its payload, for which there is memory. -/
def FirstMessageText (env : ClientEnv) (segments : List Segment) : Prop :=
  ∃ segment others, segments = segment :: others ∧
    headerSize + announcedSize segment.bytes ≤ segment.bytes.length ∧
    env.payloadMalloc = true ∧ 0 ∈ segment.payload

theorem toCString_block_ne_none_iff {bytes : List UInt8} :
    (Ptr.block bytes).toCString ≠ none ↔ 0 ∈ bytes :=
  CString.read_ne_none_iff

theorem toCString_indeterminate : ¬Ptr.toCString .indeterminate ≠ none :=
  not_not.mpr rfl

/-- What `parse_message` leaves behind the pointer of a response that was not initialised. -/
theorem exists_parseMessage_segment (malloc : Bool) (buffer : ReceiveBuffer) (segment : Segment)
    (header : Header) :
    ∃ rvalue response, parseMessage malloc (buffer.receive segment).bytes
        (UInt32.ofNat segment.bytes.length) { header, payload := .indeterminate } =
          some (rvalue, response) ∧
      (response.payload.toCString ≠ none ↔
        headerSize + announcedSize segment.bytes ≤ segment.bytes.length ∧ malloc = true ∧
          0 ∈ segment.payload) := by
  rcases lt_or_ge segment.bytes.length headerSize with hshort | hlen
  · have hsize : (UInt32.ofNat segment.bytes.length).toNat < headerSize := by
      rwa [toNat_dataSize segment.length_le]
    exact ⟨_, _, parseMessage_of_lt malloc _ hsize _,
      iff_of_false toCString_indeterminate fun h => by omega⟩
  obtain ⟨announced, rest, hsegment⟩ := exists_decodeHeader hlen
  have hannounced : announcedSize segment.bytes = announced.payloadSize.toNat := by
    rw [hsegment, announcedSize_encodeHeader_append]
  have hpayload : segment.payload = rest.take announced.payloadSize.toNat := by
    rw [Segment.payload, hannounced, hsegment, List.drop_left' (length_encodeHeader announced)]
  have hparse := parseMessage_receive malloc buffer hsegment { header, payload := .indeterminate }
  rw [hannounced, hpayload]
  by_cases hzero : announced.payloadSize.toNat = 0
  · rw [if_pos hzero] at hparse
    refine ⟨_, _, hparse, iff_of_false (not_not.mpr rfl) ?_⟩
    rw [hzero, List.take_zero]
    exact fun h => List.not_mem_nil h.2.2
  rw [if_neg hzero] at hparse
  by_cases hcut : segment.bytes.length < headerSize + announced.payloadSize.toNat
  · rw [if_pos hcut] at hparse
    exact ⟨_, _, hparse, iff_of_false toCString_indeterminate fun h => by omega⟩
  rw [if_neg hcut] at hparse
  cases malloc with
  | false => exact ⟨_, _, hparse, iff_of_false (not_not.mpr rfl) fun h => Bool.noConfusion h.2.1⟩
  | true =>
    refine ⟨_, _, hparse, toCString_block_ne_none_iff.trans ?_⟩
    rw [and_iff_right (not_lt.mp hcut), and_iff_right rfl]

/-- What `request_file_metadata` leaves behind the pointer of a response that was not
initialised. -/
theorem exists_requestFileMetadata (env : ClientEnv) (fileName : CString) (buffer : ReceiveBuffer)
    (segments : List Segment) (header : Header) :
    ∃ result, requestFileMetadata env fileName buffer segments
        { header, payload := .indeterminate } = some result ∧
      (result.response.payload.toCString ≠ none ↔
        RequestSent env commandRequestMetadata fileName ∧ FirstMessageText env segments) := by
  by_cases hrequest : RequestSent env commandRequestMetadata fileName
  swap
  · obtain ⟨rvalue, sent, hsent, hrvalue⟩ := sendRequest_of_not_requestSent hrequest
    exact ⟨_, requestFileMetadata_of_not_sent hsent hrvalue _ _ _,
      iff_of_false toCString_indeterminate fun h => hrequest h.1⟩
  rw [and_iff_right hrequest]
  have hsent := sendRequest_of_requestSent hrequest
  cases segments with
  | nil =>
    refine ⟨_, requestFileMetadata_of_nil hsent _ _, iff_of_false toCString_indeterminate ?_⟩
    rintro ⟨_, _, ⟨⟩, _⟩
  | cons segment others =>
    obtain ⟨rvalue, response, hparse, htext⟩ :=
      exists_parseMessage_segment env.payloadMalloc buffer segment header
    have hresult := requestFileMetadata_of_sent hsent buffer segment others
      { header, payload := .indeterminate }
    rw [hparse, Option.map_some] at hresult
    refine ⟨_, hresult, htext.trans ?_⟩
    constructor
    · intro h
      exact ⟨segment, others, rfl, h⟩
    · rintro ⟨_, _, heq, h⟩
      cases heq
      exact h

/-- What `request_file_contents` leaves behind the pointer of a response that was not
initialised. -/
theorem toCString_of_requestFileContents {env : ClientEnv} {fileName : CString}
    {buffer : ReceiveBuffer} {segments : List Segment} {header : Header} {result : RequestResult}
    (h : requestFileContents env fileName buffer segments { header, payload := .indeterminate } =
      some result)
    (hrvalue : result.rvalue ≠ statusOk) : result.response.payload.toCString = none := by
  by_cases hrequest : RequestSent env commandRequestFile fileName
  · rw [requestFileContents_of_sent (sendRequest_of_requestSent hrequest),
      Option.map_eq_some_iff] at h
    obtain ⟨outcome, hloop, rfl⟩ := h
    rw [payload_of_receiveLoop (received_start buffer _) hloop hrvalue]
    rfl
  · obtain ⟨code, sent, hsent, hcode⟩ := sendRequest_of_not_requestSent hrequest
    rw [requestFileContents_of_not_sent hsent hcode] at h
    cases h
    rfl

/-- **Undefined output.** Once the client is connected, the metadata command is defined exactly if
its request is sent and the first message arrives whole, finds memory, and holds a terminator. The
contents command is defined exactly if its request succeeds and the contents hold a terminator: the
text that it prints for a failed request is never a string. -/
theorem clientMain_defined_iff (program : CString) {metadata contents : CString}
    (hconnects : sys.sockets.Connects 3 n) (hmetadata : atoi metadata = some 0)
    (hcontents : atoi contents = some 1) :
    (clientMain sys segments [program, metadata, fileName] ≠ none ↔
      RequestSent sys.env commandRequestMetadata fileName ∧
        FirstMessageText sys.env segments) ∧
      (clientMain sys segments [program, contents, fileName] ≠ none ↔
        ∃ result bytes, requestFileContents sys.env fileName sys.buffer segments
            { header := sys.header, payload := .indeterminate } = some result ∧
          result.rvalue = statusOk ∧ result.response.payload = .block bytes ∧ 0 ∈ bytes) := by
  rw [clientMain_metadata hmetadata, clientMain_contents hcontents, metadataCommand,
    contentsCommand, runCommand_of_connects hconnects, runCommand_of_connects hconnects]
  constructor
  · obtain ⟨result, hresult, htext⟩ :=
      exists_requestFileMetadata sys.env fileName sys.buffer segments sys.header
    rw [hresult, Option.bind_some, ← htext, Ne, Option.map_eq_none_iff]
  · constructor
    · intro h
      have hsome : requestFileContents sys.env fileName sys.buffer segments
          { header := sys.header, payload := .indeterminate } ≠ none := by
        intro hnone
        rw [hnone] at h
        exact h rfl
      obtain ⟨result, hresult⟩ := Option.ne_none_iff_exists'.mp hsome
      rw [hresult, Option.bind_some, Ne, Option.map_eq_none_iff] at h
      refine ⟨result, ?_⟩
      have hrvalue : result.rvalue = statusOk := by
        by_contra hne
        exact h (toCString_of_requestFileContents hresult hne)
      cases hpayload : result.response.payload with
      | null =>
        rw [hpayload] at h
        exact absurd rfl h
      | block bytes =>
        rw [hpayload] at h
        exact ⟨bytes, hresult, hrvalue, rfl, toCString_block_ne_none_iff.mp h⟩
      | indeterminate =>
        rw [hpayload] at h
        exact absurd rfl h
    · rintro ⟨result, bytes, hresult, -, hpayload, hzero⟩
      rw [hresult, Option.bind_some, Ne, Option.map_eq_none_iff, hpayload]
      exact toCString_block_ne_none_iff.mpr hzero

end Defined

theorem clientMain_defined_oneLetter :
    clientMain .reliable [⟨[2, 2, 0, 0, 0, 2, 0, 0, 0, 0, 0, 120, 0], by decide, by decide⟩]
      [.ofLiteral "client", .ofLiteral "0", .ofLiteral "a"] ≠ none := by
  have hrequest : RequestSent .reliable commandRequestMetadata (.ofLiteral "a") :=
    ⟨by decide +kernel, Option.some_ne_none _, by decide +kernel⟩
  have hmetadata : atoi (.ofLiteral "0") = some 0 := by decide +kernel
  have hcontents : atoi (.ofLiteral "1") = some 1 := by decide +kernel
  exact (clientMain_defined_iff _ connects_reliable hmetadata hcontents).1.mpr
      ⟨hrequest, _, [], rfl, by decide +kernel, rfl, by decide +kernel⟩

/-! ## Sockets -/

section Sockets

variable {sys : ClientSystem} {segments : List Segment} {run : ClientRun}

/-- Every socket that the run opened is closed once, and no other. -/
def ClientRun.ClosesSockets (run : ClientRun) : Prop :=
  (run.calls.filterMap SocketCall.opened).Perm (run.calls.filterMap SocketCall.closed)

theorem closesSockets_runCommand {announced : CString} {request : Response → Option RequestResult}
    {failure : ℕ → UInt8 → CString → CString} {report : Header → CString → CString}
    (h : runCommand sys announced request failure report = some run) : run.ClosesSockets := by
  have hconnection := accounted_connectWithRetryOrDie sys.sockets 3 1
  have hcleanup := balances_bind hconnection accounted_socketCleanup
  rw [runCommand] at h
  generalize connectWithRetryOrDie sys.sockets 3 1 = connection at h hconnection hcleanup
  obtain ⟨calls, outcome⟩ := connection
  cases outcome with
  | error exitCode =>
    cases h
    simpa [Balances, ClientRun.ClosesSockets] using hconnection
  | ok serverSocket =>
    have hcalls : run.calls = calls ++ (socketCleanup serverSocket).calls := by
      obtain ⟨result, -, h⟩ := Option.bind_eq_some_iff.mp h
      obtain ⟨payload, -, h⟩ := Option.bind_eq_some_iff.mp h
      split at h
      · cases h
        rfl
      · obtain ⟨_, -, h⟩ := Option.bind_eq_some_iff.mp h
        cases h
        rfl
    have hend : (socketCleanup serverSocket).outcome = .ok () := by
      rw [socketCleanup]
      split <;> rfl
    rw [ClientRun.ClosesSockets, hcalls]
    simpa [Balances, hend] using hcleanup

/-- **Sockets of the client.** Whatever the arguments, the system and the messages are, a run of the
client that is defined has closed every socket that it opened, once. -/
theorem clientMain_closesSockets {argv : List CString}
    (h : clientMain sys segments argv = some run) : run.ClosesSockets := by
  unfold clientMain at h
  split at h
  · obtain ⟨command, -, h⟩ := Option.bind_eq_some_iff.mp h
    split at h
    · exact closesSockets_runCommand h
    split at h
    · exact closesSockets_runCommand h
    · cases h
      exact .refl _
  · cases h
    exact .refl _
  · cases h

end Sockets

theorem clientMain_closesSockets_oneLetter :
    ({ exitCode := 1
       output := metadataAnnouncement (.ofLiteral "a") ++
        metadataFailure 2 2 (.ofLiteral "x")
       calls := clientCalls 3 0 } : ClientRun).ClosesSockets := by
  have hrun : clientMain .reliable
      [⟨[2, 2, 0, 0, 0, 2, 0, 0, 0, 0, 2, 120, 0], by decide, by decide⟩]
      [.ofLiteral "client", .ofLiteral "0", .ofLiteral "a"] =
        some {
          exitCode := 1
          output := metadataAnnouncement (.ofLiteral "a") ++
            metadataFailure 2 2 (.ofLiteral "x")
          calls := clientCalls 3 0 } := by
    decide +kernel
  exact clientMain_closesSockets hrun

end CExamples.ClientServer

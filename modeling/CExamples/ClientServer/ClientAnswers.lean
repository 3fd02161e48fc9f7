import CExamples.ClientServer.ClientMain
import CExamples.ClientServer.ServerConnections

/-!
# The client program and the server process

`Answers` connects one run of the client with a run of the server process in which its threads are
interleaved in any way and other connections are served. The metadata that the server sends are text
(`clientMain_metadata_answer`), and a file is text only if it holds a zero byte itself
(`clientMain_contents_answer`). A request that the worker's only `recv` returns in part is not
answered (`clientMain_of_split_request`).
-/

namespace CExamples.ClientServer

open C ServerProcess

/-- The segments that a client receives on connection `c` from its worker, which has returned:
however the threads of the server were interleaved, whatever the other connections asked for, and
however the messages were coalesced. -/
def Answers (out : Outside) (c : ℕ) (client : ClientEnv) (command : UInt8) (fileName : CString)
    (segments : List Segment) : Prop :=
  ∃ (s : ServerProcess) (request : Segment),
    (system out).Reachable (.ok s) ∧ s.workers c = some .returned ∧
    sendRequest client command fileName = some (statusOk, [request.bytes]) ∧
    out.received c = some request ∧
    Delivers maxMessageSize (s.sent c) [] (segments.map Segment.bytes)

section Answered

variable {out : Outside} {c : ℕ} {server : ServerEnv} {client : ClientEnv} {sys : ClientSystem}
  {command : UInt8} {fileName : CString} {segments : List Segment} {n : ℕ}

/-- The worker handles the request that was sent, and gives its connection what the calls of `send`
accept. -/
theorem Answers.exists_handleRequest (h : Answers out c client command fileName segments)
    (hname : fileName.chars.length < maxPayloadSize) (hclient : client.Succeeds)
    (hmalloc : (out.worker c).malloc = true) :
    ∃ reply, handleRequest (out.worker c).server (requestHeader command fileName)
        (.block fileName.memory) = some reply ∧
      Delivers maxMessageSize (pieces reply.events) [] (segments.map Segment.bytes) := by
  obtain ⟨s, request, hs, hw, hsent, hreceived, hdelivers⟩ := h
  rw [sendRequest_eq hname hclient.requestMalloc hclient.send] at hsent
  have hrequest : request.bytes = (requestFrame command fileName hname).encode :=
    (List.singleton_inj.mp (Prod.mk.inj (Option.some.inj hsent)).2).symm
  obtain ⟨calls, hcalls, hpieces⟩ := ((Inv.of_reachable hs s rfl).worker c _ hw).progress
  rw [hreceived, WorkerEnv.calls, hmalloc, serverWorker_of_requestFrame hname hrequest,
    Option.bind_eq_bind, Option.bind_map] at hcalls
  obtain ⟨reply, hreply, hevents⟩ := Option.bind_eq_some_iff.mp hcalls
  cases hevents
  rw [hpieces] at hdelivers
  exact ⟨reply, hreply, hdelivers⟩

/-! ## Metadata -/

/-- The status and the text that the server sends for the metadata of a file. -/
def metadataAnswer (server : ServerEnv) (fileName : CString) : ℕ × CString :=
  if 256 ≤ (fullPath fileName).chars.length then
    (errorFileOpenFailed, fullPathError (snprintf 256 (fullPath fileName)).1)
  else
    match server.stat (fullPath fileName) with
    | none => (errorFileNotFound, statError)
    | some size =>
      if server.metadataMalloc = none then
        (errorMemoryAllocationFailed, metadataMessageError errorMemoryAllocationFailed)
      else (statusOk, metadataText size)

/-- The frame is a response that carries a status and a text. -/
def Frame.Carries (frame : Frame) (answer : ℕ × CString) : Prop :=
  frame.header.status.toNat = answer.1 ∧ frame.payload = answer.2.memory

/-- A message that is accepted whole is one piece. -/
theorem pieces_send_whole (frame : Frame) :
    pieces [.send frame.encode frame.encode.length] = [frame.encode] := by
  rcases pieces_send frame le_rfl with ⟨hzero, -⟩ | ⟨-, hpiece⟩ | ⟨-, hlt, -⟩
  · rw [Frame.length_encode, headerSize] at hzero
    omega
  · exact hpiece
  · exact absurd hlt (lt_irrefl _)

/-- So is an error reply, which carries its code and its text. -/
theorem exists_frame_of_errorReply (hsend : ∀ n data, server.send n data = data.length)
    (hmalloc : server.errorMalloc ≠ none) (sent : ℕ) {errorCode : UInt8} {errorMessage : CString}
    (h : errorMessage.chars.length < maxPayloadSize) :
    ∃ frame : Frame,
      pieces (errorReply server sent command errorCode errorMessage).events = [frame.encode] ∧
      frame.Carries (errorCode.toNat, errorMessage) := by
  obtain ⟨junk, hjunk⟩ := Option.ne_none_iff_exists'.mp hmalloc
  refine ⟨errorFrame command errorCode errorMessage h, ?_, rfl, rfl⟩
  unfold errorReply
  rw [hjunk]
  dsimp only
  rw [hsend]
  exact pieces_send_whole (errorFrame command errorCode errorMessage h)

/-- The server's answer is one message. -/
theorem exists_frame_of_sendFileMetadata (hsend : ∀ n data, server.send n data = data.length)
    (hmalloc : server.errorMalloc ≠ none) {reply : Reply}
    (h : sendFileMetadata server fileName = some reply) :
    ∃ frame : Frame, pieces reply.events = [frame.encode] ∧
      frame.Carries (metadataAnswer server fileName) := by
  unfold metadataAnswer
  cases metadataOutcome h with
  | pathTooLong hlong =>
    rw [if_pos hlong]
    exact exists_frame_of_errorReply hsend hmalloc 0 (length_fullPathError_lt _)
  | notFound hshort hstat =>
    rw [if_neg hshort.not_ge, hstat, Reply.events_after, pieces_append]
    exact exists_frame_of_errorReply hsend hmalloc 0 length_statError_lt
  | notCreated hshort hstat hmetadata =>
    rw [if_neg hshort.not_ge, hstat]
    dsimp only
    rw [if_pos hmetadata, Reply.events_after, pieces_append]
    exact exists_frame_of_errorReply hsend hmalloc 0 (length_metadataMessageError_lt _)
  | notSent hshort hstat hmetadata hfails =>
    rw [hsend, Frame.length_encode, headerSize] at hfails
    omega
  | @sent hshort size hstat hmetadata hsent =>
    rw [if_neg hshort.not_ge, hstat]
    dsimp only
    rw [if_neg hmetadata, hsend, pieces_append]
    exact ⟨metadataFrame size, pieces_send_whole _, rfl, rfl⟩

/-- What the client prints of the server's answer, and its exit code. -/
def metadataRun (answer : ℕ × CString) (fileName : CString) (calls : List SocketCall) :
    ClientRun :=
  if answer.1 ≠ statusOk then
    { exitCode := 1
      output := metadataAnnouncement fileName ++
        metadataFailure answer.1 (UInt8.ofNat answer.1) answer.2
      calls }
  else
    { exitCode := 0
      output := metadataAnnouncement fileName ++ metadataReport fileName answer.2
      calls }

/-- `request_file_metadata` returns the status and the text of a frame. -/
theorem requestFileMetadata_of_carries {env : ClientEnv} (hclient : env.Succeeds)
    (hpayload : env.payloadMalloc = true) (hname : fileName.chars.length < maxPayloadSize)
    {frame : Frame} {answer : ℕ × CString} (hframe : frame.Carries answer) {segment : Segment}
    (hsegment : segment.bytes = frame.encode) (buffer : ReceiveBuffer) (response : Response) :
    ∃ result, requestFileMetadata env fileName buffer [segment] response = some result ∧
      result.rvalue = answer.1 ∧ result.response.header.status.toNat = answer.1 ∧
      result.response.payload.toCString = some answer.2 := by
  obtain ⟨hstatus, htext⟩ := hframe
  have hsegment' : segment.bytes = encodeHeader frame.header ++ (frame.payload ++ []) := by
    rw [hsegment, Frame.encode, List.append_nil]
  have hlen := frame.length_payload
  have hpos : frame.header.payloadSize.toNat ≠ 0 := by
    rw [← hlen, htext, CString.length_memory]
    omega
  have hfits : ¬segment.bytes.length < headerSize + frame.header.payloadSize.toNat := by
    rw [hsegment, Frame.length_encode, hlen]
    exact lt_irrefl _
  have hrequest := requestSent_of_lt commandRequestMetadata hname hclient.requestMalloc hclient.send
  have hresult := requestFileMetadata_of_sent (sendRequest_of_requestSent hrequest) buffer segment
    [] response
  rw [parseMessage_receive _ buffer hsegment', if_neg hpos, if_neg hfits, hpayload, if_pos rfl,
    Option.map_some, ← hlen, List.take_left, htext] at hresult
  refine ⟨_, hresult, ?_, hstatus, Ptr.toCString_memory _⟩
  dsimp only
  split
  · exact hstatus
  · rename_i hok
    rw [not_and_not_right] at hok
    exact (hok rfl).symm.trans hstatus

/-- **The metadata command.** A client that is connected prints what the server found out about the
file: its size, with exit code 0, or the status and the text of the error, with exit code 1. -/
theorem clientMain_metadata_answer (program : CString) {command : CString}
    (hname : fileName.chars.length < maxPayloadSize)
    (hworker : (out.worker c).malloc = true)
    (hsend : ∀ n data, (out.worker c).server.send n data = data.length)
    (hmalloc : (out.worker c).server.errorMalloc ≠ none)
    (hclient : sys.env.Succeeds) (hpayload : sys.env.payloadMalloc = true)
    (hconnects : sys.sockets.Connects 3 n)
    (hanswers : Answers out c sys.env commandRequestMetadata fileName segments)
    (hcommand : atoi command = some 0) :
    clientMain sys segments [program, command, fileName] =
      some (metadataRun (metadataAnswer (out.worker c).server fileName) fileName
        (clientCalls sys.sockets.socket n)) := by
  have hrequest : (requestHeader commandRequestMetadata fileName).command =
      commandRequestMetadata := rfl
  obtain ⟨reply, hreply, hdelivers⟩ := hanswers.exists_handleRequest hname hclient hworker
  rw [handleRequest_of_metadata hrequest, Ptr.toCString_memory, Option.bind_some] at hreply
  obtain ⟨frame, hsent, hframe⟩ := exists_frame_of_sendFileMetadata hsend hmalloc hreply
  have hsegments : segments.map Segment.bytes = [frame.encode] := by
    rw [hsent] at hdelivers
    exact hdelivers.eq_messages (by decide)
      ⟨encodeHeader_append_ne_nil _ _, Frame.length_encode_le frame⟩
  obtain ⟨segment, rfl, hsegment⟩ := List.map_eq_singleton_iff.mp hsegments
  obtain ⟨result, hresult, hrvalue, hstatus, htext⟩ := requestFileMetadata_of_carries hclient
    hpayload hname hframe hsegment sys.buffer { header := sys.header, payload := .indeterminate }
  have hbyte : result.response.header.status =
      UInt8.ofNat (metadataAnswer (out.worker c).server fileName).1 := by
    rw [← hstatus, UInt8.ofNat_toNat]
  rw [clientMain_metadata hcommand, metadataCommand, runCommand_of_connects hconnects, hresult,
    Option.bind_some, htext, Option.map_some, answeredRun, hrvalue, hbyte, metadataRun]

/-! ## Contents -/

/-- A stream without any message. -/
theorem requestFileContents_of_nil {env : ClientEnv} (hclient : env.Succeeds)
    (hname : fileName.chars.length < maxPayloadSize) (buffer : ReceiveBuffer)
    (response : Response) :
    requestFileContents env fileName buffer [] response =
      some {
        rvalue := errorReceiveFailed
        response := { response with payload := .null }
        sent := [requestBytes commandRequestFile fileName] } := by
  have hrequest := requestSent_of_lt commandRequestFile hname hclient.requestMalloc hclient.send
  rw [requestFileContents_of_sent (sendRequest_of_requestSent hrequest)]
  rfl

/-- **The contents command.** Of a client that is connected to a server of a file: if the file has a
zero byte, the client prints the size of the file, its number of chunks and what stands before that
byte, with exit code 0. If it has none, the behaviour of the client is undefined. -/
theorem clientMain_contents_answer (program : CString) {command : CString} {contents : List UInt8}
    (hpath : (fullPath fileName).chars.length < 256)
    (hle : contents.length ≤ 1024 * (2 ^ 32 - 1)) (hworker : (out.worker c).malloc = true)
    (hserver : (out.worker c).server.Serves (fullPath fileName) contents)
    (hclient : sys.env.Succeeds) (hconnects : sys.sockets.Connects 3 n)
    (hanswers : Answers out c sys.env commandRequestFile fileName segments)
    (hcommand : atoi command = some 1) :
    clientMain sys segments [program, command, fileName] =
      (CString.read contents).map fun text =>
        { exitCode := 0
          output := contentsAnnouncement fileName ++
            contentsText fileName (UInt32.ofNat contents.length)
              (UInt32.ofNat (chunkCount contents)) text
          calls := clientCalls sys.sockets.socket n } := by
  have hname := length_fileName_lt hpath
  have hrequest : (requestHeader commandRequestFile fileName).command = commandRequestFile := rfl
  obtain ⟨reply, hreply, hdelivers⟩ := hanswers.exists_handleRequest hname hclient hworker
  obtain ⟨reply', hreply', hpieces⟩ := exists_sendFileContents_pieces hserver hpath hle
  rw [handleRequest_of_file hrequest, Ptr.toCString_memory, Option.bind_some, hreply',
    Option.some_inj] at hreply
  rw [← hreply, hpieces] at hdelivers
  rw [clientMain_contents hcommand, contentsCommand, runCommand_of_connects hconnects]
  rcases eq_or_ne contents [] with rfl | hne
  · -- The server sends nothing, and the client reports the end of the stream.
    have hsegments : segments.map Segment.bytes = [] := hdelivers.eq_messages (by decide) trivial
    rw [List.map_eq_nil_iff.mp hsegments, requestFileContents_of_nil hclient hname,
      Option.bind_some]
    rfl
  obtain ⟨count, hcount⟩ := exists_chunkCount_eq hne
  have hsegments := hdelivers.eq_messages (by decide) (fullUntilLast_fileFrames hserver hcount)
  have hindex : UInt32.ofNat count + 1 = UInt32.ofNat (chunkCount contents) := by
    rw [hcount, UInt32.ofNat_add]
    rfl
  rw [requestFileContents_of_fileFrames hserver hle hclient hname hcount hsegments,
    Option.bind_some, ← hindex]
  rfl

/-! ## Requests that arrive in parts -/

/-- The worker of the server rejects a part of a message, and answers nothing. -/
theorem serverWorker_of_part {env : ServerEnv} {malloc : Bool} {buffer : ReceiveBuffer}
    {response : Response} {frame : Frame} {segment : Segment}
    (hpart : segment.bytes <+: frame.encode)
    (hlt : segment.bytes.length < frame.encode.length) :
    serverWorker env malloc buffer segment response = some none := by
  have hinvalid : errorInvalidDataSize ≠ statusOk := by decide
  rcases lt_or_ge segment.bytes.length headerSize with hshort | hlen
  · have hsize : (UInt32.ofNat segment.bytes.length).toNat < headerSize := by
      rwa [toNat_dataSize segment.length_le]
    rw [serverWorker, parseMessage_of_lt malloc _ hsize, Option.bind_eq_bind, Option.bind_some]
    dsimp only
    rw [if_pos hinvalid]
    rfl
  -- The header is whole, so it announces the payload that is missing.
  obtain ⟨header, rest, hsegment⟩ := exists_decodeHeader hlen
  obtain ⟨missing, hmissing⟩ := hpart
  have hannounced : header.payloadSize.toNat = frame.header.payloadSize.toNat := by
    have hsize := congrArg announcedSize hmissing
    rwa [hsegment, List.append_assoc, announcedSize_encodeHeader_append, Frame.encode,
      announcedSize_encodeHeader_append] at hsize
  have hpayload := frame.length_payload
  rw [Frame.length_encode] at hlt
  have hzero : header.payloadSize.toNat ≠ 0 := by omega
  have hcut : segment.bytes.length < headerSize + header.payloadSize.toNat := by omega
  rw [serverWorker, parseMessage_receive malloc buffer hsegment, if_neg hzero, if_pos hcut,
    Option.bind_eq_bind, Option.bind_some]
  dsimp only
  rw [if_pos hinvalid]
  rfl

/-- **Split requests.** If the only `recv` of a worker returns less than the client's whole request,
the connection is given nothing, and the behaviour of the client, of either command, is
undefined. -/
theorem clientMain_of_split_request (program : CString) {command : CString} {requested : UInt8}
    (hname : fileName.chars.length < maxPayloadSize) (hclient : sys.env.Succeeds)
    (hconnects : sys.sockets.Connects 3 n) {s : ServerProcess}
    (hs : (system out).Reachable (.ok s)) (hw : s.workers c = some .returned)
    (hreceived : ∀ segment, out.received c = some segment →
      segment.bytes <+: (requestFrame requested fileName hname).encode ∧
        segment.bytes.length < (requestFrame requested fileName hname).encode.length)
    (hdelivers : Delivers maxMessageSize (s.sent c) [] (segments.map Segment.bytes))
    (hcommand : atoi command = some 0 ∨ atoi command = some 1) :
    s.sent c = [] ∧ clientMain sys segments [program, command, fileName] = none := by
  obtain ⟨calls, hcalls, hpieces⟩ := ((Inv.of_reachable hs s rfl).worker c _ hw).progress
  have hnothing : (out.worker c).calls (out.received c) = some [] := by
    cases hsegment : out.received c with
    | none => rfl
    | some segment =>
      obtain ⟨hpart, hlt⟩ := hreceived segment hsegment
      rw [WorkerEnv.calls, serverWorker_of_part hpart hlt]
      rfl
  rw [hnothing] at hcalls
  have hsent : s.sent c = [] := by
    rw [hpieces, ← Option.some.inj hcalls]
    rfl
  refine ⟨hsent, ?_⟩
  rw [hsent] at hdelivers
  have hsegments : segments.map Segment.bytes = [] := hdelivers.eq_messages (by decide) trivial
  rw [List.map_eq_nil_iff.mp hsegments]
  rcases hcommand with hmetadata | hcontents
  · have hrequest := requestSent_of_lt commandRequestMetadata hname hclient.requestMalloc
      hclient.send
    rw [clientMain_metadata hmetadata, metadataCommand, runCommand_of_connects hconnects,
      requestFileMetadata_of_nil (sendRequest_of_requestSent hrequest)]
    rfl
  · rw [clientMain_contents hcontents, contentsCommand, runCommand_of_connects hconnects,
      requestFileContents_of_nil hclient hname]
    rfl

end Answered

/-! ## One connection -/

/-- A server process that receives the same segment on every connection. -/
def requesting (server : ServerEnv) (segment : Segment) : Outside where
  serverSocket := 3
  received _ := some segment
  worker _ :=
    { server
      malloc := true
      buffer := ClientSystem.reliable.buffer
      response := { header := .init, payload := .indeterminate } }

/-- The first connection is answered. -/
theorem answers_requesting {server : ServerEnv} {client : ClientEnv} {command : UInt8}
    {fileName : CString} (hname : fileName.chars.length < maxPayloadSize)
    (hclient : client.Succeeds) {messages : List (List UInt8)} {segments : List Segment}
    (hhandled : (handleRequest server (requestHeader command fileName)
      (.block fileName.memory)).map (fun reply => pieces reply.events) = some messages)
    (hdelivers : Delivers maxMessageSize messages [] (segments.map Segment.bytes)) :
    Answers (requesting server (requestFrame command fileName hname).segment) 0 client command
      fileName segments := by
  obtain ⟨reply, hreply, rfl⟩ := Option.map_eq_some_iff.mp hhandled
  let out := requesting server (requestFrame command fileName hname).segment
  have hworker : serverWorker server true (out.worker 0).buffer
      (requestFrame command fileName hname).segment (out.worker 0).response =
        some (some reply) := by
    rw [serverWorker_of_requestFrame hname rfl, hreply, Option.map_some]
  have hcalls : (out.worker 0).calls (out.received 0) = some reply.events := by
    unfold WorkerEnv.calls
    exact congrArg (Option.bind · _) hworker
  have hsome : (out.worker 0).calls (out.received 0) ≠ none := by
    rw [hcalls]
    exact Option.some_ne_none _
  obtain ⟨s, hs, hw, -⟩ := exists_returned rfl hsome
  obtain ⟨calls, hcalls', hpieces⟩ := ((Inv.of_reachable hs s rfl).worker 0 _ hw).progress
  rw [hcalls, Option.some_inj] at hcalls'
  rw [hcalls', ← hpieces] at hdelivers
  exact ⟨s, _, hs, hw, sendRequest_eq hname hclient.requestMalloc hclient.send, rfl, hdelivers⟩

theorem clientMain_metadata_oneByte :
    clientMain .reliable
        [⟨[2, 2, 0, 0, 0, 8, 0, 0, 0, 0, 0, 83, 105, 122, 101, 58, 32, 49, 0], by decide,
          by decide⟩]
        [.ofLiteral "client", .ofLiteral "0", .ofLiteral "size.txt"] =
      some {
        exitCode := 0
        output := metadataAnnouncement (.ofLiteral "size.txt") ++
          metadataReport (.ofLiteral "size.txt") (metadataText 1)
        calls := clientCalls 3 0 } := by
  have hname : (CString.ofLiteral "size.txt").chars.length < maxPayloadSize := by decide
  have hhandled : (handleRequest .oneByte
      (requestHeader commandRequestMetadata (.ofLiteral "size.txt"))
      (.block (CString.ofLiteral "size.txt").memory)).map (fun reply => pieces reply.events) =
        some [[2, 2, 0, 0, 0, 8, 0, 0, 0, 0, 0, 83, 105, 122, 101, 58, 32, 49, 0]] := by
    decide +kernel
  have hcommand : atoi (.ofLiteral "0") = some 0 := by decide +kernel
  have hanswers : Answers _ 0 .reliable commandRequestMetadata (.ofLiteral "size.txt")
      [⟨[2, 2, 0, 0, 0, 8, 0, 0, 0, 0, 0, 83, 105, 122, 101, 58, 32, 49, 0], by decide,
        by decide⟩] :=
    answers_requesting hname succeeds_reliable hhandled (.of_length_le (by decide))
  have hrun := clientMain_metadata_answer (.ofLiteral "client") hname rfl (fun _ _ => rfl)
    (Option.some_ne_none _) succeeds_reliable rfl connects_reliable hanswers hcommand
  have hanswer : metadataAnswer .oneByte (.ofLiteral "size.txt") = (statusOk, metadataText 1) := by
    decide +kernel
  exact hrun.trans (congrArg (fun answer => some (metadataRun answer _ _)) hanswer)

theorem clientMain_contents_twoBytes :
    clientMain .reliable
        [⟨[4, 1, 0, 0, 0, 2, 0, 0, 0, 0, 0, 72, 0], by decide, by decide⟩]
        [.ofLiteral "client", .ofLiteral "1", .ofLiteral "two.txt"] =
      some {
        exitCode := 0
        output := contentsAnnouncement (.ofLiteral "two.txt") ++
          contentsText (.ofLiteral "two.txt") 2 1 (.ofLiteral "H")
        calls := clientCalls 3 0 } := by
  have hname : (CString.ofLiteral "two.txt").chars.length < maxPayloadSize := by decide
  have hhandled : (handleRequest (.serving [72, 0] (by decide))
      (requestHeader commandRequestFile (.ofLiteral "two.txt"))
      (.block (CString.ofLiteral "two.txt").memory)).map (fun reply => pieces reply.events) =
        some [[4, 1, 0, 0, 0, 2, 0, 0, 0, 0, 0, 72, 0]] := by
    decide +kernel
  have hcommand : atoi (.ofLiteral "1") = some 1 := by decide +kernel
  have hanswers : Answers _ 0 .reliable commandRequestFile (.ofLiteral "two.txt")
      [⟨[4, 1, 0, 0, 0, 2, 0, 0, 0, 0, 0, 72, 0], by decide, by decide⟩] :=
    answers_requesting hname succeeds_reliable hhandled (.of_length_le (by decide))
  have hrun := clientMain_contents_answer (.ofLiteral "client") (by decide +kernel) (by decide)
    rfl (serves_serving (by decide) _) succeeds_reliable connects_reliable hanswers hcommand
  have hsize : UInt32.ofNat ([72, 0] : List UInt8).length = 2 := rfl
  have hchunks : UInt32.ofNat (chunkCount [72, 0]) = 1 := by decide +kernel
  have hread : CString.read [72, 0] = some (.ofLiteral "H") := by decide +kernel
  rw [hsize, hchunks, hread] at hrun
  exact hrun

theorem clientMain_split_twoBytes :
    clientMain .reliable [] [.ofLiteral "client", .ofLiteral "0", .ofLiteral "size.txt"] =
      none := by
  have hcalls : ((requesting .oneByte ⟨[1, 2], by decide, by decide⟩).worker 0).calls
      ((requesting .oneByte ⟨[1, 2], by decide, by decide⟩).received 0) = some [] := by
    decide +kernel
  have hsome : ((requesting .oneByte ⟨[1, 2], by decide, by decide⟩).worker 0).calls
      ((requesting .oneByte ⟨[1, 2], by decide, by decide⟩).received 0) ≠ none := by
    rw [hcalls]
    exact Option.some_ne_none _
  obtain ⟨s, hs, hw, -⟩ := exists_returned rfl hsome
  obtain ⟨calls, hcalls', hpieces⟩ := ((Inv.of_reachable hs s rfl).worker 0 _ hw).progress
  have hsent : s.sent 0 = [] := by
    rw [hpieces, ← Option.some.inj (hcalls.symm.trans hcalls')]
    rfl
  have hreceived : ∀ segment,
      (requesting .oneByte ⟨[1, 2], by decide, by decide⟩).received 0 = some segment →
      segment.bytes <+: (requestFrame commandRequestMetadata (.ofLiteral "size.txt")
        (by decide)).encode ∧
      segment.bytes.length < (requestFrame commandRequestMetadata (.ofLiteral "size.txt")
        (by decide)).encode.length := by
    intro segment hsegment
    rw [← Option.some.inj hsegment]
    decide +kernel
  have hdelivers : Delivers maxMessageSize (s.sent 0) []
      (([] : List Segment).map Segment.bytes) := by
    rw [hsent]
    exact .done
  have hcommand : atoi (.ofLiteral "0") = some 0 := by decide +kernel
  exact (clientMain_of_split_request (.ofLiteral "client") (by decide) succeeds_reliable
    connects_reliable hs hw hreceived hdelivers (.inl hcommand)).2

end CExamples.ClientServer

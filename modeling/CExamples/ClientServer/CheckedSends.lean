import CExamples.ClientServer.FailedRequests
import CExamples.ClientServer.ServerRuns

/-!
# What the four senders take for a successful `send`

`_send_request`, `request_file_contents` and `send_file_metadata` test `bytes_sent <= 0`, and
`send_file_contents` tests `bytes_sent != message.size`. The tests agree on a `send` that fails and
on one that accepts the whole message. A `send` that accepts a part of it is a failure for a chunk
and a success for any other message (`CheckedSend.succeeds_iff`).
-/

namespace CExamples.ClientServer

open C

/-- A call of `send` whose value is tested, in each of the four functions: the system that answers
it and what the function has built its message from. -/
inductive CheckedSend
  | sendRequest (env : ClientEnv) (command : UInt8) (fileName : CString)
      (hsize : (requestHeader command fileName).payloadSize.toNat ≤ maxPayloadSize)
      (hmalloc : env.requestMalloc ≠ none)
  | requestFileContents (env : ClientEnv) (fileName : CString)
      (hsize : (requestHeader commandRequestFile fileName).payloadSize.toNat ≤ maxPayloadSize)
      (hmalloc : env.requestMalloc ≠ none)
  | sendFileMetadata (env : ServerEnv) (fileName : CString) (size : ℤ)
      (hpath : (fullPath fileName).chars.length < 256)
      (hstat : env.stat (fullPath fileName) = some size) (hmalloc : env.metadataMalloc ≠ none)
  | sendFileContents (env : ServerEnv) (totalChunks : UInt32) (chunkIndex remaining : ℕ)
      (hround : chunkIndex + (remaining + 1) = totalChunks.toNat)
      (hmalloc : env.chunkMalloc chunkIndex ≠ none)

namespace CheckedSend

/-- The frame of the message. -/
def frame : CheckedSend → Frame
  | sendRequest _ command fileName hsize _ => sentRequest command fileName hsize
  | requestFileContents _ fileName hsize _ => sentRequest commandRequestFile fileName hsize
  | sendFileMetadata _ _ size _ _ _ => metadataFrame size
  | sendFileContents env totalChunks chunkIndex _ _ _ => chunkFrame env totalChunks chunkIndex

/-- The message that `send` is given. -/
def message (call : CheckedSend) : List UInt8 :=
  call.frame.encode

/-- `bytes_sent`. -/
def bytesSent (call : CheckedSend) : ℤ :=
  match call with
  | sendRequest env _ _ _ _ => env.send call.message
  | requestFileContents env _ _ _ => env.send call.message
  | sendFileMetadata env _ _ _ _ _ => env.send 0 call.message
  | sendFileContents env _ chunkIndex _ _ _ => env.send chunkIndex call.message

/-- The function goes on as after a successful `send`: it returns `STATUS_OK`, waits for the reply
or turns to the next chunk. -/
def Succeeds (call : CheckedSend) : Prop :=
  match call with
  | sendRequest env command fileName _ _ =>
    (ClientServer.sendRequest env command fileName).map Prod.fst = some statusOk
  | requestFileContents env fileName _ _ =>
    ∀ buffer segments response,
      ClientServer.requestFileContents env fileName buffer segments response =
        (receiveLoop env.realloc (.start buffer response) segments).map fun result =>
          { rvalue := result.1, response := result.2, sent := [call.message] }
  | sendFileMetadata env fileName _ _ _ _ =>
    (ClientServer.sendFileMetadata env fileName).map Reply.rvalue = some statusOk
  | sendFileContents env totalChunks chunkIndex remaining _ _ =>
    sendChunks env totalChunks chunkIndex (remaining + 1) =
      (sendChunks env totalChunks (chunkIndex + 1) remaining).map
        (Reply.after [
          .createMessage (chunkFrame env totalChunks chunkIndex).header
            (.block (env.fread chunkIndex)),
          .send call.message call.bytesSent])

/-- The call is made in `send_file_contents`, which compares `bytes_sent` with the size. -/
def IsChunk : CheckedSend → Prop
  | sendRequest _ _ _ _ _ => False
  | requestFileContents _ _ _ _ => False
  | sendFileMetadata _ _ _ _ _ _ => False
  | sendFileContents _ _ _ _ _ _ => True

/-! ## Messages and the values of `send` -/

theorem length_message_pos (call : CheckedSend) : 0 < call.message.length := by
  rw [message, Frame.length_encode, headerSize]
  omega

/-- `send` accepts no more than it is given. -/
theorem bytesSent_le (call : CheckedSend) : call.bytesSent ≤ call.message.length := by
  cases call with
  | sendRequest env command fileName hsize hmalloc => exact env.send_le _
  | requestFileContents env fileName hsize hmalloc => exact env.send_le _
  | sendFileMetadata env fileName size hpath hstat hmalloc => exact env.send_le 0 _
  | sendFileContents env totalChunks chunkIndex remaining hround hmalloc =>
    exact env.send_le chunkIndex _

/-! ## The three tests `bytes_sent <= 0` -/

section Requests

variable {env : ClientEnv} {fileName : CString}

theorem succeeds_sendRequest_iff {command : UInt8}
    (hsize : (requestHeader command fileName).payloadSize.toNat ≤ maxPayloadSize)
    (hmalloc : env.requestMalloc ≠ none) :
    (sendRequest env command fileName hsize hmalloc).Succeeds ↔
      0 < env.send (sentRequest command fileName hsize).encode := by
  have hne : some errorSendFailed ≠ some statusOk := by decide
  rw [Succeeds, sendRequest_of_malloc hsize hmalloc, Option.map_some, encode_sentRequest]
  split
  · rename_i hfailed
    exact iff_of_false hne hfailed.not_gt
  · rename_i haccepted
    exact iff_of_true rfl (not_le.mp haccepted)

theorem succeeds_requestFileContents_iff
    (hsize : (requestHeader commandRequestFile fileName).payloadSize.toNat ≤ maxPayloadSize)
    (hmalloc : env.requestMalloc ≠ none) :
    (requestFileContents env fileName hsize hmalloc).Succeeds ↔
      0 < env.send (sentRequest commandRequestFile fileName hsize).encode := by
  have hrequest := sendRequest_of_malloc hsize hmalloc
  rw [← encode_sentRequest hsize] at hrequest
  by_cases haccepted : 0 < env.send (sentRequest commandRequestFile fileName hsize).encode
  · refine iff_of_true ?_ haccepted
    rw [if_neg haccepted.not_ge] at hrequest
    intro buffer segments response
    rw [requestFileContents_of_sent hrequest]
    rfl
  · refine iff_of_false ?_ haccepted
    rw [if_pos (not_lt.mp haccepted)] at hrequest
    intro h
    -- A reply that ends at once tells the two outcomes apart.
    have hresult := h ⟨List.replicate maxMessageSize 0, List.length_replicate⟩ []
      { header := .init, payload := .null }
    rw [requestFileContents_of_not_sent hrequest (by decide)] at hresult
    have hrvalue : some errorSendFailed = some errorReceiveFailed :=
      congrArg (Option.map RequestResult.rvalue) hresult
    cases hrvalue

end Requests

theorem succeeds_sendFileMetadata_iff {env : ServerEnv} {fileName : CString} {size : ℤ}
    (hpath : (fullPath fileName).chars.length < 256)
    (hstat : env.stat (fullPath fileName) = some size) (hmalloc : env.metadataMalloc ≠ none) :
    (sendFileMetadata env fileName size hpath hstat hmalloc).Succeeds ↔
      0 < env.send 0 (metadataFrame size).encode := by
  obtain ⟨junk, hjunk⟩ := Option.ne_none_iff_exists'.mp hmalloc
  have hne : some errorSendFailed ≠ some statusOk := by decide
  rw [Succeeds, sendFileMetadata_of_stat hpath hstat, metadataReply, hjunk, Option.map_some]
  dsimp only
  split
  · rename_i hfailed
    exact iff_of_false hne hfailed.not_gt
  · rename_i haccepted
    exact iff_of_true rfl (not_le.mp haccepted)

/-! ## The test `bytes_sent != message.size` -/

theorem head?_errorReply (env : ServerEnv) (sent : ℕ) (command errorCode : UInt8)
    (errorMessage : CString) :
    (errorReply env sent command errorCode errorMessage).events.head? =
      some (.createMessage (errorHeader command errorCode errorMessage)
        (.block errorMessage.memory)) := by
  unfold errorReply
  split <;> rfl

/-- The first message of the loop is a chunk. -/
theorem messageType_ne_of_sendChunks {env : ServerEnv} {totalChunks : UInt32}
    {chunkIndex remaining : ℕ} (hround : chunkIndex + remaining = totalChunks.toNat)
    {reply : Reply} (hreply : sendChunks env totalChunks chunkIndex remaining = some reply)
    {header : Header} {payload : Ptr}
    (hhead : reply.events.head? = some (.createMessage header payload)) :
    header.messageType ≠ messageResponse := by
  obtain ⟨count, tail, -, htail, hloop⟩ := exists_loopEnd_from env hround
  rw [hloop] at hreply
  obtain rfl := Option.some.inj hreply
  have hchunk : Event.createMessage (chunkFrame env totalChunks chunkIndex).header
      (.block (env.fread chunkIndex)) = .createMessage header payload := by
    cases count with
    | zero =>
      cases htail with
      | finished hn => cases hhead
      | notCreated hlt hmalloc => exact Option.some.inj hhead
      | notSent hlt hmalloc hsend => exact Option.some.inj hhead
    | succ count => exact Option.some.inj hhead
  obtain ⟨rfl, -⟩ := Event.createMessage.inj hchunk
  exact messageType_chunkFrame_ne env totalChunks chunkIndex

theorem succeeds_sendFileContents_iff {env : ServerEnv} {totalChunks : UInt32}
    {chunkIndex remaining : ℕ} (hround : chunkIndex + (remaining + 1) = totalChunks.toNat)
    (hmalloc : env.chunkMalloc chunkIndex ≠ none) :
    (sendFileContents env totalChunks chunkIndex remaining hround hmalloc).Succeeds ↔
      env.send chunkIndex (chunkFrame env totalChunks chunkIndex).encode =
        (chunkFrame env totalChunks chunkIndex).encode.length := by
  have hrest : chunkIndex + 1 + remaining = totalChunks.toNat := by omega
  obtain ⟨count, tail, -, -, hnext⟩ := exists_loopEnd_from env hrest
  rw [Succeeds, bytesSent, message, frame]
  by_cases hsend : env.send chunkIndex (chunkFrame env totalChunks chunkIndex).encode =
      (chunkFrame env totalChunks chunkIndex).encode.length
  · refine iff_of_true ?_ hsend
    rw [hsend]
    exact sendChunks_of_malloc hmalloc totalChunks hsend remaining
  · refine iff_of_false ?_ hsend
    rw [sendChunks_of_short hmalloc hsend, hnext,
      sendErrorResponse_of_lt _ _ _ _ (length_chunkSendError_lt _ _)]
    intro hsame
    -- An error reply is not what the rest of the loop does.
    have hevents := congrArg Reply.events (Option.some.inj hsame)
    rw [Reply.events_after, Reply.events_after] at hevents
    have hhead := congrArg List.head? (List.append_cancel_left hevents)
    rw [head?_errorReply] at hhead
    exact messageType_ne_of_sendChunks hrest hnext hhead.symm rfl

/-! ## The law -/

/-- **The four senders.** A sender goes on exactly if the whole message was accepted, for every
value of `send` but a part of the message; that too is a failure in `send_file_contents`, and in no
other of the four functions. -/
theorem succeeds_iff (call : CheckedSend) :
    (call.Succeeds ↔ call.bytesSent = call.message.length) ↔
      call.bytesSent ≤ 0 ∨ call.bytesSent = call.message.length ∨ call.IsChunk := by
  have hpos := call.length_message_pos
  have hle := call.bytesSent_le
  have htest : call.IsChunk ∧ (call.Succeeds ↔ call.bytesSent = call.message.length) ∨
      ¬call.IsChunk ∧ (call.Succeeds ↔ 0 < call.bytesSent) := by
    cases call with
    | sendRequest env command fileName hsize hmalloc =>
      exact .inr ⟨id, succeeds_sendRequest_iff hsize hmalloc⟩
    | requestFileContents env fileName hsize hmalloc =>
      exact .inr ⟨id, succeeds_requestFileContents_iff hsize hmalloc⟩
    | sendFileMetadata env fileName size hpath hstat hmalloc =>
      exact .inr ⟨id, succeeds_sendFileMetadata_iff hpath hstat hmalloc⟩
    | sendFileContents env totalChunks chunkIndex remaining hround hmalloc =>
      exact .inl ⟨trivial, succeeds_sendFileContents_iff hround hmalloc⟩
  rcases htest with ⟨hchunk, hiff⟩ | ⟨hchunk, hiff⟩
  · exact iff_of_true hiff (.inr (.inr hchunk))
  · rw [hiff]
    constructor
    · intro hagree
      rcases le_or_gt call.bytesSent 0 with hfailed | haccepted
      · exact .inl hfailed
      · exact .inr (.inl (hagree.mp haccepted))
    · rintro (hfailed | hwhole | h)
      · constructor <;> omega
      · constructor <;> omega
      · exact absurd h hchunk

end CheckedSend

/-- A system that accepts no more than `n` bytes of a message. -/
def ClientEnv.accepting (n : ℕ) : ClientEnv where
  requestMalloc := some fun _ => 0
  send data := min n data.length
  send_le _ := Int.min_le_right _ _
  payloadMalloc := true
  realloc _ _ := true

/-- A request of 19 bytes, of which one is accepted, is reported as sent. -/
theorem sendRequest_oneByteAccepted :
    sendRequest (.accepting 1) commandRequestMetadata (.ofLiteral "one.txt") =
        some (statusOk,
          [[1, 2, 0, 0, 0, 8, 0, 0, 0, 0, 255, 111, 110, 101, 46, 116, 120, 116, 0]]) ∧
      ¬∀ call : CheckedSend, call.Succeeds ↔ call.bytesSent = call.message.length := by
  have hrequest : sendRequest (.accepting 1) commandRequestMetadata (.ofLiteral "one.txt") =
      some (statusOk,
        [[1, 2, 0, 0, 0, 8, 0, 0, 0, 0, 255, 111, 110, 101, 46, 116, 120, 116, 0]]) := by decide
  have hsize : (requestHeader commandRequestMetadata (.ofLiteral "one.txt")).payloadSize.toNat ≤
      maxPayloadSize := by decide
  have hpart : (ClientEnv.accepting 1).send
        (requestBytes commandRequestMetadata (.ofLiteral "one.txt")) ≠
      (requestBytes commandRequestMetadata (.ofLiteral "one.txt")).length := by decide
  refine ⟨hrequest, ?_⟩
  intro h
  have hwhole := (h (.sendRequest (.accepting 1) commandRequestMetadata (.ofLiteral "one.txt") hsize
    (Option.some_ne_none _))).mp (congrArg (Option.map Prod.fst) hrequest)
  rw [← encode_sentRequest hsize] at hpart
  exact hpart hwhole

end CExamples.ClientServer

import CExamples.ClientServer.Blocks
import CExamples.ClientServer.ServerConnections

/-!
# The worker on the heap (`client_server/src/server.c`, `client_server/src/file_transfer.c`)

The server's functions as they allocate and free: messages, the payload of the request, the socket
number that `main` passes to the thread, and the open file. Each function owns what it is given and
nothing more at the end, on every path (`owns_sendErrorResponse` up to `owns_serverWorker`). So the
workers of several connections, whose operations on the heap alternate in any way, release all that
they were given and acquired (`workers_release`), and none keeps another from returning
(`workers_return`).
-/

namespace CExamples.ClientServer.Heap

open C Holding

/-! ## Functions -/

/-- `_send_error_response`. -/
def sendErrorResponse (env : ServerEnv) (sent : ℕ) (command errorCode : UInt8)
    (errorMessage : CString) : Holding Kind Reply := do
  let header := errorHeader command errorCode errorMessage
  let payload := Ptr.block errorMessage.memory
  let (rvalue, message) ← createMessage env.errorMalloc header payload .uninitialized
  if rvalue ≠ statusOk then
    let _ ← destroyMessage message
    return { rvalue, events := [.createMessage header payload] }
  let data ← message.bytes
  let _ ← destroyMessage message
  return {
    rvalue := errorCode.toNat
    events := [.createMessage header payload, .send data (env.send sent data)] }

/-- `send_file_metadata`. -/
def sendFileMetadata (env : ServerEnv) (fileName : CString) : Holding Kind Reply := do
  let (rvalue, path) := snprintf 256 (fullPath fileName)
  if rvalue < 0 ∨ 256 ≤ rvalue then
    let reply ← sendErrorResponse env 0 commandRequestMetadata
      (UInt8.ofNat errorFileOpenFailed) (fullPathError rvalue)
    return { reply with rvalue := errorFileOpenFailed }
  match env.stat path with
  | none =>
    let reply ← sendErrorResponse env 0 commandRequestMetadata
      (UInt8.ofNat errorFileNotFound) statError
    return ({ reply with rvalue := errorFileNotFound }).after [.stat path]
  | some size =>
    let header : Header :=
      { messageType := messageResponse
        command := commandRequestMetadata
        payloadSize := UInt32.ofInt (strlenNullTerm (metadataText size))
        chunkIndex := 0
        status := UInt8.ofNat statusOk }
    let payload := Ptr.block (metadataText size).memory
    let events := [Event.stat path, .createMessage header payload]
    let (rvalue, message) ←
      createMessage env.metadataMalloc header payload .uninitialized
    if rvalue ≠ statusOk then
      let _ ← destroyMessage message
      let reply ← sendErrorResponse env 0 commandRequestMetadata (UInt8.ofNat rvalue)
        (metadataMessageError rvalue)
      return ({ reply with rvalue }).after events
    let data ← message.bytes
    let _ ← destroyMessage message
    let bytesSent := env.send 0 data
    if bytesSent ≤ 0 then
      let reply ← sendErrorResponse env 1 commandRequestMetadata
        (UInt8.ofNat errorSendFailed) metadataSendError
      return ({ reply with rvalue := errorSendFailed }).after
        (events ++ [Event.send data bytesSent])
    return { rvalue := statusOk, events := events ++ [Event.send data bytesSent] }

/-- The loop of `send_file_contents` and the `fclose` after it. -/
def sendChunks (env : ServerEnv) (file : ℕ) (totalChunks : UInt32) (chunkIndex : ℕ) :
    ℕ → Holding Kind Reply
  | 0 => do
    release .file file
    return { rvalue := statusOk, events := [] }
  | remaining + 1 => do
    use .file file
    let buffer := env.fread chunkIndex
    let header := chunkHeader totalChunks chunkIndex buffer.length
    let (rvalue, message) ←
      createMessage (env.chunkMalloc chunkIndex) header (.block buffer) .uninitialized
    let events := [Event.createMessage header (.block buffer)]
    if rvalue ≠ statusOk then
      let _ ← destroyMessage message
      release .file file
      let reply ← sendErrorResponse env chunkIndex commandRequestFile
        (UInt8.ofNat rvalue) (chunkMessageError chunkIndex rvalue)
      return reply.after events
    let data ← message.bytes
    let bytesSent := env.send chunkIndex data
    let events := events ++ [Event.send data bytesSent]
    -- Where a chunk is not sent whole, the file is closed before the message is freed.
    if bytesSent ≠ message.size.toNat then
      release .file file
      let _ ← destroyMessage message
      let reply ← sendErrorResponse env (chunkIndex + 1) commandRequestFile
        (UInt8.ofNat errorSendFailed) (chunkSendError chunkIndex bytesSent)
      return reply.after events
    let _ ← destroyMessage message
    let reply ← sendChunks env file totalChunks (chunkIndex + 1) remaining
    return reply.after events

/-- `send_file_contents`. -/
def sendFileContents (env : ServerEnv) (fileName : CString) : Holding Kind Reply := do
  let (rvalue, path) := snprintf 256 (fullPath fileName)
  if rvalue < 0 ∨ 256 ≤ rvalue then
    let reply ← sendErrorResponse env 0 commandRequestFile
      (UInt8.ofNat errorFileOpenFailed) (fullPathError rvalue)
    return { reply with rvalue := errorFileOpenFailed }
  if ¬env.fopen path then
    let reply ← sendErrorResponse env 0 commandRequestFile
      (UInt8.ofNat errorFileNotFound) (openError path)
    return reply.after [.fopen path]
  let file ← acquire .file
  -- `fseek` and `ftell`.
  use .file file
  let totalChunks := UInt32.ofInt (← calculateTotalChunks env.ftell)
  let reply ← sendChunks env file totalChunks 0 totalChunks.toNat
  return reply.after [.fopen path]

/-- `handle_request`. -/
def handleRequest (env : ServerEnv) (header : Header) (payload : BlockPtr) :
    Holding Kind Reply :=
  if header.command = commandRequestMetadata then do
    sendFileMetadata env (← payload.toCString)
  else if header.command = commandRequestFile then do
    sendFileContents env (← payload.toCString)
  else
    sendErrorResponse env 0 header.command (UInt8.ofNat errorInvalidCommand)
      (invalidCommandError header.command)

/-- What a worker is given: the block with the socket's number, what the system answers, what `recv`
returns unless it fails, and what its variables hold when it starts. -/
structure WorkerCall where
  arg : ℕ
  env : ServerEnv
  malloc : Bool
  received : Option Segment
  buffer : ReceiveBuffer
  header : Header

/-- `server_worker`. -/
def serverWorker (call : WorkerCall) : Holding Kind (Option Reply) := do
  use .block call.arg
  release .block call.arg
  match call.received with
  | none => return none
  | some segment =>
    let (rvalue, response) ← parseMessage call.malloc (call.buffer.receive segment).bytes
      (UInt32.ofNat segment.bytes.length) { header := call.header, payload := .indeterminate }
    if rvalue ≠ statusOk then
      return none
    -- The `%s` of `printf`.
    let _ ← response.payload.toCString
    let reply ← handleRequest call.env response.header response.payload
    let _ ← destroyResponse response
    return some reply

/-- What the worker does without a heap. -/
def WorkerCall.result (call : WorkerCall) : Option (Option Reply) :=
  match call.received with
  | none => some none
  | some segment =>
    ClientServer.serverWorker call.env call.malloc call.buffer segment
      { header := call.header, payload := .indeterminate }

/-! ## What they own -/

theorem owns_sendErrorResponse (env : ServerEnv) (sent : ℕ) (command errorCode : UInt8)
    (errorMessage : CString) :
    Owns ∅ (sendErrorResponse env sent command errorCode errorMessage)
      (ClientServer.sendErrorResponse env sent command errorCode errorMessage) id fun _ => ∅ := by
  refine owns_bind (owns_createMessage _ _ _) ?_
  rintro ⟨rvalue, message⟩ -
  dsimp only
  refine owns_ite (fun _ => ?_) fun _ => ?_
  · exact owns_bind (owns_destroyMessage message) fun _ _ => owns_pure rfl rfl
  · refine owns_bind (owns_bytes message) fun data _ => ?_
    exact owns_bind (owns_destroyMessage message) fun _ _ => owns_pure rfl rfl

theorem owns_sendFileMetadata (env : ServerEnv) (fileName : CString) :
    Owns ∅ (sendFileMetadata env fileName)
      (ClientServer.sendFileMetadata env fileName) id fun _ => ∅ := by
  unfold sendFileMetadata ClientServer.sendFileMetadata
  generalize snprintf 256 (fullPath fileName) = formatted
  obtain ⟨rvalue, path⟩ := formatted
  dsimp only
  refine owns_ite (fun _ => ?_) fun _ => ?_
  · exact owns_bind (owns_sendErrorResponse _ _ _ _ _) fun _ _ => owns_pure rfl rfl
  cases env.stat path with
  | none => exact owns_bind (owns_sendErrorResponse _ _ _ _ _) fun _ _ => owns_pure rfl rfl
  | some size =>
    have htext : (snprintf 256 (.ofLiteral "Size: " ++ .ofInt size)).2 = metadataText size := rfl
    dsimp only
    rw [htext]
    refine owns_bind (owns_createMessage _ _ _) ?_
    rintro ⟨rvalue, message⟩ -
    refine owns_ite (fun _ => ?_) fun _ => ?_
    · refine owns_bind (owns_destroyMessage message) fun _ _ => ?_
      exact owns_bind (owns_sendErrorResponse _ _ _ _ _) fun _ _ => owns_pure rfl rfl
    · refine owns_bind (owns_bytes message) fun data _ => ?_
      refine owns_bind (owns_destroyMessage message) fun _ _ => ?_
      refine owns_ite (fun _ => ?_) fun _ => owns_pure rfl rfl
      exact owns_bind (owns_sendErrorResponse _ _ _ _ _) fun _ _ => owns_pure rfl rfl

/-- The loop is given the open file and closes it, whichever way it ends. -/
theorem owns_sendChunks (env : ServerEnv) (file : ℕ) (totalChunks : UInt32) :
    ∀ remaining chunkIndex,
      Owns {(.file, file)} (sendChunks env file totalChunks chunkIndex remaining)
        (ClientServer.sendChunks env totalChunks chunkIndex remaining) id fun _ => ∅ := by
  intro remaining
  induction remaining with
  | zero =>
    intro chunkIndex
    exact owns_release_given_bind (owns_pure rfl rfl)
  | succ remaining ih =>
    intro chunkIndex
    refine owns_use_bind (Finset.mem_singleton_self _) ?_
    refine owns_bind (owns_frame_acquiring (owns_createMessage _ _ _) _) ?_
    rintro ⟨rvalue, message⟩ -
    have hfile := message.data.disjoint_owned_file file
    have hdestroy := owns_frame_releasing (owns_destroyMessage message) hfile
    refine owns_ite (fun _ => ?_) fun _ => ?_
    · refine owns_bind hdestroy fun _ _ => owns_release_given_bind ?_
      exact owns_bind (owns_sendErrorResponse _ _ _ _ _) fun _ _ => owns_pure rfl rfl
    · refine owns_bind (owns_frame (owns_bytes message) hfile) fun data _ => ?_
      dsimp only [id]
      -- The loop frees the message on either side of the check.
      by_cases hsent : env.send chunkIndex data ≠ message.size.toNat
      · have hvalue : env.send chunkIndex data ≠ message.value.size.toNat := hsent
        simp only [if_pos hsent, if_pos hvalue]
        refine owns_release_bind rfl hfile ?_
        refine owns_bind (owns_destroyMessage message) fun _ _ => ?_
        exact owns_bind (owns_sendErrorResponse _ _ _ _ _) fun _ _ => owns_pure rfl rfl
      · have hvalue : ¬env.send chunkIndex data ≠ message.value.size.toNat := hsent
        simp only [if_neg hsent, if_neg hvalue]
        refine owns_bind hdestroy fun _ _ => ?_
        exact owns_bind (ih (chunkIndex + 1)) fun _ _ => owns_pure rfl rfl

theorem owns_sendFileContents (env : ServerEnv) (fileName : CString) :
    Owns ∅ (sendFileContents env fileName)
      (ClientServer.sendFileContents env fileName) id fun _ => ∅ := by
  unfold sendFileContents ClientServer.sendFileContents
  generalize snprintf 256 (fullPath fileName) = formatted
  obtain ⟨rvalue, path⟩ := formatted
  dsimp only
  refine owns_ite (fun _ => ?_) fun _ => owns_ite (fun _ => ?_) fun _ => ?_
  · exact owns_bind (owns_sendErrorResponse _ _ _ _ _) fun _ _ => owns_pure rfl rfl
  · exact owns_bind (owns_sendErrorResponse _ _ _ _ _) fun _ _ => owns_pure rfl rfl
  · refine owns_acquire_bind Kind.file fun file => ?_
    refine owns_use_bind (Finset.mem_singleton_self _) ?_
    refine owns_bind (owns_lift _) fun chunks _ => ?_
    exact owns_bind (owns_sendChunks env file _ _ _) fun _ _ => owns_pure rfl rfl

/-- The payload is only borrowed. -/
theorem owns_handleRequest (env : ServerEnv) (header : Header) (payload : BlockPtr) :
    Owns payload.owned (handleRequest env header payload)
      (ClientServer.handleRequest env header payload.value) id fun _ => payload.owned := by
  refine owns_ite (fun _ => ?_) fun _ => owns_ite (fun _ => ?_) fun _ => ?_
  · refine owns_bind payload.owns_toCString fun fileName _ => ?_
    exact owns_frame_neutral (owns_sendFileMetadata env fileName) _
  · refine owns_bind payload.owns_toCString fun fileName _ => ?_
    exact owns_frame_neutral (owns_sendFileContents env fileName) _
  · exact owns_frame_neutral (owns_sendErrorResponse _ _ _ _ _) _

theorem owns_serverWorker (call : WorkerCall) :
    Owns {(.block, call.arg)} (serverWorker call) call.result id fun _ => ∅ := by
  refine owns_use_bind (Finset.mem_singleton_self _) (owns_release_given_bind ?_)
  unfold WorkerCall.result
  cases call.received with
  | none => exact owns_pure rfl rfl
  | some segment =>
    refine owns_bind (owns_parseMessage _ _ _ _) ?_
    rintro ⟨rvalue, response⟩ hparse
    refine owns_ite (fun hrvalue => ?_) fun _ => ?_
    · exact owns_pure (BlockPtr.owned_eq_empty (ne_block_of_parseMessage hparse hrvalue)) rfl
    · refine owns_bind response.payload.owns_toCString fun _ _ => ?_
      refine owns_bind (owns_handleRequest call.env _ response.payload) fun _ _ => ?_
      exact owns_bind (owns_destroyResponse response) fun _ _ => owns_pure rfl rfl

/-! ## Workers that run alternately -/

section Workers

variable {ι : Type} [DecidableEq ι]

/-- Workers on one heap, each given the block of its argument. -/
def workers (calls : ι → WorkerCall) (others : Finset (Kind × ℕ)) :
    TransitionSystem (Finset (Kind × ℕ) × (ι → Holding Kind (Option Reply))) :=
  interleaving (fun i => serverWorker (calls i)) (fun i => {(.block, (calls i).arg)}) others

section Reachable

variable {calls : ι → WorkerCall} {others : Finset (Kind × ℕ)}
  {s : Finset (Kind × ℕ) × (ι → Holding Kind (Option Reply))}

/-- What each worker owns. -/
theorem exists_divided_workers (hargs : Function.Injective fun i => (calls i).arg)
    (hothers : ∀ i, (.block, (calls i).arg) ∉ others) (h : (workers calls others).Reachable s) :
    ∃ owned, Divided (fun i => (calls i).result) id (fun _ => ∅) others s owned := by
  refine exists_divided (fun i => owns_serverWorker (calls i)) ?_
    (fun i => Finset.disjoint_singleton_left.mpr (hothers i)) h
  intro i j hij
  rw [Finset.disjoint_singleton]
  intro heq
  exact hij (hargs (Prod.mk.inj heq).2)

/-- **Memory safety of the workers.** In whatever order the workers of several connections allocate,
use and free blocks and files, none uses or frees what it does not have, and each of them ends as it
does without a heap. None is at fault unless its request makes its behaviour undefined, and once all
have returned, the blocks of their arguments and all that they acquired are released, and nothing
else. -/
theorem workers_release (hargs : Function.Injective fun i => (calls i).arg)
    (hothers : ∀ i, (.block, (calls i).arg) ∉ others) (h : (workers calls others).Reachable s) :
    (∀ i, s.2 i ≠ .misused) ∧ (∀ i, s.2 i = .fault → (calls i).result = none) ∧
      (∀ i reply, s.2 i = .done reply → (calls i).result = some reply) ∧
      ((∀ i, ∃ reply, s.2 i = .done reply) → s.1 = others) := by
  obtain ⟨owned, hdivided⟩ := exists_divided_workers hargs hothers h
  refine ⟨fun i => (hdivided.result i).1, fun i => (hdivided.result i).2.1, ?_, hdivided.held_eq⟩
  intro i reply hdone
  exact ((hdivided.result i).2.2 reply hdone).1

/-- **Progress.** Where every `send` returns, at any point of such a run a worker whose behaviour is
defined can return while the others wait. -/
theorem workers_return (hargs : Function.Injective fun i => (calls i).arg)
    (hothers : ∀ i, (.block, (calls i).arg) ∉ others) (h : (workers calls others).Reachable s)
    {i : ι} {reply : Option Reply} (hresult : (calls i).result = some reply) :
    ∃ held, Relation.ReflTransGen (workers calls others).step s
      (held, Function.update s.2 i (.done reply)) := by
  obtain ⟨owned, hdivided⟩ := exists_divided_workers hargs hothers h
  obtain ⟨_, held, rfl, hrun⟩ := hdivided.exists_run hresult (Allocator.next Kind)
  exact ⟨held, hrun⟩

end Reachable

/-! Two workers, each of which is asked for a file of one byte. -/

def oneRequestCall (i : Fin 2) : WorkerCall where
  arg := i
  env := .oneByte
  malloc := true
  received := ServerProcess.oneRequest.received i
  buffer := (ServerProcess.oneRequest.worker i).buffer
  header := .init

theorem exists_serverWorker_of_calls {env : WorkerEnv} {segment : Segment} {calls : List Event}
    (h : env.calls (some segment) = some calls) : ∃ reply,
    ClientServer.serverWorker env.server env.malloc env.buffer segment env.response =
      some reply := by
  rw [WorkerEnv.calls, Option.bind_eq_bind, Option.bind_eq_some_iff] at h
  obtain ⟨reply, hreply, -⟩ := h
  exact ⟨reply, hreply⟩

theorem exists_result_oneRequestCall (i : Fin 2) :
    ∃ reply, (oneRequestCall i).result = some reply := by
  obtain ⟨calls, hcalls, -⟩ := ServerProcess.calls_oneRequest
  exact exists_serverWorker_of_calls hcalls

theorem injective_oneRequestCall : Function.Injective fun i => (oneRequestCall i).arg :=
  Fin.val_injective

/-- The first worker has freed the block of its argument, and the second one has not started. -/
theorem exists_reachable_oneRequestCall : ∃ s, (workers oneRequestCall ∅).Reachable s ∧
    s.1 = {(Kind.block, 1)} ∧ s.2 1 = serverWorker (oneRequestCall 1) := by
  have hinit : (workers oneRequestCall ∅).Reachable
      ({(Kind.block, 0), (Kind.block, 1)}, fun i => serverWorker (oneRequestCall i)) := by
    refine .init ⟨fun r => ?_, rfl⟩
    simp [oneRequestCall]
  have huse : (workers oneRequestCall ∅).Reachable (_, Function.update _ 0 _) :=
    hinit.step ⟨0, _, .use (by decide), rfl⟩
  have hrelease : (workers oneRequestCall ∅).Reachable (_, Function.update _ 0 _) :=
    huse.step ⟨0, _, .release (by decide), rfl⟩
  exact ⟨_, hrelease, by decide, rfl⟩

theorem notMem_empty_oneRequestCall (i : Fin 2) :
    (Kind.block, (oneRequestCall i).arg) ∉ (∅ : Finset (Kind × ℕ)) :=
  Finset.notMem_empty _

/-- From any point the worker of a connection returns while the other one waits. -/
theorem exists_run_oneRequestCall {s : Finset (Kind × ℕ) × (Fin 2 → Holding Kind (Option Reply))}
    (h : (workers oneRequestCall ∅).Reachable s) (i : Fin 2) :
    ∃ reply held, (workers oneRequestCall ∅).Reachable
      (held, Function.update s.2 i (.done reply)) := by
  obtain ⟨reply, hresult⟩ := exists_result_oneRequestCall i
  obtain ⟨owned, hdivided⟩ :=
    exists_divided_workers injective_oneRequestCall notMem_empty_oneRequestCall h
  obtain ⟨_, held, rfl, hrun⟩ := hdivided.exists_run hresult (Allocator.next Kind)
  exact ⟨_, held, h.trans hrun⟩

theorem workers_return_oneRequest : ∃ s reply held, (workers oneRequestCall ∅).Reachable s ∧
    s.1 = {(Kind.block, 1)} ∧ s.2 1 = serverWorker (oneRequestCall 1) ∧
    Relation.ReflTransGen (workers oneRequestCall ∅).step s
      (held, Function.update s.2 1 (.done reply)) := by
  obtain ⟨s, hs, hheld, hnext⟩ := exists_reachable_oneRequestCall
  obtain ⟨reply, hresult⟩ := exists_result_oneRequestCall 1
  obtain ⟨held, hrun⟩ :=
    workers_return injective_oneRequestCall notMem_empty_oneRequestCall hs hresult
  exact ⟨s, reply, held, hs, hheld, hnext, hrun⟩

/-- The second worker returns while the first one waits, and then the first one does. -/
theorem workers_release_oneRequest : ∃ replies : Fin 2 → Option Reply,
    (workers oneRequestCall ∅).Reachable (∅, fun i => .done (replies i)) ∧
      (oneRequestCall 0).result = some (replies 0) ∧
      (oneRequestCall 1).result = some (replies 1) := by
  obtain ⟨s, hs, -, -⟩ := exists_reachable_oneRequestCall
  obtain ⟨second, held', hs'⟩ := exists_run_oneRequestCall hs 1
  obtain ⟨first, held, hreach⟩ := exists_run_oneRequestCall hs' 0
  have hends : Function.update (Function.update s.2 1 (.done second)) 0 (.done first) =
      fun i : Fin 2 => .done (if i = 0 then first else second) := by
    funext i
    match i with
    | 0 => rfl
    | 1 => rfl
  rw [hends] at hreach
  obtain ⟨-, -, hresult, hend⟩ :=
    workers_release injective_oneRequestCall notMem_empty_oneRequestCall hreach
  have hheld : held = ∅ := hend fun i => ⟨_, rfl⟩
  rw [hheld] at hreach
  exact ⟨_, hreach, hresult 0 _ rfl, hresult 1 _ rfl⟩

end Workers

end CExamples.ClientServer.Heap

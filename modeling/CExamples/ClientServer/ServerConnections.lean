import CExamples.ClientServer.ServerSteps
import CExamples.ClientServer.TransferLimits

/-!
# The connections of the server

What holds in every reachable state of the process, however its threads are interleaved: which
faults there can be and who holds what (`server_resources`), what each connection was given and when
it was closed (`server_isolation`), that a worker waits for no other thread and ends before its
return only with the whole process, at a `send` to a peer that is gone (`server_progress`), and that
a file is transferred whole whatever the other connections ask for (`server_transfers_file`).
-/

namespace CExamples.ClientServer

open C

/-- An upper bound of the statements that a worker still has to run. -/
def WorkerPoint.left (calls : List Event) : WorkerPoint → ℕ
  | .readArg _ => calls.length + 6
  | .freeArg _ _ => calls.length + 5
  | .receive _ => calls.length + 4
  | .handle _ left => left.length + 3
  | .shutdown _ => 2
  | .close _ => 1
  | .returned => 0

namespace ServerProcess

variable {out : Outside} {s s' : ServerProcess} {c : ℕ} {w : WorkerPoint}

/-! ## Resources -/

/-- **Resources.** The process faults only where `malloc` returned null or what a worker does with
its request is undefined. While it runs, each live cell and each open connection is held by exactly
one thread, no thread keeps what it has given up, and the listening socket stays open. -/
theorem server_resources (out : Outside) :
    (∀ e, (system out).Reachable (.error e) → ∃ s, (system out).Reachable (.ok s) ∧
      ((e = .nullPointer ∧ s.main = .accept none) ∨
        (e = .request ∧ ∃ c < s.accepted, (out.worker c).calls (out.received c) = none))) ∧
      ∀ s, (system out).Reachable (.ok s) →
        (∀ p, s.cells p ≠ none ↔ ∃! i, s.cellOf i = some p) ∧
        (∀ fd, (∃ c, s.descriptors fd = some (.connection c)) ↔ ∃! i, s.descriptorOf i = some fd) ∧
        s.descriptors out.serverSocket = some .listening := by
  constructor
  · intro e h
    generalize hr : (Except.error e : Except Fault ServerProcess) = r at h
    cases h with
    | init h₀ => cases hr.trans h₀
    | step h hs =>
      obtain ⟨s, rfl, hs⟩ := hs
      subst hr
      have hinv := Inv.of_reachable h s rfl
      refine ⟨s, h, ?_⟩
      cases hs with
      | main hs =>
        rcases hinv.mainStep hs with ⟨_, hok, -⟩ | ⟨herror, hmain⟩
        · cases hok
        · cases herror
          exact .inl ⟨rfl, hmain⟩
      | worker c hs =>
        rcases hinv.workerStep hs with ⟨_, hok, -⟩ | ⟨herror, hlt, hcalls⟩
        · cases hok
        · cases herror
          exact .inr ⟨rfl, c, hlt, hcalls⟩
  · intro s h
    have hinv := Inv.of_reachable h s rfl
    exact ⟨hinv.cells.live_iff_existsUnique, hinv.descriptors.live_iff_existsUnique,
      hinv.listening⟩

/-! ## Progress -/

/-- Where a worker is after a statement that is no fault. -/
theorem workers_of_bind {α : Type} {x : Except Fault α} {g : α → ServerProcess}
    {f : α → WorkerPoint} (h : (do let a ← x; return (g a).setWorker c (f a)) = Except.ok s') :
    ∃ a, s'.workers c = some (f a) := by
  cases x with
  | error e => cases h
  | ok a =>
    cases h
    exact ⟨a, workers_setWorker_self ..⟩

/-- A worker whose request is defined and that has not returned can run its next statement. -/
theorem Inv.exists_workerStep (h : Inv out s) {calls : List Event}
    (hcalls : (out.worker c).calls (out.received c) = some calls) (hw : s.workers c = some w)
    (hne : w ≠ .returned) :
    ∃ s' w', WorkerStep out c s (.ok s') ∧ Inv out s' ∧ s'.workers c = some w' ∧
      w'.left calls < w.left calls := by
  have hkept : ∀ {r}, WorkerStep out c s r → Kept out r := by
    intro r hs
    refine (h.workerStep hs).resolve_right ?_
    rintro ⟨-, -, hnone⟩
    cases hcalls.symm.trans hnone
  cases w with
  | readArg p =>
    have hs : WorkerStep out c s _ := .readArg p hw
    obtain ⟨s', hs', hinv⟩ := hkept hs
    obtain ⟨fd, hw'⟩ := workers_of_bind (g := fun _ => s) (f := .freeArg p) hs'
    exact ⟨s', _, hs' ▸ hs, hinv, hw', by simp [WorkerPoint.left]⟩
  | freeArg p fd =>
    have hs : WorkerStep out c s _ := .freeArg p fd hw
    obtain ⟨s', hs', hinv⟩ := hkept hs
    obtain ⟨-, hw'⟩ := workers_of_bind (g := id) (f := fun _ => .receive fd) hs'
    exact ⟨s', _, hs' ▸ hs, hinv, hw', by simp [WorkerPoint.left]⟩
  | receive fd =>
    obtain ⟨hc, -, -⟩ := h.connection_of_worker hw rfl
    have hs : WorkerStep out c s _ := .receive fd hw
    rw [hc] at hs
    simp only [Bind.bind, Except.bind, hcalls] at hs
    obtain ⟨s', hs', hinv⟩ := hkept hs
    cases hs'
    exact ⟨_, _, hs, hinv, workers_setWorker_self .., by simp [WorkerPoint.left]⟩
  | handle fd left =>
    cases left with
    | nil =>
      have hs : WorkerStep out c s _ := .handled fd hw
      obtain ⟨s', hs', hinv⟩ := hkept hs
      cases hs'
      refine ⟨_, _, hs, hinv, workers_setWorker_self .., ?_⟩
      split <;> simp [WorkerPoint.left]
    | cons event left =>
      have hs : WorkerStep out c s _ := .call fd event left hw
      obtain ⟨s', hs', hinv⟩ := hkept hs
      obtain ⟨-, hw'⟩ := workers_of_bind (g := id) (f := fun _ => .handle fd left) hs'
      exact ⟨s', _, hs' ▸ hs, hinv, hw', by simp [WorkerPoint.left]⟩
  | shutdown fd =>
    have hs : WorkerStep out c s _ := .shutdown fd hw
    obtain ⟨s', hs', hinv⟩ := hkept hs
    obtain ⟨-, hw'⟩ := workers_of_bind (g := fun _ => s) (f := fun _ => .close fd) hs'
    exact ⟨s', _, hs' ▸ hs, hinv, hw', by simp [WorkerPoint.left]⟩
  | close fd =>
    have hs : WorkerStep out c s _ := .close fd hw
    obtain ⟨s', hs', hinv⟩ := hkept hs
    obtain ⟨-, hw'⟩ := workers_of_bind (g := id) (f := fun _ => .returned) hs'
    exact ⟨s', _, hs' ▸ hs, hinv, hw', by simp [WorkerPoint.left]⟩
  | returned => exact absurd rfl hne

/-- A statement of the worker that raises no signal. -/
def Runs (out : Outside) (gone : ServerProcess → ℕ → Prop) (c : ℕ) (s s' : ServerProcess) : Prop :=
  ¬s.Signalled gone c ∧ WorkerStep out c s (.ok s')

/-- A worker whose request is defined can run on, alone, until it returns or a signal ends the
process. -/
theorem Inv.exists_run_worker (h : Inv out s) {calls : List Event}
    (hcalls : (out.worker c).calls (out.received c) = some calls) (hw : s.workers c = some w)
    (gone : ServerProcess → ℕ → Prop) :
    ∃ s', Relation.ReflTransGen (Runs out gone c) s s' ∧
      (s'.workers c = some .returned ∨ s'.Signalled gone c) := by
  -- On the statements that are left to the worker.
  induction hn : w.left calls using Nat.strongRecOn generalizing s w with
  | ind n ih =>
    by_cases hne : w = .returned
    · exact ⟨s, .refl, .inl (hne ▸ hw)⟩
    by_cases hsignal : s.Signalled gone c
    · exact ⟨s, .refl, .inr hsignal⟩
    · obtain ⟨t, w', hs, hinv, hw', hlt⟩ := h.exists_workerStep hcalls hw hne
      obtain ⟨s', hrun, hend⟩ := ih _ (hn ▸ hlt) hinv hw' rfl
      exact ⟨s', .head ⟨hsignal, hs⟩ hrun, hend⟩

theorem workers_of_free {p : ℕ} (h : s.free p = .ok s') : s'.workers = s.workers := by
  unfold free at h
  split at h
  · cases h
  · cases h
    rfl

theorem workers_of_close {fd : ℤ} (h : s.close fd = .ok s') : s'.workers = s.workers := by
  unfold close at h
  cases hc : s.connection fd with
  | error e =>
    rw [hc] at h
    cases h
  | ok c =>
    rw [hc] at h
    cases h
    rfl

theorem workers_of_call {fd : ℤ} {event : Event} (h : s.call fd event = .ok s') :
    s'.workers = s.workers := by
  cases event with
  | stat | fopen | createMessage =>
    cases h
    rfl
  | send data bytesSent =>
    cases hc : s.connection fd with
    | error e =>
      rw [call, hc] at h
      cases h
    | ok c =>
      rw [call, hc] at h
      cases h
      rfl

/-- A statement that moves a worker behind what leaves all of them where they are. -/
theorem workers_of_bind_ne {α : Type} {x : Except Fault α} {g : α → ServerProcess}
    {f : α → WorkerPoint} {c' : ℕ}
    (h : (do let a ← x; return (g a).setWorker c (f a)) = Except.ok s')
    (hg : ∀ a, x = .ok a → (g a).workers = s.workers) (hne : c' ≠ c) :
    s'.workers c' = s.workers c' := by
  cases x with
  | error e => cases h
  | ok a =>
    cases h
    rw [← hg a rfl]
    exact Function.update_of_ne hne ..

/-- A statement of one worker leaves the others where they are. -/
theorem workers_of_workerStep {c' : ℕ} (hs : WorkerStep out c s (.ok s')) (hne : c' ≠ c) :
    s'.workers c' = s.workers c' := by
  generalize hr : (Except.ok s' : Except Fault ServerProcess) = r at hs
  cases hs with
  | readArg p _ => exact workers_of_bind_ne (g := fun _ => s) hr.symm (fun _ _ => rfl) hne
  | freeArg p fd _ => exact workers_of_bind_ne (g := id) hr.symm (fun _ => workers_of_free) hne
  | receive fd _ =>
    cases hc : s.connection fd with
    | error e =>
      rw [hc] at hr
      cases hr
    | ok d =>
      rw [hc] at hr
      simp only [Bind.bind, Except.bind] at hr
      split at hr
      · cases hr
      · cases hr
        exact Function.update_of_ne hne ..
  | call fd event calls _ =>
    exact workers_of_bind_ne (g := id) hr.symm (fun _ => workers_of_call) hne
  | handled fd _ =>
    cases hr
    exact Function.update_of_ne hne ..
  | shutdown fd _ => exact workers_of_bind_ne (g := fun _ => s) hr.symm (fun _ _ => rfl) hne
  | close fd _ => exact workers_of_bind_ne (g := id) hr.symm (fun _ => workers_of_close) hne

theorem workers_of_runs {gone : ServerProcess → ℕ → Prop} {c' : ℕ} (hne : c' ≠ c)
    (h : Relation.ReflTransGen (Runs out gone c) s s') : s'.workers c' = s.workers c' := by
  induction h with
  | refl => rfl
  | tail _ hs ih => rw [workers_of_workerStep hs.2 hne, ih]

/-! ## Requests for files -/

/-- A file that is served goes out in the pieces in which it is sent. -/
theorem exists_sendFileContents_pieces {env : ServerEnv} {fileName : CString}
    {contents : List UInt8} (h : env.Serves (fullPath fileName) contents)
    (hpath : (fullPath fileName).chars.length < 256)
    (hle : contents.length ≤ 1024 * (2 ^ 32 - 1)) :
    ∃ reply, sendFileContents env fileName = some reply ∧
      pieces reply.events = (fileFrames env contents).map Frame.encode := by
  obtain ⟨chunks, hchunks, hcount⟩ := exists_calculateTotalChunks hle
  have htotal : UInt32.ofInt chunks = UInt32.ofNat (chunkCount contents) :=
    UInt32.toNat_inj.mp (hcount.trans (toNat_chunkCount hle).symm)
  have hloop := sendChunks_of_chunkSent fun i (_ : i < (UInt32.ofInt chunks).toNat) =>
    ⟨h.chunkMalloc i, h.send i _⟩
  rw [sendFileContents_of_fopen hpath h.fopen, h.ftell, hchunks, Option.bind_some, hloop]
  refine ⟨_, rfl, ?_⟩
  rw [Reply.events_after, List.singleton_append, pieces_cons_fopen, pieces_chunkEvents, htotal,
    toNat_chunkCount hle]
  rfl

/-- The calls of a worker that is asked for a file that it serves. -/
theorem exists_calls_of_request {env : WorkerEnv} (hmalloc : env.malloc = true)
    {fileName : CString} {contents : List UInt8}
    (hserves : env.server.Serves (fullPath fileName) contents)
    (hpath : (fullPath fileName).chars.length < 256)
    (hle : contents.length ≤ 1024 * (2 ^ 32 - 1)) :
    ∃ calls, env.calls (some (requestFrame commandRequestFile fileName
      (length_fileName_lt hpath)).segment) = some calls ∧
      pieces calls = (fileFrames env.server contents).map Frame.encode := by
  obtain ⟨reply, hreply, hpieces⟩ := exists_sendFileContents_pieces hserves hpath hle
  have hhandle : handleRequest env.server (requestHeader commandRequestFile fileName)
      (.block fileName.memory) = some reply := by
    rw [handleRequest_of_file rfl, Ptr.toCString_memory, Option.bind_some, hreply]
  refine ⟨reply.events, ?_, hpieces⟩
  rw [WorkerEnv.calls, hmalloc, serverWorker_of_requestFrame (length_fileName_lt hpath) rfl,
    hhandle]
  rfl

/-! ## One connection -/

/-- What a worker reaches alone, the process reaches. -/
theorem reachable_of_worker (h : (system out).Reachable (.ok s))
    {gone : ServerProcess → ℕ → Prop} (hrun : Relation.ReflTransGen (Runs out gone c) s s') :
    (system out).Reachable (.ok s') := by
  induction hrun with
  | refl => exact h
  | tail _ hs ih => exact ih.step ⟨_, rfl, .worker c hs.2⟩

/-- The workers of the first two connections are created. -/
theorem exists_created (hsocket : out.serverSocket = 3) (gone : ServerProcess → ℕ → Prop) :
    ∃ s, (signalSystem out gone).Reachable (some (.ok s)) ∧ s.workers 0 = some (.readArg 0) ∧
      s.workers 1 = some (.readArg 1) ∧ s.cells 1 = some (.value 5) := by
  obtain ⟨serverSocket, received, worker⟩ := out
  subst hsocket
  have hmalloc := TransitionSystem.Reachable.step (T := signalSystem ⟨3, received, worker⟩ gone)
    (.init rfl) ⟨_, rfl, .main (.malloc 0 rfl rfl)⟩
  have haccept := hmalloc.step ⟨_, rfl, .main (.accept 0 4 rfl (by decide) rfl)⟩
  have htest := haccept.step ⟨_, rfl, .main (.test 0 rfl)⟩
  have hcreate := htest.step ⟨_, rfl, .main (.create 0 rfl)⟩
  have hdetach := hcreate.step ⟨_, rfl, .main (.detach rfl)⟩
  have hmalloc' := hdetach.step ⟨_, rfl, .main (.malloc 1 rfl rfl)⟩
  have haccept' := hmalloc'.step ⟨_, rfl, .main (.accept 1 5 rfl (by decide) rfl)⟩
  have htest' := haccept'.step ⟨_, rfl, .main (.test 1 rfl)⟩
  have hcreate' := htest'.step ⟨_, rfl, .main (.create 1 rfl)⟩
  exact ⟨_, hcreate', rfl, rfl, rfl⟩

/-- The second worker waits for its request, and the first one returns. -/
theorem exists_returned (hsocket : out.serverSocket = 3)
    (hcalls : (out.worker 0).calls (out.received 0) ≠ none) :
    ∃ s, (system out).Reachable (.ok s) ∧ s.workers 0 = some .returned ∧
      s.workers 1 = some (.receive 5) := by
  obtain ⟨s, hs, hw, hw', hcell⟩ := exists_created hsocket fun _ _ => False
  obtain ⟨calls, hcalls⟩ := Option.ne_none_iff_exists'.mp hcalls
  have hread : WorkerStep out 1 s _ := .readArg 1 hw'
  rw [load, hcell] at hread
  have hfree : WorkerStep out 1 (s.setWorker 1 (.freeArg 1 5)) _ :=
    .freeArg 1 5 (workers_setWorker_self ..)
  have hcell' : (s.setWorker 1 (.freeArg 1 5)).cells 1 ≠ none :=
    hcell.symm ▸ Option.some_ne_none _
  rw [free, if_neg hcell'] at hfree
  -- Now the first worker runs, and the second one stays where it is.
  have hreach := ((reachable_of_signalSystem hs).step ⟨_, rfl, .worker 1 hread⟩).step
    ⟨_, rfl, .worker 1 hfree⟩
  obtain ⟨s', hrun, hret | ⟨⟨⟩, -⟩⟩ := (Inv.of_reachable hreach _ rfl).exists_run_worker hcalls
    (c := 0) (w := .readArg 0) hw fun _ _ => False
  refine ⟨s', reachable_of_worker hreach hrun, hret, ?_⟩
  rw [workers_of_runs Nat.one_ne_zero hrun]
  exact workers_setWorker_self ..

/-- Every connection asks for a file of one byte. -/
def oneRequest : Outside where
  serverSocket := 3
  received _ := some (requestFrame commandRequestFile (.ofLiteral "one.txt") (by decide)).segment
  worker _ :=
    { server := .oneByte
      malloc := true
      buffer := ⟨List.replicate maxMessageSize 0, List.length_replicate⟩
      response := { header := .init, payload := .indeterminate } }

theorem calls_oneRequest : ∃ calls,
    (oneRequest.worker 0).calls (oneRequest.received 0) = some calls ∧
      pieces calls = (fileFrames .oneByte [65]).map Frame.encode :=
  exists_calls_of_request rfl (serves_serving (by decide) _) (by decide) (by decide)

theorem exists_returned_oneRequest : ∃ s, (system oneRequest).Reachable (.ok s) ∧
    s.workers 0 = some .returned := by
  obtain ⟨calls, hcalls, -⟩ := calls_oneRequest
  obtain ⟨s, hs, hw, -⟩ := exists_returned rfl (by rw [hcalls]; exact Option.some_ne_none _)
  exact ⟨s, hs, hw⟩

/-! ## Isolation -/

/-- A worker that has returned has closed its connection. -/
theorem Inv.not_open_of_returned (h : Inv out s) (hw : s.workers c = some .returned) :
    ¬ s.Open c := by
  rintro ⟨fd, hfd⟩
  have hholds := h.holder_of_connection hfd
  rw [if_neg (by simp [hw]), descriptorOf_worker hw] at hholds
  cases hholds

/-- What a worker has sent is a beginning of what it sends for its own request. -/
theorem Inv.sent_prefix (h : Inv out s) {calls : List Event}
    (hcalls : (out.worker c).calls (out.received c) = some calls) :
    s.sent c <+: pieces calls := by
  cases hw : s.workers c with
  | none =>
    rw [h.refused c hw]
    exact List.nil_prefix
  | some w =>
    have hprogress := (h.worker c w hw).progress
    cases w with
    | readArg | freeArg | receive =>
      have hsent : s.sent c = [] := hprogress
      rw [hsent]
      exact List.nil_prefix
    | handle fd left =>
      obtain ⟨made, hmade, hsent⟩ := hprogress
      cases hcalls.symm.trans hmade
      rw [hsent, pieces_append]
      exact List.prefix_append ..
    | shutdown | close | returned =>
      obtain ⟨calls', hcalls', hsent⟩ := hprogress
      cases hcalls.symm.trans hcalls'
      exact hsent ▸ List.prefix_refl _

/-- **Isolation.** However the threads are interleaved, a connection is closed at most once, and
exactly when no descriptor refers to it any more. What it has been given is at every moment a
beginning of what its worker sends for the request received on this connection, and all of it, with
the connection closed, once the worker has returned. A connection for which no worker could be
created is given nothing. -/
theorem server_isolation (out : Outside) (s : ServerProcess) (h : (system out).Reachable (.ok s))
    (c : ℕ) (hc : c < s.accepted) :
    s.closes c ≤ 1 ∧ (s.closes c = 0 ↔ ∃ fd, s.descriptors fd = some (.connection c)) ∧
      (∀ calls, (out.worker c).calls (out.received c) = some calls →
        s.sent c <+: pieces calls) ∧
      (s.workers c = some .returned → s.closes c = 1 ∧
        ∃ calls, (out.worker c).calls (out.received c) = some calls ∧
          s.sent c = pieces calls) ∧
      (s.workers c = none → s.sent c = []) := by
  have hinv := Inv.of_reachable h s rfl
  obtain ⟨hle, hopen⟩ := hinv.closes c hc
  refine ⟨hle, hopen, fun calls => hinv.sent_prefix, ?_, hinv.refused c⟩
  intro hw
  have hclosed := mt hopen.mp (hinv.not_open_of_returned hw)
  exact ⟨by omega, (hinv.worker c _ hw).progress⟩

/-- One worker has returned, and another one waits for its request. -/
theorem server_isolation_oneRequest : ∃ s, (system oneRequest).Reachable (.ok s) ∧
    (s.workers 0 = some .returned ∧ s.closes 0 = 1) ∧
    s.workers 1 = some (.receive 5) ∧ s.closes 1 = 0 := by
  obtain ⟨calls, hcalls, -⟩ := calls_oneRequest
  obtain ⟨s, hs, hw, hw'⟩ := exists_returned rfl (by rw [hcalls]; exact Option.some_ne_none _)
  have hinv := Inv.of_reachable hs s rfl
  have hlt := (hinv.worker 0 _ hw).lt_accepted
  have hlt' := (hinv.worker 1 _ hw').lt_accepted
  obtain ⟨-, hopen, -⟩ := server_isolation oneRequest s hs 1 hlt'
  obtain ⟨-, hfd, -⟩ := hinv.connection_of_worker hw' rfl
  have hclosed := (server_isolation oneRequest s hs 0 hlt).2.2.2.1 hw
  exact ⟨s, hs, ⟨hw, hclosed.1⟩, hw', hopen.mpr ⟨5, hfd⟩⟩

/-- **No worker waits for another thread.** From every state that the process reaches, a worker
whose request is defined can go on by its own statements alone, whatever `main` and the other
workers are at, until it returns or comes to a `send` to a peer that is gone, which ends the
process. -/
theorem server_progress (out : Outside) (gone : ServerProcess → ℕ → Prop) (s : ServerProcess)
    (h : (signalSystem out gone).Reachable (some (.ok s))) (c : ℕ) (hworker : s.workers c ≠ none)
    (hcalls : (out.worker c).calls (out.received c) ≠ none) :
    ∃ s', Relation.ReflTransGen (Runs out gone c) s s' ∧
      (s'.workers c = some .returned ∨
        s'.Signalled gone c ∧ (signalSystem out gone).step (some (.ok s')) none) := by
  obtain ⟨w, hw⟩ := Option.ne_none_iff_exists'.mp hworker
  obtain ⟨calls, hcalls⟩ := Option.ne_none_iff_exists'.mp hcalls
  have hinv := Inv.of_reachable (reachable_of_signalSystem h) s rfl
  obtain ⟨s', hrun, hend⟩ := hinv.exists_run_worker hcalls hw gone
  refine ⟨s', hrun, hend.imp_right ?_⟩
  intro hsignal
  exact ⟨hsignal, s', rfl, .killed c hsignal⟩

/-- The peer of the second connection is gone, and the worker of the first one returns. -/
theorem server_progress_oneRequest : ∃ s s',
    (signalSystem oneRequest fun _ c => c = 1).Reachable (some (.ok s)) ∧
    s.workers 0 = some (.readArg 0) ∧ s.workers 1 = some (.readArg 1) ∧
    Relation.ReflTransGen (Runs oneRequest (fun _ c => c = 1) 0) s s' ∧
    s'.workers 0 = some .returned := by
  obtain ⟨s, hs, hw, hw', -⟩ := exists_created (show oneRequest.serverSocket = 3 from rfl)
    fun _ c => c = 1
  obtain ⟨calls, hcalls, -⟩ := calls_oneRequest
  obtain ⟨s', hrun, hret | ⟨hsignal, -⟩⟩ :=
    server_progress oneRequest _ s hs 0 (by rw [hw]; exact Option.some_ne_none _)
      (by rw [hcalls]; exact Option.some_ne_none _)
  · exact ⟨s, s', hs, hw, hw', hrun, hret⟩
  · exact absurd hsignal.1 Nat.zero_ne_one

/-- **A file among other connections.** A client whose request for a file of at least one byte and
less than 2^32 that is served arrives in one segment gets its contents, whatever the other
connections ask for and however the threads are interleaved: once its worker has returned, what its
connection was given, coalesced in any way, is the file to the client. -/
theorem server_transfers_file (out : Outside) (s : ServerProcess)
    (h : (system out).Reachable (.ok s)) (c : ℕ) (hw : s.workers c = some .returned)
    (fileName : CString) (hpath : (fullPath fileName).chars.length < 256)
    (contents : List UInt8) (hne : contents ≠ []) (hlt : contents.length < 2 ^ 32)
    (hmalloc : (out.worker c).malloc = true)
    (hserves : (out.worker c).server.Serves (fullPath fileName) contents)
    (hreceived : out.received c =
      some (requestFrame commandRequestFile fileName (length_fileName_lt hpath)).segment)
    (client : ClientEnv) (hclient : client.Succeeds) (buffer : ReceiveBuffer)
    (response : Response) (segments : List Segment)
    (hdelivers : Delivers maxMessageSize (s.sent c) [] (segments.map Segment.bytes)) :
    ∃ result, requestFileContents client fileName buffer segments response = some result ∧
      result.rvalue = statusOk ∧ result.response.payload = .block contents ∧
      result.response.header.payloadSize.toNat = contents.length ∧
      result.sent =
        [(requestFrame commandRequestFile fileName (length_fileName_lt hpath)).encode] := by
  have hle : contents.length ≤ 1024 * (2 ^ 32 - 1) := by omega
  obtain ⟨count, hcount⟩ := exists_chunkCount_eq hne
  have hinv := Inv.of_reachable h s rfl
  obtain ⟨calls, hcalls, hsent⟩ := (hinv.worker c _ hw).progress
  obtain ⟨calls', hcalls', hpieces⟩ := exists_calls_of_request hmalloc hserves hpath hle
  rw [hreceived, hcalls', Option.some_inj] at hcalls
  rw [hsent, ← hcalls, hpieces] at hdelivers
  have hsegments := hdelivers.eq_messages (by decide) (fullUntilLast_fileFrames hserves hcount)
  refine ⟨_, requestFileContents_of_fileFrames hserves hle hclient (length_fileName_lt hpath)
    hcount hsegments buffer response, rfl, rfl, ?_, rfl⟩
  exact UInt32.toNat_ofNat_of_lt' hlt

theorem server_transfers_file_oneRequest : ∃ s segments result,
    (system oneRequest).Reachable (.ok s) ∧
      Delivers maxMessageSize (s.sent 0) [] (segments.map Segment.bytes) ∧
      requestFileContents .reliable (.ofLiteral "one.txt")
          ⟨List.replicate maxMessageSize 0, List.length_replicate⟩ segments
          { header := .init, payload := .indeterminate } = some result ∧
        result.response.payload = .block [65] := by
  obtain ⟨s, hs, hw⟩ := exists_returned_oneRequest
  obtain ⟨calls, hcalls, hpieces⟩ := calls_oneRequest
  obtain ⟨calls', hcalls', hsent⟩ := ((Inv.of_reachable hs s rfl).worker 0 _ hw).progress
  obtain rfl := Option.some.inj (hcalls.symm.trans hcalls')
  have hdelivers : Delivers maxMessageSize (s.sent 0) []
      (((fileFrames .oneByte [65]).map Frame.segment).map Segment.bytes) := by
    rw [hsent, hpieces, map_segment]
    refine .of_length_le ?_
    intro message hmessage
    obtain ⟨frame, -, rfl⟩ := List.mem_map.mp hmessage
    exact ⟨frame.segment.ne_nil, frame.segment.length_le⟩
  obtain ⟨result, hresult, -, hpayload, -⟩ :=
    server_transfers_file oneRequest s hs 0 hw (.ofLiteral "one.txt") (by decide) [65]
      (List.cons_ne_nil 65 []) (by decide) rfl (serves_serving (by decide) _) rfl .reliable
      succeeds_reliable ⟨List.replicate maxMessageSize 0, List.length_replicate⟩
      { header := .init, payload := .indeterminate } _ hdelivers
  exact ⟨s, _, result, hs, hdelivers, hresult, hpayload⟩

end ServerProcess

end CExamples.ClientServer

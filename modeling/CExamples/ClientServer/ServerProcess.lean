import CExamples.ClientServer.ServerWorker
import CExamples.ClientServer.WireFraming
import CExamples.Common.TransitionSystem

/-!
# The server's process (`client_server/src/server.c`)

`main` allocates a cell for the descriptor of each connection that it accepts and passes it on to a
detached thread, which reads and frees it, serves the connection and closes it. The threads run
statement by statement in any order. Every access to a cell looks at the heap and every use of a
descriptor at the table of open files: an access to a cell that is not live or not yet written, and
a use of a descriptor that is not open on a connection, are faults.

Every call returns here (`system`): there is no state in which a thread blocks for ever in `accept`,
`recv` or `send`, and none behind a signal. A `send` to a peer that has closed its end raises
`SIGPIPE`, which the server does not handle, and that ends the process (`signalSystem`).
-/

namespace CExamples.ClientServer

open C

/-! ## What the process is given -/

/-- What the system answers to a worker, and what its variables hold when it starts. -/
structure WorkerEnv where
  server : ServerEnv
  malloc : Bool
  buffer : ReceiveBuffer
  response : Response

/-- The calls that a worker makes for what `recv` has returned, a segment or an error, up to
`socket_cleanup`. -/
def WorkerEnv.calls (env : WorkerEnv) : Option Segment → Option (List Event)
  | none => some []
  | some segment => do
    let reply ← serverWorker env.server env.malloc env.buffer segment env.response
    return (reply.map Reply.events).getD []

/-- The listening socket, what `recv` returns on each connection, and what the system answers to
each worker. -/
structure Outside where
  serverSocket : ℤ
  received : ℕ → Option Segment
  worker : ℕ → WorkerEnv

/-! ## States -/

/-- A heap cell for an `int`. -/
inductive Cell
  | uninitialized
  | value (n : ℤ)
deriving DecidableEq, Repr

inductive OpenFile
  | listening
  | connection (c : ℕ)
deriving DecidableEq, Repr

inductive Fault
  | nullPointer
  | memory
  | descriptor
  /-- What the worker does with the request is undefined. -/
  | request
deriving DecidableEq, Repr

/-- The statements of the loop in `main`, with the value of `client_socket`. -/
inductive MainPoint
  | malloc
  | accept (clientSocket : Option ℕ)
  | test (clientSocket : ℕ)
  | create (clientSocket : ℕ)
  | detach
  -- `socket_cleanup(*client_socket)`
  | cleanup (clientSocket : ℕ)
  | shutdown (clientSocket : ℕ) (fd : ℤ)
  | close (clientSocket : ℕ) (fd : ℤ)
  -- `free(client_socket)`, the last statement of either error path
  | free (clientSocket : ℕ)
deriving DecidableEq, Repr

/-- The statements of `server_worker`, with its argument, its socket and the calls left. -/
inductive WorkerPoint
  | readArg (arg : ℕ)
  | freeArg (arg : ℕ) (fd : ℤ)
  | receive (fd : ℤ)
  | handle (fd : ℤ) (calls : List Event)
  | shutdown (fd : ℤ)
  | close (fd : ℤ)
  | returned
deriving DecidableEq, Repr

/-- The state of the process. Connections are numbered in the order in which they are accepted, and
a worker has the number of the connection accepted last when it was created. `sent` is what each
connection was given by `send`, and `closes` how often it was closed. -/
structure ServerProcess where
  main : MainPoint
  workers : ℕ → Option WorkerPoint
  cells : ℕ → Option Cell
  descriptors : ℤ → Option OpenFile
  accepted : ℕ
  sent : ℕ → List (List UInt8)
  closes : ℕ → ℕ

namespace ServerProcess

/-! ## Memory and descriptors -/

def load (s : ServerProcess) (p : ℕ) : Except Fault ℤ :=
  match s.cells p with
  | some (.value n) => .ok n
  | _ => .error .memory

def store (s : ServerProcess) (p : ℕ) (n : ℤ) : Except Fault ServerProcess :=
  if s.cells p = none then .error .memory
  else .ok { s with cells := Function.update s.cells p (some (.value n)) }

def free (s : ServerProcess) (p : ℕ) : Except Fault ServerProcess :=
  if s.cells p = none then .error .memory
  else .ok { s with cells := Function.update s.cells p none }

/-- The connection that a descriptor refers to. -/
def connection (s : ServerProcess) (fd : ℤ) : Except Fault ℕ :=
  match s.descriptors fd with
  | some (.connection c) => .ok c
  | _ => .error .descriptor

/-- A new connection. -/
def accept (s : ServerProcess) (fd : ℤ) : ServerProcess :=
  { s with
    descriptors := Function.update s.descriptors fd (some (.connection s.accepted))
    accepted := s.accepted + 1 }

/-- A call of a worker: what `send` accepts goes to the connection of its descriptor. -/
def call (s : ServerProcess) (fd : ℤ) (event : Event) : Except Fault ServerProcess :=
  match event with
  | .send _ _ => do
    let c ← s.connection fd
    return { s with sent := Function.update s.sent c (s.sent c ++ pieces [event]) }
  | _ => .ok s

def close (s : ServerProcess) (fd : ℤ) : Except Fault ServerProcess := do
  let c ← s.connection fd
  return { s with
    descriptors := Function.update s.descriptors fd none
    closes := Function.update s.closes c (s.closes c + 1) }

def setMain (s : ServerProcess) (point : MainPoint) : ServerProcess :=
  { s with main := point }

def setWorker (s : ServerProcess) (c : ℕ) (point : WorkerPoint) : ServerProcess :=
  { s with workers := Function.update s.workers c (some point) }

/-! ## Statements -/

/-- A statement of `main`: the state after it, or the fault. `malloc` returns any address that is
not in use, and `accept` any descriptor that is not open. -/
inductive MainStep (s : ServerProcess) : Except Fault ServerProcess → Prop
  | malloc (p : ℕ) : s.main = .malloc → s.cells p = none → MainStep s (.ok
      { s with
        cells := Function.update s.cells p (some .uninitialized)
        main := .accept (some p) })
  | mallocFailed : s.main = .malloc → MainStep s (.ok (s.setMain (.accept none)))
  -- The result of `malloc` is not checked.
  | acceptNull : s.main = .accept none → MainStep s (.error .nullPointer)
  | accept (p : ℕ) (fd : ℤ) : s.main = .accept (some p) → 0 ≤ fd → s.descriptors fd = none →
      MainStep s (do return ((← (s.accept fd).store p fd).setMain (.test p)))
  | acceptFailed (p : ℕ) : s.main = .accept (some p) →
      MainStep s (do return ((← s.store p (-1)).setMain (.test p)))
  | test (p : ℕ) : s.main = .test p →
      MainStep s (do return s.setMain (if (← s.load p) = -1 then .free p else .create p))
  | create (p : ℕ) : s.main = .create p →
      MainStep s (.ok ((s.setWorker (s.accepted - 1) (.readArg p)).setMain .detach))
  | createFailed (p : ℕ) : s.main = .create p → MainStep s (.ok (s.setMain (.cleanup p)))
  | detach : s.main = .detach → MainStep s (.ok (s.setMain .malloc))
  | cleanup (p : ℕ) : s.main = .cleanup p → MainStep s (do
      let fd ← s.load p
      return s.setMain (if fd ≠ -1 then .shutdown p fd else .free p))
  | shutdown (p : ℕ) (fd : ℤ) : s.main = .shutdown p fd → MainStep s (do
      let _ ← s.connection fd
      return s.setMain (.close p fd))
  | close (p : ℕ) (fd : ℤ) : s.main = .close p fd →
      MainStep s (do return ((← s.close fd).setMain (.free p)))
  | free (p : ℕ) : s.main = .free p → MainStep s (do return ((← s.free p).setMain .malloc))

/-- A statement of the worker `c`. -/
inductive WorkerStep (out : Outside) (c : ℕ) (s : ServerProcess) :
    Except Fault ServerProcess → Prop
  | readArg (p : ℕ) : s.workers c = some (.readArg p) →
      WorkerStep out c s (do return s.setWorker c (.freeArg p (← s.load p)))
  | freeArg (p : ℕ) (fd : ℤ) : s.workers c = some (.freeArg p fd) →
      WorkerStep out c s (do return ((← s.free p).setWorker c (.receive fd)))
  | receive (fd : ℤ) : s.workers c = some (.receive fd) → WorkerStep out c s (do
      let received ← s.connection fd
      match (out.worker c).calls (out.received received) with
      | none => .error .request
      | some calls => .ok (s.setWorker c (.handle fd calls)))
  | call (fd : ℤ) (event : Event) (calls : List Event) :
      s.workers c = some (.handle fd (event :: calls)) →
      WorkerStep out c s (do return ((← s.call fd event).setWorker c (.handle fd calls)))
  | handled (fd : ℤ) : s.workers c = some (.handle fd []) →
      WorkerStep out c s (.ok (s.setWorker c (if fd ≠ -1 then .shutdown fd else .returned)))
  | shutdown (fd : ℤ) : s.workers c = some (.shutdown fd) → WorkerStep out c s (do
      let _ ← s.connection fd
      return s.setWorker c (.close fd))
  | close (fd : ℤ) : s.workers c = some (.close fd) →
      WorkerStep out c s (do return ((← s.close fd).setWorker c .returned))

/-- `main` or one of the workers runs one statement. -/
inductive Step (out : Outside) (s : ServerProcess) : Except Fault ServerProcess → Prop
  | main {r : Except Fault ServerProcess} : MainStep s r → Step out s r
  | worker (c : ℕ) {r : Except Fault ServerProcess} : WorkerStep out c s r → Step out s r

/-- The process once `main` listens. -/
def initial (out : Outside) : ServerProcess where
  main := .malloc
  workers _ := none
  cells _ := none
  descriptors := Function.update (fun _ => none) out.serverSocket (some .listening)
  accepted := 0
  sent _ := []
  closes _ := 0

/-- The process as a transition system: it runs until a fault ends it. -/
def system (out : Outside) : TransitionSystem (Except Fault ServerProcess) where
  init r := r = .ok (initial out)
  step r r' := ∃ s, r = .ok s ∧ Step out s r'

/-! ## Signals -/

/-- The next statement of the worker is a `send` to a peer that has closed its end. No `send` has
`MSG_NOSIGNAL` among its flags, and `SIGPIPE` keeps its default action. -/
def Signalled (gone : ServerProcess → ℕ → Prop) (s : ServerProcess) (c : ℕ) : Prop :=
  gone s c ∧ ∃ fd data bytesSent calls,
    s.workers c = some (.handle fd (.send data bytesSent :: calls))

/-- A statement, or the end of the process at a `send` that raises `SIGPIPE`. The peers decide when
they are `gone`. -/
inductive SignalStep (out : Outside) (gone : ServerProcess → ℕ → Prop) (s : ServerProcess) :
    Option (Except Fault ServerProcess) → Prop
  | main {r : Except Fault ServerProcess} : MainStep s r → SignalStep out gone s (some r)
  | worker (c : ℕ) {r : Except Fault ServerProcess} : ¬s.Signalled gone c → WorkerStep out c s r →
      SignalStep out gone s (some r)
  | killed (c : ℕ) : s.Signalled gone c → SignalStep out gone s none

/-- The process with its peers. It is `none` once a signal has ended it. -/
def signalSystem (out : Outside) (gone : ServerProcess → ℕ → Prop) :
    TransitionSystem (Option (Except Fault ServerProcess)) where
  init r := r = some (.ok (initial out))
  step r r' := ∃ s, r = some (.ok s) ∧ SignalStep out gone s r'

/-- While it runs, the process is in a state of `system`. -/
theorem reachable_of_signalSystem {out : Outside} {gone : ServerProcess → ℕ → Prop}
    {r : Except Fault ServerProcess} (h : (signalSystem out gone).Reachable (some r)) :
    (system out).Reachable r := by
  generalize hr : some r = r' at h
  induction h generalizing r with
  | init h₀ =>
    cases hr.trans h₀
    exact .init rfl
  | step _ hs ih =>
    obtain ⟨s, rfl, hs⟩ := hs
    cases hs with
    | main hs =>
      cases hr
      exact (ih rfl).step ⟨s, rfl, .main hs⟩
    | worker c _ hs =>
      cases hr
      exact (ih rfl).step ⟨s, rfl, .worker c hs⟩
    | killed c _ => cases hr

end ServerProcess

end CExamples.ClientServer

import CExamples.Common.CString
import CExamples.Common.Trace

/-!
# Sockets (`client_server/src/sockets.c`)

Each function is a trace of the system calls that it makes and what it returns, or the code with
which it ends the process. `SocketSystem` fixes what the system answers. A function that ends the
process closes every socket that it holds, once (`sockets_balance`), and
`connect_with_retry_or_die` returns exactly if an attempt succeeds after refused ones only
(`connectWithRetryOrDie_connects`).
-/

namespace CExamples.ClientServer

open C Trace

/-- A call of `connect`: it returns 0, or -1 with `errno` set to `ECONNREFUSED` or to something
else. -/
inductive ConnectAnswer
  | established
  | refused
  | failed
deriving DecidableEq, Repr

/-- What the system answers to the calls on one socket. -/
structure SocketSystem where
  socket : ℤ
  setsockopt : ℤ
  inetPton : ℤ
  /-- The answer to the `i`-th call of `connect`. -/
  connect : ℕ → ConnectAnswer
  bind : ℤ
  listen : ℤ
  accept : ℤ
  recv : ℤ

inductive SocketCall
  | socket (result : ℤ)
  | setsockopt (fd : ℤ)
  | inetPton
  | connect (fd : ℤ)
  | sleep (seconds : ℤ)
  | bind (fd : ℤ)
  | listen (fd backlog : ℤ)
  | accept (fd result : ℤ)
  | recv (fd : ℤ)
  | shutdown (fd : ℤ)
  | close (fd : ℤ)
  | perror (text : CString)
deriving DecidableEq, Repr

/-- A function that may end the process with an exit code. -/
abbrev Sockets (α : Type) :=
  Trace SocketCall ℤ α

def perror (text : CString) : Sockets Unit :=
  log (.perror text)

def socketCleanup (fd : ℤ) : Sockets Unit := do
  if fd ≠ -1 then
    log (.shutdown fd)
    log (.close fd)

/-- `perror`, `socket_cleanup` and `exit(1)`. -/
def die {α : Type} (text : CString) (fd : ℤ) : Sockets α := do
  perror text
  socketCleanup fd
  exit 1

def connectSocket (sys : SocketSystem) : Sockets ℤ := do
  log (.socket sys.socket)
  if sys.socket = -1 then
    perror (.ofLiteral "socket")
    exit 1
  else
    log .inetPton
    if sys.inetPton ≤ 0 then
      die (.ofLiteral "inet_aton") sys.socket
    else
      log (.connect sys.socket)
      -- A socket that could not be connected is not closed.
      if sys.connect 0 ≠ .established then
        return -1
      else
        return sys.socket

def connectOrDie (sys : SocketSystem) : Sockets ℤ := do
  let serverSocket ← connectSocket sys
  if serverSocket = -1 then
    die (.ofLiteral "connect") serverSocket
  else
    return serverSocket

/-- The loop of `connect_with_retry_or_die` from attempt `i` on, with a number of attempts left,
and the `perror` after it: whether an attempt succeeded. -/
def connectRetries (sys : SocketSystem) (fd retryDelay : ℤ) (i : ℕ) : ℕ → Sockets Bool
  | 0 => do
    perror (.ofLiteral "connect")
    return false
  | attempts + 1 => do
    log (.connect fd)
    match sys.connect i with
    | .established => return true
    | .refused =>
      log (.sleep retryDelay)
      connectRetries sys fd retryDelay (i + 1) attempts
    | .failed =>
      perror (.ofLiteral "connect")
      return false

def connectWithRetryOrDie (sys : SocketSystem) (maxRetries retryDelay : ℤ) : Sockets ℤ := do
  log (.socket sys.socket)
  if sys.socket = -1 then
    perror (.ofLiteral "socket")
    exit 1
  else
    log .inetPton
    if sys.inetPton ≤ 0 then
      die (.ofLiteral "inet_aton") sys.socket
    else
      let connected ← connectRetries sys sys.socket retryDelay 0 maxRetries.toNat
      if connected then
        return sys.socket
      else
        -- The label `error_close_socket`.
        socketCleanup sys.socket
        exit 1

def bindOrDie (sys : SocketSystem) : Sockets ℤ := do
  log (.socket sys.socket)
  if sys.socket = -1 then
    perror (.ofLiteral "socket")
    exit 1
  else
    log (.setsockopt sys.socket)
    if sys.setsockopt = -1 then
      die (.ofLiteral "setsockopt") sys.socket
    else
      log (.bind sys.socket)
      if sys.bind = -1 then
        die (.ofLiteral "bind") sys.socket
      else
        return sys.socket

def listenOrDie (sys : SocketSystem) (serverSocket backlog : ℤ) : Sockets Unit := do
  log (.listen serverSocket backlog)
  if sys.listen = -1 then
    die (.ofLiteral "listen") serverSocket
  else
    return ()

def acceptOrDie (sys : SocketSystem) (serverSocket : ℤ) : Sockets ℤ := do
  log (.accept serverSocket sys.accept)
  if sys.accept = -1 then
    die (.ofLiteral "accept") serverSocket
  else
    return sys.accept

def receiveOrDie (sys : SocketSystem) (socketFd : ℤ) : Sockets ℤ := do
  log (.recv socketFd)
  if sys.recv ≤ 0 then
    die (.ofLiteral "recv") socketFd
  else
    return sys.recv

/-- The start of `main` in `server.c`, up to its loop. -/
def serverStart (sys : SocketSystem) : Sockets ℤ := do
  let serverSocket ← bindOrDie sys
  listenOrDie sys serverSocket 1
  return serverSocket

/-! ## The ledger of sockets -/

/-- The sockets that a value of a descriptor stands for. -/
def socketsOf (fd : ℤ) : List ℤ :=
  if fd = -1 then [] else [fd]

def SocketCall.opened : SocketCall → Option ℤ
  | .socket result => if result = -1 then none else some result
  | .accept _ result => if result = -1 then none else some result
  | _ => none

def SocketCall.closed : SocketCall → Option ℤ
  | .close fd => some fd
  | _ => none

/-- What is given or opened is closed or kept, each once. -/
abbrev Accounted {α : Type} (given : List ℤ) (x : Sockets α) (kept : α → List ℤ) : Prop :=
  Balances SocketCall.opened SocketCall.closed given x kept

section

variable {α : Type} {given : List ℤ} {fd : ℤ} {call : SocketCall} {sys : SocketSystem}

/-- A call that neither opens nor closes anything. -/
theorem accounted_log (hopened : call.opened = none) (hclosed : call.closed = none) :
    Accounted given (log call) fun _ => given :=
  balances_log (by simp [hopened, hclosed])

theorem opened_socket (result : ℤ) :
    (SocketCall.socket result).opened.toList = socketsOf result := by
  rw [SocketCall.opened, socketsOf]
  split <;> rfl

theorem opened_accept (fd result : ℤ) :
    (SocketCall.accept fd result).opened.toList = socketsOf result := by
  rw [SocketCall.opened, socketsOf]
  split <;> rfl

theorem accounted_socket (result : ℤ) :
    Accounted [] (log (.socket result)) fun _ => socketsOf result := by
  refine balances_log ?_
  rw [opened_socket]
  exact .refl _

theorem accounted_accept (fd result : ℤ) :
    Accounted given (log (.accept fd result)) fun _ => given ++ socketsOf result := by
  refine balances_log ?_
  rw [opened_accept]
  exact .refl _

theorem accounted_perror (text : CString) : Accounted given (perror text) fun _ => given :=
  accounted_log rfl rfl

theorem accounted_socketCleanup (fd : ℤ) :
    Accounted (socketsOf fd) (socketCleanup fd) fun _ => [] := by
  rw [socketCleanup, socketsOf]
  by_cases hfd : fd = -1
  · rw [if_pos hfd, if_neg (not_not.mpr hfd)]
    exact balances_pure (.refl _)
  · rw [if_neg hfd, if_pos hfd]
    refine balances_bind (accounted_log rfl rfl) fun _ => balances_log ?_
    exact .refl _

theorem accounted_die (text : CString) (fd : ℤ) (kept : α → List ℤ) :
    Accounted (socketsOf fd) (die text fd) kept :=
  balances_bind (accounted_perror text) fun _ =>
    balances_bind (accounted_socketCleanup fd) fun _ => balances_exit

theorem socketsOf_eq_nil (h : fd = -1) : socketsOf fd = [] :=
  if_pos h

/-- `socket` failed: there is nothing to close. -/
theorem accounted_no_socket (h : fd = -1) (text : CString) (kept : α → List ℤ) :
    Accounted (socketsOf fd) (do perror text; exit 1) kept := by
  rw [socketsOf_eq_nil h]
  exact balances_bind (accounted_perror text) fun _ => balances_exit

theorem accounted_bindOrDie (sys : SocketSystem) : Accounted [] (bindOrDie sys) socketsOf := by
  refine balances_bind (accounted_socket sys.socket) fun _ => ?_
  split
  · exact accounted_no_socket ‹_› _ _
  refine balances_bind (accounted_log rfl rfl) fun _ => ?_
  split
  · exact accounted_die _ _ _
  refine balances_bind (accounted_log rfl rfl) fun _ => ?_
  split
  · exact accounted_die _ _ _
  · exact balances_pure (.refl _)

theorem accounted_listenOrDie (sys : SocketSystem) (fd backlog : ℤ) :
    Accounted (socketsOf fd) (listenOrDie sys fd backlog) fun _ => socketsOf fd := by
  refine balances_bind (accounted_log rfl rfl) fun _ => ?_
  split
  · exact accounted_die _ _ _
  · exact balances_pure (.refl _)

theorem accounted_serverStart (sys : SocketSystem) : Accounted [] (serverStart sys) socketsOf := by
  refine balances_bind (accounted_bindOrDie sys) fun serverSocket => ?_
  exact balances_bind (accounted_listenOrDie sys serverSocket 1) fun _ => balances_pure (.refl _)

theorem accounted_acceptOrDie (sys : SocketSystem) (fd : ℤ) :
    Accounted (socketsOf fd) (acceptOrDie sys fd) fun client =>
      socketsOf fd ++ socketsOf client := by
  refine balances_bind (accounted_accept fd sys.accept) fun _ => ?_
  split
  · rename_i hfailed
    rw [socketsOf_eq_nil hfailed, List.append_nil]
    exact accounted_die _ _ _
  · exact balances_pure (.refl _)

theorem accounted_receiveOrDie (sys : SocketSystem) (fd : ℤ) :
    Accounted (socketsOf fd) (receiveOrDie sys fd) fun _ => socketsOf fd := by
  refine balances_bind (accounted_log rfl rfl) fun _ => ?_
  split
  · exact accounted_die _ _ _
  · exact balances_pure (.refl _)

/-- The loop of the attempts neither opens nor closes a socket. -/
theorem accounted_connectRetries (sys : SocketSystem) (fd retryDelay : ℤ) (i attempts : ℕ) :
    Accounted given (connectRetries sys fd retryDelay i attempts) fun _ => given := by
  induction attempts generalizing i with
  | zero => exact balances_bind (accounted_perror _) fun _ => balances_pure (.refl _)
  | succ attempts ih =>
    refine balances_bind (accounted_log rfl rfl) fun _ => ?_
    split
    · exact balances_pure (.refl _)
    · exact balances_bind (accounted_log rfl rfl) fun _ => ih (i + 1)
    · exact balances_bind (accounted_perror _) fun _ => balances_pure (.refl _)

theorem accounted_connectWithRetryOrDie (sys : SocketSystem) (maxRetries retryDelay : ℤ) :
    Accounted [] (connectWithRetryOrDie sys maxRetries retryDelay) socketsOf := by
  refine balances_bind (accounted_socket sys.socket) fun _ => ?_
  split
  · exact accounted_no_socket ‹_› _ _
  refine balances_bind (accounted_log rfl rfl) fun _ => ?_
  split
  · exact accounted_die _ _ _
  refine balances_bind (accounted_connectRetries sys _ _ _ _) fun connected => ?_
  split
  · exact balances_pure (.refl _)
  · exact balances_bind (accounted_socketCleanup _) fun _ => balances_exit

/-- `connect_socket` gets as far as `connect`, which fails. -/
def SocketSystem.ConnectFails (sys : SocketSystem) : Prop :=
  sys.socket ≠ -1 ∧ 0 < sys.inetPton ∧ sys.connect 0 ≠ .established

theorem accounted_connectSocket (h : ¬ sys.ConnectFails) :
    Accounted [] (connectSocket sys) socketsOf := by
  refine balances_bind (accounted_socket sys.socket) fun _ => ?_
  split
  · exact accounted_no_socket ‹_› _ _
  rename_i hsocket
  refine balances_bind (accounted_log rfl rfl) fun _ => ?_
  split
  · exact accounted_die _ _ _
  rename_i haddress
  refine balances_bind (accounted_log rfl rfl) fun _ => ?_
  split
  · rename_i hconnect
    exact absurd ⟨hsocket, not_le.mp haddress, hconnect⟩ h
  · exact balances_pure (.refl _)

/-- A socket that is not connected is left open. -/
theorem connectSocket_of_fails (h : sys.ConnectFails) :
    connectSocket sys =
      ⟨[.socket sys.socket, .inetPton, .connect sys.socket], .ok (-1)⟩ := by
  obtain ⟨hsocket, haddress, hconnect⟩ := h
  rw [connectSocket, if_neg hsocket, if_neg (not_le.mpr haddress), if_pos hconnect]
  rfl

/-- `connect_or_die` has lost the descriptor and cleans up -1. -/
theorem connectOrDie_of_fails (h : sys.ConnectFails) :
    connectOrDie sys =
      ⟨[.socket sys.socket, .inetPton, .connect sys.socket, .perror (.ofLiteral "connect")],
        .error 1⟩ := by
  rw [connectOrDie, connectSocket_of_fails h]
  rfl

/-- **Descriptors.** Every function of `sockets.c` accounts for the sockets that it is given or
opens: each is closed once or kept by the caller, and all are closed before an exit. The exceptions
are `connect_socket` and `connect_or_die`, exactly if their call of `connect` fails. -/
theorem sockets_balance (sys : SocketSystem) :
    (∀ maxRetries retryDelay,
      Accounted [] (connectWithRetryOrDie sys maxRetries retryDelay) socketsOf) ∧
      Accounted [] (bindOrDie sys) socketsOf ∧
      (∀ fd backlog,
        Accounted (socketsOf fd) (listenOrDie sys fd backlog) fun _ => socketsOf fd) ∧
      (∀ fd, Accounted (socketsOf fd) (socketCleanup fd) fun _ => []) ∧
      Accounted [] (serverStart sys) socketsOf ∧
      (∀ fd, Accounted (socketsOf fd) (acceptOrDie sys fd) fun client =>
        socketsOf fd ++ socketsOf client) ∧
      (∀ fd, Accounted (socketsOf fd) (receiveOrDie sys fd) fun _ => socketsOf fd) ∧
      (Accounted [] (connectSocket sys) socketsOf ↔ ¬ sys.ConnectFails) ∧
      (Accounted [] (connectOrDie sys) socketsOf ↔ ¬ sys.ConnectFails) := by
  refine ⟨accounted_connectWithRetryOrDie sys, accounted_bindOrDie sys, accounted_listenOrDie sys,
    accounted_socketCleanup, accounted_serverStart sys, accounted_acceptOrDie sys,
    accounted_receiveOrDie sys, ⟨?_, accounted_connectSocket⟩, ⟨?_, ?_⟩⟩
  · intro h hfails
    rw [Accounted, connectSocket_of_fails hfails] at h
    have hcount := h.length_eq
    simp [List.filterMap_cons, SocketCall.opened, SocketCall.closed, socketsOf, hfails.1] at hcount
  · intro h hfails
    rw [Accounted, connectOrDie_of_fails hfails] at h
    have hcount := h.length_eq
    simp [List.filterMap_cons, SocketCall.opened, SocketCall.closed, hfails.1] at hcount
  · intro hok
    refine balances_bind (accounted_connectSocket hok) fun serverSocket => ?_
    split
    · exact accounted_die _ _ _
    · exact balances_pure (.refl _)

end

/-! ## The attempts to connect -/

/-- The socket is opened, the address is valid, and of the attempts allowed the `n`-th succeeds
after refused ones only. -/
def SocketSystem.Connects (sys : SocketSystem) (maxRetries : ℤ) (n : ℕ) : Prop :=
  sys.socket ≠ -1 ∧ 0 < sys.inetPton ∧ (n : ℤ) < maxRetries ∧ sys.connect n = .established ∧
    ∀ j < n, sys.connect j = .refused

/-- The calls of an attempt that is refused. -/
def refusedCalls (fd retryDelay : ℤ) : List SocketCall :=
  [.connect fd, .sleep retryDelay]

/-- The calls of `connect_with_retry_or_die` if the `n`-th attempt succeeds. -/
def connectCalls (fd retryDelay : ℤ) (n : ℕ) : List SocketCall :=
  [.socket fd, .inetPton] ++
    ((List.replicate n (refusedCalls fd retryDelay)).flatten ++ [.connect fd])

section

variable {sys : SocketSystem} {fd retryDelay : ℤ}

theorem connectRetries_established {i : ℕ} (h : sys.connect i = .established) (attempts : ℕ) :
    connectRetries sys fd retryDelay i (attempts + 1) = ⟨[.connect fd], .ok true⟩ := by
  rw [connectRetries, h]
  rfl

theorem connectRetries_refused {i : ℕ} (h : sys.connect i = .refused) (attempts : ℕ) :
    connectRetries sys fd retryDelay i (attempts + 1) =
      ⟨refusedCalls fd retryDelay ++ (connectRetries sys fd retryDelay (i + 1) attempts).calls,
        (connectRetries sys fd retryDelay (i + 1) attempts).outcome⟩ := by
  rw [connectRetries, h]
  rfl

theorem connectRetries_failed {i : ℕ} (h : sys.connect i = .failed) (attempts : ℕ) :
    connectRetries sys fd retryDelay i (attempts + 1) =
      ⟨[.connect fd, .perror (.ofLiteral "connect")], .ok false⟩ := by
  rw [connectRetries, h]
  rfl

/-- The attempts before a success are refused, and each is followed by a sleep. -/
theorem connectRetries_success (fd retryDelay : ℤ) {i n : ℕ}
    (hn : sys.connect (i + n) = .established)
    (hrefused : ∀ j < n, sys.connect (i + j) = .refused) (rest : ℕ) :
    connectRetries sys fd retryDelay i (n + 1 + rest) =
      ⟨(List.replicate n (refusedCalls fd retryDelay)).flatten ++ [.connect fd], .ok true⟩ := by
  induction n generalizing i with
  | zero =>
    rw [Nat.zero_add, Nat.add_comm 1 rest]
    exact connectRetries_established hn rest
  | succ n ih =>
    have hfirst : sys.connect i = .refused := hrefused 0 n.succ_pos
    have hrest := ih (i := i + 1) (by rw [← hn]; congr 1; omega) fun j hj => by
      rw [← hrefused (j + 1) (by omega)]
      congr 1
      omega
    rw [show n + 1 + 1 + rest = n + 1 + rest + 1 by omega, connectRetries_refused hfirst, hrest,
      List.replicate_succ, List.flatten_cons, List.append_assoc]

/-- A run of attempts that succeeds has a first success. -/
theorem success_of_connectRetries {i attempts : ℕ}
    (h : (connectRetries sys fd retryDelay i attempts).outcome = .ok true) :
    ∃ n < attempts, sys.connect (i + n) = .established ∧
      ∀ j < n, sys.connect (i + j) = .refused := by
  induction attempts generalizing i with
  | zero => cases h
  | succ attempts ih =>
    match hanswer : sys.connect i with
    | .established => exact ⟨0, attempts.succ_pos, hanswer, fun j hj => absurd hj j.not_lt_zero⟩
    | .refused =>
      rw [connectRetries_refused hanswer] at h
      obtain ⟨n, hn, hsuccess, hrefused⟩ := ih h
      refine ⟨n + 1, Nat.succ_lt_succ hn, ?_, fun j hj => ?_⟩
      · rw [← hsuccess]
        congr 1
        omega
      · cases j with
        | zero => exact hanswer
        | succ j =>
          rw [← hrefused j (by omega)]
          congr 1
          omega
    | .failed =>
      rw [connectRetries_failed hanswer] at h
      cases h

theorem connectRetries_outcome (sys : SocketSystem) (fd retryDelay : ℤ) (i attempts : ℕ) :
    ∃ connected, (connectRetries sys fd retryDelay i attempts).outcome = .ok connected := by
  induction attempts generalizing i with
  | zero => exact ⟨false, rfl⟩
  | succ attempts ih =>
    match hanswer : sys.connect i with
    | .established => exact ⟨true, by rw [connectRetries_established hanswer]⟩
    | .refused => exact (ih (i + 1)).imp fun _ h => by rw [connectRetries_refused hanswer, h]
    | .failed => exact ⟨false, by rw [connectRetries_failed hanswer]⟩

end

/-- What `connect_with_retry_or_die` does with the result of its loop. -/
theorem connectWithRetryOrDie_of_retries {sys : SocketSystem} {maxRetries retryDelay : ℤ}
    {connected : Bool} (hsocket : sys.socket ≠ -1) (haddress : 0 < sys.inetPton)
    (h : (connectRetries sys sys.socket retryDelay 0 maxRetries.toNat).outcome = .ok connected) :
    (connectWithRetryOrDie sys maxRetries retryDelay).outcome =
        (if connected then .ok sys.socket else .error 1) ∧
      (connected = true → (connectWithRetryOrDie sys maxRetries retryDelay).calls =
        [.socket sys.socket, .inetPton] ++
          (connectRetries sys sys.socket retryDelay 0 maxRetries.toNat).calls) := by
  rw [connectWithRetryOrDie, if_neg hsocket, if_neg (not_le.mpr haddress)]
  generalize connectRetries sys sys.socket retryDelay 0 maxRetries.toNat = retries at h ⊢
  obtain ⟨calls, outcome⟩ := retries
  subst h
  cases connected with
  | true => exact ⟨rfl, fun _ => by simp [pure_eq]⟩
  | false =>
    rw [log_bind, log_bind, ok_bind, if_neg Bool.false_ne_true, socketCleanup, if_pos hsocket]
    exact ⟨rfl, Bool.noConfusion⟩

theorem connectWithRetryOrDie_of_connects {sys : SocketSystem} {maxRetries : ℤ} {n : ℕ}
    (h : sys.Connects maxRetries n) (retryDelay : ℤ) :
    connectWithRetryOrDie sys maxRetries retryDelay =
      ⟨connectCalls sys.socket retryDelay n, .ok sys.socket⟩ := by
  obtain ⟨hsocket, haddress, hn, hsuccess, hrefused⟩ := h
  have hloop := connectRetries_success sys.socket retryDelay
    (by rwa [Nat.zero_add] : sys.connect (0 + n) = .established)
    (fun j hj => by rw [Nat.zero_add, hrefused j hj]) (maxRetries.toNat - (n + 1))
  rw [show n + 1 + (maxRetries.toNat - (n + 1)) = maxRetries.toNat by omega] at hloop
  obtain ⟨houtcome, hcalls⟩ := connectWithRetryOrDie_of_retries hsocket haddress
    (congrArg Trace.outcome hloop)
  exact Trace.ext ((hcalls rfl).trans (by rw [hloop, connectCalls])) houtcome

theorem connectWithRetryOrDie_of_not_connects {sys : SocketSystem} {maxRetries : ℤ}
    (h : ∀ n, ¬sys.Connects maxRetries n) (retryDelay : ℤ) :
    (connectWithRetryOrDie sys maxRetries retryDelay).outcome = .error 1 := by
  by_cases hsocket : sys.socket = -1
  · rw [connectWithRetryOrDie, if_pos hsocket]
    rfl
  by_cases haddress : sys.inetPton ≤ 0
  · rw [connectWithRetryOrDie, if_neg hsocket, if_pos haddress, die, socketCleanup, if_pos hsocket]
    rfl
  obtain ⟨connected, hconnected⟩ :=
    connectRetries_outcome sys sys.socket retryDelay 0 maxRetries.toNat
  rw [(connectWithRetryOrDie_of_retries hsocket (not_le.mp haddress) hconnected).1]
  cases connected with
  | false => rfl
  | true =>
    obtain ⟨n, hn, hsuccess, hrefused⟩ := success_of_connectRetries hconnected
    simp only [Nat.zero_add] at hsuccess hrefused
    exact absurd ⟨hsocket, not_le.mp haddress, by omega, hsuccess, hrefused⟩ (h n)

/-- **Attempts.** `connect_with_retry_or_die` returns its socket exactly if one of the attempts that
it allows succeeds after refused ones only, and it sleeps once after each refused attempt. Otherwise
it ends the process with code 1. -/
theorem connectWithRetryOrDie_connects (sys : SocketSystem) (maxRetries retryDelay : ℤ) :
    (∀ n, sys.Connects maxRetries n →
      connectWithRetryOrDie sys maxRetries retryDelay =
        ⟨connectCalls sys.socket retryDelay n, .ok sys.socket⟩) ∧
      ((∀ n, ¬sys.Connects maxRetries n) →
        (connectWithRetryOrDie sys maxRetries retryDelay).outcome = .error 1) :=
  ⟨fun _ h => connectWithRetryOrDie_of_connects h retryDelay,
    fun h => connectWithRetryOrDie_of_not_connects h retryDelay⟩

end CExamples.ClientServer

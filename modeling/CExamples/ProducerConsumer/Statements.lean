import CExamples.Common.MonitorProgram.Sections
import CExamples.ProducerConsumer.Simulation

/-!
# The threads of the simulation, statement by statement (`producer_consumer/src/simulation.c`)

The code of `producer` and `consumer` as programs over one mutex and two condition variables, with
the statements of `put` and `get` in `buffer.c` that they call. Every statement that reads or writes
the shared buffer is a step of its own, so threads interleave between any two of them; the model of
`Simulation.lean`, whose steps are whole sections, is derived from this one.
-/

namespace CExamples.ProducerConsumer

open C MonitorProgram

/-- The two condition variables. -/
inductive Cond
  | notFull
  | notEmpty
deriving DecidableEq, Repr

/-- What the threads share: the buffer, and the requests that the `get` calls have returned so far,
in the order of the calls. -/
structure Shared where
  buffer : Buffer
  taken : List HttpRequest

/-- The statements of `producer`. A point carries the locals that later statements read. -/
inductive ProducerPoint
  | lock
  | testFull
  | waitNotFull
  | testLimit
  | broadcastNotEmpty
  | unlockLast
  | returned
  | request
  | put (value : HttpRequest)
  | putStore (value : HttpRequest)
  | putIndex
  | putCount
  | putTotal
  | assertPut (putSuccess : Bool)
  | signalNotEmpty
  | unlock
deriving DecidableEq

/-- The statements of `consumer`. -/
inductive ConsumerPoint
  | lock
  | testEmpty
  | waitNotEmpty
  | testFinished
  | unlockLast
  | returned
  | get
  | getLoad
  | getIndex (value : HttpRequest)
  | getCount (value : HttpRequest)
  | assertGet (request : HttpRequest)
  | signalNotFull
  | unlock
  | process
deriving DecidableEq

/-- Undefined behaviour ends the process. -/
def orUndefined {α : Type*} : Option α → Except Halt α
  | some a => .ok a
  | none => .error .undefined

/-- `producer`, with `put` inlined. -/
def producerCode (maxRequests : ℤ) :
    ProducerPoint → Statement Cond Shared Halt ProducerPoint
  | .lock => .lock .testFull
  | .testFull => .access fun v =>
      .ok (v, if v.buffer.count = v.buffer.size then .waitNotFull else .testLimit)
  | .waitNotFull => .wait .notFull .testFull
  | .testLimit => .access fun v =>
      .ok (v, if v.buffer.totalPuts ≥ maxRequests then .broadcastNotEmpty else .request)
  | .broadcastNotEmpty => .wake (.broadcast .notEmpty) .unlockLast
  | .unlockLast => .unlock .returned
  | .returned => .done
  | .request => .access fun v =>
      .ok (v, .put { requestId := v.buffer.totalPuts, data := decimal v.buffer.totalPuts })
  -- `put`: a full buffer is refused
  | .put value => .access fun v =>
      .ok (v, if v.buffer.count = v.buffer.size then .assertPut false else .putStore value)
  | .putStore value => .access fun v => do
      let buffer ← orUndefined (store v.buffer.buffer v.buffer.putIndex value)
      return ({ v with buffer := { v.buffer with buffer } }, .putIndex)
  | .putIndex => .access fun v => do
      let next ← orUndefined (add 32 v.buffer.putIndex 1)
      let putIndex ← orUndefined (mod 32 next v.buffer.size)
      return ({ v with buffer := { v.buffer with putIndex } }, .putCount)
  | .putCount => .access fun v => do
      let count ← orUndefined (add 32 v.buffer.count 1)
      return ({ v with buffer := { v.buffer with count } }, .putTotal)
  | .putTotal => .access fun v => do
      let totalPuts ← orUndefined (add 32 v.buffer.totalPuts 1)
      return ({ v with buffer := { v.buffer with totalPuts } }, .assertPut true)
  | .assertPut putSuccess => .access fun v =>
      if putSuccess then .ok (v, .signalNotEmpty) else .error .assertFailed
  | .signalNotEmpty => .wake (.signal .notEmpty) .unlock
  | .unlock => .unlock .lock

/-- `consumer`, with `get` inlined. What `process` does, the sleep, touches nothing shared. -/
def consumerCode (maxRequests : ℤ) :
    ConsumerPoint → Statement Cond Shared Halt ConsumerPoint
  | .lock => .lock .testEmpty
  | .testEmpty => .access fun v =>
      .ok (v, if v.buffer.count = 0 ∧ v.buffer.totalPuts < maxRequests then .waitNotEmpty
        else .testFinished)
  | .waitNotEmpty => .wait .notEmpty .testEmpty
  | .testFinished => .access fun v =>
      .ok (v, if v.buffer.count = 0 ∧ v.buffer.totalPuts ≥ maxRequests then .unlockLast else .get)
  | .unlockLast => .unlock .returned
  | .returned => .done
  -- `get`: an empty buffer returns the sentinel
  | .get => .access fun v =>
      .ok (if v.buffer.count = 0 then ({ v with taken := v.taken ++ [.sentinel] },
        .assertGet .sentinel) else (v, .getLoad))
  | .getLoad => .access fun v => do
      let value ← orUndefined (load v.buffer.buffer v.buffer.getIndex)
      return (v, .getIndex value)
  | .getIndex value => .access fun v => do
      let next ← orUndefined (add 32 v.buffer.getIndex 1)
      let getIndex ← orUndefined (mod 32 next v.buffer.size)
      return ({ v with buffer := { v.buffer with getIndex } }, .getCount value)
  | .getCount value => .access fun v => do
      let count ← orUndefined (sub 32 v.buffer.count 1)
      return ({ buffer := { v.buffer with count }, taken := v.taken ++ [value] }, .assertGet value)
  | .assertGet request => .access fun v =>
      if request.requestId ≠ -1 then .ok (v, .signalNotFull) else .error .assertFailed
  | .signalNotFull => .wake (.signal .notFull) .unlock
  | .unlock => .unlock .process
  | .process => .skip .lock

/-! ## The lock discipline -/

/-- Where a producer holds the mutex. -/
def ProducerPoint.Inside : ProducerPoint → Prop
  | .lock | .returned => False
  | _ => True

/-- How many statements the longest way out of a producer's section takes. -/
def ProducerPoint.rank : ProducerPoint → ℕ
  | .testFull => 11
  | .testLimit => 10
  | .request => 9
  | .put _ => 8
  | .putStore _ => 7
  | .putIndex => 6
  | .putCount => 5
  | .putTotal => 4
  | .assertPut _ => 3
  | .signalNotEmpty => 2
  | .broadcastNotEmpty => 2
  | .lock | .waitNotFull | .unlockLast | .returned | .unlock => 1

/-- Where a consumer holds the mutex. -/
def ConsumerPoint.Inside : ConsumerPoint → Prop
  | .lock | .returned | .process => False
  | _ => True

/-- How many statements the longest way out of a consumer's section takes. -/
def ConsumerPoint.rank : ConsumerPoint → ℕ
  | .testEmpty => 9
  | .testFinished => 8
  | .get => 7
  | .getLoad => 6
  | .getIndex _ => 5
  | .getCount _ => 4
  | .assertGet _ => 3
  | .signalNotFull => 2
  | .lock | .waitNotEmpty | .unlockLast | .returned | .unlock | .process => 1

@[simp] theorem orUndefined_some_bind {α β : Type} (a : α) (f : α → Except Halt β) :
    (orUndefined (some a) >>= f) = f a := rfl

@[simp] theorem orUndefined_bind_eq_ok {α β : Type} {o : Option α} {f : α → Except Halt β}
    {b : β} : (orUndefined o >>= f) = .ok b ↔ ∃ a, o = some a ∧ f a = .ok b := by
  cases o with
  | none => simp [orUndefined, bind, Except.bind]
  | some a => simp [orUndefined, bind, Except.bind]

/-- **`producer` keeps the lock discipline.** -/
theorem producerCode_disciplined (maxRequests : ℤ) (p : ProducerPoint) :
    (producerCode maxRequests p).Disciplined ProducerPoint.Inside ProducerPoint.rank p := by
  cases p with
  | lock | waitNotFull | broadcastNotEmpty | unlockLast | returned | signalNotEmpty | unlock =>
    simp [producerCode, Statement.Disciplined, ProducerPoint.Inside, ProducerPoint.rank]
  | _ =>
    refine ⟨trivial, ?_⟩
    intro v w next h
    simp only [orUndefined_bind_eq_ok, Except.ok.injEq, Prod.mk.injEq, pure, Except.pure] at h
    grind [ProducerPoint.Inside, ProducerPoint.rank]

/-- **`consumer` keeps the lock discipline.** -/
theorem consumerCode_disciplined (maxRequests : ℤ) (p : ConsumerPoint) :
    (consumerCode maxRequests p).Disciplined ConsumerPoint.Inside ConsumerPoint.rank p := by
  cases p with
  | lock | waitNotEmpty | unlockLast | returned | signalNotFull | unlock | process =>
    simp [consumerCode, Statement.Disciplined, ConsumerPoint.Inside, ConsumerPoint.rank]
  | _ =>
    refine ⟨trivial, ?_⟩
    intro v w next h
    simp only [orUndefined_bind_eq_ok, Except.ok.injEq, Prod.mk.injEq, pure, Except.pure] at h
    grind [ConsumerPoint.Inside, ConsumerPoint.rank]

/-! ## The program -/

/-- The threads that `simulate` starts. -/
abbrev Thread (cfg : Arguments) : Type :=
  Fin cfg.numProducers ⊕ Fin cfg.numConsumers

/-- The statements of each of them. -/
abbrev Point (cfg : Arguments) : Thread cfg → Type
  | .inl _ => ProducerPoint
  | .inr _ => ConsumerPoint

/-- The threads' code, with its lock discipline. -/
def program (cfg : Arguments) : Program (Thread cfg) (Point cfg) Cond Shared Halt where
  code
    | .inl _ => producerCode cfg.maxRequests
    | .inr _ => consumerCode cfg.maxRequests
  entry
    | .inl _ => ProducerPoint.lock
    | .inr _ => ConsumerPoint.lock
  inside
    | .inl _ => ProducerPoint.Inside
    | .inr _ => ConsumerPoint.Inside
  rank
    | .inl _ => ProducerPoint.rank
    | .inr _ => ConsumerPoint.rank
  length := 11
  rank_le := by
    rintro (i | j) ℓ <;> cases ℓ <;> simp [ProducerPoint.rank, ConsumerPoint.rank]
  disciplined
    | .inl _ => producerCode_disciplined cfg.maxRequests
    | .inr _ => consumerCode_disciplined cfg.maxRequests
  entry_outside
    | .inl _ => id
    | .inr _ => id

/-- A state of the threads. -/
abbrev ThreadsState (cfg : Arguments) : Type :=
  MonitorProgram.State (Thread cfg) (Point cfg) Cond Shared Halt

/-- The threads, statement by statement, from the buffer that `create_buffer` returns. -/
def statements (cfg : Arguments) (spurious : Bool) : TransitionSystem (ThreadsState cfg) :=
  (program cfg).system ⟨createBuffer cfg.bufferSize, []⟩ spurious

/-- The threads, section by section. -/
def sections (cfg : Arguments) (spurious : Bool) : TransitionSystem (ThreadsState cfg) :=
  (program cfg).atomic ⟨createBuffer cfg.bufferSize, []⟩ spurious

end CExamples.ProducerConsumer

import CExamples.Common.Monitor
import CExamples.Common.TransitionSystem
import CExamples.ProducerConsumer.Buffer

/-!
# The producer/consumer simulation (`producer_consumer/src/simulation.c`)

A transition system whose steps are the mutex-held sections of the threads that `simulate` starts.
A section runs from the lock, or from the return of a wait, to the unlock or to the next wait. What
it does to the shared buffer is computed from the source (`producerSection`, `consumerSection`);
which waiter a signal wakes is left open.

A failed assertion ends the process, and so does undefined behaviour in the buffer's arithmetic or
its array accesses; both are outcomes of the model, to be excluded by proof.
-/

namespace CExamples.ProducerConsumer

open C Monitor

/-- The arguments of `simulate`, without the time its consumers sleep. -/
structure Arguments where
  numProducers : ℕ
  numConsumers : ℕ
  bufferSize : ℤ
  maxRequests : ℤ
  bufferSize_pos : 1 ≤ bufferSize
  bufferSize_le : bufferSize ≤ intMax
  maxRequests_le : maxRequests ≤ intMax

/-- Arguments with threads of both kinds and a number of requests to produce. -/
structure Config extends Arguments where
  producers_pos : 1 ≤ numProducers
  consumers_pos : 1 ≤ numConsumers
  maxRequests_nonneg : 0 ≤ maxRequests

instance : CoeOut Config Arguments := ⟨Config.toArguments⟩

/-! ## The mutex-held sections -/

/-- How a mutex-held section of `producer` ends: in `COND_WAIT(not_full)`, after a put and
`COND_SIGNAL(not_empty)`, after `COND_BROADCAST(not_empty)` and on its way out, or in a failed
assertion. -/
inductive ProducerSection
  | wait
  | put (buffer : Buffer)
  | finish
  | assertFailed

/-- One mutex-held section of `producer`. -/
def producerSection (maxRequests : ℤ) (b : Buffer) : Option ProducerSection :=
  if b.count = b.size then some .wait
  else if b.totalPuts ≥ maxRequests then some .finish
  else do
    let request : HttpRequest := { requestId := b.totalPuts, data := decimal b.totalPuts }
    let (putSuccess, b') ← b.put request
    return if putSuccess then .put b' else .assertFailed

/-- How a mutex-held section of `consumer` ends: in `COND_WAIT(not_empty)`, after a get and
`COND_SIGNAL(not_full)`, on its way out, or in a failed assertion. -/
inductive ConsumerSection
  | wait
  | get (request : HttpRequest) (buffer : Buffer)
  | finish
  | assertFailed (request : HttpRequest) (buffer : Buffer)

/-- One mutex-held section of `consumer`. -/
def consumerSection (maxRequests : ℤ) (b : Buffer) : Option ConsumerSection :=
  if b.count = 0 ∧ b.totalPuts < maxRequests then some .wait
  else if b.count = 0 ∧ b.totalPuts ≥ maxRequests then some .finish
  else do
    let (request, b') ← b.get
    return if request.requestId ≠ -1 then .get request b' else .assertFailed request b'

/-! ## Threads -/

/-- Why the process ended early. -/
inductive Halt
  | assertFailed
  | undefined
deriving DecidableEq

/-- The shared buffer, where every thread is, and the requests that the `get` calls have returned so
far, in the order of the calls. -/
structure State (cfg : Arguments) where
  buffer : Buffer
  producers : Fin cfg.numProducers → ThreadState
  consumers : Fin cfg.numConsumers → ThreadState
  taken : List HttpRequest
  halted : Option Halt

variable {cfg : Arguments}

/-- The state after `init_thread_args`, with every thread about to lock the mutex. -/
def initialState (cfg : Arguments) : State cfg where
  buffer := createBuffer cfg.bufferSize
  producers _ := .running
  consumers _ := .running
  taken := []
  halted := none

/-- Producer `i` runs one section. -/
def ProducerStep (s : State cfg) (i : Fin cfg.numProducers) (s' : State cfg) : Prop :=
  s.producers i = .running ∧
    match producerSection cfg.maxRequests s.buffer with
    | some .wait => s' = { s with producers := Function.update s.producers i .waiting }
    | some (.put b) =>
      ∃ consumers, Signal s.consumers consumers ∧ s' = { s with buffer := b, consumers }
    | some .finish =>
      s' = { s with
        producers := Function.update s.producers i .returned
        consumers := broadcast s.consumers }
    | some .assertFailed => s' = { s with halted := some .assertFailed }
    | none => s' = { s with halted := some .undefined }

/-- Consumer `j` runs one section. -/
def ConsumerStep (s : State cfg) (j : Fin cfg.numConsumers) (s' : State cfg) : Prop :=
  s.consumers j = .running ∧
    match consumerSection cfg.maxRequests s.buffer with
    | some .wait => s' = { s with consumers := Function.update s.consumers j .waiting }
    | some (.get r b) =>
      ∃ producers, Signal s.producers producers ∧
        s' = { s with buffer := b, taken := s.taken ++ [r], producers }
    | some .finish => s' = { s with consumers := Function.update s.consumers j .returned }
    | some (.assertFailed r b) =>
      s' = { s with buffer := b, taken := s.taken ++ [r], halted := some .assertFailed }
    | none => s' = { s with halted := some .undefined }

/-- Some thread runs one section. -/
def ThreadStep (s s' : State cfg) : Prop :=
  (∃ i, ProducerStep s i s') ∨ ∃ j, ConsumerStep s j s'

/-- A wait returns without a signal. -/
def SpuriousWakeup (s s' : State cfg) : Prop :=
  (∃ i, s.producers i = .waiting ∧
      s' = { s with producers := Function.update s.producers i .running }) ∨
    ∃ j, s.consumers j = .waiting ∧
      s' = { s with consumers := Function.update s.consumers j .running }

/-- The simulation, with or without spurious wakeups. -/
def simulation (cfg : Arguments) (spurious : Bool) : TransitionSystem (State cfg) where
  init s := s = initialState cfg
  step s s' := s.halted = none ∧ (ThreadStep s s' ∨ (spurious = true ∧ SpuriousWakeup s s'))

/-- No thread can take a step other than a spurious wakeup. -/
def Stuck (s : State cfg) : Prop :=
  (simulation cfg false).Stuck s

/-- A stuck state in which some thread has not returned. -/
def Deadlocked (s : State cfg) : Prop :=
  Stuck s ∧ ((∃ i, s.producers i ≠ .returned) ∨ ∃ j, s.consumers j ≠ .returned)

end CExamples.ProducerConsumer

import CExamples.ProducerConsumer.SimulationRefinement

/-!
# Every schedule of the simulation ends

Without spurious wakeups no interleaving goes on for ever, whatever the numbers of threads and the
limit, and however unfair. A thread that is woken may find the item gone and wait again, so the
measure counts what is left to put and get, the threads that have not returned and those that are
awake; it is the one of the bounded buffer, with the counters read off the shared buffer.
-/

namespace CExamples.ProducerConsumer

open Monitor

variable {cfg : Arguments}

/-- What is still to be done: two for every put and get left, one for every live consumer and every
running thread, and for every live producer enough to pay for the consumers it wakes when it
returns. -/
def measure (s : State cfg) : ℕ :=
  2 * (cfg.limit - s.buffer.totalPuts.toNat) +
    2 * (max cfg.limit s.buffer.totalPuts.toNat -
      (s.buffer.totalPuts - s.buffer.count).toNat) +
    (cfg.numConsumers + 1) * live s.producers + live s.consumers +
    count s.producers .running + count s.consumers .running

/-- The measure is the one of the bounded buffer. -/
theorem Refines.measure_eq {s : State cfg}
    {a : BoundedBuffer.State (Fin cfg.numProducers) (Fin cfg.numConsumers)} (h : Refines s a) :
    measure s = BoundedBuffer.measure cfg.limit a := by
  have hputs : s.buffer.totalPuts.toNat = a.puts := by
    rw [h.totalPuts]
    rfl
  have hgets : (s.buffer.totalPuts - s.buffer.count).toNat = a.gets := by
    rw [h.totalPuts, h.count_eq]
    omega
  unfold measure BoundedBuffer.measure
  rw [hputs, hgets, h.producers, h.consumers, Fintype.card_fin]

/-- A section of any thread decreases the measure, also after spurious wakeups. -/
theorem measure_lt_of_threadStep {spurious : Bool} {s s' : State cfg}
    (hs : (simulation cfg spurious).Reachable s) (hstep : (simulation cfg false).step s s') :
    measure s' < measure s := by
  -- Reachability with spurious wakeups is needed only for the invariant in `Refines`.
  obtain ⟨a, -, h⟩ := (bisimulation cfg spurious).exists_abstract hs
  obtain ⟨a', ha, h'⟩ := (bisimulation cfg false).forward s s' a h hstep
  rw [h.measure_eq, h'.measure_eq]
  exact BoundedBuffer.measure_lt_of_step (BoundedBuffer.system_false_step.mp ha)

/-- **Every schedule is finite.** In every reachable state each section of a thread decreases the
measure, so no run takes one section after the other for ever. -/
theorem schedules_finite (cfg : Arguments) :
    (∀ (spurious : Bool) (s s' : State cfg), (simulation cfg spurious).Reachable s →
      (simulation cfg false).step s s' → measure s' < measure s) ∧
      ¬∃ run : ℕ → State cfg, (simulation cfg false).init (run 0) ∧
        ∀ n, (simulation cfg false).step (run n) (run (n + 1)) := by
  constructor
  · intro spurious s s' hs hstep
    exact measure_lt_of_threadStep hs hstep
  · apply TransitionSystem.not_exists_infinite_run measure
    intro s s' hs hstep
    exact measure_lt_of_threadStep hs hstep

end CExamples.ProducerConsumer

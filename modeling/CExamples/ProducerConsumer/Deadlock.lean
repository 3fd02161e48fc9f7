import CExamples.ProducerConsumer.Delivery

/-!
# Deadlocks of the simulation

No consumer is ever stranded. A producer can be: a producer that returns wakes the consumers but not
the other producers, so those of them that still wait for a free slot depend on the gets that are
left. Which configurations can deadlock is decided by `BoundedBuffer.deadlock_reachable_iff`.
-/

namespace CExamples.ProducerConsumer

open Monitor

variable {cfg : Config} {spurious : Bool} {s : State cfg}

/-- In terms of the counters: more producers than slots, and at least as many requests as slots. -/
theorem unsafe_iff (cfg : Config) :
    cfg.slots < Fintype.card (Fin cfg.numProducers) ∧ cfg.slots ≤ cfg.limit ↔
      cfg.bufferSize < cfg.numProducers ∧ cfg.bufferSize ≤ cfg.maxRequests := by
  have := cfg.coe_slots
  have := cfg.coe_limit
  rw [Fintype.card_fin]
  omega

/-! ## Producers -/

/-- A state that strands a producer is reachable exactly if there are more producers than slots and
at least as many requests as slots. -/
theorem exists_stranded_iff (cfg : Config) (spurious : Bool) :
    (∃ s, (simulation cfg spurious).Reachable s ∧ Stuck s ∧ ∃ i, s.producers i = .waiting) ↔
      cfg.bufferSize < cfg.numProducers ∧ cfg.bufferSize ≤ cfg.maxRequests := by
  rw [exists_reachable_iff fun s a h => h.stranded_iff,
    BoundedBuffer.stranded_reachable_iff cfg.slots_pos, unsafe_iff]

/-- **When no producer is stranded**: no reachable state that no thread can leave has a producer
waiting for a free slot, exactly if there are at most as many producers as slots or fewer requests
than slots. -/
theorem no_producer_stranded_iff (cfg : Config) (spurious : Bool) :
    (¬ ∃ s, (simulation cfg spurious).Reachable s ∧ Stuck s ∧ ∃ i, s.producers i = .waiting) ↔
      cfg.numProducers ≤ cfg.bufferSize ∨ cfg.maxRequests < cfg.bufferSize := by
  rw [exists_stranded_iff]
  omega

/-- Two producers and one consumer with one slot and one request. -/
def twoProducers : Config :=
  { oneOfEach with
    numProducers := 2
    producers_pos := by decide }

theorem twoProducers_stranded :
    ∃ s, (simulation twoProducers false).Reachable s ∧ Stuck s ∧ ∃ i, s.producers i = .waiting :=
  (exists_stranded_iff twoProducers false).mpr (by decide)

/-! ## Consumers -/

/-- **No consumer is stranded**: in a reachable state that no thread can leave, every consumer has
returned. -/
theorem consumers_returned_of_stuck (h : (simulation cfg spurious).Reachable s)
    (hstuck : Stuck s) : ∀ j, s.consumers j = .returned := by
  obtain ⟨a, ha, hR⟩ := exists_refines h
  have hfin := BoundedBuffer.finished_of_stuck cfg.slots_pos ha (hR.stuck_iff.mp hstuck)
  intro j
  rw [hR.consumers]
  exact hfin.consumers j

theorem twoProducers_consumers_returned :
    ∃ s, (simulation twoProducers false).Reachable s ∧ Stuck s ∧ (∃ i, s.producers i = .waiting) ∧
      ∀ j, s.consumers j = .returned := by
  obtain ⟨s, hr, hstuck, hwait⟩ := (exists_stranded_iff twoProducers false).mpr (by decide)
  exact ⟨s, hr, hstuck, hwait, consumers_returned_of_stuck hr hstuck⟩

/-! ## The boundary -/

/-- With at most as many producers as slots, the producers waiting for a free slot never outnumber
the requests in the buffer. -/
theorem waiting_le_count (hsafe : (cfg.numProducers : ℤ) ≤ cfg.bufferSize)
    (h : (simulation cfg spurious).Reachable s) :
    (count s.producers .waiting : ℤ) ≤ s.buffer.count := by
  obtain ⟨a, ha, hR⟩ := exists_refines h
  have hcard : Fintype.card (Fin cfg.numProducers) ≤ cfg.slots := by
    have := cfg.coe_slots
    rw [Fintype.card_fin]
    omega
  have hle := BoundedBuffer.waiting_le_items hcard ha
  rw [hR.producers, hR.count_eq]
  omega

/-- **The deadlock boundary of the simulation**: a state in which some thread has not returned and
no thread can take a step is reachable exactly if there are more producers than slots and at least
as many requests as slots. On the safe side the waiting producers never outnumber the requests in
the buffer. -/
theorem simulation_deadlock_iff (cfg : Config) (spurious : Bool) :
    ((∃ s, (simulation cfg spurious).Reachable s ∧ Deadlocked s) ↔
      cfg.bufferSize < cfg.numProducers ∧ cfg.bufferSize ≤ cfg.maxRequests) ∧
      ((cfg.numProducers : ℤ) ≤ cfg.bufferSize →
        ∀ s, (simulation cfg spurious).Reachable s →
          (count s.producers .waiting : ℤ) ≤ s.buffer.count) := by
  constructor
  · rw [exists_reachable_iff fun s a h => h.deadlocked_iff,
      BoundedBuffer.deadlock_reachable_iff cfg.slots_pos, unsafe_iff]
  · intro hsafe s h
    exact waiting_le_count hsafe h

end CExamples.ProducerConsumer

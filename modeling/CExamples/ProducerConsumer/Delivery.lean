import CExamples.ProducerConsumer.SimulationRefinement

/-!
# Delivery in the simulation

Every request is delivered exactly once and in order, in every interleaving. The proof reads it off
the bounded buffer through the bisimulation.
-/

namespace CExamples.ProducerConsumer

open C Monitor

variable {cfg : Config} {spurious : Bool} {s : State cfg}

/-- The reachable states of the simulation, each with the state of the bounded buffer it refines. -/
theorem exists_refines (h : (simulation cfg spurious).Reachable s) :
    ∃ a, (BoundedBuffer.system _ _ cfg.slots cfg.limit spurious).Reachable a ∧ Refines s a :=
  (bisimulation cfg spurious).exists_abstract h

/-- No request is lost, repeated or reordered: what has been taken followed by what the buffer holds
is what has been put. -/
theorem Refines.taken_append_contents
    {a : BoundedBuffer.State (Fin cfg.numProducers) (Fin cfg.numConsumers)} (h : Refines s a) :
    s.taken.map some ++ s.buffer.contents = (requests 0 a.puts).map some := by
  rw [h.taken, h.holds.contents_eq, ← List.map_append,
    requests_append (Nat.zero_le _) h.bounds.gets_le_puts]

/-- Once every thread has returned, everything has been put and taken. -/
theorem Refines.finished
    {a : BoundedBuffer.State (Fin cfg.numProducers) (Fin cfg.numConsumers)} (h : Refines s a)
    (ha : (BoundedBuffer.system _ _ cfg.slots cfg.limit spurious).Reachable a)
    (hcons : ∀ j, s.consumers j = .returned) : a.puts = cfg.limit ∧ a.gets = cfg.limit := by
  obtain ⟨j⟩ := (inferInstance : Nonempty (Fin cfg.numConsumers))
  have hw := BoundedBuffer.noLostWakeup_of_reachable ha
  obtain ⟨hlim, hempty⟩ := hw.consumer_returned j (h.consumers ▸ hcons j)
  have := h.bounds.puts_le_limit
  omega

/-- **Exactly-once delivery in order.** In every reachable state the requests that the `get` calls
have returned, followed by those in the buffer, are the requests `0, …, totalPuts - 1`, and no
assertion has failed; once every thread has returned, all `maxRequests` of them have been taken. -/
theorem delivery (h : (simulation cfg spurious).Reachable s) :
    (0 ≤ s.buffer.totalPuts ∧ s.buffer.totalPuts ≤ cfg.maxRequests) ∧
      s.taken.map some ++ s.buffer.contents
        = (List.range s.buffer.totalPuts.toNat).map (fun n => some ⟨n, decimal n⟩) ∧
      s.halted ≠ some .assertFailed ∧
      ((∀ i, s.producers i = .returned) → (∀ j, s.consumers j = .returned) →
        s.buffer.totalPuts = cfg.maxRequests ∧ s.buffer.count = 0 ∧
          s.taken.map (·.requestId) =
            (List.range cfg.maxRequests.toNat).map (fun n : ℕ => (n : ℤ))) := by
  obtain ⟨a, ha, hR⟩ := exists_refines h
  have htotal := hR.totalPuts
  have hlim := hR.bounds.puts_le_limit
  have hlimit := cfg.coe_limit
  have htoNat : s.buffer.totalPuts.toNat = a.puts := by omega
  refine ⟨⟨by omega, by omega⟩, ?_, by simp [hR.running], ?_⟩
  · rw [hR.taken_append_contents, htoNat, requests, List.map_map, List.range_eq_range']
    rfl
  · intro _ hcons
    obtain ⟨hputs, hgets⟩ := hR.finished ha hcons
    refine ⟨by omega, by rw [hR.count_eq]; omega, ?_⟩
    rw [hR.taken, hgets, requests, List.map_map, List.range_eq_range']
    rfl

/-- The configuration of one producer, one consumer, one slot and one request. -/
def oneOfEach : Config where
  numProducers := 1
  numConsumers := 1
  bufferSize := 1
  maxRequests := 1
  producers_pos := le_rfl
  consumers_pos := le_rfl
  bufferSize_pos := by decide
  bufferSize_le := by decide
  maxRequests_nonneg := by decide
  maxRequests_le := by decide

/-- Its state after one put, one get and the return of both threads. -/
def oneOfEachReturned : State oneOfEach where
  buffer := ⟨[some ⟨0, [48]⟩], 1, 0, 0, 0, 1⟩
  producers := Function.update (fun _ => .running) (0 : Fin 1) .returned
  consumers := Function.update (Monitor.broadcast fun _ => .running) (0 : Fin 1) .returned
  taken := [⟨0, [48]⟩]
  halted := none

theorem reachable_oneOfEachReturned :
    (simulation oneOfEach false).Reachable oneOfEachReturned := by
  have hput : (simulation oneOfEach false).Reachable
      ⟨⟨[some ⟨0, [48]⟩], 1, 0, 0, 1, 1⟩, fun _ => .running, fun _ => .running, [], none⟩ :=
    .step (.init rfl) ⟨rfl, .inl (.inl ⟨(0 : Fin 1), rfl, _, .lost (by simp [initialState]), rfl⟩)⟩
  have hget : (simulation oneOfEach false).Reachable
      ⟨⟨[some ⟨0, [48]⟩], 1, 0, 0, 0, 1⟩, fun _ => .running, fun _ => .running, [⟨0, [48]⟩],
        none⟩ :=
    .step hput ⟨rfl, .inl (.inr ⟨(0 : Fin 1), rfl, _, .lost (by simp), rfl⟩)⟩
  have hproducer : (simulation oneOfEach false).Reachable
      ⟨⟨[some ⟨0, [48]⟩], 1, 0, 0, 0, 1⟩, Function.update (fun _ => .running) (0 : Fin 1) .returned,
        Monitor.broadcast fun _ => .running, [⟨0, [48]⟩], none⟩ :=
    .step hget ⟨rfl, .inl (.inl ⟨(0 : Fin 1), rfl, rfl⟩)⟩
  exact .step hproducer ⟨rfl, .inl (.inr ⟨(0 : Fin 1), rfl, rfl⟩)⟩

theorem oneOfEachReturned_returned :
    (∀ i, oneOfEachReturned.producers i = .returned) ∧
      ∀ j, oneOfEachReturned.consumers j = .returned := by
  constructor
  · intro i
    rw [show i = (0 : Fin 1) from Subsingleton.elim (α := Fin 1) _ _]
    rfl
  · intro j
    rw [show j = (0 : Fin 1) from Subsingleton.elim (α := Fin 1) _ _]
    rfl

theorem delivery_oneOfEach : oneOfEachReturned.taken.map (·.requestId) = [0] :=
  ((delivery reachable_oneOfEachReturned).2.2.2 oneOfEachReturned_returned.1
    oneOfEachReturned_returned.2).2.2

end CExamples.ProducerConsumer

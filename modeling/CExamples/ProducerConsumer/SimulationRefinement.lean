import CExamples.Common.BoundedBuffer.Deadlock
import CExamples.ProducerConsumer.BufferRefinement
import CExamples.ProducerConsumer.Simulation

/-!
# The simulation is the bounded buffer with a production limit

`Refines s a` relates a state of the simulation to a state of `BoundedBuffer`, where the buffer is
two counters: the buffer holds the requests `gets, …, puts - 1`, and the requests before them have
been taken, in order. The relation is a bisimulation (`bisimulation`), so whatever is reachable or
stuck on one side is so on the other.
-/

namespace CExamples.ProducerConsumer

open C Monitor

variable {cfg : Arguments} {spurious : Bool}

namespace Arguments

/-- The buffer's slots. -/
def slots (cfg : Arguments) : ℕ := cfg.bufferSize.toNat

/-- The number of requests to produce. -/
def limit (cfg : Arguments) : ℕ := cfg.maxRequests.toNat

theorem slots_pos (cfg : Arguments) : 1 ≤ cfg.slots := by
  have := cfg.bufferSize_pos
  unfold slots
  omega

theorem coe_slots (cfg : Arguments) : (cfg.slots : ℤ) = cfg.bufferSize := by
  have := cfg.bufferSize_pos
  unfold slots
  omega

theorem lt_limit_iff (cfg : Arguments) (n : ℕ) : n < cfg.limit ↔ (n : ℤ) < cfg.maxRequests := by
  unfold limit
  omega

end Arguments

namespace Config

instance {cfg : Config} : Nonempty (Fin cfg.numProducers) := ⟨⟨0, cfg.producers_pos⟩⟩

instance {cfg : Config} : Nonempty (Fin cfg.numConsumers) := ⟨⟨0, cfg.consumers_pos⟩⟩

theorem coe_limit (cfg : Config) : (cfg.limit : ℤ) = cfg.maxRequests := by
  have := cfg.maxRequests_nonneg
  unfold Arguments.limit
  omega

end Config

/-- The request that the put number `n` stores. -/
def request (n : ℕ) : HttpRequest :=
  { requestId := n, data := decimal n }

/-- The requests from number `m` up to, not including, number `n`. -/
def requests (m n : ℕ) : List HttpRequest :=
  (List.range' m (n - m)).map request

@[simp] theorem length_requests (m n : ℕ) : (requests m n).length = n - m := by
  simp [requests]

theorem requests_succ {m n : ℕ} (h : m ≤ n) : requests m (n + 1) = requests m n ++ [request n] := by
  rw [requests, Nat.succ_sub h, List.range'_concat, List.map_append]
  simp [requests, Nat.add_sub_cancel' h]

theorem requests_eq_cons {m n : ℕ} (h : m < n) :
    requests m n = request m :: requests (m + 1) n := by
  obtain ⟨k, rfl⟩ : ∃ k, n = m + 1 + k := ⟨n - (m + 1), by omega⟩
  simp [requests, show m + 1 + k - m = k + 1 by omega, List.range'_succ]

theorem requests_append {l m n : ℕ} (hlm : l ≤ m) (hmn : m ≤ n) :
    requests l m ++ requests m n = requests l n := by
  rw [requests, requests, ← List.map_append, requests]
  have happend : List.range' l (m - l) ++ List.range' (l + (m - l)) (n - m)
      = List.range' l (m - l + (n - m)) := List.range'_append_1
  rw [Nat.add_sub_cancel' hlm, show m - l + (n - m) = n - l by omega] at happend
  rw [happend]

/-- The states of the two levels that correspond. -/
structure Refines (s : State cfg)
    (a : BoundedBuffer.State (Fin cfg.numProducers) (Fin cfg.numConsumers)) : Prop where
  running : s.halted = none
  producers : s.producers = a.producers
  consumers : s.consumers = a.consumers
  size : s.buffer.size = cfg.bufferSize
  totalPuts : s.buffer.totalPuts = a.puts
  bounds : BoundedBuffer.Bounds cfg.slots cfg.limit a
  holds : s.buffer.Holds (requests a.gets a.puts)
  taken : s.taken = requests 0 a.gets

namespace Refines

variable {s : State cfg} {a : BoundedBuffer.State (Fin cfg.numProducers) (Fin cfg.numConsumers)}

theorem count_eq (h : Refines s a) : s.buffer.count = (a.puts : ℤ) - a.gets := by
  have := h.bounds.gets_le_puts
  rw [h.holds.count_eq, length_requests]
  omega

theorem initial : Refines (initialState cfg) (BoundedBuffer.initial _ _) where
  running := rfl
  producers := rfl
  consumers := rfl
  size := rfl
  totalPuts := rfl
  bounds := .initial
  holds := Buffer.holds_createBuffer cfg.bufferSize_pos cfg.bufferSize_le
  taken := rfl

/-! ## What a section does -/

theorem producerSection_wait (h : Refines s a) (hfull : a.puts = a.gets + cfg.slots) :
    producerSection cfg.maxRequests s.buffer = some .wait := by
  have := h.count_eq
  have := h.size
  have := cfg.coe_slots
  rw [producerSection, if_pos (by omega)]

theorem producerSection_put (h : Refines s a) (hspace : a.puts ≠ a.gets + cfg.slots)
    (hlim : a.puts < cfg.limit) :
    producerSection cfg.maxRequests s.buffer
      = some (.put (s.buffer.afterPut (request a.puts))) := by
  have hcount := h.count_eq
  have hsize := h.size
  have hslots := cfg.coe_slots
  have hlimit := (cfg.lt_limit_iff a.puts).mp hlim
  have htotal := h.totalPuts
  have hle := h.bounds.puts_le_slots
  have hmax := cfg.maxRequests_le
  have hput := h.holds.put_of_lt (by omega) (by omega) (by omega) (request a.puts)
  rw [producerSection, if_neg (by omega), if_neg (by omega), htotal]
  simp [← request.eq_def, hput]

theorem producerSection_finish (h : Refines s a) (hspace : a.puts ≠ a.gets + cfg.slots)
    (hlim : cfg.limit ≤ a.puts) :
    producerSection cfg.maxRequests s.buffer = some .finish := by
  have := h.count_eq
  have := h.size
  have := cfg.coe_slots
  have := cfg.lt_limit_iff a.puts
  have := h.totalPuts
  rw [producerSection, if_neg (by omega), if_pos (by omega)]

theorem consumerSection_wait (h : Refines s a) (hempty : a.puts = a.gets)
    (hlim : a.puts < cfg.limit) :
    consumerSection cfg.maxRequests s.buffer = some .wait := by
  have := h.count_eq
  have := cfg.lt_limit_iff a.puts
  have := h.totalPuts
  rw [consumerSection, if_pos (by omega)]

theorem consumerSection_get (h : Refines s a) (hitems : a.gets < a.puts) :
    consumerSection cfg.maxRequests s.buffer
      = some (.get (request a.gets) s.buffer.afterGet) := by
  have hcount := h.count_eq
  have hholds := h.holds
  rw [requests_eq_cons hitems] at hholds
  have hid : (request a.gets).requestId ≠ -1 := by
    simp only [request]
    omega
  rw [consumerSection, if_neg (by omega), if_neg (by omega), hholds.get_of_cons]
  simp [hid]

theorem consumerSection_finish (h : Refines s a) (hempty : a.puts = a.gets)
    (hlim : cfg.limit ≤ a.puts) :
    consumerSection cfg.maxRequests s.buffer = some .finish := by
  have := h.count_eq
  have := cfg.lt_limit_iff a.puts
  have := h.totalPuts
  rw [consumerSection, if_neg (by omega), if_pos (by omega)]

/-! ## The relation is kept by each kind of step -/

/-- Moving threads, the same way on both levels. -/
theorem threads (h : Refines s a) (ps : Fin cfg.numProducers → ThreadState)
    (cs : Fin cfg.numConsumers → ThreadState) :
    Refines { s with producers := ps, consumers := cs }
      { a with producers := ps, consumers := cs } :=
  ⟨h.running, rfl, rfl, h.size, h.totalPuts, ⟨h.bounds.1, h.bounds.2, h.bounds.3⟩, h.holds,
    h.taken⟩

theorem put (h : Refines s a) (hspace : a.puts ≠ a.gets + cfg.slots) (hlim : a.puts < cfg.limit)
    (cs : Fin cfg.numConsumers → ThreadState) :
    Refines { s with buffer := s.buffer.afterPut (request a.puts), consumers := cs }
      { a with puts := a.puts + 1, consumers := cs } where
  running := h.running
  producers := h.producers
  consumers := rfl
  size := h.size
  totalPuts := by simp [Buffer.afterPut, h.totalPuts]
  bounds := by
    obtain ⟨h₁, h₂, -⟩ := h.bounds
    exact ⟨Nat.le_succ_of_le h₁, by simp only; omega, hlim⟩
  holds := by
    have hcount := h.count_eq
    have hsize := h.size
    have hslots := cfg.coe_slots
    have hle := h.bounds.puts_le_slots
    rw [requests_succ h.bounds.gets_le_puts]
    exact h.holds.afterPut (by omega) _
  taken := h.taken

theorem get (h : Refines s a) (hitems : a.gets < a.puts)
    (ps : Fin cfg.numProducers → ThreadState) :
    Refines { s with
        buffer := s.buffer.afterGet, taken := s.taken ++ [request a.gets], producers := ps }
      { a with gets := a.gets + 1, producers := ps } where
  running := h.running
  producers := rfl
  consumers := h.consumers
  size := h.size
  totalPuts := h.totalPuts
  bounds := by
    obtain ⟨-, h₂, h₃⟩ := h.bounds
    exact ⟨hitems, by simp only; omega, h₃⟩
  holds := by
    have hholds := h.holds
    rw [requests_eq_cons hitems] at hholds
    exact hholds.afterGet
  taken := by rw [h.taken, ← requests_succ (Nat.zero_le _)]

/-- Each section of a producer is a step of the bounded buffer. -/
theorem forward_producer {s' : State cfg} {i : Fin cfg.numProducers} (h : Refines s a)
    (hs : ProducerStep s i s') :
    ∃ a', BoundedBuffer.Step cfg.slots cfg.limit a a' ∧ Refines s' a' := by
  obtain ⟨hi, heffect⟩ := hs
  have hai : a.producers i = .running := h.producers ▸ hi
  by_cases hfull : a.puts = a.gets + cfg.slots
  · rw [h.producerSection_wait hfull] at heffect
    subst heffect
    rw [h.producers, h.consumers]
    exact ⟨_, .producerWait i hai hfull, h.threads _ _⟩
  · by_cases hlim : a.puts < cfg.limit
    · rw [h.producerSection_put hfull hlim] at heffect
      obtain ⟨cs, hsig, rfl⟩ := heffect
      exact ⟨_, .put i cs hai hfull hlim (h.consumers ▸ hsig), h.put hfull hlim cs⟩
    · have hlim := Nat.le_of_not_lt hlim
      rw [h.producerSection_finish hfull hlim] at heffect
      subst heffect
      rw [h.producers, h.consumers]
      exact ⟨_, .producerReturn i hai hfull hlim, h.threads _ _⟩

/-- Each section of a consumer is a step of the bounded buffer. -/
theorem forward_consumer {s' : State cfg} {j : Fin cfg.numConsumers} (h : Refines s a)
    (hs : ConsumerStep s j s') :
    ∃ a', BoundedBuffer.Step cfg.slots cfg.limit a a' ∧ Refines s' a' := by
  obtain ⟨hj, heffect⟩ := hs
  have haj : a.consumers j = .running := h.consumers ▸ hj
  by_cases hitems : a.gets < a.puts
  · rw [h.consumerSection_get hitems] at heffect
    obtain ⟨ps, hsig, rfl⟩ := heffect
    exact ⟨_, .get j ps haj hitems (h.producers ▸ hsig), h.get hitems ps⟩
  · have hempty : a.puts = a.gets := by
      have := h.bounds.gets_le_puts
      omega
    by_cases hlim : a.puts < cfg.limit
    · rw [h.consumerSection_wait hempty hlim] at heffect
      subst heffect
      rw [h.producers, h.consumers]
      exact ⟨_, .consumerWait j haj hempty hlim, h.threads _ _⟩
    · have hlim := Nat.le_of_not_lt hlim
      rw [h.consumerSection_finish hempty hlim] at heffect
      subst heffect
      rw [h.producers, h.consumers]
      exact ⟨_, .consumerReturn j haj hempty hlim, h.threads _ _⟩

/-- Each step of the bounded buffer is a section of a thread. -/
theorem backward {a' : BoundedBuffer.State (Fin cfg.numProducers) (Fin cfg.numConsumers)}
    (h : Refines s a) (ha : BoundedBuffer.Step cfg.slots cfg.limit a a') :
    ∃ s', ThreadStep s s' ∧ Refines s' a' := by
  have hps := h.producers
  have hcs := h.consumers
  cases ha with
  | producerWait i hi hfull =>
    refine ⟨_, .inl ⟨i, hps ▸ hi, ?_⟩, h.threads (Function.update a.producers i .waiting) _⟩
    rw [h.producerSection_wait hfull, hps, hcs]
  | put i cs hi hspace hlim hsig =>
    refine ⟨_, .inl ⟨i, hps ▸ hi, ?_⟩, h.put hspace hlim cs⟩
    rw [h.producerSection_put hspace hlim]
    exact ⟨cs, hcs ▸ hsig, rfl⟩
  | producerReturn i hi hspace hlim =>
    refine ⟨_, .inl ⟨i, hps ▸ hi, ?_⟩,
      h.threads (Function.update a.producers i .returned) (broadcast a.consumers)⟩
    rw [h.producerSection_finish hspace hlim, hps, hcs]
  | consumerWait j hj hempty hlim =>
    refine ⟨_, .inr ⟨j, hcs ▸ hj, ?_⟩, h.threads _ (Function.update a.consumers j .waiting)⟩
    rw [h.consumerSection_wait hempty hlim, hps, hcs]
  | get j ps hj hitems hsig =>
    refine ⟨_, .inr ⟨j, hcs ▸ hj, ?_⟩, h.get hitems ps⟩
    rw [h.consumerSection_get hitems]
    exact ⟨ps, hps ▸ hsig, rfl⟩
  | consumerReturn j hj hempty hlim =>
    refine ⟨_, .inr ⟨j, hcs ▸ hj, ?_⟩, h.threads _ (Function.update a.consumers j .returned)⟩
    rw [h.consumerSection_finish hempty hlim, hps, hcs]

theorem forward_spuriousWakeup {s' : State cfg} (h : Refines s a) (hs : SpuriousWakeup s s') :
    ∃ a', BoundedBuffer.SpuriousWakeup a a' ∧ Refines s' a' := by
  rcases hs with ⟨i, hi, rfl⟩ | ⟨j, hj, rfl⟩
  · rw [h.producers] at hi ⊢
    rw [h.consumers]
    exact ⟨_, .producer i hi, h.threads _ _⟩
  · rw [h.consumers] at hj ⊢
    rw [h.producers]
    exact ⟨_, .consumer j hj, h.threads _ _⟩

theorem backward_spuriousWakeup
    {a' : BoundedBuffer.State (Fin cfg.numProducers) (Fin cfg.numConsumers)}
    (h : Refines s a) (ha : BoundedBuffer.SpuriousWakeup a a') :
    ∃ s', SpuriousWakeup s s' ∧ Refines s' a' := by
  have hps := h.producers
  have hcs := h.consumers
  cases ha with
  | producer i hi =>
    refine ⟨_, .inl ⟨i, hps ▸ hi, ?_⟩, h.threads (Function.update a.producers i .running) _⟩
    rw [hps, hcs]
  | consumer j hj =>
    refine ⟨_, .inr ⟨j, hcs ▸ hj, ?_⟩, h.threads _ (Function.update a.consumers j .running)⟩
    rw [hps, hcs]

end Refines

/-- **The simulation and the bounded buffer take the same steps.** -/
theorem bisimulation (cfg : Arguments) (spurious : Bool) :
    TransitionSystem.Bisimulation (simulation cfg spurious)
      (BoundedBuffer.system _ _ cfg.slots cfg.limit spurious) Refines where
  init := by
    rintro s rfl
    exact ⟨_, rfl, .initial⟩
  init_inv := by
    rintro a rfl
    exact ⟨_, rfl, .initial⟩
  forward := by
    rintro s s' a h ⟨-, (⟨i, hs⟩ | ⟨j, hs⟩) | ⟨hspurious, hs⟩⟩
    · obtain ⟨a', ha, h'⟩ := h.forward_producer hs
      exact ⟨a', .inl ha, h'⟩
    · obtain ⟨a', ha, h'⟩ := h.forward_consumer hs
      exact ⟨a', .inl ha, h'⟩
    · obtain ⟨a', ha, h'⟩ := h.forward_spuriousWakeup hs
      exact ⟨a', .inr ⟨hspurious, ha⟩, h'⟩
  backward := by
    rintro s a a' h (ha | ⟨hspurious, ha⟩)
    · obtain ⟨s', hs, h'⟩ := h.backward ha
      exact ⟨s', ⟨h.running, .inl hs⟩, h'⟩
    · obtain ⟨s', hs, h'⟩ := h.backward_spuriousWakeup ha
      exact ⟨s', ⟨h.running, .inr ⟨hspurious, hs⟩⟩, h'⟩

/-! ## Stuck and deadlocked states -/

section Stuck

variable {s : State cfg} {a : BoundedBuffer.State (Fin cfg.numProducers) (Fin cfg.numConsumers)}

theorem Refines.stuck_iff (h : Refines s a) :
    Stuck s ↔ ∀ a', ¬ BoundedBuffer.Step cfg.slots cfg.limit a a' := by
  rw [Stuck, (bisimulation cfg false).stuck_iff h]
  simp [TransitionSystem.Stuck]

theorem Refines.stranded_iff (h : Refines s a) :
    (Stuck s ∧ ∃ i, s.producers i = .waiting) ↔
      (∀ a', ¬ BoundedBuffer.Step cfg.slots cfg.limit a a') ∧ ∃ i, a.producers i = .waiting := by
  rw [h.stuck_iff, h.producers]

theorem Refines.deadlocked_iff (h : Refines s a) :
    Deadlocked s ↔ BoundedBuffer.Deadlocked cfg.slots cfg.limit a := by
  rw [Deadlocked, BoundedBuffer.Deadlocked, h.stuck_iff, h.producers, h.consumers]

/-- A property of related states that holds of a reachable state of the simulation exactly if it
holds of a reachable state of the bounded buffer. -/
theorem exists_reachable_iff {p : State cfg → Prop}
    {p' : BoundedBuffer.State (Fin cfg.numProducers) (Fin cfg.numConsumers) → Prop}
    (hp : ∀ s a, Refines s a → (p s ↔ p' a)) :
    (∃ s, (simulation cfg spurious).Reachable s ∧ p s) ↔
      ∃ a, (BoundedBuffer.system _ _ cfg.slots cfg.limit spurious).Reachable a ∧ p' a := by
  constructor
  · rintro ⟨s, hs, hps⟩
    obtain ⟨a, ha, h⟩ := (bisimulation cfg spurious).exists_abstract hs
    exact ⟨a, ha, (hp s a h).mp hps⟩
  · rintro ⟨a, ha, hpa⟩
    obtain ⟨s, hs, h⟩ := (bisimulation cfg spurious).exists_concrete ha
    exact ⟨s, hs, (hp s a h).mpr hpa⟩

end Stuck

end CExamples.ProducerConsumer

import CExamples.Common.BoundedBuffer.OneSided
import CExamples.ProducerConsumer.Process

/-!
# What `simulate` does

Over every run of the whole process: nothing undefined is done as long as there is a thread, when
`simulate` returns all it allocated is freed and the results are those of a finished run, and for
which arguments it can fail to return, among them those without producers or without consumers.
-/

namespace CExamples.ProducerConsumer

open C MonitorProgram Program Process

variable {cfg : Arguments} {spurious : Bool} {p : Process cfg}

/-! ## Runs of the process -/

/-- The main thread can run to where it starts to join. -/
theorem exists_reachable_main {pre rest : List (MainStatement cfg)}
    (hsplit : pre ++ rest = simulate cfg) (hpre : ∀ st ∈ pre, st.phase ≤ 4) :
    ∃ p, (system cfg spurious).Reachable p ∧ Inv spurious p pre ∧ p.main = rest ∧
      p.threads = (program cfg).initial ⟨createBuffer cfg.bufferSize, []⟩ := by
  induction pre using List.reverseRecOn generalizing rest with
  | nil => exact ⟨_, .init rfl, .initial cfg spurious, hsplit.symm, rfl⟩
  | append_singleton pre st ih =>
    have hsplit' : pre ++ st :: rest = simulate cfg := by simpa using hsplit
    obtain ⟨p, hr, hinv, hmain, hthreads⟩ := ih hsplit'
      fun st' hst' => hpre st' (List.mem_append_left _ hst')
    have hphase := hpre st (by simp)
    have hvalid := hinv.valid_next hmain (.inr (by omega))
    have hen : p.Enabled st := by
      cases st with
      | join k => simp [MainStatement.phase] at hphase
      | malloc | create | readResults | mutexDestroy | free => trivial
    refine ⟨_, .step hr ⟨⟨hinv.fault, ?_⟩, .main hmain hen hvalid⟩, hinv.step_main hmain hen, rfl,
      ?_⟩
    · rw [hthreads]
      rfl
    · simpa using hthreads

/-- What the main thread runs before it joins. -/
def beforeJoins (cfg : Arguments) : List (MainStatement cfg) :=
  initThreadArgs cfg ++ [.malloc .producerThreads, .malloc .consumerThreads] ++
    (argsOrder cfg).map .create

/-- What it runs from there on. -/
def fromJoins (cfg : Arguments) : List (MainStatement cfg) :=
  (argsOrder cfg).map .join ++
    ([.readResults, .free .producerThreads, .free .consumerThreads] ++ destroyThreadArgs cfg)

theorem beforeJoins_append (cfg : Arguments) : beforeJoins cfg ++ fromJoins cfg = simulate cfg := by
  simp [beforeJoins, fromJoins, simulate]

theorem phase_of_mem_beforeJoins {st : MainStatement cfg} (h : st ∈ beforeJoins cfg) :
    st.phase ≤ 4 := by
  simp only [beforeJoins, List.mem_append, List.mem_map, List.mem_cons, List.not_mem_nil,
    or_false] at h
  rcases h with (h | rfl | rfl) | ⟨k, -, rfl⟩
  · have := ((segment_initThreadArgs cfg).phase st h).2
    omega
  · simp [MainStatement.phase]
  · simp [MainStatement.phase]
  · simp [MainStatement.phase]

/-- The created threads can run as they do by themselves before any of them is joined. -/
theorem exists_reachable_threads {s : ThreadsState cfg}
    (h : (statements cfg spurious).Reachable s) :
    ∃ p, (system cfg spurious).Reachable p ∧ Inv spurious p (beforeJoins cfg) ∧ p.threads = s := by
  induction h with
  | init h₀ =>
    subst h₀
    obtain ⟨p, hr, hinv, -, hthreads⟩ := exists_reachable_main (beforeJoins_append cfg)
      fun st => phase_of_mem_beforeJoins
    exact ⟨p, hr, hinv, hthreads⟩
  | step _ hs ih =>
    obtain ⟨p, hr, hinv, rfl⟩ := ih
    obtain ⟨hlive, k, hs⟩ := hs
    have hstarted : p.started k = true := by
      refine (hinv.started_iff k).mpr (List.mem_append_right _ ?_)
      exact List.mem_map_of_mem (mem_argsOrder k)
    refine ⟨_, .step hr ⟨⟨hinv.fault, hlive⟩, .thread k _ hstarted hs ?_⟩,
      hinv.step_thread hlive hs, rfl⟩
    exact hinv.live_of_step hstarted hs

/-- The threads are always in a state that they reach by themselves. -/
theorem reachable_threads (h : (system cfg spurious).Reachable p) :
    (statements cfg spurious).Reachable p.threads := by
  apply h.invariant (I := fun p => (statements cfg spurious).Reachable p.threads)
  · rintro p rfl
    exact .init rfl
  · rintro p p' - hr ⟨⟨-, hlive⟩, hs⟩
    cases hs with
    | main => simpa using hr
    | thread k t _ hs => exact .step hr ⟨hlive, k, hs⟩
    | mainFault | threadFault => exact hr

/-- The main thread can run on until it has returned or waits for a thread. -/
theorem exists_main_waiting {pre : List (MainStatement cfg)} (hne : Nonempty (Thread cfg))
    (h : (system cfg spurious).Reachable p) (hinv : Inv spurious p pre) :
    ∃ p' pre', (system cfg spurious).Reachable p' ∧ Inv spurious p' pre' ∧
      p'.threads = p.threads ∧ ∀ st rest, p'.main = st :: rest → ¬ p'.Enabled st := by
  have hlive := halted_eq_none (reachable_threads h)
  induction hmain : p.main generalizing p pre with
  | nil => exact ⟨p, pre, h, hinv, rfl, by simp [hmain]⟩
  | cons st rest ih =>
    by_cases hen : p.Enabled st
    · have hvalid := hinv.valid_next hmain (.inl hne)
      obtain ⟨p', pre', hr, hinv', hthreads, hwaits⟩ :=
        ih (.step h ⟨⟨hinv.fault, hlive⟩, .main hmain hen hvalid⟩) (hinv.step_main hmain hen)
          (by simpa using hlive) rfl
      exact ⟨p', pre', hr, hinv', by simpa using hthreads, hwaits⟩
    · refine ⟨p, pre, h, hinv, rfl, ?_⟩
      intro st' rest' hmain'
      rw [hmain, List.cons.injEq] at hmain'
      exact hmain'.1 ▸ hen

/-! ## Faults -/

theorem nonempty_thread (h : 0 < cfg.numProducers + cfg.numConsumers) : Nonempty (Thread cfg) := by
  by_cases hp : 0 < cfg.numProducers
  · exact ⟨Sum.inl ⟨0, hp⟩⟩
  · exact ⟨Sum.inr ⟨0, by omega⟩⟩

theorem Process.Inv.eq_simulate {pre : List (MainStatement cfg)} (h : Inv spurious p pre)
    (hmain : p.main = []) : pre = simulate cfg := by
  have hsplit := h.split
  rwa [hmain, List.append_nil] at hsplit

/-- What the buffer's counters are when all threads have returned. -/
theorem counters_of_returned {s : ThreadsState cfg} (h : (statements cfg spurious).Reachable s)
    (hthreads : 0 < cfg.numProducers + cfg.numConsumers)
    (hret : ∀ k, (program cfg).threadState k (s.threads k) = .returned) :
    s.shared.buffer.totalPuts = cfg.limit ∧
      s.shared.buffer.count = if cfg.numConsumers = 0 then (cfg.limit : ℤ) else 0 := by
  have hfree := holder_eq_none_of_returned h hret
  obtain ⟨a, ha, hR⟩ := (bisimulation cfg spurious).exists_abstract
    (reachable_simulation_of_free h (.inl hfree))
  have hprod : ∀ i, a.producers i = .returned := fun i => hR.producers ▸ hret (Sum.inl i)
  have hcons : ∀ j, a.consumers j = .returned := fun j => hR.consumers ▸ hret (Sum.inr j)
  have hputs : a.puts = cfg.limit :=
    have : Nonempty (Fin cfg.numProducers ⊕ Fin cfg.numConsumers) := nonempty_thread hthreads
    BoundedBuffer.puts_eq_of_returned ha hprod hcons
  have htotal : s.shared.buffer.totalPuts = a.puts := hR.totalPuts
  have hcount : s.shared.buffer.count = (a.puts : ℤ) - a.gets := hR.count_eq
  refine ⟨by omega, ?_⟩
  split
  case isTrue hnone =>
    have : IsEmpty (Fin cfg.numConsumers) := by
      rw [hnone]
      infer_instance
    have := BoundedBuffer.gets_eq_zero ha
    omega
  case isFalse hsome =>
    have : Nonempty (Fin cfg.numConsumers) := ⟨⟨0, by omega⟩⟩
    have := BoundedBuffer.gets_eq_puts_of_returned ha hcons
    omega

/-- **What a finished `simulate` leaves behind**: when it returns, in whatever schedule, all its
threads have returned and the mutex is free, every block that it allocated has been freed, and the
results are the requests asked for and what no consumer was there to take. `main` complains of the
first exactly for a negative number of requests, of the second exactly if there are requests and no
consumers. -/
theorem simulate_finished (cfg : Arguments) (spurious : Bool)
    (hthreads : 0 < cfg.numProducers + cfg.numConsumers) (p : Process cfg)
    (h : (system cfg spurious).Reachable p) (hmain : p.main = []) :
    (∀ k, (program cfg).threadState k (p.threads.threads k) = .returned) ∧
      p.threads.holder = none ∧ (∀ b, p.live b = false) ∧
      ∃ r, p.results = some r ∧ r.totalPuts = cfg.limit ∧
        r.finalBufferCount = (if cfg.numConsumers = 0 then (cfg.limit : ℤ) else 0) ∧
        (r.totalPuts ≠ cfg.maxRequests ↔ cfg.maxRequests < 0) ∧
        (r.finalBufferCount ≠ 0 ↔ cfg.numConsumers = 0 ∧ 0 < cfg.maxRequests) := by
  obtain ⟨pre, hinv⟩ := Inv.of_reachable (nonempty_thread hthreads) h
  obtain rfl := hinv.eq_simulate hmain
  have hret : ∀ k, (program cfg).threadState k (p.threads.threads k) = .returned :=
    fun k => hinv.joined k (mem_simulate _)
  obtain ⟨hputs, hcount⟩ := counters_of_returned hinv.reachable hthreads hret
  have hlimit : (cfg.limit : ℤ) = max 0 cfg.maxRequests := by
    unfold Arguments.limit
    omega
  refine ⟨hret, holder_eq_none_of_returned hinv.reachable hret, ?_, _,
    hinv.results (mem_simulate _), hputs, hcount, ?_, ?_⟩
  · intro b
    rw [← Bool.not_eq_true, hinv.live_iff]
    exact fun hb => hb.2 (mem_simulate _)
  · simp only [hputs, hlimit]
    omega
  · simp only [hcount, hlimit]
    split <;> omega

/-- `simulate` can return for one producer, one consumer, one slot and one request. -/
theorem exists_finished_oneOfEach : ∃ p, (system (oneOfEach : Arguments) false).Reachable p ∧
    p.fault = false ∧ p.main = [] := by
  obtain ⟨s, hs, hret⟩ := exists_returned_oneOfEach
  obtain ⟨p₀, hp₀, hinv₀, rfl⟩ := exists_reachable_threads hs
  obtain ⟨p, pre, hp, hinv, hthreads, hwaits⟩ :=
    exists_main_waiting (nonempty_thread (by decide)) hp₀ hinv₀
  rw [← hthreads] at hret
  refine ⟨p, hp, hinv.fault, ?_⟩
  cases hmain : p.main with
  | nil => rfl
  | cons st rest =>
    refine absurd ?_ (hwaits st rest hmain)
    cases st with
    | join k => exact hret k
    | malloc | create | readResults | mutexDestroy | free => trivial

/-- With one put and nothing left in the buffer. -/
theorem simulate_finished_oneOfEach : ∃ p, (system (oneOfEach : Arguments) false).Reachable p ∧
    p.main = [] ∧ p.results = some ⟨1, 0⟩ := by
  obtain ⟨p, hp, -, hmain⟩ := exists_finished_oneOfEach
  obtain ⟨-, -, -, r, hr, hputs, hcount, -⟩ :=
    simulate_finished oneOfEach false (by decide) p hp hmain
  refine ⟨p, hp, hmain, ?_⟩
  rw [hr]
  congr 1
  cases r
  simp_all [Arguments.limit, oneOfEach]

/-! ## Hanging -/

/-- A deadlock of the threads makes `simulate` hang. -/
theorem exists_hang_of_deadlock {s : ThreadsState cfg} {k : Thread cfg}
    (h : (statements cfg spurious).Reachable s) (hstuck : (statements cfg false).Stuck s)
    (hk : (program cfg).threadState k (s.threads k) ≠ .returned) :
    ∃ p, (system cfg spurious).Reachable p ∧ p.fault = false ∧ (system cfg false).Stuck p ∧
      p.main ≠ [] := by
  obtain ⟨p₀, hp₀, hinv₀, rfl⟩ := exists_reachable_threads h
  obtain ⟨p, pre, hp, hinv, hthreads, hwaits⟩ := exists_main_waiting ⟨k⟩ hp₀ hinv₀
  rw [← hthreads] at hstuck hk
  have hlive := halted_eq_none (reachable_threads hp)
  refine ⟨p, hp, hinv.fault, ?_, ?_⟩
  · rintro p' ⟨-, hs⟩
    cases hs with
    | main hmain hen => exact hwaits _ _ hmain hen
    | mainFault hmain hvalid => exact hvalid (hinv.valid_next hmain (.inl ⟨k⟩))
    | thread k' t _ hs => exact hstuck t ⟨hlive, k', hs⟩
    | threadFault k' t _ hs => exact hstuck t ⟨hlive, k', hs⟩
  · intro hmain
    have hsplit := hinv.split
    rw [hmain, List.append_nil] at hsplit
    exact hk (hinv.joined k (hsplit ▸ mem_simulate _))

/-- Where `simulate` hangs, it waits for a thread, and the threads are deadlocked. -/
theorem deadlock_of_hang (h : (system cfg spurious).Reachable p) (hfault : p.fault = false)
    (hstuck : (system cfg false).Stuck p) (hmain : p.main ≠ []) :
    (statements cfg false).Stuck p.threads ∧
      ∃ k, (program cfg).threadState k (p.threads.threads k) ≠ .returned := by
  have hlive := halted_eq_none (reachable_threads h)
  obtain ⟨st, rest, hmain⟩ := List.exists_cons_of_ne_nil hmain
  have hvalid : p.Valid st := by
    by_contra hvalid
    exact hstuck _ ⟨⟨hfault, hlive⟩, .mainFault hmain hvalid⟩
  have hen : ¬ p.Enabled st := fun hen => hstuck _ ⟨⟨hfault, hlive⟩, .main hmain hen hvalid⟩
  cases st with
  | malloc | create | readResults | mutexDestroy | free => exact absurd trivial hen
  | join k =>
    obtain ⟨pre, hinv⟩ := Inv.of_reachable ⟨k⟩ h
    refine ⟨?_, k, hen⟩
    rintro t ⟨-, k', hs⟩
    have hcreate : .create k' ∈ pre :=
      mem_of_phase_lt_next (hmain ▸ hinv.split) (by simp [MainStatement.phase])
    have hstarted := (hinv.started_iff k').mpr hcreate
    exact hstuck _ ⟨⟨hfault, hlive⟩, .thread k' t hstarted hs (hinv.live_of_step hstarted hs)⟩

/-- Threads of both kinds with more producers than slots and at least as many requests as slots, or
producers only and at least as many requests as slots, or consumers only and any request at all. -/
def Arguments.MayHang (cfg : Arguments) : Prop :=
  (0 < cfg.numConsumers ∧ cfg.bufferSize < cfg.numProducers ∧
      cfg.bufferSize ≤ cfg.maxRequests) ∨
    (cfg.numConsumers = 0 ∧ 0 < cfg.numProducers ∧ cfg.bufferSize ≤ cfg.maxRequests) ∨
    (cfg.numProducers = 0 ∧ 0 < cfg.numConsumers ∧ 0 < cfg.maxRequests)

theorem exists_hang_iff (cfg : Arguments) (spurious : Bool) :
    (∃ p, (system cfg spurious).Reachable p ∧ p.fault = false ∧ (system cfg false).Stuck p ∧
      p.main ≠ []) ↔ cfg.MayHang := by
  unfold Arguments.MayHang
  have hdeadlock : (∃ p, (system cfg spurious).Reachable p ∧ p.fault = false ∧
      (system cfg false).Stuck p ∧ p.main ≠ []) ↔
        ∃ s, (statements cfg spurious).Reachable s ∧ (statements cfg false).Stuck s ∧
          ∃ k, (program cfg).threadState k (s.threads k) ≠ .returned := by
    constructor
    · rintro ⟨p, hp, hfault, hstuck, hmain⟩
      exact ⟨p.threads, reachable_threads hp, deadlock_of_hang hp hfault hstuck hmain⟩
    · rintro ⟨s, hs, hstuck, k, hk⟩
      exact exists_hang_of_deadlock hs hstuck hk
  rw [hdeadlock, exists_deadlock_iff]
  have hpos := cfg.bufferSize_pos
  have hslots := cfg.coe_slots
  have hlimit := cfg.lt_limit_iff
  have hle : cfg.slots ≤ cfg.limit ↔ cfg.bufferSize ≤ cfg.maxRequests := by
    unfold Arguments.slots Arguments.limit
    omega
  rcases Nat.eq_zero_or_pos cfg.numProducers with hP | hP <;>
    rcases Nat.eq_zero_or_pos cfg.numConsumers with hC | hC
  · refine iff_of_false ?_ (by omega)
    rintro ⟨a, -, -, ⟨i, -⟩ | ⟨j, -⟩⟩
    · exact (hP ▸ i).elim0
    · exact (hC ▸ j).elim0
  · have : IsEmpty (Fin cfg.numProducers) := by
      rw [hP]
      infer_instance
    have : Nonempty (Fin cfg.numConsumers) := ⟨⟨0, hC⟩⟩
    rw [BoundedBuffer.deadlock_reachable_iff_of_isEmpty_producers, hlimit]
    omega
  · have : IsEmpty (Fin cfg.numConsumers) := by
      rw [hC]
      infer_instance
    have : Nonempty (Fin cfg.numProducers) := ⟨⟨0, hP⟩⟩
    rw [BoundedBuffer.deadlock_reachable_iff_of_isEmpty_consumers, hle]
    omega
  · have : Nonempty (Fin cfg.numConsumers) := ⟨⟨0, hC⟩⟩
    have : Nonempty (Fin cfg.numProducers) := ⟨⟨0, hP⟩⟩
    rw [BoundedBuffer.deadlock_reachable_iff cfg.slots_pos, Fintype.card_fin, hle]
    omega

/-- A run of the process is one of the main thread and one of the others. -/
theorem exists_length_eq {n : ℕ} (h : (system cfg spurious).ReachableIn n p) :
    ∃ m, (statements cfg spurious).ReachableIn m p.threads ∧
      n + p.main.length = (simulate cfg).length + m + p.fault.toNat := by
  induction h with
  | init h₀ =>
    subst h₀
    exact ⟨0, .init rfl, by simp [Process.initial]⟩
  | step _ hs ih =>
    obtain ⟨m, hm, hlength⟩ := ih
    obtain ⟨⟨hfault, hlive⟩, hs⟩ := hs
    cases hs with
    | main hmain =>
      refine ⟨m, by simpa using hm, ?_⟩
      simp only [hmain, hfault, runMain_fault, List.length_cons] at hlength ⊢
      omega
    | thread k t _ hs =>
      refine ⟨m + 1, .step hm ⟨hlive, k, hs⟩, ?_⟩
      simp only at hlength ⊢
      omega
    | mainFault | threadFault =>
      refine ⟨m, hm, ?_⟩
      simp only [hfault, Bool.toNat_true, Bool.toNat_false] at hlength ⊢
      omega

theorem length_simulate (cfg : Arguments) :
    (simulate cfg).length = 4 * (cfg.numProducers + cfg.numConsumers) + 18 := by
  simp [simulate, initThreadArgs, destroyThreadArgs, argsOrder]
  omega

theorem length_le_of_reachableIn (n : ℕ) (p : Process cfg)
    (h : (system cfg false).ReachableIn n p) :
    n ≤ 4 * (cfg.numProducers + cfg.numConsumers) + 19 + maxStatements cfg := by
  obtain ⟨m, hm, hn⟩ := exists_length_eq h
  have hle := length_le_maxStatements hm
  have hfault := Bool.toNat_le p.fault
  rw [length_simulate] at hn
  omega

/-- **Every run of `simulate` is finite**: without spurious wakeups it takes no more steps than a
number read off the arguments, those of the main thread among them, and none goes on for ever. -/
theorem simulate_bounded (cfg : Arguments) :
    (∀ n p, (system cfg false).ReachableIn n p →
      n ≤ 4 * (cfg.numProducers + cfg.numConsumers) + 19 + maxStatements cfg) ∧
      ¬∃ run : ℕ → Process cfg, (system cfg false).init (run 0) ∧
        ∀ n, (system cfg false).step (run n) (run (n + 1)) :=
  ⟨length_le_of_reachableIn,
    TransitionSystem.not_exists_infinite_run_of_bounded length_le_of_reachableIn⟩

end CExamples.ProducerConsumer

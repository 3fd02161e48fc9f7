import CExamples.ProducerConsumer.Deadlock
import CExamples.ProducerConsumer.StatementRefinement
import CExamples.ProducerConsumer.Termination
import Mathlib.Tactic.Ring

/-!
# The simulation in every interleaving of single statements

What holds of the simulation holds of its threads interleaved statement by statement: whoever
touches what they share holds the mutex, no statement faults, every request is delivered once and in
order, a deadlock is reachable in the same configurations, and every schedule ends within a number
of statements that the configuration bounds.
-/

namespace CExamples.ProducerConsumer

open C MonitorProgram Program

variable {cfg : Arguments} {spurious : Bool} {s s' : ThreadsState cfg}

/-! ## Mutual exclusion -/

/-- **No data race**: in every reachable state the mutex is held by exactly the thread that is in a
section of its code, and two threads are never both about to run a statement that reads or writes
the buffer, signals, waits or unlocks. -/
theorem exclusive_access (cfg : Arguments) (spurious : Bool) (s : ThreadsState cfg)
    (h : (statements cfg spurious).Reachable s) :
    (∀ k, s.holder = some k ↔ ∃ p, s.threads k = .ready p ∧ (program cfg).inside k p) ∧
      ∀ k k' p p', s.threads k = .ready p → ((program cfg).code k p).Exclusive →
        s.threads k' = .ready p' → ((program cfg).code k' p').Exclusive →
          s.holder = some k ∧ k = k' := by
  have hc := consistent_of_reachable h
  refine ⟨hc.holder_iff, ?_⟩
  intro k k' p p' hk hexclusive hk' hexclusive'
  have hholder := hc.holder_eq hk (inside_of_exclusive hexclusive)
  have hholder' := hc.holder_eq hk' (inside_of_exclusive hexclusive')
  exact ⟨hholder, Option.some_inj.mp (hholder.symm.trans hholder')⟩

/-- A producer that has just taken the mutex is the only thread that may touch the buffer. -/
theorem exclusive_access_locked :
    ∃ s, (statements oneOfEach false).Reachable s ∧ ∀ k p, s.threads k = .ready p →
      ((program oneOfEach).code k p).Exclusive → Sum.inl (0 : Fin 1) = k := by
  have hlocked := TransitionSystem.Reachable.step (T := statements oneOfEach false) (.init rfl)
    ⟨rfl, Sum.inl (0 : Fin 1),
      .acquire ProducerPoint.testFull (.inr ⟨ProducerPoint.lock, rfl, rfl⟩) rfl⟩
  refine ⟨_, hlocked, ?_⟩
  intro k p hk hexclusive
  refine ((exclusive_access oneOfEach false _ hlocked).2 (Sum.inl (0 : Fin 1)) k
    ProducerPoint.testFull p ?_ trivial hk hexclusive).2
  simp

/-! ## The two levels -/

/-- With the mutex free, the threads are in a state of the simulation. -/
theorem reachable_simulation_of_free (h : (statements cfg spurious).Reachable s)
    (hfree : s.holder = none ∨ s.halted ≠ none) :
    (simulation cfg spurious).Reachable (toSimulation s) :=
  reachable_of_sections (reachable_iff_atomic.mp ⟨h, hfree⟩)

/-- **No statement faults**: no assertion fails, nothing is undefined. -/
theorem halted_eq_none (h : (statements cfg spurious).Reachable s) : s.halted = none := by
  by_contra hhalted
  have hsim := reachable_simulation_of_free h (.inr hhalted)
  obtain ⟨a, -, hR⟩ := (bisimulation cfg spurious).exists_abstract hsim
  exact hhalted hR.running

/-- **The statements implement the sections.** Whatever `n` statements reach, interleaved in any
way, `n` statements reach that no other thread interrupts between a lock and its release; and with
the mutex free the states reached are those of the simulation. -/
theorem statements_refine_simulation (cfg : Arguments) (spurious : Bool) :
    (∀ n s, (statements cfg spurious).ReachableIn n s ↔
      ((program cfg).serial ⟨createBuffer cfg.bufferSize, []⟩ spurious).ReachableIn n s) ∧
      ∀ t, (simulation cfg spurious).Reachable t ↔
        ∃ s, (statements cfg spurious).Reachable s ∧ s.holder = none ∧ toSimulation s = t := by
  refine ⟨fun n s => reachableIn_iff_serial, ?_⟩
  intro t
  constructor
  · intro ht
    obtain ⟨s, hs, hst, -⟩ := exists_sections_of_reachable ht
    obtain ⟨hs', -⟩ := reachable_iff_atomic.mpr hs
    exact ⟨s, hs', holder_eq_none_of_atomic hs (halted_eq_none hs'), hst⟩
  · rintro ⟨s, hs, hfree, rfl⟩
    exact reachable_simulation_of_free hs (.inl hfree)

/-! ## Delivery -/

/-- A producer's statements take no request out. -/
theorem taken_of_producer_access {maxRequests : ℤ} {p next : ProducerPoint}
    {run : Shared → Except Halt (Shared × ProducerPoint)} {v w : Shared}
    (hcode : producerCode maxRequests p = .access run) (hrun : run v = .ok (w, next)) :
    w.taken = v.taken := by
  cases p with
  | lock | waitNotFull | broadcastNotEmpty | unlockLast | returned | signalNotEmpty | unlock =>
    simp [producerCode] at hcode
  | _ =>
    rw [producerCode, Statement.access.injEq] at hcode
    subst hcode
    simp only [orUndefined_bind_eq_ok, Except.ok.injEq, Prod.mk.injEq, pure, Except.pure] at hrun
    grind

/-- A consumer's statements only add to the requests taken. -/
theorem taken_of_consumer_access {maxRequests : ℤ} {p next : ConsumerPoint}
    {run : Shared → Except Halt (Shared × ConsumerPoint)} {v w : Shared}
    (hcode : consumerCode maxRequests p = .access run) (hrun : run v = .ok (w, next)) :
    v.taken <+: w.taken := by
  cases p with
  | lock | waitNotEmpty | unlockLast | returned | signalNotFull | unlock | process =>
    simp [consumerCode] at hcode
  | _ =>
    rw [consumerCode, Statement.access.injEq] at hcode
    subst hcode
    simp only [orUndefined_bind_eq_ok, Except.ok.injEq, Prod.mk.injEq, pure, Except.pure] at hrun
    grind

/-- A statement only adds to the requests taken. -/
theorem taken_prefix_of_step {k : Thread cfg} (hs : (program cfg).Step spurious k s s') :
    s.shared.taken <+: s'.shared.taken := by
  cases hs with
  | access w next hk hcode hrun =>
    cases k with
    | inl i => rw [taken_of_producer_access hcode hrun]
    | inr j => exact taken_of_consumer_access hcode hrun
  | acquire | move | wake | fault | unlock | wait => exact List.prefix_refl _

theorem taken_prefix_of_run (h : Relation.ReflTransGen (statements cfg spurious).step s s') :
    s.shared.taken <+: s'.shared.taken := by
  induction h with
  | refl => exact List.prefix_refl _
  | tail _ hs ih =>
    obtain ⟨-, k, hs⟩ := hs
    exact ih.trans (taken_prefix_of_step hs)

/-- The first requests in order have no other beginnings than themselves. -/
theorem eq_requests_of_prefix {rs : List HttpRequest} {n : ℕ} (h : rs <+: requests 0 n) :
    rs = requests 0 rs.length := by
  have hle : rs.length ≤ n := by simpa using h.length_le
  have hrequests : requests 0 rs.length <+: requests 0 n :=
    ⟨requests rs.length n, requests_append (Nat.zero_le _) hle⟩
  exact (List.prefix_of_prefix_length_le h hrequests (by simp)).eq_of_length (by simp)

/-- A thread that has returned is in no section. -/
theorem holder_eq_none_of_returned (h : (statements cfg spurious).Reachable s)
    (hret : ∀ k, (program cfg).threadState k (s.threads k) = .returned) : s.holder = none := by
  have hc := consistent_of_reachable h
  by_contra hheld
  obtain ⟨k, hk⟩ := Option.ne_none_iff_exists'.mp hheld
  obtain ⟨p, hp, hin⟩ := (hc.holder_iff k).mp hk
  have hd := (program cfg).disciplined k p
  have hretk := hret k
  rw [hp] at hretk
  cases hcode : (program cfg).code k p with
  | done => rw [hcode] at hd; exact hd hin
  | _ => simp [threadState, hcode, Statement.isDone] at hretk

/-- **Exactly-once delivery at every statement.** In every reachable state of the interleaved
statements nothing has failed and the requests taken are the first ones in order; with the mutex
free, they and the buffer's contents are all that have been put; once every thread has returned, all
`maxRequests` of them have been taken. -/
theorem statement_delivery (cfg : Config) (spurious : Bool) (s : ThreadsState cfg)
    (h : (statements cfg spurious).Reachable s) :
    s.halted = none ∧ s.shared.taken = requests 0 s.shared.taken.length ∧
      (s.holder = none → s.shared.taken.map some ++ s.shared.buffer.contents
        = (requests 0 s.shared.buffer.totalPuts.toNat).map some) ∧
      ((∀ k, (program cfg).threadState k (s.threads k) = .returned) →
        s.shared.taken = requests 0 cfg.maxRequests.toNat ∧
          s.shared.buffer.totalPuts = cfg.maxRequests ∧ s.shared.buffer.count = 0) := by
  refine ⟨halted_eq_none h, ?_, ?_, ?_⟩
  · -- The section under way runs to its end, where the requests taken are those of the simulation.
    obtain ⟨s', hrun, hs'⟩ := exists_run_to_atomic h
    obtain ⟨a, -, hR⟩ := exists_refines (reachable_of_sections hs')
    have hprefix := taken_prefix_of_run hrun
    have htaken : s'.shared.taken = requests 0 a.gets := hR.taken
    rw [htaken] at hprefix
    exact eq_requests_of_prefix hprefix
  · intro hfree
    obtain ⟨a, -, hR⟩ := exists_refines (reachable_simulation_of_free h (.inl hfree))
    have htotal : s.shared.buffer.totalPuts = a.puts := hR.totalPuts
    rw [htotal, Int.toNat_natCast]
    exact hR.taken_append_contents
  · intro hret
    have hfree := holder_eq_none_of_returned h hret
    obtain ⟨a, ha, hR⟩ := exists_refines (reachable_simulation_of_free h (.inl hfree))
    obtain ⟨hputs, hgets⟩ := hR.finished ha fun j => hret (Sum.inr j)
    have htaken : s.shared.taken = requests 0 a.gets := hR.taken
    have htotal : s.shared.buffer.totalPuts = a.puts := hR.totalPuts
    have hcount : s.shared.buffer.count = (a.puts : ℤ) - a.gets := hR.count_eq
    have hlimit := cfg.coe_limit
    refine ⟨?_, by omega, by omega⟩
    rw [htaken, hgets, Arguments.limit]

/-- The threads of one producer, one consumer, one slot and one request can all return. -/
theorem exists_returned_oneOfEach : ∃ s, (statements oneOfEach false).Reachable s ∧
    ∀ k, (program oneOfEach).threadState k (s.threads k) = .returned := by
  obtain ⟨s, hs, hsim, -⟩ := exists_sections_of_reachable reachable_oneOfEachReturned
  refine ⟨s, reachable_of_atomic hs, ?_⟩
  rintro (i | j)
  · have hi := oneOfEachReturned_returned.1 i
    rwa [← hsim] at hi
  · have hj := oneOfEachReturned_returned.2 j
    rwa [← hsim] at hj

theorem statement_delivery_oneOfEach :
    ∃ s, (statements oneOfEach false).Reachable s ∧ s.shared.taken.map (·.requestId) = [0] := by
  obtain ⟨s, hs, hret⟩ := exists_returned_oneOfEach
  have htaken := ((statement_delivery oneOfEach false s hs).2.2.2 hret).1
  exact ⟨s, hs, by rw [htaken]; rfl⟩

/-! ## Deadlock -/

/-- With the mutex free, a running thread can take a section or go on to its next lock. -/
theorem exists_section_of_running (hc : Consistent (program cfg) s) (hfree : s.holder = none)
    (hlive : s.halted = none) {k : Thread cfg}
    (hk : (program cfg).threadState k (s.threads k) = .running) :
    ∃ s', (sections cfg false).step s s' := by
  have hrun : ∀ {ℓ : Point cfg k}, (program cfg).Acquires k (s.threads k) ℓ →
      ∃ s', (sections cfg false).step s s' := by
    intro ℓ hacq
    obtain ⟨ws, v, x, hends⟩ := exists_ends (hc.inside_of_acquires hacq) s.shared
    obtain ⟨ts, hts⟩ := WakesAll.exists_wakesAll ws s.threads
    exact ⟨_, hlive, k, .run hacq hends hts⟩
  cases k with
  | inl i => exact hrun (acquires_of_producer_running hc hfree hk)
  | inr j =>
    rcases acquires_of_consumer_running hc hfree hk with hprocess | hacq
    · exact ⟨_, hlive, Sum.inr j, .move (.ready ConsumerPoint.lock) (hprocess ▸ .skip rfl)⟩
    · exact hrun hacq

/-- No statement can be run exactly if the mutex is free and the simulation is stuck. -/
theorem stuck_iff_simulation (h : (statements cfg spurious).Reachable s) :
    (statements cfg false).Stuck s ↔ s.holder = none ∧ Stuck (toSimulation s) := by
  have hc := consistent_of_reachable h
  have hlive := halted_eq_none h
  have hatomic := stuck_iff_atomic h
  constructor
  · intro hstuck
    obtain ⟨hfree, hstuck'⟩ := hatomic.mp hstuck
    replace hfree : s.holder = none := hfree.resolve_right (not_not.mpr hlive)
    have hrunning : ∀ k, (program cfg).threadState k (s.threads k) ≠ .running := by
      intro k hk
      obtain ⟨s', hs'⟩ := exists_section_of_running hc hfree hlive hk
      exact hstuck' s' hs'
    refine ⟨hfree, ?_⟩
    rintro t ⟨-, (⟨i, hi, -⟩ | ⟨j, hj, -⟩) | ⟨hspurious, -⟩⟩
    · exact hrunning (Sum.inl i) hi
    · exact hrunning (Sum.inr j) hj
    · cases hspurious
  · rintro ⟨hfree, hstuck⟩
    obtain ⟨a, -, hR⟩ := (bisimulation cfg spurious).exists_abstract
      (reachable_simulation_of_free h (.inl hfree))
    have hstuck' := hR.stuck_iff.mp hstuck
    have hrunning : ∀ k, (program cfg).threadState k (s.threads k) ≠ .running := by
      rintro (i | j) hk
      · have hi : a.producers i = .running := hR.producers ▸ hk
        obtain ⟨a', ha'⟩ := BoundedBuffer.exists_step_of_producer_running hi
        exact hstuck' a' ha'
      · have hj : a.consumers j = .running := hR.consumers ▸ hk
        obtain ⟨a', ha'⟩ := BoundedBuffer.exists_step_of_consumer_running hR.bounds hj
        exact hstuck' a' ha'
    refine hatomic.mpr ⟨.inl hfree, ?_⟩
    rintro s' ⟨-, k, hs⟩
    cases hs with
    | run hacq => exact hrunning k hacq.threadState_eq
    | move x hmove =>
      generalize hk : s.threads k = t at hmove
      cases hmove with
      | skip hcode =>
        refine hrunning k ?_
        rw [hk]
        simp [threadState, hcode, Statement.isDone]
      | spurious hspurious => cases hspurious

/-- The statements deadlock where the bounded buffer does. -/
theorem exists_deadlock_iff (cfg : Arguments) (spurious : Bool) :
    (∃ s, (statements cfg spurious).Reachable s ∧ (statements cfg false).Stuck s ∧
      ∃ k, (program cfg).threadState k (s.threads k) ≠ .returned) ↔
      ∃ a : BoundedBuffer.State (Fin cfg.numProducers) (Fin cfg.numConsumers),
        (BoundedBuffer.system _ _ cfg.slots cfg.limit spurious).Reachable a ∧
          BoundedBuffer.Deadlocked cfg.slots cfg.limit a := by
  rw [← exists_reachable_iff fun s a h => h.deadlocked_iff]
  constructor
  · rintro ⟨s, hs, hstuck, k, hk⟩
    obtain ⟨hfree, hstuck'⟩ := (stuck_iff_simulation hs).mp hstuck
    refine ⟨toSimulation s, reachable_simulation_of_free hs (.inl hfree), hstuck', ?_⟩
    cases k with
    | inl i => exact .inl ⟨i, hk⟩
    | inr j => exact .inr ⟨j, hk⟩
  · rintro ⟨t, ht, hstuck, hleft⟩
    obtain ⟨s, hs, rfl, -⟩ := exists_sections_of_reachable ht
    have hs' := reachable_of_atomic hs
    have hfree := holder_eq_none_of_atomic hs (halted_eq_none hs')
    refine ⟨s, hs', (stuck_iff_simulation hs').mpr ⟨hfree, hstuck⟩, ?_⟩
    rcases hleft with ⟨i, hi⟩ | ⟨j, hj⟩
    · exact ⟨Sum.inl i, hi⟩
    · exact ⟨Sum.inr j, hj⟩

/-- **The deadlock boundary of the statements**: a state in which no thread can run a statement and
some thread has not returned is reachable exactly if there are more producers than slots and at
least as many requests as slots. -/
theorem statements_deadlock_iff (cfg : Config) (spurious : Bool) :
    (∃ s, (statements cfg spurious).Reachable s ∧ (statements cfg false).Stuck s ∧
      ∃ k, (program cfg).threadState k (s.threads k) ≠ .returned) ↔
      cfg.bufferSize < cfg.numProducers ∧ cfg.bufferSize ≤ cfg.maxRequests := by
  rw [exists_deadlock_iff, BoundedBuffer.deadlock_reachable_iff cfg.slots_pos, unsafe_iff]

/-! ## Every schedule ends -/

/-- How many consumers are between their section and their next lock. -/
def processing (s : ThreadsState cfg) : ℕ :=
  (Finset.univ.filter fun j => (s.threads (Sum.inr j) : Status Cond ConsumerPoint)
    = .ready .process).card

/-- What is still to be done, section by section: two for every section of the simulation, one for
every consumer on its way to the next. -/
def sectionsLeft (s : ThreadsState cfg) : ℕ :=
  2 * measure (toSimulation s) + processing s

/-- At most the thread that moves is between two sections and was not before. -/
theorem processing_le_succ {k : Thread cfg}
    (h : ∀ j, Sum.inr j ≠ k → s'.threads (Sum.inr j) = .ready ConsumerPoint.process →
      s.threads (Sum.inr j) = .ready ConsumerPoint.process) :
    processing s' ≤ processing s + 1 := by
  cases k with
  | inl i =>
    refine Nat.le_succ_of_le (Finset.card_le_card ?_)
    intro j hj
    rw [Finset.mem_filter] at hj ⊢
    exact ⟨hj.1, h j Sum.inr_ne_inl hj.2⟩
  | inr j =>
    refine le_trans (Finset.card_le_card ?_) (Finset.card_insert_le j _)
    intro j' hj'
    rw [Finset.mem_filter] at hj'
    by_cases hjj : j' = j
    · exact Finset.mem_insert.mpr (.inl hjj)
    · refine Finset.mem_insert_of_mem (Finset.mem_filter.mpr ⟨hj'.1, ?_⟩)
      exact h j' (Sum.inr_injective.ne hjj) hj'.2

/-- A consumer that goes on to its next lock is no longer between two sections. -/
theorem processing_lt {j : Fin cfg.numConsumers}
    (hj : s.threads (Sum.inr j) = .ready ConsumerPoint.process) :
    processing { s with
      threads := Function.update s.threads (Sum.inr j) (.ready ConsumerPoint.lock) }
      < processing s := by
  refine Finset.card_lt_card ((Finset.ssubset_iff_of_subset ?_).mpr
    ⟨j, by simpa using hj, by simp⟩)
  intro j' hj'
  simp only [Finset.mem_filter, Finset.mem_univ, true_and] at hj' ⊢
  by_cases hjj : j' = j
  · subst hjj
    simp at hj'
  · rwa [Function.update_of_ne (Sum.inr_injective.ne hjj)] at hj'

/-- **Every section leaves less to be done.** -/
theorem sectionsLeft_lt (hs : (sections cfg spurious).Reachable s)
    (hstep : (sections cfg false).step s s') : sectionsLeft s' < sectionsLeft s := by
  obtain ⟨hlive, k, hstep⟩ := hstep
  have hsim := reachable_of_sections hs
  have hc := consistent_of_reachable (reachable_of_atomic hs)
  obtain ⟨a, -, hR⟩ := (bisimulation cfg spurious).exists_abstract hsim
  cases hstep with
  | @run ℓ ws v x ts hacq hends hts =>
    obtain ⟨y, hthreads⟩ := exists_threads_leave k ts v x
    have hless : measure (toSimulation (leave k ts v x)) < measure (toSimulation s) := by
      cases k with
      | inl i =>
        exact measure_lt_of_threadStep hsim
          ⟨hlive, .inl (.inl ⟨i, producerStep_of_run hc hlive hR hacq hends hts⟩)⟩
      | inr j =>
        exact measure_lt_of_threadStep hsim
          ⟨hlive, .inl (.inr ⟨j, consumerStep_of_run hc hlive hR hacq hends hts⟩)⟩
    have hle : processing (leave k ts v x) ≤ processing s + 1 := by
      apply processing_le_succ (k := k)
      intro j hj hprocess
      rwa [hthreads, Function.update_of_ne hj, hts.ready_iff] at hprocess
    unfold sectionsLeft
    omega
  | move x hmove =>
    cases k with
    | inl i => cases (spuriousWakeup_of_producer_move hmove).1
    | inr j =>
      rcases process_or_spuriousWakeup_of_consumer_move hmove with ⟨hprocess, rfl⟩ | ⟨hspurious, -⟩
      · have := processing_lt hprocess
        unfold sectionsLeft
        rw [toSimulation_process hprocess]
        omega
      · cases hspurious

/-- What there is to be done at the start. -/
theorem sectionsLeft_initial (cfg : Arguments) :
    sectionsLeft ((program cfg).initial ⟨createBuffer cfg.bufferSize, []⟩)
      = 2 * (4 * cfg.limit + (cfg.numConsumers + 2) * cfg.numProducers + 2 * cfg.numConsumers) := by
  have hprocessing : processing ((program cfg).initial ⟨createBuffer cfg.bufferSize, []⟩) = 0 := by
    simp [processing, Program.initial, program]
  have hcount : ∀ n, Monitor.count (fun _ : Fin n => ThreadState.running) .waiting = 0 := by
    intro n
    rw [Monitor.count_eq_zero_iff]
    simp
  rw [sectionsLeft, hprocessing, toSimulation_initial]
  simp only [measure, initialState, createBuffer, Monitor.live, Monitor.count_const_self, hcount,
    Fintype.card_fin, Int.toNat_zero, Nat.sub_zero, Int.sub_zero, Nat.max_zero, Nat.add_zero]
  ring

/-- More statements than any schedule of the arguments' threads runs. -/
def maxStatements (cfg : Arguments) : ℕ :=
  13 * (2 * (4 * cfg.limit + (cfg.numConsumers + 2) * cfg.numProducers + 2 * cfg.numConsumers) + 1)

theorem length_le_maxStatements {n : ℕ} (h : (statements cfg false).ReachableIn n s) :
    n ≤ maxStatements cfg := by
  refine length_le_of_atomic ?_ h
  intro m t ht
  refine Nat.le_of_add_right_le (ht.length_add_measure_le (μ := sectionsLeft) ?_ ?_)
  · rintro t rfl
    exact (sectionsLeft_initial cfg).le
  · intro t t' ht hstep
    exact sectionsLeft_lt ht hstep

/-- **Every schedule of the statements is finite**: without spurious wakeups no interleaving runs
more statements than a number read off the arguments, and none goes on for ever. -/
theorem statements_finite (cfg : Arguments) :
    (∀ n s, (statements cfg false).ReachableIn n s → n ≤ maxStatements cfg) ∧
      ¬∃ run : ℕ → ThreadsState cfg, (statements cfg false).init (run 0) ∧
        ∀ n, (statements cfg false).step (run n) (run (n + 1)) :=
  ⟨fun _ _ => length_le_maxStatements,
    TransitionSystem.not_exists_infinite_run_of_bounded fun _ _ => length_le_maxStatements⟩

end CExamples.ProducerConsumer

import CExamples.Common.MonitorProgram.Groups
import CExamples.ProducerConsumer.SimulationRefinement
import CExamples.ProducerConsumer.Statements

/-!
# The statements refine the simulation

What the statements of `producer` and `consumer` do between a lock and the next release is what
`producerSection` and `consumerSection` compute, so the threads interleaved statement by statement
reach, whenever the mutex is free, exactly the states of the simulation.
-/

namespace CExamples.ProducerConsumer

open C MonitorProgram

variable {maxRequests : ℤ} {b b' : Buffer} {taken : List HttpRequest}

/-! ## What the sections do -/

/-- A producer that finds the buffer full waits. -/
theorem ends_of_producerSection_wait (h : producerSection maxRequests b = some .wait) :
    Ends (producerCode maxRequests) .testFull ⟨b, taken⟩ [] ⟨b, taken⟩
      (.wait .notFull .testFull) := by
  rw [producerSection] at h
  split_ifs at h with hfull
  · exact .access rfl (by rw [if_pos hfull]) (.wait rfl)
  · simp at h
  · simp [Option.bind_eq_some_iff] at h

/-- A producer that finds a free slot and the limit reached returns. -/
theorem ends_of_producerSection_finish (h : producerSection maxRequests b = some .finish) :
    Ends (producerCode maxRequests) .testFull ⟨b, taken⟩ [.broadcast .notEmpty] ⟨b, taken⟩
      (.unlock .returned) := by
  rw [producerSection] at h
  split_ifs at h with hfull hlim
  · simp at h
  · exact .access rfl (by rw [if_neg hfull])
      (.access rfl (by rw [if_pos hlim]) (.wake rfl (.unlock rfl)))
  · simp [Option.bind_eq_some_iff] at h

/-- A producer that finds a free slot below the limit does what `put` does. -/
theorem ends_of_producerSection_put (h : producerSection maxRequests b = some (.put b')) :
    Ends (producerCode maxRequests) .testFull ⟨b, taken⟩ [.signal .notEmpty] ⟨b', taken⟩
      (.unlock .lock) := by
  rw [producerSection] at h
  split_ifs at h with hfull hlim
  · simp at h
  · simp at h
  · simp only [Buffer.put, if_neg hfull, Option.bind_eq_bind, Option.bind_eq_some_iff,
      Option.pure_def, Option.some.injEq, Prod.exists, Prod.mk.injEq] at h
    obtain ⟨success, b₁, ⟨buffer, hstore, next, hnext, putIndex, hmod, count, hcount, total, htotal,
      rfl, rfl⟩, hput⟩ := h
    simp only [if_true, ProducerSection.put.injEq] at hput
    subst hput
    -- the tests of `producer` and the one of `put`, the four writes of `put`, the assertion
    refine .access rfl (by rw [if_neg hfull]) (.access rfl (by rw [if_neg hlim]) ?_)
    refine .access rfl rfl (.access rfl (by rw [if_neg hfull]) ?_)
    refine .access rfl (by simp only [hstore, orUndefined_some_bind]; rfl) ?_
    refine .access rfl (by simp only [hnext, hmod, orUndefined_some_bind]; rfl) ?_
    refine .access rfl (by simp only [hcount, orUndefined_some_bind]; rfl) ?_
    refine .access rfl (by simp only [htotal, orUndefined_some_bind]; rfl) ?_
    exact .access rfl rfl (.wake rfl (.unlock rfl))

/-- A consumer that finds the buffer empty below the limit waits. -/
theorem ends_of_consumerSection_wait (h : consumerSection maxRequests b = some .wait) :
    Ends (consumerCode maxRequests) .testEmpty ⟨b, taken⟩ [] ⟨b, taken⟩
      (.wait .notEmpty .testEmpty) := by
  rw [consumerSection] at h
  split_ifs at h with hempty
  · exact .access rfl (by rw [if_pos hempty]) (.wait rfl)
  · simp at h
  · simp only [Option.bind_eq_bind, Option.bind_eq_some_iff, Option.pure_def, Option.some.injEq]
      at h
    obtain ⟨⟨r, b₁⟩, -, h⟩ := h
    simp only at h
    split_ifs at h

/-- A consumer that finds the buffer empty and the limit reached returns. -/
theorem ends_of_consumerSection_finish (h : consumerSection maxRequests b = some .finish) :
    Ends (consumerCode maxRequests) .testEmpty ⟨b, taken⟩ [] ⟨b, taken⟩ (.unlock .returned) := by
  rw [consumerSection] at h
  split_ifs at h with hempty hlim
  · simp at h
  · exact .access rfl (by rw [if_neg hempty]) (.access rfl (by rw [if_pos hlim]) (.unlock rfl))
  · simp only [Option.bind_eq_bind, Option.bind_eq_some_iff, Option.pure_def, Option.some.injEq]
      at h
    obtain ⟨⟨r, b₁⟩, -, h⟩ := h
    simp only at h
    split_ifs at h

/-- A consumer that finds an item does what `get` does. -/
theorem ends_of_consumerSection_get {r : HttpRequest}
    (h : consumerSection maxRequests b = some (.get r b')) :
    Ends (consumerCode maxRequests) .testEmpty ⟨b, taken⟩ [.signal .notFull] ⟨b', taken ++ [r]⟩
      (.unlock .process) := by
  rw [consumerSection] at h
  split_ifs at h with hempty hlim
  · simp at h
  · simp at h
  · have hitems : b.count ≠ 0 := by omega
    simp only [Buffer.get, if_neg hitems, Option.bind_eq_bind, Option.bind_eq_some_iff,
      Option.pure_def, Option.some.injEq, Prod.exists, Prod.mk.injEq] at h
    obtain ⟨value, b₁, ⟨_, hload, next, hnext, getIndex, hmod, count, hcount, rfl, rfl⟩, hget⟩ := h
    split_ifs at hget with hid
    simp only [ConsumerSection.get.injEq] at hget
    obtain ⟨rfl, rfl⟩ := hget
    refine .access rfl (by rw [if_neg hempty]) (.access rfl (by rw [if_neg hlim]) ?_)
    refine .access rfl (by rw [if_neg hitems]) ?_
    refine .access rfl (by simp only [hload, orUndefined_some_bind]; rfl) ?_
    refine .access rfl (by simp only [hnext, hmod, orUndefined_some_bind]; rfl) ?_
    refine .access rfl (by simp only [hcount, orUndefined_some_bind]; rfl) ?_
    exact .access rfl (if_pos hid) (.wake rfl (.unlock rfl))

/-! ## Where the threads are between two sections -/

/-- A producer waits on `not_full` only, and re-tests its condition. -/
theorem producerCode_wait {c : Cond} {p next : ProducerPoint}
    (h : producerCode maxRequests p = .wait c next) : c = .notFull ∧ next = .testFull := by
  cases p with
  | waitNotFull =>
    rw [producerCode, Statement.wait.injEq] at h
    exact ⟨h.1.symm, h.2.symm⟩
  | _ => simp [producerCode] at h

/-- A consumer waits on `not_empty` only, and re-tests its condition. -/
theorem consumerCode_wait {c : Cond} {p next : ConsumerPoint}
    (h : consumerCode maxRequests p = .wait c next) : c = .notEmpty ∧ next = .testEmpty := by
  cases p with
  | waitNotEmpty =>
    rw [consumerCode, Statement.wait.injEq] at h
    exact ⟨h.1.symm, h.2.symm⟩
  | _ => simp [consumerCode] at h

/-- A producer locks the mutex to test its condition. -/
theorem producerCode_lock {p next : ProducerPoint}
    (h : producerCode maxRequests p = .lock next) : p = .lock ∧ next = .testFull := by
  cases p with
  | lock =>
    rw [producerCode, Statement.lock.injEq] at h
    exact ⟨rfl, h.symm⟩
  | _ => simp [producerCode] at h

/-- A consumer locks the mutex to test its condition. -/
theorem consumerCode_lock {p next : ConsumerPoint}
    (h : consumerCode maxRequests p = .lock next) : p = .lock ∧ next = .testEmpty := by
  cases p with
  | lock =>
    rw [consumerCode, Statement.lock.injEq] at h
    exact ⟨rfl, h.symm⟩
  | _ => simp [consumerCode] at h

section Groups

variable (cfg : Arguments)

/-- The producers, which wait on `not_full`. -/
def producers : (program cfg).Group (Fin cfg.numProducers) where
  thread := Sum.inl
  cond := .notFull
  injective := Sum.inl_injective
  cond_iff := by
    rintro (i | j) c ℓ next h
    · simp [(producerCode_wait h).1]
    · simp [(consumerCode_wait h).1]

/-- The consumers, which wait on `not_empty`. -/
def consumers : (program cfg).Group (Fin cfg.numConsumers) where
  thread := Sum.inr
  cond := .notEmpty
  injective := Sum.inr_injective
  cond_iff := by
    rintro (i | j) c ℓ next h
    · simp [(producerCode_wait h).1]
    · simp [(consumerCode_wait h).1]

end Groups

variable {cfg : Arguments} {spurious : Bool} {s s' : ThreadsState cfg}
  {i : Fin cfg.numProducers} {j : Fin cfg.numConsumers}

/-- The state of the simulation that a state of the threads shows between two sections. -/
def toSimulation (s : ThreadsState cfg) : State cfg where
  buffer := s.shared.buffer
  producers := (producers cfg).view s.threads
  consumers := (consumers cfg).view s.threads
  taken := s.shared.taken
  halted := s.halted

theorem toSimulation_producer (v : Shared) (holder : Option (Thread cfg))
    (ts : (k : Thread cfg) → Status Cond (Point cfg k)) (i : Fin cfg.numProducers)
    (x : Status Cond ProducerPoint) (halted : Option Halt) :
    toSimulation ⟨v, holder, Function.update ts (Sum.inl i) x, halted⟩
      = ⟨v.buffer, Function.update ((producers cfg).view ts) i
          ((program cfg).threadState (Sum.inl i) x), (consumers cfg).view ts, v.taken, halted⟩ := by
  have hproducers := (producers cfg).view_update ts i x
  have hconsumers := (consumers cfg).view_update_of_ne ts (i := Sum.inl i)
    (fun j => Sum.inr_ne_inl) x
  simp only [toSimulation, State.mk.injEq, true_and, and_true]
  exact ⟨hproducers, hconsumers⟩

theorem toSimulation_consumer (v : Shared) (holder : Option (Thread cfg))
    (ts : (k : Thread cfg) → Status Cond (Point cfg k)) (j : Fin cfg.numConsumers)
    (x : Status Cond ConsumerPoint) (halted : Option Halt) :
    toSimulation ⟨v, holder, Function.update ts (Sum.inr j) x, halted⟩
      = ⟨v.buffer, (producers cfg).view ts, Function.update ((consumers cfg).view ts) j
          ((program cfg).threadState (Sum.inr j) x), v.taken, halted⟩ := by
  have hconsumers := (consumers cfg).view_update ts j x
  have hproducers := (producers cfg).view_update_of_ne ts (i := Sum.inr j)
    (fun i => Sum.inl_ne_inr) x
  simp only [toSimulation, State.mk.injEq, true_and, and_true]
  exact ⟨hproducers, hconsumers⟩

/-- A producer that acquires the mutex goes on to the test of its loop. -/
theorem point_of_acquires_producer (hc : Program.Consistent (program cfg) s) {ℓ : ProducerPoint}
    (h : (program cfg).Acquires (Sum.inl i) (s.threads (Sum.inl i)) ℓ) : ℓ = .testFull := by
  rcases h with hwoken | ⟨ℓ₀, -, hlock⟩
  · obtain ⟨c, ℓ₀, hwait⟩ := hc.woken _ _ hwoken
    exact (producerCode_wait hwait).2
  · exact (producerCode_lock hlock).2

/-- A consumer that acquires the mutex goes on to the test of its loop. -/
theorem point_of_acquires_consumer (hc : Program.Consistent (program cfg) s) {ℓ : ConsumerPoint}
    (h : (program cfg).Acquires (Sum.inr j) (s.threads (Sum.inr j)) ℓ) : ℓ = .testEmpty := by
  rcases h with hwoken | ⟨ℓ₀, -, hlock⟩
  · obtain ⟨c, ℓ₀, hwait⟩ := hc.woken _ _ hwoken
    exact (consumerCode_wait hwait).2
  · exact (consumerCode_lock hlock).2

/-- What a consumer does between its section and its next lock does not show. -/
theorem toSimulation_process (h : s.threads (Sum.inr j) = .ready ConsumerPoint.process) :
    toSimulation { s with
        threads := Function.update s.threads (Sum.inr j) (.ready ConsumerPoint.lock) }
      = toSimulation s := by
  have hj : (consumers cfg).view s.threads j = .running := by
    show (program cfg).threadState (Sum.inr j) (s.threads (Sum.inr j)) = .running
    rw [h]
    rfl
  have hlock : (program cfg).threadState (Sum.inr j)
      (.ready ConsumerPoint.lock : Status Cond ConsumerPoint) = .running := rfl
  rw [toSimulation_consumer, hlock, Function.update_eq_self_iff.mpr hj.symm]
  rfl

/-! ## The states that sections leave -/

section Leave

open Program

variable (hc : Consistent (program cfg) s) (hlive : s.halted = none)

include hlive in
theorem toSimulation_producerWait :
    toSimulation (leave (Sum.inl i) s.threads s.shared (.wait .notFull ProducerPoint.testFull))
      = { toSimulation s with
          producers := Function.update (toSimulation s).producers i .waiting } := by
  rw [leave, toSimulation_producer]
  simp [toSimulation, hlive]

include hc hlive in
theorem toSimulation_producerFinish :
    toSimulation (leave (Sum.inl i) (fun k => (s.threads k).wakeOn .notEmpty) s.shared
        (.unlock ProducerPoint.returned))
      = { toSimulation s with
          producers := Function.update (toSimulation s).producers i .returned
          consumers := Monitor.broadcast (toSimulation s).consumers } := by
  obtain ⟨hview, hapart⟩ := (consumers cfg).broadcast hc
  have hsame := hapart.view_eq (producers cfg) fun _ _ => Sum.inr_ne_inl
  rw [leave, toSimulation_producer]
  simp only [toSimulation, hlive, State.mk.injEq, true_and, and_true]
  exact ⟨congrArg (Function.update · i _) hsame, hview⟩

include hc hlive in
theorem toSimulation_put {ts : (k : Thread cfg) → Status Cond (Point cfg k)}
    (hi : (toSimulation s).producers i = .running)
    (hw : Wakes (.signal .notEmpty) s.threads ts) (b : Buffer) :
    toSimulation (leave (Sum.inl i) ts ⟨b, s.shared.taken⟩ (.unlock ProducerPoint.lock))
      = { toSimulation s with buffer := b, consumers := (consumers cfg).view ts } := by
  obtain ⟨-, hapart⟩ := (consumers cfg).signal hc hw
  have hsame := hapart.view_eq (producers cfg) fun _ _ => Sum.inr_ne_inl
  rw [leave, toSimulation_producer]
  simp only [toSimulation, hlive, State.mk.injEq, true_and, and_true]
  rw [hsame]
  exact Function.update_eq_self_iff.mpr hi.symm

include hlive in
theorem toSimulation_consumerWait :
    toSimulation (leave (Sum.inr j) s.threads s.shared (.wait .notEmpty ConsumerPoint.testEmpty))
      = { toSimulation s with
          consumers := Function.update (toSimulation s).consumers j .waiting } := by
  rw [leave, toSimulation_consumer]
  simp [toSimulation, hlive]

include hlive in
theorem toSimulation_consumerFinish :
    toSimulation (leave (Sum.inr j) s.threads s.shared (.unlock ConsumerPoint.returned))
      = { toSimulation s with
          consumers := Function.update (toSimulation s).consumers j .returned } := by
  rw [leave, toSimulation_consumer]
  simp only [toSimulation, hlive, State.mk.injEq, true_and, and_true]
  rfl

include hc hlive in
theorem toSimulation_get {ts : (k : Thread cfg) → Status Cond (Point cfg k)}
    (hj : (toSimulation s).consumers j = .running)
    (hw : Wakes (.signal .notFull) s.threads ts) (b : Buffer) (r : HttpRequest) :
    toSimulation (leave (Sum.inr j) ts ⟨b, s.shared.taken ++ [r]⟩ (.unlock ConsumerPoint.process))
      = { toSimulation s with
          buffer := b
          taken := (toSimulation s).taken ++ [r]
          producers := (producers cfg).view ts } := by
  obtain ⟨-, hapart⟩ := (producers cfg).signal hc hw
  have hsame := hapart.view_eq (consumers cfg) fun _ _ => Sum.inl_ne_inr
  rw [leave, toSimulation_consumer]
  simp only [toSimulation, hlive, State.mk.injEq, true_and, and_true]
  rw [hsame]
  exact Function.update_eq_self_iff.mpr hj.symm

end Leave

/-! ## Each section is a step of the simulation -/

section Forward

open Program

variable {a : BoundedBuffer.State (Fin cfg.numProducers) (Fin cfg.numConsumers)}

/-- **A section of a producer is one of the simulation.** -/
theorem producerStep_of_run (hc : Consistent (program cfg) s) (hlive : s.halted = none)
    (hR : Refines (toSimulation s) a) {ℓ : ProducerPoint} {ws : List (Wake Cond)} {v : Shared}
    {x : Exit Cond Halt ProducerPoint} {ts : (k : Thread cfg) → Status Cond (Point cfg k)}
    (hacq : (program cfg).Acquires (Sum.inl i) (s.threads (Sum.inl i)) ℓ)
    (hends : Ends (producerCode cfg.maxRequests) ℓ s.shared ws v x)
    (hts : WakesAll ws s.threads ts) :
    ProducerStep (toSimulation s) i (toSimulation (leave (Sum.inl i) ts v x)) := by
  have hi : (toSimulation s).producers i = .running := hacq.threadState_eq
  obtain rfl := point_of_acquires_producer hc hacq
  refine ⟨hi, ?_⟩
  -- The test of the buffer decides how the section goes on, as in `producerSection`.
  by_cases hfull : a.puts = a.gets + cfg.slots
  · have hsection := hR.producerSection_wait hfull
    obtain ⟨rfl, rfl, rfl⟩ := hends.unique (ends_of_producerSection_wait hsection)
    cases hts
    rw [hsection, toSimulation_producerWait hlive]
  · by_cases hlim : a.puts < cfg.limit
    · have hsection := hR.producerSection_put hfull hlim
      obtain ⟨rfl, rfl, rfl⟩ := hends.unique (ends_of_producerSection_put hsection)
      cases hts with
      | cons hw hts =>
        cases hts
        rw [hsection, toSimulation_put hc hlive hi hw]
        exact ⟨_, ((consumers cfg).signal hc hw).1, rfl⟩
    · have hsection := hR.producerSection_finish hfull (Nat.le_of_not_lt hlim)
      obtain ⟨rfl, rfl, rfl⟩ := hends.unique (ends_of_producerSection_finish hsection)
      cases hts with
      | cons hw hts =>
        cases hts
        cases hw
        rw [hsection, toSimulation_producerFinish hc hlive]

/-- **A section of a consumer is one of the simulation.** -/
theorem consumerStep_of_run (hc : Consistent (program cfg) s) (hlive : s.halted = none)
    (hR : Refines (toSimulation s) a) {ℓ : ConsumerPoint} {ws : List (Wake Cond)} {v : Shared}
    {x : Exit Cond Halt ConsumerPoint} {ts : (k : Thread cfg) → Status Cond (Point cfg k)}
    (hacq : (program cfg).Acquires (Sum.inr j) (s.threads (Sum.inr j)) ℓ)
    (hends : Ends (consumerCode cfg.maxRequests) ℓ s.shared ws v x)
    (hts : WakesAll ws s.threads ts) :
    ConsumerStep (toSimulation s) j (toSimulation (leave (Sum.inr j) ts v x)) := by
  have hj : (toSimulation s).consumers j = .running := hacq.threadState_eq
  obtain rfl := point_of_acquires_consumer hc hacq
  refine ⟨hj, ?_⟩
  by_cases hitems : a.gets < a.puts
  · have hsection := hR.consumerSection_get hitems
    obtain ⟨rfl, rfl, rfl⟩ := hends.unique (ends_of_consumerSection_get hsection)
    cases hts with
    | cons hw hts =>
      cases hts
      rw [hsection, toSimulation_get hc hlive hj hw]
      exact ⟨_, ((producers cfg).signal hc hw).1, rfl⟩
  · have hempty : a.puts = a.gets := by
      have := hR.bounds.gets_le_puts
      omega
    by_cases hlim : a.puts < cfg.limit
    · have hsection := hR.consumerSection_wait hempty hlim
      obtain ⟨rfl, rfl, rfl⟩ := hends.unique (ends_of_consumerSection_wait hsection)
      cases hts
      rw [hsection, toSimulation_consumerWait hlive]
    · have hsection := hR.consumerSection_finish hempty (Nat.le_of_not_lt hlim)
      obtain ⟨rfl, rfl, rfl⟩ := hends.unique (ends_of_consumerSection_finish hsection)
      cases hts
      rw [hsection, toSimulation_consumerFinish hlive]

/-- A producer moves alone only by a spurious wakeup. -/
theorem spuriousWakeup_of_producer_move {x : Status Cond ProducerPoint}
    (h : (program cfg).Moves spurious (Sum.inl i) (s.threads (Sum.inl i)) x) :
    spurious = true ∧ SpuriousWakeup (toSimulation s)
      (toSimulation { s with threads := Function.update s.threads (Sum.inl i) x }) := by
  generalize ht : s.threads (Sum.inl i) = t at h
  cases h with
  | @skip ℓ next hcode => cases ℓ <;> simp [program, producerCode] at hcode
  | @spurious c ℓ hspurious =>
    refine ⟨hspurious, .inl ⟨i, threadState_eq_waiting_iff.mpr ⟨c, ℓ, ht⟩, ?_⟩⟩
    rw [toSimulation_producer, threadState_woken]
    rfl

/-- A consumer moves alone by a spurious wakeup, or to its next lock. -/
theorem process_or_spuriousWakeup_of_consumer_move {x : Status Cond ConsumerPoint}
    (h : (program cfg).Moves spurious (Sum.inr j) (s.threads (Sum.inr j)) x) :
    (s.threads (Sum.inr j) = .ready ConsumerPoint.process ∧ x = .ready .lock) ∨
      spurious = true ∧ SpuriousWakeup (toSimulation s)
        (toSimulation { s with threads := Function.update s.threads (Sum.inr j) x }) := by
  generalize ht : s.threads (Sum.inr j) = t at h
  cases h with
  | @skip ℓ next hcode =>
    left
    cases ℓ <;> simp_all [program, consumerCode]
  | @spurious c ℓ hspurious =>
    refine .inr ⟨hspurious, .inr ⟨j, threadState_eq_waiting_iff.mpr ⟨c, ℓ, ht⟩, ?_⟩⟩
    rw [toSimulation_consumer, threadState_woken]
    rfl

theorem toSimulation_initial (cfg : Arguments) :
    toSimulation ((program cfg).initial ⟨createBuffer cfg.bufferSize, []⟩) = initialState cfg := rfl

/-- What the threads reach section by section, the simulation reaches. -/
theorem reachable_of_sections (h : (sections cfg spurious).Reachable s) :
    (simulation cfg spurious).Reachable (toSimulation s) := by
  induction h with
  | init h₀ =>
    subst h₀
    exact .init (toSimulation_initial cfg)
  | @step s s' hr hs ih =>
    obtain ⟨hlive, k, hs⟩ := hs
    have hc := consistent_of_reachable (reachable_of_atomic hr)
    obtain ⟨a, -, hR⟩ := (bisimulation cfg spurious).exists_abstract ih
    cases hs with
    | run hacq hends hts =>
      cases k with
      | inl i =>
        have hstep := producerStep_of_run hc hlive hR hacq hends hts
        exact .step ih ⟨hlive, .inl (.inl ⟨i, hstep⟩)⟩
      | inr j =>
        have hstep := consumerStep_of_run hc hlive hR hacq hends hts
        exact .step ih ⟨hlive, .inl (.inr ⟨j, hstep⟩)⟩
    | move x hmove =>
      cases k with
      | inl i => exact .step ih ⟨hlive, .inr (spuriousWakeup_of_producer_move hmove)⟩
      | inr j =>
        rcases process_or_spuriousWakeup_of_consumer_move hmove with ⟨hprocess, rfl⟩ | hwakeup
        · rw [toSimulation_process hprocess]
          exact ih
        · exact .step ih ⟨hlive, .inr hwakeup⟩

end Forward

/-! ## Each step of the simulation is a section -/

section Backward

open Program

/-- No consumer is between its section and its next lock. -/
def Settled (s : ThreadsState cfg) : Prop :=
  ∀ j, s.threads (Sum.inr j) ≠ .ready ConsumerPoint.process

variable (hc : Consistent (program cfg) s) (hfree : s.holder = none)

include hc hfree in
/-- With the mutex free, a running producer is about to acquire it. -/
theorem acquires_of_producer_running (hi : (toSimulation s).producers i = .running) :
    (program cfg).Acquires (Sum.inl i) (s.threads (Sum.inl i)) ProducerPoint.testFull := by
  replace hi : (program cfg).threadState (Sum.inl i) (s.threads (Sum.inl i)) = .running := hi
  have hout := hc.holder_iff (Sum.inl i)
  have hwoken := hc.woken (Sum.inl i)
  generalize s.threads (Sum.inl i) = t at hi hout hwoken
  cases t with
  | blocked c ℓ => cases hi
  | woken ℓ =>
    obtain ⟨c, ℓ₀, hwait⟩ := hwoken ℓ rfl
    exact .inl (by rw [(producerCode_wait hwait).2])
  | ready ℓ =>
    have hnot : ¬ ProducerPoint.Inside ℓ := by
      intro hin
      have := hout.mpr ⟨ℓ, rfl, hin⟩
      simp [hfree] at this
    cases ℓ with
    | lock => exact .inr ⟨_, rfl, rfl⟩
    | returned => cases hi
    | _ => exact absurd trivial hnot

include hc hfree in
/-- With the mutex free, a running consumer is about to acquire it or between two sections. -/
theorem acquires_of_consumer_running (hj : (toSimulation s).consumers j = .running) :
    s.threads (Sum.inr j) = .ready ConsumerPoint.process ∨
      (program cfg).Acquires (Sum.inr j) (s.threads (Sum.inr j)) ConsumerPoint.testEmpty := by
  replace hj : (program cfg).threadState (Sum.inr j) (s.threads (Sum.inr j)) = .running := hj
  have hout := hc.holder_iff (Sum.inr j)
  have hwoken := hc.woken (Sum.inr j)
  generalize s.threads (Sum.inr j) = t at hj hout hwoken
  cases t with
  | blocked c ℓ => cases hj
  | woken ℓ =>
    obtain ⟨c, ℓ₀, hwait⟩ := hwoken ℓ rfl
    exact .inr (.inl (by rw [(consumerCode_wait hwait).2]))
  | ready ℓ =>
    have hnot : ¬ ConsumerPoint.Inside ℓ := by
      intro hin
      have := hout.mpr ⟨ℓ, rfl, hin⟩
      simp [hfree] at this
    cases ℓ with
    | lock => exact .inr (.inr ⟨_, rfl, rfl⟩)
    | returned => cases hj
    | process => exact .inl rfl
    | _ => exact absurd trivial hnot

theorem settled_update_producer {ts : (k : Thread cfg) → Status Cond (Point cfg k)}
    {ws : List (Wake Cond)} (h : Settled s) (hts : WakesAll ws s.threads ts)
    (x : Status Cond ProducerPoint) (v : Shared) (holder : Option (Thread cfg))
    (halted : Option Halt) :
    Settled ⟨v, holder, Function.update ts (Sum.inl i) x, halted⟩ := by
  intro j hj
  replace hj : Function.update ts (Sum.inl i) x (Sum.inr j) = .ready ConsumerPoint.process := hj
  rw [Function.update_of_ne Sum.inr_ne_inl, hts.ready_iff] at hj
  exact h j hj

theorem settled_update_consumer {ts : (k : Thread cfg) → Status Cond (Point cfg k)}
    {ws : List (Wake Cond)} (h : Settled s) (hts : WakesAll ws s.threads ts)
    {x : Status Cond ConsumerPoint} (hx : x ≠ .ready .process) (v : Shared)
    (holder : Option (Thread cfg)) (halted : Option Halt) :
    Settled ⟨v, holder, Function.update ts (Sum.inr j) x, halted⟩ := by
  intro j' hj'
  replace hj' : Function.update ts (Sum.inr j) x (Sum.inr j') = .ready ConsumerPoint.process := hj'
  by_cases hjj : j' = j
  · subst hjj
    exact hx (by simpa using hj')
  · rw [Function.update_of_ne (Sum.inr_injective.ne hjj), hts.ready_iff] at hj'
    exact h j' hj'

variable {a : BoundedBuffer.State (Fin cfg.numProducers) (Fin cfg.numConsumers)} {t : State cfg}

include hc hfree in
/-- A section of the simulation is run by the statements of a producer. -/
theorem exists_run_of_producerStep (hlive : s.halted = none) (hsettled : Settled s)
    (hR : Refines (toSimulation s) a) (hs : ProducerStep (toSimulation s) i t) :
    ∃ s', Relation.ReflTransGen (sections cfg spurious).step s s' ∧ toSimulation s' = t ∧
      Settled s' := by
  obtain ⟨hi, heffect⟩ := hs
  have hacq := acquires_of_producer_running hc hfree hi
  by_cases hfull : a.puts = a.gets + cfg.slots
  · have hsection := hR.producerSection_wait hfull
    rw [hsection] at heffect
    refine ⟨_, .single ⟨hlive, _, .run hacq (ends_of_producerSection_wait hsection) .nil⟩,
      (toSimulation_producerWait hlive).trans heffect.symm, ?_⟩
    exact settled_update_producer hsettled .nil _ _ _ _
  · by_cases hlim : a.puts < cfg.limit
    · have hsection := hR.producerSection_put hfull hlim
      rw [hsection] at heffect
      obtain ⟨cs, hsig, rfl⟩ := heffect
      obtain ⟨ts, hw, rfl⟩ := Group.exists_wakes_of_signal hc hsig
      refine ⟨_, .single ⟨hlive, _, .run hacq (ends_of_producerSection_put hsection)
        (.cons hw .nil)⟩, toSimulation_put hc hlive hi hw _, ?_⟩
      exact settled_update_producer hsettled (.cons hw .nil) _ _ _ _
    · have hsection := hR.producerSection_finish hfull (Nat.le_of_not_lt hlim)
      rw [hsection] at heffect
      refine ⟨_, .single ⟨hlive, _, .run hacq (ends_of_producerSection_finish hsection)
        (.cons .broadcast .nil)⟩, (toSimulation_producerFinish hc hlive).trans heffect.symm, ?_⟩
      exact settled_update_producer hsettled (.cons .broadcast .nil) _ _ _ _

include hc hfree in
/-- A section of the simulation is run by the statements of a consumer, up to its next lock. -/
theorem exists_run_of_consumerStep (hlive : s.halted = none) (hsettled : Settled s)
    (hR : Refines (toSimulation s) a) (hs : ConsumerStep (toSimulation s) j t) :
    ∃ s', Relation.ReflTransGen (sections cfg spurious).step s s' ∧ toSimulation s' = t ∧
      Settled s' := by
  obtain ⟨hj, heffect⟩ := hs
  have hacq := (acquires_of_consumer_running hc hfree hj).resolve_left (hsettled j)
  by_cases hitems : a.gets < a.puts
  · have hsection := hR.consumerSection_get hitems
    rw [hsection] at heffect
    obtain ⟨ps, hsig, rfl⟩ := heffect
    obtain ⟨ts, hw, rfl⟩ := Group.exists_wakes_of_signal hc hsig
    have hends := @ends_of_consumerSection_get _ _ _ s.shared.taken _ hsection
    have hleft : (leave (Sum.inr j) ts
        ⟨(toSimulation s).buffer.afterGet, s.shared.taken ++ [request a.gets]⟩
        (.unlock ConsumerPoint.process) : ThreadsState cfg).threads (Sum.inr j)
          = .ready ConsumerPoint.process := Function.update_self ..
    refine ⟨_, .tail (.single ⟨hlive, _, .run hacq hends (.cons hw .nil)⟩) ⟨rfl, Sum.inr j,
      .move (.ready ConsumerPoint.lock) (hleft ▸ .skip rfl)⟩, ?_, ?_⟩
    · exact (toSimulation_process hleft).trans (toSimulation_get hc hlive hj hw _ _)
    · simp only [leave, Function.update_idem]
      exact settled_update_consumer hsettled (.cons hw .nil) (by simp) _ _ _
  · have hempty : a.puts = a.gets := by
      have := hR.bounds.gets_le_puts
      omega
    by_cases hlim : a.puts < cfg.limit
    · have hsection := hR.consumerSection_wait hempty hlim
      rw [hsection] at heffect
      refine ⟨_, .single ⟨hlive, _, .run hacq (ends_of_consumerSection_wait hsection) .nil⟩,
        (toSimulation_consumerWait hlive).trans heffect.symm, ?_⟩
      exact settled_update_consumer hsettled .nil (by simp) _ _ _
    · have hsection := hR.consumerSection_finish hempty (Nat.le_of_not_lt hlim)
      rw [hsection] at heffect
      refine ⟨_, .single ⟨hlive, _, .run hacq (ends_of_consumerSection_finish hsection) .nil⟩,
        (toSimulation_consumerFinish hlive).trans heffect.symm, ?_⟩
      exact settled_update_consumer hsettled .nil (by simp) _ _ _

/-- What the simulation reaches, the threads reach section by section. -/
theorem exists_sections_of_reachable (h : (simulation cfg spurious).Reachable t) :
    ∃ s, (sections cfg spurious).Reachable s ∧ toSimulation s = t ∧ Settled s := by
  induction h with
  | init h₀ =>
    subst h₀
    exact ⟨_, .init rfl, toSimulation_initial cfg, fun j hj => by cases hj⟩
  | step hr hs ih =>
    obtain ⟨s, hs', rfl, hsettled⟩ := ih
    obtain ⟨hlive, hs⟩ := hs
    replace hlive : s.halted = none := hlive
    have hc := consistent_of_reachable (reachable_of_atomic hs')
    have hfree := holder_eq_none_of_atomic hs' hlive
    obtain ⟨a, -, hR⟩ := (bisimulation cfg spurious).exists_abstract hr
    rcases hs with (⟨i, hs⟩ | ⟨j, hs⟩) | ⟨hspurious, ⟨i, hi, rfl⟩ | ⟨j, hj, rfl⟩⟩
    · obtain ⟨s', hrun, hsim, hsettled'⟩ := exists_run_of_producerStep hc hfree hlive hsettled hR hs
      exact ⟨s', hs'.trans hrun, hsim, hsettled'⟩
    · obtain ⟨s', hrun, hsim, hsettled'⟩ := exists_run_of_consumerStep hc hfree hlive hsettled hR hs
      exact ⟨s', hs'.trans hrun, hsim, hsettled'⟩
    · replace hi : (program cfg).threadState (Sum.inl i) (s.threads (Sum.inl i)) = .waiting := hi
      obtain ⟨c, ℓ, hblocked⟩ := threadState_eq_waiting_iff.mp hi
      refine ⟨_, .step hs' ⟨hlive, Sum.inl i, .move (.woken ℓ) ?_⟩, ?_, ?_⟩
      · exact hblocked ▸ .spurious hspurious
      · rw [toSimulation_producer, threadState_woken]
        rfl
      · exact settled_update_producer hsettled .nil _ _ _ _
    · replace hj : (program cfg).threadState (Sum.inr j) (s.threads (Sum.inr j)) = .waiting := hj
      obtain ⟨c, ℓ, hblocked⟩ := threadState_eq_waiting_iff.mp hj
      refine ⟨_, .step hs' ⟨hlive, Sum.inr j, .move (.woken ℓ) ?_⟩, ?_, ?_⟩
      · exact hblocked ▸ .spurious hspurious
      · rw [toSimulation_consumer, threadState_woken]
        rfl
      · exact settled_update_consumer hsettled .nil (by simp) _ _ _

end Backward

end CExamples.ProducerConsumer

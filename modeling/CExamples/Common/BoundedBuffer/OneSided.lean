import CExamples.Common.BoundedBuffer.Deadlock

/-!
# The bounded buffer without producers or without consumers

What a thread that has returned has seen, whatever threads there are, and when a buffer deadlocks
that nobody fills or nobody empties: without producers exactly if there is something to produce,
without consumers exactly if the limit fills the buffer.
-/

namespace CExamples.BoundedBuffer

open Monitor

variable {ι κ : Type*} [DecidableEq ι] [DecidableEq κ] {S M : ℕ} {spurious : Bool} {s : State ι κ}

/-! ## What a thread that has returned has seen -/

/-- A returned producer has seen the limit reached, a returned consumer an empty buffer besides. -/
structure Returned (M : ℕ) (s : State ι κ) : Prop where
  producers : ∀ i, s.producers i = .returned → M ≤ s.puts
  consumers : ∀ j, s.consumers j = .returned → M ≤ s.puts ∧ s.puts = s.gets

theorem Returned.step {s' : State ι κ} (h : Returned M s) (hs : Step S M s s') :
    Returned M s' := by
  cases hs with
  | producerWait i =>
    exact ⟨fun i' hi' => h.producers i' (eq_of_update_eq hi' (by simp)), h.consumers⟩
  | put i cs hi hspace hlim hsig =>
    refine ⟨fun i' hi' => Nat.le_succ_of_le (h.producers i' hi'), ?_⟩
    intro j hj
    have := (h.consumers j ((hsig.returned_iff j).mp hj)).1
    omega
  | producerReturn i hi hspace hlim =>
    exact ⟨fun _ _ => hlim, fun j hj => h.consumers j ((broadcast_eq_returned _ j).mp hj)⟩
  | consumerWait j =>
    exact ⟨h.producers, fun j' hj' => h.consumers j' (eq_of_update_eq hj' (by simp))⟩
  | get j ps hj hitems hsig =>
    refine ⟨fun i hi => h.producers i ((hsig.returned_iff i).mp hi), ?_⟩
    intro j' hj'
    have := (h.consumers j' hj').2
    omega
  | consumerReturn j hj hempty hlim => exact ⟨h.producers, fun _ _ => ⟨hlim, hempty⟩⟩

theorem Returned.spuriousWakeup {s' : State ι κ} (h : Returned M s) (hs : SpuriousWakeup s s') :
    Returned M s' := by
  cases hs with
  | producer i => exact ⟨fun i' hi' => h.producers i' (eq_of_update_eq hi' (by simp)), h.consumers⟩
  | consumer j => exact ⟨h.producers, fun j' hj' => h.consumers j' (eq_of_update_eq hj' (by simp))⟩

theorem returned_of_reachable (h : (system ι κ S M spurious).Reachable s) : Returned M s := by
  apply h.invariant
  · rintro s rfl
    constructor <;> simp [initial]
  · intro s s' _ ih hs
    rcases hs with hs | ⟨-, hs⟩
    · exact ih.step hs
    · exact ih.spuriousWakeup hs

/-- Once every thread has returned, and there was one, `M` items have been put. -/
theorem puts_eq_of_returned [Nonempty (ι ⊕ κ)] (h : (system ι κ S M spurious).Reachable s)
    (hprod : ∀ i, s.producers i = .returned) (hcons : ∀ j, s.consumers j = .returned) :
    s.puts = M := by
  have hret := returned_of_reachable h
  refine le_antisymm (bounds_of_reachable h).puts_le_limit ?_
  obtain ⟨i | j⟩ := ‹Nonempty (ι ⊕ κ)›
  · exact hret.producers i (hprod i)
  · exact (hret.consumers j (hcons j)).1

/-- Once every consumer has returned, and there was one, everything put has been got. -/
theorem gets_eq_puts_of_returned [Nonempty κ] (h : (system ι κ S M spurious).Reachable s)
    (hcons : ∀ j, s.consumers j = .returned) : s.gets = s.puts := by
  obtain ⟨j⟩ := ‹Nonempty κ›
  exact ((returned_of_reachable h).consumers j (hcons j)).2.symm

/-- Some run ends in a state that no thread can leave. -/
theorem exists_reachable_stuck [Fintype ι] [Fintype κ] :
    ∃ s, (system ι κ S M spurious).Reachable s ∧ ∀ s', ¬ Step S M s s' := by
  obtain ⟨s, hrun, hstuck⟩ := TransitionSystem.exists_stuck_of_measure
    (T := system ι κ S M false) (measure M)
    (fun t t' ht => measure_lt_of_step (system_false_step.mp ht)) (initial ι κ)
  exact ⟨s, reachable_of_not_spurious (.trans (.init rfl) hrun),
    fun t ht => hstuck t (system_false_step.mpr ht)⟩

/-! ## Without producers -/

/-- Without producers nothing is put. -/
theorem puts_eq_zero [IsEmpty ι] (h : (system ι κ S M spurious).Reachable s) : s.puts = 0 := by
  apply h.invariant (I := fun s => s.puts = 0)
  · rintro s rfl
    rfl
  · intro s s' _ ih hs
    rcases hs with hs | ⟨-, hs⟩
    · cases hs with
      | producerWait i | put i | producerReturn i => exact isEmptyElim i
      | consumerWait | get | consumerReturn => exact ih
    · cases hs <;> exact ih

/-- With nothing to produce, no consumer waits. -/
theorem consumer_not_waiting (h : (system ι κ S 0 spurious).Reachable s) (j : κ) :
    s.consumers j ≠ .waiting := by
  revert j
  apply h.invariant (I := fun s => ∀ j, s.consumers j ≠ .waiting)
  · rintro s rfl
    simp [initial]
  · intro s s' _ ih hs
    rcases hs with hs | ⟨-, hs⟩
    · cases hs with
      | producerWait | get => exact ih
      | put i cs hi hspace hlim => omega
      | producerReturn => exact broadcast_ne_waiting _
      | consumerWait j hj hempty hlim => omega
      | consumerReturn j hj => exact fun j' hj' => ih j' (eq_of_update_eq hj' (by simp))
    · cases hs with
      | producer => exact ih
      | consumer j hj => exact absurd hj (ih j)

/-- **Without producers** a deadlock is reachable exactly if there is something to produce. -/
theorem deadlock_reachable_iff_of_isEmpty_producers [Fintype ι] [Fintype κ] [IsEmpty ι]
    [Nonempty κ] :
    (∃ s, (system ι κ S M spurious).Reachable s ∧ Deadlocked S M s) ↔ 0 < M := by
  constructor
  · rintro ⟨s, hs, hstuck, ⟨i, -⟩ | ⟨j, hj⟩⟩
    · exact isEmptyElim i
    · by_contra hM
      obtain rfl : M = 0 := by omega
      cases hcj : s.consumers j with
      | running =>
        obtain ⟨s', hs'⟩ :=
          exists_step_of_consumer_running (S := S) (bounds_of_reachable hs) hcj
        exact hstuck s' hs'
      | waiting => exact consumer_not_waiting hs j hcj
      | returned => exact hj hcj
  · intro hM
    obtain ⟨s, hs, hstuck⟩ := exists_reachable_stuck (ι := ι) (κ := κ) (S := S) (M := M)
    refine ⟨s, hs, hstuck, ?_⟩
    obtain ⟨j⟩ := ‹Nonempty κ›
    refine .inr ⟨j, ?_⟩
    intro hj
    have := ((returned_of_reachable hs).consumers j hj).1
    have := puts_eq_zero hs
    omega

/-! ## Without consumers -/

/-- Without consumers nothing is got. -/
theorem gets_eq_zero [IsEmpty κ] (h : (system ι κ S M spurious).Reachable s) : s.gets = 0 := by
  apply h.invariant (I := fun s => s.gets = 0)
  · rintro s rfl
    rfl
  · intro s s' _ ih hs
    rcases hs with hs | ⟨-, hs⟩
    · cases hs with
      | producerWait | put | producerReturn => exact ih
      | consumerWait j | get j | consumerReturn j => exact isEmptyElim j
    · cases hs <;> exact ih

/-- A limit that fills the buffer lets no producer return when nothing is got. -/
theorem producer_not_returned [IsEmpty κ] (hM : S ≤ M)
    (h : (system ι κ S M spurious).Reachable s) (i : ι) : s.producers i ≠ .returned := by
  revert i
  apply h.invariant (I := fun s => ∀ i, s.producers i ≠ .returned)
  · rintro s rfl
    simp [initial]
  · intro s s' hr ih hs
    rcases hs with hs | ⟨-, hs⟩
    · cases hs with
      | producerWait i => exact fun i' hi' => ih i' (eq_of_update_eq hi' (by simp))
      | put => exact ih
      | producerReturn i hi hspace hlim =>
        have := (bounds_of_reachable hr).puts_le_slots
        have := gets_eq_zero hr
        omega
      | consumerWait j | get j | consumerReturn j => exact isEmptyElim j
    · cases hs with
      | producer i => exact fun i' hi' => ih i' (eq_of_update_eq hi' (by simp))
      | consumer => exact ih

/-- **Without consumers** a deadlock is reachable exactly if the limit fills the buffer. -/
theorem deadlock_reachable_iff_of_isEmpty_consumers [Fintype ι] [Fintype κ] [Nonempty ι]
    [IsEmpty κ] :
    (∃ s, (system ι κ S M spurious).Reachable s ∧ Deadlocked S M s) ↔ S ≤ M := by
  constructor
  · rintro ⟨s, hs, hstuck, ⟨i, hi⟩ | ⟨j, -⟩⟩
    · by_contra hM
      cases hpi : s.producers i with
      | running =>
        obtain ⟨s', hs'⟩ := exists_step_of_producer_running (S := S) (M := M) hpi
        exact hstuck s' hs'
      | waiting => exact not_waiting_of_limit_lt (by omega) hs i hpi
      | returned => exact hi hpi
    · exact isEmptyElim j
  · intro hM
    obtain ⟨s, hs, hstuck⟩ := exists_reachable_stuck (ι := ι) (κ := κ) (S := S) (M := M)
    refine ⟨s, hs, hstuck, ?_⟩
    obtain ⟨i⟩ := ‹Nonempty ι›
    exact .inl ⟨i, producer_not_returned hM hs i⟩

end CExamples.BoundedBuffer

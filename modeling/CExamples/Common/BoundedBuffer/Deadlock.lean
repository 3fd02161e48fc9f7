import CExamples.Common.BoundedBuffer.Basic

/-!
# When the bounded buffer deadlocks

A stuck state is one where every item is put and got and some producers still wait for a slot
(`deadlocked_iff_producer_waiting`). Each get wakes one producer, so producers are left over exactly
if more of them than there are slots can be waiting when the last item is put.

* With at most `S` producers, the waiting producers never outnumber the items in the buffer.
* With `M < S` the buffer is never full and no producer waits.
* Otherwise a schedule fills the buffer with the last `S` items while every producer waits, and
  only `S` gets are left to wake them.
-/

namespace CExamples.BoundedBuffer

open Monitor

variable {ι κ : Type*} [DecidableEq ι] [DecidableEq κ] [Fintype ι] [Fintype κ] {S M : ℕ}
  {spurious : Bool}

/-! ## The safe side -/

section Safe

variable {s : State ι κ}

omit [Fintype κ] in
/-- With no more producers than slots, the waiting producers never outnumber the items. -/
theorem waiting_le_items (hP : Fintype.card ι ≤ S)
    (h : (system ι κ S M spurious).Reachable s) :
    count s.producers .waiting + s.gets ≤ s.puts := by
  apply h.invariant (I := fun s => count s.producers .waiting + s.gets ≤ s.puts)
  · rintro s rfl
    have hzero : count (initial ι κ).producers .waiting = 0 := by
      rw [count_eq_zero_iff]
      intro i
      simp [initial]
    rw [hzero]
    simp [initial]
  · intro s s' hr ih hs
    have hle := (bounds_of_reachable hr).gets_le_puts
    rcases hs with hs | ⟨-, hs⟩
    · cases hs with
      | producerWait i hi hfull =>
        have := count_le_card (Function.update s.producers i .waiting) .waiting
        simp only
        omega
      | put => simp only; omega
      | producerReturn i hi =>
        rw [count_update_other (by simp [hi]) (by simp)]
        exact ih
      | consumerWait | consumerReturn => exact ih
      | get j ps hj hitems hsig =>
        have := hsig.count_waiting
        simp only
        omega
    · cases hs with
      | producer i hi =>
        have := count_update_leave (y := .running) hi (by simp)
        simp only
        omega
      | consumer => exact ih

omit [Fintype ι] [Fintype κ] in
/-- With fewer items to put than slots, no producer ever waits. -/
theorem not_waiting_of_limit_lt (hM : M < S) (h : (system ι κ S M spurious).Reachable s) (i : ι) :
    s.producers i ≠ .waiting := by
  revert i
  apply h.invariant (I := fun s => ∀ i, s.producers i ≠ .waiting)
  · rintro s rfl
    simp [initial]
  · intro s s' hr ih hs
    have hb := bounds_of_reachable hr
    rcases hs with hs | ⟨-, hs⟩
    · cases hs with
      | producerWait i hi hfull =>
        have := hb.puts_le_limit
        omega
      | put | consumerWait | consumerReturn => exact ih
      | producerReturn i hi =>
        intro i' hi'
        exact ih i' (eq_of_update_eq hi' (by simp))
      | get j ps hj hitems hsig =>
        intro i' hi'
        exact ih i' (hsig.waiting_of_waiting hi')
    · cases hs with
      | producer i hi => exact absurd hi (ih i)
      | consumer => exact ih

omit [Fintype κ] in
/-- **No deadlock** with at most as many producers as slots, or fewer items than slots. -/
theorem not_deadlocked [Nonempty ι] [Nonempty κ] (hS : 1 ≤ S) (hsafe : Fintype.card ι ≤ S ∨ M < S)
    (h : (system ι κ S M spurious).Reachable s) : ¬ Deadlocked S M s := by
  intro hdead
  obtain ⟨hstuck, i, hi⟩ := (deadlocked_iff_producer_waiting hS h).mp hdead
  have hfin := finished_of_stuck hS h hstuck
  rcases hsafe with hP | hM
  · have hle := waiting_le_items hP h
    have hpos : 0 < count s.producers .waiting := count_pos_iff.mpr ⟨i, hi⟩
    have := hfin.puts
    have := hfin.gets
    omega
  · exact not_waiting_of_limit_lt hM h i hi

end Safe

/-! ## Every schedule ends -/

/-- What is still to be done: two for every put and get left, one for every live consumer and
every running thread, and for every live producer enough to pay for the consumers its return
wakes. -/
def measure (M : ℕ) (s : State ι κ) : ℕ :=
  2 * (M - s.puts) + 2 * (max M s.puts - s.gets) + (Fintype.card κ + 1) * live s.producers +
    live s.consumers + count s.producers .running + count s.consumers .running

/-- **Every step other than a spurious wakeup decreases the measure.** -/
theorem measure_lt_of_step {s s' : State ι κ} (hs : Step S M s s') :
    measure M s' < measure M s := by
  cases hs with
  | producerWait i hi hfull =>
    have := count_update_leave (y := .waiting) hi (by simp)
    simp only [measure, live_update_waiting hi]
    omega
  | put i cs hi hspace hlim hsig =>
    have := hsig.count_running_le
    simp only [measure, hsig.live_eq]
    omega
  | producerReturn i hi hspace hlim =>
    have h₁ := count_update_leave (y := .returned) hi (by simp)
    have h₂ := count_broadcast_running_le s.consumers
    have h₃ : (Fintype.card κ + 1) * live s.producers
        = (Fintype.card κ + 1) * live (Function.update s.producers i .returned)
          + (Fintype.card κ + 1) := by
      rw [← live_update_returned hi, Nat.mul_succ]
    simp only [measure, live_broadcast, h₃]
    omega
  | consumerWait j hj hempty hlim =>
    have := count_update_leave (y := .waiting) hj (by simp)
    simp only [measure, live_update_waiting hj]
    omega
  | get j ps hj hitems hsig =>
    have := hsig.count_running_le
    simp only [measure, hsig.live_eq]
    omega
  | consumerReturn j hj hempty hlim =>
    have h₁ := count_update_leave (y := .returned) hj (by simp)
    have h₂ := live_update_returned hj
    simp only [measure]
    omega

/-! ## The unsafe side: a schedule into a deadlock -/

section Unsafe

/-- A state whose consumers are all about to lock the mutex. -/
def atLock (ι κ : Type*) (puts gets : ℕ) (producers : ι → ThreadState) : State ι κ :=
  ⟨puts, gets, producers, fun _ => .running⟩

omit [Fintype ι] [Fintype κ] in
/-- With no consumer waiting, a running producer puts one item and nothing else changes. -/
theorem reachable_put {puts gets : ℕ} {i : ι} {ps : ι → ThreadState}
    (h : (system ι κ S M spurious).Reachable (atLock ι κ puts gets ps)) (hi : ps i = .running)
    (hspace : puts ≠ gets + S) (hlim : puts < M) :
    (system ι κ S M spurious).Reachable (atLock ι κ (puts + 1) gets ps) :=
  h.step (.inl (.put i _ hi hspace hlim (.lost fun _ => by simp [atLock])))

omit [Fintype ι] [Fintype κ] in
/-- With no producer waiting, a running consumer gets one item and nothing else changes. -/
theorem reachable_get [Nonempty κ] {puts gets : ℕ} {ps : ι → ThreadState}
    (h : (system ι κ S M spurious).Reachable (atLock ι κ puts gets ps))
    (hps : ∀ i, ps i ≠ .waiting) (hitems : gets < puts) :
    (system ι κ S M spurious).Reachable (atLock ι κ puts (gets + 1) ps) :=
  h.step (.inl (.get (Classical.arbitrary κ) _ rfl hitems (.lost hps)))

omit [Fintype ι] [Fintype κ] in
/-- One producer and one consumer in turn put and get `n` items. -/
theorem reachable_alternate [Nonempty ι] [Nonempty κ] (hS : 1 ≤ S) {n : ℕ} (hn : n ≤ M) :
    (system ι κ S M spurious).Reachable (atLock ι κ n n fun _ => .running) := by
  induction n with
  | zero => exact .init rfl
  | succ n ih =>
    have hput := reachable_put (i := Classical.arbitrary ι) (ih (by omega)) rfl (by omega)
      (by omega)
    exact reachable_get hput (by simp) (by omega)

omit [Fintype ι] [Fintype κ] in
/-- Then one producer fills up to `S` slots. -/
theorem reachable_fill [Nonempty ι] [Nonempty κ] (hS : 1 ≤ S) {n k : ℕ} (hk : k ≤ S)
    (hn : n + k ≤ M) :
    (system ι κ S M spurious).Reachable (atLock ι κ (n + k) n fun _ => .running) := by
  induction k with
  | zero => exact reachable_alternate hS (by omega)
  | succ k ih =>
    rw [← Nat.add_assoc]
    exact reachable_put (i := Classical.arbitrary ι) (ih (by omega) (by omega)) rfl (by omega)
      (by omega)

omit [Fintype ι] [Fintype κ] in
/-- Then, one after the other, the producers in `waiters` find the buffer full and wait. -/
theorem reachable_wait [Nonempty ι] [Nonempty κ] (hS : 1 ≤ S) {n : ℕ} (hn : n + S ≤ M)
    (waiters : Finset ι) :
    (system ι κ S M spurious).Reachable
      (atLock ι κ (n + S) n fun i => if i ∈ waiters then .waiting else .running) := by
  induction waiters using Finset.induction_on with
  | empty => simpa using reachable_fill hS le_rfl hn
  | insert i waiters hi ih =>
    have hps : Function.update (fun i' => if i' ∈ waiters then ThreadState.waiting else .running) i
        .waiting = fun i' => if i' ∈ insert i waiters then .waiting else .running := by
      funext i'
      by_cases hii : i' = i
      · subst hii; simp
      · simp [hii]
    rw [← hps]
    exact ih.step (.inl (.producerWait i (by simp [atLock, hi]) rfl))

omit [Fintype κ] in
/-- Once all items are put, each get wakes at most one producer, so the producers in excess of the
items left keep waiting: `count waiting + gets` never falls below `n` again. -/
theorem waiting_add_gets_of_run {n : ℕ} {s s' : State ι κ} (hn : M < n)
    (hrun : Relation.ReflTransGen (system ι κ S M false).step s s') (hputs : s.puts = M)
    (hle : n ≤ count s.producers .waiting + s.gets) :
    s'.puts = M ∧ n ≤ count s'.producers .waiting + s'.gets := by
  induction hrun with
  | refl => exact ⟨hputs, hle⟩
  | @tail t t' hrun hs ih =>
    obtain ⟨ihputs, ihle⟩ := ih
    rw [system_false_step] at hs
    cases hs with
    | producerWait i hi hfull =>
      have := count_update_enter (show t.producers i ≠ .waiting by simp [hi])
      exact ⟨ihputs, by simp only; omega⟩
    | put i cs hi hspace hlim hsig => omega
    | producerReturn i hi =>
      refine ⟨ihputs, ?_⟩
      rwa [count_update_other (by simp [hi]) (by simp)]
    | consumerWait | consumerReturn => exact ⟨ihputs, ihle⟩
    | get j ps hj hitems hsig =>
      have := hsig.count_waiting
      exact ⟨ihputs, by simp only; omega⟩

/-- **A deadlock is reachable** with more producers than slots and at least as many items. -/
theorem exists_deadlocked [Nonempty ι] [Nonempty κ] (hS : 1 ≤ S) (hP : S < Fintype.card ι)
    (hM : S ≤ M) : ∃ s, (system ι κ S M false).Reachable s ∧ Deadlocked S M s := by
  -- every producer waits on a buffer that holds the last `S` items
  set s := atLock ι κ (M - S + S) (M - S)
    (fun i => if i ∈ (Finset.univ : Finset ι) then .waiting else .running) with hs
  have hfull : (system ι κ S M false).Reachable s := reachable_wait hS (by omega) Finset.univ
  have hwait : count s.producers .waiting = Fintype.card ι := by
    simp [hs, atLock]
  -- every run from there ends, and wakes at most `S` of them on the way
  obtain ⟨s', hrun, hstuck⟩ := TransitionSystem.exists_stuck_of_measure
    (T := system ι κ S M false) (measure M)
    (fun t t' ht => measure_lt_of_step (system_false_step.mp ht)) s
  have hr' := hfull.trans hrun
  have hstuck' : ∀ t, ¬ Step S M s' t := by
    intro t ht
    exact hstuck t (system_false_step.mpr ht)
  have hputs : s.puts = M := by
    simp only [hs, atLock]
    omega
  have hgets : s.gets = M - S := rfl
  obtain ⟨-, hle⟩ := waiting_add_gets_of_run (n := Fintype.card ι + (M - S)) (by omega) hrun
    hputs (by omega)
  have hfin := finished_of_stuck hS hr' hstuck'
  have hpos : 0 < count s'.producers .waiting := by
    have := hfin.gets
    omega
  obtain ⟨i, hi⟩ := count_pos_iff.mp hpos
  exact ⟨s', hr', (deadlocked_iff_producer_waiting hS hr').mpr ⟨hstuck', i, hi⟩⟩

end Unsafe

/-! ## The boundary -/

/-- **The deadlock boundary**: a deadlock is reachable, with or without spurious wakeups, exactly
if there are more producers than slots and at least as many items as slots. -/
theorem deadlock_reachable_iff [Nonempty ι] [Nonempty κ] (hS : 1 ≤ S) :
    (∃ s, (system ι κ S M spurious).Reachable s ∧ Deadlocked S M s) ↔
      S < Fintype.card ι ∧ S ≤ M := by
  constructor
  · rintro ⟨s, hr, hdead⟩
    by_contra hsafe
    exact not_deadlocked hS (by omega) hr hdead
  · rintro ⟨hP, hM⟩
    obtain ⟨s, hr, hdead⟩ := exists_deadlocked (ι := ι) (κ := κ) hS hP hM
    exact ⟨s, reachable_of_not_spurious hr, hdead⟩

/-- The same boundary for a stuck state that strands a producer. -/
theorem stranded_reachable_iff [Nonempty ι] [Nonempty κ] (hS : 1 ≤ S) :
    (∃ s, (system ι κ S M spurious).Reachable s ∧ (∀ s', ¬ Step S M s s') ∧
      ∃ i, s.producers i = .waiting) ↔ S < Fintype.card ι ∧ S ≤ M :=
  (exists_congr fun _ => and_congr_right fun h =>
    (deadlocked_iff_producer_waiting hS h).symm).trans (deadlock_reachable_iff hS)

end CExamples.BoundedBuffer

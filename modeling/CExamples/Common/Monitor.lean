import Mathlib.Data.Finset.Card
import Mathlib.Data.Fintype.Card
import Mathlib.Algebra.BigOperators.Ring.Finset
import Mathlib.Data.Fintype.BigOperators
import Mathlib.Tactic.Common

/-!
# Monitors: threads, condition variables, signal and broadcast

A family of threads that take turns in one mutex and wait on one condition variable. A signal wakes
one arbitrary waiter if there is one and is lost otherwise; a broadcast wakes all of them. The
lemmas say how each operation changes the number of running, waiting and returned threads.
-/

namespace CExamples

/-- Where a thread is between two of its mutex-held sections. A `running` thread is about to lock
the mutex, or was woken and is about to re-check its condition; a `waiting` thread is blocked in
its wait; a `returned` thread is gone. -/
inductive ThreadState
  | running
  | waiting
  | returned
deriving DecidableEq, Repr

namespace Monitor

/-- A signal wakes one waiter, whichever; with no waiter it has no effect. -/
inductive Signal {ι : Type*} [DecidableEq ι] : (ι → ThreadState) → (ι → ThreadState) → Prop
  | wake {ts : ι → ThreadState} (i : ι) :
      ts i = .waiting → Signal ts (Function.update ts i .running)
  | lost {ts : ι → ThreadState} : (∀ i, ts i ≠ .waiting) → Signal ts ts

/-- A broadcast wakes every waiter. -/
def broadcast {ι : Type*} (ts : ι → ThreadState) : ι → ThreadState :=
  fun i => if ts i = .waiting then .running else ts i

/-- How many threads are in state `x`. -/
def count {ι : Type*} [Fintype ι] (ts : ι → ThreadState) (x : ThreadState) : ℕ :=
  (Finset.univ.filter fun i => ts i = x).card

/-- How many threads have not returned. -/
def live {ι : Type*} [Fintype ι] (ts : ι → ThreadState) : ℕ :=
  count ts .running + count ts .waiting

/-! ## Broadcasts and counts -/

section Count

variable {ι : Type*} {ts : ι → ThreadState} {x : ThreadState}

@[simp] theorem broadcast_ne_waiting (ts : ι → ThreadState) (i : ι) :
    broadcast ts i ≠ .waiting := by
  unfold broadcast
  split
  · simp
  · assumption

@[simp] theorem broadcast_eq_returned (ts : ι → ThreadState) (i : ι) :
    broadcast ts i = .returned ↔ ts i = .returned := by
  unfold broadcast
  split
  · simp_all
  · rfl

variable [Fintype ι]

theorem count_pos_iff : 0 < count ts x ↔ ∃ i, ts i = x := by
  simp [count, Finset.card_pos, Finset.filter_nonempty_iff]

theorem count_eq_zero_iff : count ts x = 0 ↔ ∀ i, ts i ≠ x := by
  simp [count, Finset.filter_eq_empty_iff]

theorem count_le_card (ts : ι → ThreadState) (x : ThreadState) : count ts x ≤ Fintype.card ι :=
  Finset.card_le_univ _

@[simp] theorem count_const_self (x : ThreadState) :
    count (fun _ : ι => x) x = Fintype.card ι := by
  simp [count, Finset.card_univ]

/-- Every thread is live or has returned. -/
theorem live_add_returned (ts : ι → ThreadState) :
    live ts + count ts .returned = Fintype.card ι := by
  simp only [live, count, Finset.card_filter, ← Finset.sum_add_distrib, Fintype.card_eq_sum_ones]
  apply Finset.sum_congr rfl
  intro i _
  cases ts i <;> rfl

@[simp] theorem count_broadcast_returned (ts : ι → ThreadState) :
    count (broadcast ts) .returned = count ts .returned := by
  simp [count]

@[simp] theorem live_broadcast (ts : ι → ThreadState) : live (broadcast ts) = live ts := by
  have h₁ := live_add_returned ts
  have h₂ := live_add_returned (broadcast ts)
  have := count_broadcast_returned ts
  omega

/-- After a broadcast at most every thread is running. -/
theorem count_broadcast_running_le (ts : ι → ThreadState) :
    count (broadcast ts) .running ≤ Fintype.card ι :=
  count_le_card _ _

end Count

/-! ## One thread moves -/

/-- A thread found in a state other than the one just entered was there before. -/
theorem eq_of_update_eq {ι : Type*} [DecidableEq ι] {ts : ι → ThreadState} {i j : ι}
    {x y : ThreadState} (h : Function.update ts i x j = y) (hxy : x ≠ y) : ts j = y := by
  by_cases hij : j = i
  · subst hij
    rw [Function.update_self] at h
    exact absurd h hxy
  · rwa [Function.update_of_ne hij] at h

section Update

variable {ι : Type*} [DecidableEq ι] [Fintype ι] {ts : ι → ThreadState} {i : ι}
  {x y : ThreadState}

/-- A thread that enters state `x` adds one to its count. -/
theorem count_update_enter (h : ts i ≠ x) :
    count (Function.update ts i x) x = count ts x + 1 := by
  have hset : (Finset.univ.filter fun j => Function.update ts i x j = x)
      = insert i (Finset.univ.filter fun j => ts j = x) := by
    ext j
    by_cases hj : j = i
    · subst hj; simp
    · simp [hj]
  rw [count, hset, Finset.card_insert_of_notMem (by simpa using h), count]

/-- A thread that leaves state `x` takes one from its count. -/
theorem count_update_leave (h : ts i = x) (hy : y ≠ x) :
    count (Function.update ts i y) x + 1 = count ts x := by
  have hset : (Finset.univ.filter fun j => Function.update ts i y j = x)
      = (Finset.univ.filter fun j => ts j = x).erase i := by
    ext j
    by_cases hj : j = i
    · subst hj; simp [hy]
    · simp [hj]
  rw [count, hset, Finset.card_erase_add_one (by simpa using h), count]

/-- A thread that moves between two other states leaves the count of `x` as it was. -/
theorem count_update_other (h : ts i ≠ x) (hy : y ≠ x) :
    count (Function.update ts i y) x = count ts x := by
  unfold count
  congr 1
  ext j
  by_cases hj : j = i
  · subst hj; simp [h, hy]
  · simp [Function.update_of_ne hj]

/-- A running thread that starts to wait is still live. -/
theorem live_update_waiting (h : ts i = .running) :
    live (Function.update ts i .waiting) = live ts := by
  have h₁ := count_update_leave (y := .waiting) h (by simp)
  have h₂ := count_update_enter (show ts i ≠ .waiting by simp [h])
  simp only [live]
  omega

/-- A running thread that returns is live no more. -/
theorem live_update_returned (h : ts i = .running) :
    live (Function.update ts i .returned) + 1 = live ts := by
  have h₁ := count_update_leave (y := .returned) h (by simp)
  have h₂ := count_update_other (y := .returned) (show ts i ≠ .waiting by simp [h]) (by simp)
  simp only [live]
  omega

end Update

/-! ## Signals -/

namespace Signal

variable {ι : Type*} [DecidableEq ι] {ts ts' : ι → ThreadState} {i : ι}

/-- A signal is always possible. -/
theorem exists_signal (ts : ι → ThreadState) : ∃ ts', Signal ts ts' := by
  by_cases h : ∃ i, ts i = .waiting
  · obtain ⟨i, hi⟩ := h
    exact ⟨_, .wake i hi⟩
  · exact ⟨ts, .lost (not_exists.mp h)⟩

/-- A signal neither ends nor restarts a thread. -/
theorem returned_iff (h : Signal ts ts') (i : ι) : ts' i = .returned ↔ ts i = .returned := by
  cases h with
  | wake j hj =>
    by_cases hij : i = j
    · subst hij; simp [hj]
    · simp [Function.update_of_ne hij]
  | lost _ => rfl

/-- Whoever waits after a signal waited before it. -/
theorem waiting_of_waiting (h : Signal ts ts') (hi : ts' i = .waiting) : ts i = .waiting := by
  cases h with
  | wake j hj =>
    by_cases hij : i = j
    · subst hij; exact hj
    · rwa [Function.update_of_ne hij] at hi
  | lost _ => exact hi

/-- After a signal to threads none of which has returned, some thread is running. -/
theorem exists_running [Nonempty ι] (h : Signal ts ts') (hts : ∀ i, ts i ≠ .returned) :
    ∃ i, ts' i = .running := by
  cases h with
  | wake j _ => exact ⟨j, by simp⟩
  | lost hw =>
    obtain ⟨i⟩ := ‹Nonempty ι›
    refine ⟨i, ?_⟩
    cases hi : ts i with
    | running => rfl
    | waiting => exact absurd hi (hw i)
    | returned => exact absurd hi (hts i)

variable [Fintype ι]

/-- A signal leaves one waiter less if there was one. -/
theorem count_waiting (h : Signal ts ts') :
    count ts' .waiting = count ts .waiting - 1 := by
  cases h with
  | wake j hj =>
    have := count_update_leave (y := .running) hj (by simp)
    omega
  | lost hw => rw [count_eq_zero_iff.mpr hw]

theorem count_returned (h : Signal ts ts') : count ts' .returned = count ts .returned := by
  simp only [count, h.returned_iff]

theorem live_eq (h : Signal ts ts') : live ts' = live ts := by
  have h₁ := live_add_returned ts
  have h₂ := live_add_returned ts'
  have := h.count_returned
  omega

/-- A signal adds at most one running thread. -/
theorem count_running_le (h : Signal ts ts') : count ts' .running ≤ count ts .running + 1 := by
  have h₁ := h.count_waiting
  have h₂ := h.live_eq
  simp only [live] at h₂
  omega

end Signal

end Monitor

end CExamples

import CExamples.Common.MonitorProgram.Basic

/-!
# Interleavings of statements reduce to sections without preemption

While one thread is in a section, all that another can do is run statements that touch nothing
shared, or stop waiting spuriously. Such a move can be taken earlier, before the lock of the section
it falls into: what the section does depends on the other threads only through the ones it wakes,
and those cannot move until it ends. So every run can be rearranged into a run of the same length,
into the same state, in which no other thread moves between a lock and its release.
-/

namespace CExamples.MonitorProgram.Program

variable {ι : Type*} {L : ι → Type*} {C σ ε : Type*} [DecidableEq ι] [DecidableEq C]
  {P : Program ι L C σ ε} {v : σ} {spurious : Bool} {s s' : State ι L C σ ε} {i j : ι}

/-- The program without preemption: while a thread holds the mutex, no other thread moves. -/
def serial (P : Program ι L C σ ε) (v : σ) (spurious : Bool) :
    TransitionSystem (State ι L C σ ε) where
  init s := s = P.initial v
  step s s' := s.halted = none ∧
    ∃ i, (s.holder = none ∨ s.holder = some i) ∧ P.Step spurious i s s'

omit [DecidableEq ι] [DecidableEq C] in
/-- A thread that moves alone is not blocked afterwards. -/
theorem Moves.ne_blocked {t x : Status C (L i)} (h : P.Moves spurious i t x) (c : C) (ℓ : L i) :
    x ≠ .blocked c ℓ := by
  cases h <;> simp

/-- While one thread holds the mutex, another can only move alone. -/
theorem Step.exists_move (hc : Consistent P s) (hs : P.Step spurious j s s')
    (hholder : s.holder = some i) (hij : j ≠ i) :
    ∃ x, P.Moves spurious j (s.threads j) x ∧
      s' = { s with threads := Function.update s.threads j x } := by
  have hother : ∀ {ℓ : L j}, s.threads j = .ready ℓ → (P.code j ℓ).Exclusive → False := by
    intro ℓ hj hexclusive
    have := hc.holder_eq hj (inside_of_exclusive hexclusive)
    rw [hholder, Option.some_inj] at this
    exact hij this.symm
  cases hs with
  | acquire ℓ hacq hfree => exact absurd (hholder.symm.trans hfree) (by simp)
  | move x hmove => exact ⟨x, hmove, rfl⟩
  | wake w next ts hj hcode => exact (hother hj (by rw [hcode]; trivial)).elim
  | access v next hj hcode => exact (hother hj (by rw [hcode]; trivial)).elim
  | fault e hj hcode => exact (hother hj (by rw [hcode]; trivial)).elim
  | unlock next hj hcode => exact (hother hj (by rw [hcode]; trivial)).elim
  | wait c next hj hcode => exact (hother hj (by rw [hcode]; trivial)).elim

/-- Whoever holds the mutex after a statement held it before, or ran the statement. -/
theorem Step.eq_or_holder (hs : P.Step spurious j s s') (hholder : s'.holder = some i) :
    j = i ∨ s.holder = some i := by
  cases hs with
  | acquire => exact .inl (Option.some_inj.mp hholder)
  | move | wake | access | fault => exact .inr hholder
  | unlock | wait => cases hholder

/-- **A move that follows a statement of another thread can be taken before it.** -/
theorem Step.comm_move (hs : P.Step spurious i s s') (hij : j ≠ i) {x : Status C (L j)}
    (hmove : P.Moves spurious j (s'.threads j) x) :
    P.Moves spurious j (s.threads j) x ∧
      P.Step spurious i { s with threads := Function.update s.threads j x }
        { s' with threads := Function.update s'.threads j x } := by
  have hkeep : ∀ {t : Status C (L i)}, s.threads i = t → Function.update s.threads j x i = t := by
    intro t hi
    rw [Function.update_of_ne hij.symm, hi]
  cases hs with
  | acquire ℓ hacq hfree =>
    simp only [Function.update_of_ne hij] at hmove
    simp only [Function.update_comm hij.symm]
    exact ⟨hmove, .acquire ℓ (by simpa [hij.symm] using hacq) hfree⟩
  | move y hy =>
    simp only [Function.update_of_ne hij] at hmove
    simp only [Function.update_comm hij.symm]
    exact ⟨hmove, .move y (by simpa [hij.symm] using hy)⟩
  | @wake ℓ w next ts hi hcode hw =>
    simp only [Function.update_of_ne hij] at hmove
    -- a thread that the statement has woken cannot move before it has the mutex
    have hsame : ts j = s.threads j := by
      rcases hw.eq_or_woken j with heq | ⟨c, ℓ', -, hwoken⟩
      · exact heq
      · rw [hwoken] at hmove
        cases hmove
    simp only [Function.update_comm hij.symm]
    exact ⟨hsame ▸ hmove, .wake w next _ (hkeep hi) hcode (hw.update hsame hmove.ne_blocked)⟩
  | access w next hi hcode hrun =>
    simp only [Function.update_of_ne hij] at hmove
    simp only [Function.update_comm hij.symm]
    exact ⟨hmove, .access w next (hkeep hi) hcode hrun⟩
  | fault e hi hcode hrun => exact ⟨hmove, .fault e (hkeep hi) hcode hrun⟩
  | unlock next hi hcode hholder =>
    simp only [Function.update_of_ne hij] at hmove
    simp only [Function.update_comm hij.symm]
    exact ⟨hmove, .unlock next (hkeep hi) hcode hholder⟩
  | wait c next hi hcode hholder =>
    simp only [Function.update_of_ne hij] at hmove
    simp only [Function.update_comm hij.symm]
    exact ⟨hmove, .wait c next (hkeep hi) hcode hholder⟩

/-- A move of another thread can be taken before the section it falls into. -/
theorem serial_move {n : ℕ} (h : (P.serial v spurious).ReachableIn n s) (hlive : s.halted = none)
    (hholder : s.holder = some i) (hij : j ≠ i) {x : Status C (L j)}
    (hmove : P.Moves spurious j (s.threads j) x) :
    (P.serial v spurious).ReachableIn (n + 1)
      { s with threads := Function.update s.threads j x } := by
  -- Back to the lock: each statement of the holder is run after the move instead of before it.
  induction h with
  | init h₀ =>
    subst h₀
    cases hholder
  | @step n t s hr hs ih =>
    obtain ⟨hlive', k, hk, hs⟩ := hs
    have hki : k = i := by
      rcases hs.eq_or_holder hholder with hki | hheld
      · exact hki
      · simpa [hheld, eq_comm] using hk
    subst hki
    obtain ⟨hmove', hs'⟩ := hs.comm_move hij hmove
    rcases hk with hfree | hheld
    · exact .step (.step hr ⟨hlive', j, .inl hfree, .move x hmove'⟩) ⟨hlive', k, .inl hfree, hs'⟩
    · exact .step (ih hlive' hheld hmove') ⟨hlive', k, .inr hheld, hs'⟩

/-- **Reduction**: every state that the threads reach in some number of statements, interleaved in
any way, they also reach in the same number of statements without preemption. -/
theorem reachableIn_iff_serial {n : ℕ} :
    (P.system v spurious).ReachableIn n s ↔ (P.serial v spurious).ReachableIn n s := by
  constructor
  · intro h
    induction h with
    | init h₀ => exact .init h₀
    | @step n t s hr hs ih =>
      obtain ⟨hlive, j, hs⟩ := hs
      cases hholder : t.holder with
      | none => exact .step ih ⟨hlive, j, .inl hholder, hs⟩
      | some i =>
        by_cases hij : j = i
        · exact .step ih ⟨hlive, j, .inr (hij ▸ hholder), hs⟩
        · obtain ⟨x, hmove, rfl⟩ :=
            hs.exists_move (consistent_of_reachable hr.reachable) hholder hij
          exact serial_move ih hlive hholder hij hmove
  · intro h
    induction h with
    | init h₀ => exact .init h₀
    | step _ hs ih =>
      obtain ⟨hlive, i, -, hs⟩ := hs
      exact .step ih ⟨hlive, i, hs⟩

/-- The same, whatever the number of statements. -/
theorem reachable_iff_serial :
    (P.system v spurious).Reachable s ↔ (P.serial v spurious).Reachable s := by
  constructor
  · intro h
    obtain ⟨n, hn⟩ := h.exists_reachableIn
    exact (reachableIn_iff_serial.mp hn).reachable
  · intro h
    obtain ⟨n, hn⟩ := h.exists_reachableIn
    exact (reachableIn_iff_serial.mpr hn).reachable

end CExamples.MonitorProgram.Program

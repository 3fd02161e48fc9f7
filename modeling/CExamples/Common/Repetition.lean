import CExamples.Common.TransitionSystem

/-!
# A transition system run several times in a row

`repeated T result n` runs `T` from its initial states `n` times, one run after the other, and
collects the results of the states in which a run may end. What is known of every result of `T`
holds of all of them, bounded runs stay bounded, and the repetition is stuck where a run is.
-/

namespace CExamples

/-- The results so far, and the state of the run under way. -/
@[ext] structure Runs (σ ρ : Type*) where
  results : List ρ
  current : Option σ

namespace TransitionSystem

variable {σ ρ : Type*} {T T' : TransitionSystem σ} {result : σ → Option ρ} {n : ℕ}

/-- A run starts, goes on or ends. -/
inductive RepeatedStep (T : TransitionSystem σ) (result : σ → Option ρ) (n : ℕ) :
    Runs σ ρ → Runs σ ρ → Prop
  | start {results : List ρ} {s : σ} : results.length < n → T.init s →
      RepeatedStep T result n ⟨results, none⟩ ⟨results, some s⟩
  | run {results : List ρ} {s s' : σ} : T.step s s' →
      RepeatedStep T result n ⟨results, some s⟩ ⟨results, some s'⟩
  | finish {results : List ρ} {s : σ} {r : ρ} : result s = some r →
      RepeatedStep T result n ⟨results, some s⟩ ⟨results ++ [r], none⟩

/-- `n` runs of `T` in a row. -/
def repeated (T : TransitionSystem σ) (result : σ → Option ρ) (n : ℕ) :
    TransitionSystem (Runs σ ρ) where
  init r := r = ⟨[], none⟩
  step := RepeatedStep T result n

/-- The run under way is one of `T`, every result is one of a reachable state, and there are no more
of them than runs. -/
structure Repeated (T : TransitionSystem σ) (result : σ → Option ρ) (n : ℕ) (r : Runs σ ρ) :
    Prop where
  current : ∀ s, r.current = some s → T.Reachable s ∧ r.results.length < n
  results : ∀ x ∈ r.results, ∃ s, T.Reachable s ∧ result s = some x
  length_le : r.results.length ≤ n

theorem Reachable.repeated {r : Runs σ ρ} (h : (T.repeated result n).Reachable r) :
    Repeated T result n r := by
  refine h.invariant ?_ ?_
  · rintro r rfl
    exact ⟨by rintro s ⟨⟩, List.forall_mem_nil _, n.zero_le⟩
  · rintro r r' - hr hs
    cases hs with
    | start hlt hinit =>
      refine ⟨?_, hr.results, hr.length_le⟩
      rintro s ⟨⟩
      exact ⟨.init hinit, hlt⟩
    | run hs =>
      refine ⟨?_, hr.results, hr.length_le⟩
      rintro s ⟨⟩
      obtain ⟨hreach, hlt⟩ := hr.current _ rfl
      exact ⟨.step hreach hs, hlt⟩
    | @finish results s x hx =>
      obtain ⟨hreach, hlt⟩ := hr.current s rfl
      refine ⟨by rintro s ⟨⟩, ?_, by rwa [List.length_append, List.length_singleton]⟩
      intro y hy
      rcases List.mem_append.mp hy with hy | hy
      · exact hr.results y hy
      · rw [List.mem_singleton.mp hy]
        exact ⟨s, hreach, hx⟩

/-- The first run goes as `T` does. -/
theorem Reachable.first_run (hn : 0 < n) {s : σ} (h : T.Reachable s) :
    (T.repeated result n).Reachable ⟨[], some s⟩ := by
  induction h with
  | init h₀ => exact .step (.init rfl) (.start hn h₀)
  | step _ hs ih => exact .step ih (.run hs)

/-- The repetition is stuck in a run that is stuck and may not end. -/
theorem stuck_repeated_iff {results : List ρ} {s : σ} :
    (T.repeated result n).Stuck ⟨results, some s⟩ ↔ T.Stuck s ∧ result s = none := by
  constructor
  · intro h
    refine ⟨fun s' hs => h _ (.run hs), ?_⟩
    cases hx : result s with
    | none => rfl
    | some x => exact absurd (.finish hx) (h _)
  · rintro ⟨hs, hx⟩ r' hr
    cases hr with
    | run hstep => exact hs _ hstep
    | finish hy => exact Option.some_ne_none _ (hy.symm.trans hx)

/-- A repetition that is stuck between two runs has made all of them. -/
theorem length_of_stuck_repeated (hinit : ∃ s, T.init s) {results : List ρ}
    (hle : results.length ≤ n) (h : (T.repeated result n).Stuck ⟨results, none⟩) :
    results.length = n := by
  obtain ⟨s, hs⟩ := hinit
  by_contra hne
  exact h _ (.start (by omega) hs)

/-- A step counts for the run under way, whose own steps `k` counts. -/
theorem ReachableIn.repeated {k : ℕ} {r : Runs σ ρ} {B : ℕ}
    (hB : ∀ k s, T.ReachableIn k s → k ≤ B) (h : (T.repeated result n).ReachableIn k r) :
    (r.current = none ∧ k ≤ r.results.length * (B + 2)) ∨
      ∃ s m, r.current = some s ∧ T.ReachableIn m s ∧
        k ≤ r.results.length * (B + 2) + 1 + m := by
  induction h with
  | init h₀ =>
    subst h₀
    exact .inl ⟨rfl, Nat.zero_le _⟩
  | step _ hs ih =>
    cases hs with
    | start hlt hinit =>
      rcases ih with ⟨-, hk⟩ | ⟨_, _, ⟨⟩, _⟩
      exact .inr ⟨_, 0, rfl, .init hinit, Nat.succ_le_succ hk⟩
    | run hs =>
      rcases ih with ⟨⟨⟩, _⟩ | ⟨_, m, ⟨⟩, hm, hk⟩
      exact .inr ⟨_, m + 1, rfl, .step hm hs, Nat.succ_le_succ hk⟩
    | finish hx =>
      rcases ih with ⟨⟨⟩, _⟩ | ⟨_, m, ⟨⟩, hm, hk⟩
      refine .inl ⟨rfl, ?_⟩
      have hle := hB _ _ hm
      rw [List.length_append, List.length_singleton, Nat.add_mul]
      simp only at hk
      omega

/-- **Bounded repetitions**: `n` runs of at most `B` steps take at most `n * (B + 2)`. -/
theorem length_le_of_repeated {k : ℕ} {r : Runs σ ρ} {B : ℕ}
    (hB : ∀ k s, T.ReachableIn k s → k ≤ B) (h : (T.repeated result n).ReachableIn k r) :
    k ≤ n * (B + 2) := by
  have hr := h.reachable.repeated
  rcases h.repeated hB with ⟨-, hk⟩ | ⟨s, m, hs, hm, hk⟩
  · exact Nat.le_trans hk (Nat.mul_le_mul_right _ hr.length_le)
  · have hle := hB _ _ hm
    have hlt := (hr.current s hs).2
    have hmul : (r.results.length + 1) * (B + 2) ≤ n * (B + 2) := Nat.mul_le_mul_right _ hlt
    rw [Nat.add_mul] at hmul
    omega

end TransitionSystem

end CExamples

import Mathlib.Logic.Relation
import Mathlib.Tactic.Common

/-!
# Transition systems

The reachable states of a step relation, the rule that proves an invariant of them, the rules that
find a stuck state below a decreasing measure or within a bound on the runs, and bisimulations,
which carry reachability and stuckness between two levels of one design.
-/

namespace CExamples

/-- A transition system: the states a run may start in and the steps it may take. -/
structure TransitionSystem (σ : Type*) where
  init : σ → Prop
  step : σ → σ → Prop

namespace TransitionSystem

variable {σ τ : Type*} {T T' : TransitionSystem σ} {A : TransitionSystem τ}

/-- The states that some finite run of `T` ends in. -/
inductive Reachable (T : TransitionSystem σ) : σ → Prop
  | init {s : σ} : T.init s → Reachable T s
  | step {s s' : σ} : Reachable T s → T.step s s' → Reachable T s'

/-- No step leaves `s`. -/
def Stuck (T : TransitionSystem σ) (s : σ) : Prop :=
  ∀ s', ¬ T.step s s'

namespace Reachable

/-- **The invariant rule**: what holds initially and is preserved by every step from a reachable
state holds in every reachable state. -/
theorem invariant {I : σ → Prop} (hinit : ∀ s, T.init s → I s)
    (hstep : ∀ s s', T.Reachable s → I s → T.step s s' → I s') {s : σ} (h : T.Reachable s) :
    I s := by
  induction h with
  | init h₀ => exact hinit _ h₀
  | step hr hs ih => exact hstep _ _ hr ih hs

/-- A system with more steps reaches more states. -/
theorem mono (hinit : ∀ s, T.init s → T'.init s) (hstep : ∀ s s', T.step s s' → T'.step s s')
    {s : σ} (h : T.Reachable s) : T'.Reachable s := by
  induction h with
  | init h₀ => exact .init (hinit _ h₀)
  | step _ hs ih => exact .step ih (hstep _ _ hs)

/-- A reachable state stays reachable along a run. -/
theorem trans {s s' : σ} (h : T.Reachable s) (hrun : Relation.ReflTransGen T.step s s') :
    T.Reachable s' := by
  induction hrun with
  | refl => exact h
  | tail _ hs ih => exact .step ih hs

end Reachable

/-- The states that a run of exactly `n` steps of `T` ends in. -/
inductive ReachableIn (T : TransitionSystem σ) : ℕ → σ → Prop
  | init {s : σ} : T.init s → ReachableIn T 0 s
  | step {n : ℕ} {s s' : σ} : ReachableIn T n s → T.step s s' → ReachableIn T (n + 1) s'

theorem ReachableIn.reachable {n : ℕ} {s : σ} (h : T.ReachableIn n s) : T.Reachable s := by
  induction h with
  | init h₀ => exact .init h₀
  | step _ hs ih => exact .step ih hs

theorem Reachable.exists_reachableIn {s : σ} (h : T.Reachable s) : ∃ n, T.ReachableIn n s := by
  induction h with
  | init h₀ => exact ⟨0, .init h₀⟩
  | step _ hs ih =>
    obtain ⟨n, hn⟩ := ih
    exact ⟨n + 1, .step hn hs⟩

/-- A measure that every step from a reachable state decreases bounds the length of a run. -/
theorem ReachableIn.length_add_measure_le {μ : σ → ℕ} {B : ℕ} (hinit : ∀ s, T.init s → μ s ≤ B)
    (hμ : ∀ s s', T.Reachable s → T.step s s' → μ s' < μ s) {n : ℕ} {s : σ}
    (h : T.ReachableIn n s) : n + μ s ≤ B := by
  induction h with
  | init h₀ => simpa using hinit _ h₀
  | step hr hs ih =>
    have hlt := hμ _ _ hr.reachable hs
    omega

/-- Where the lengths of the runs are bounded, no run goes on for ever. -/
theorem not_exists_infinite_run_of_bounded {B : ℕ} (hB : ∀ n s, T.ReachableIn n s → n ≤ B) :
    ¬∃ run : ℕ → σ, T.init (run 0) ∧ ∀ n, T.step (run n) (run (n + 1)) := by
  rintro ⟨run, hinit, hstep⟩
  have hreach : ∀ n, T.ReachableIn n (run n) := by
    intro n
    induction n with
    | zero => exact .init hinit
    | succ n ih => exact .step ih (hstep n)
  have := hB (B + 1) _ (hreach (B + 1))
  omega

/-- Where the lengths of the runs are bounded, some run ends in a stuck state. -/
theorem exists_stuck_of_bounded {B : ℕ} (hB : ∀ n s, T.ReachableIn n s → n ≤ B) {s₀ : σ}
    (h₀ : T.init s₀) : ∃ s, T.Reachable s ∧ T.Stuck s := by
  by_contra hnone
  have hlong : ∀ n, ∃ s, T.ReachableIn n s := by
    intro n
    induction n with
    | zero => exact ⟨s₀, .init h₀⟩
    | succ n ih =>
      obtain ⟨s, hs⟩ := ih
      have hstuck : ¬T.Stuck s := fun hstuck => hnone ⟨s, hs.reachable, hstuck⟩
      simp only [Stuck, not_forall, not_not] at hstuck
      obtain ⟨s', hstep⟩ := hstuck
      exact ⟨s', .step hs hstep⟩
  obtain ⟨s, hs⟩ := hlong (B + 1)
  have := hB _ s hs
  omega

/-- Where every step decreases a natural number, each state has a run into a stuck state. -/
theorem exists_stuck_of_measure (μ : σ → ℕ) (hμ : ∀ s s', T.step s s' → μ s' < μ s) (s : σ) :
    ∃ s', Relation.ReflTransGen T.step s s' ∧ T.Stuck s' := by
  induction hn : μ s using Nat.strongRecOn generalizing s with
  | ind n ih =>
    by_cases hstuck : T.Stuck s
    · exact ⟨s, .refl, hstuck⟩
    · simp only [Stuck, not_forall, not_not] at hstuck
      obtain ⟨t, hst⟩ := hstuck
      obtain ⟨s', hrun, hs'⟩ := ih (μ t) (hn ▸ hμ s t hst) t rfl
      exact ⟨s', .head hst hrun, hs'⟩

/-- Where every step from a reachable state decreases a natural number, no run goes on for ever. -/
theorem not_exists_infinite_run (μ : σ → ℕ)
    (hμ : ∀ s s', T.Reachable s → T.step s s' → μ s' < μ s) :
    ¬∃ run : ℕ → σ, T.init (run 0) ∧ ∀ n, T.step (run n) (run (n + 1)) := by
  rintro ⟨run, hinit, hstep⟩
  have hreach : ∀ n, T.Reachable (run n) := by
    intro n
    induction n with
    | zero => exact .init hinit
    | succ n ih => exact .step ih (hstep n)
  have hbound : ∀ n, n + μ (run n) ≤ μ (run 0) := by
    intro n
    induction n with
    | zero => omega
    | succ n ih =>
      have hlt := hμ _ _ (hreach n) (hstep n)
      omega
  have := hbound (μ (run 0) + 1)
  omega

/-- `R` relates the states of `T` and `A` so that each side matches every step of the other. -/
structure Bisimulation (T : TransitionSystem σ) (A : TransitionSystem τ) (R : σ → τ → Prop) :
    Prop where
  init : ∀ s, T.init s → ∃ a, A.init a ∧ R s a
  init_inv : ∀ a, A.init a → ∃ s, T.init s ∧ R s a
  forward : ∀ s s' a, R s a → T.step s s' → ∃ a', A.step a a' ∧ R s' a'
  backward : ∀ s a a', R s a → A.step a a' → ∃ s', T.step s s' ∧ R s' a'

namespace Bisimulation

variable {R : σ → τ → Prop}

/-- Every reachable state of `T` is related to a reachable state of `A`. -/
theorem exists_abstract (hR : Bisimulation T A R) {s : σ} (h : T.Reachable s) :
    ∃ a, A.Reachable a ∧ R s a := by
  induction h with
  | init h₀ =>
    obtain ⟨a, ha, hsa⟩ := hR.init _ h₀
    exact ⟨a, .init ha, hsa⟩
  | step _ hs ih =>
    obtain ⟨a, ha, hsa⟩ := ih
    obtain ⟨a', haa', hsa'⟩ := hR.forward _ _ _ hsa hs
    exact ⟨a', .step ha haa', hsa'⟩

/-- Every reachable state of `A` is related to a reachable state of `T`. -/
theorem exists_concrete (hR : Bisimulation T A R) {a : τ} (h : A.Reachable a) :
    ∃ s, T.Reachable s ∧ R s a := by
  induction h with
  | init h₀ =>
    obtain ⟨s, hs, hsa⟩ := hR.init_inv _ h₀
    exact ⟨s, .init hs, hsa⟩
  | step _ ha ih =>
    obtain ⟨s, hs, hsa⟩ := ih
    obtain ⟨s', hss', hsa'⟩ := hR.backward _ _ _ hsa ha
    exact ⟨s', .step hs hss', hsa'⟩

/-- Related states are stuck together. -/
theorem stuck_iff (hR : Bisimulation T A R) {s : σ} {a : τ} (h : R s a) :
    T.Stuck s ↔ A.Stuck a := by
  constructor
  · intro hs a' ha
    obtain ⟨s', hs', -⟩ := hR.backward _ _ _ h ha
    exact hs s' hs'
  · intro ha s' hs
    obtain ⟨a', ha', -⟩ := hR.forward _ _ _ h hs
    exact ha a' ha'

end Bisimulation

end TransitionSystem

end CExamples

import Mathlib.Logic.Function.Basic
import Mathlib.Tactic.Common

/-!
# Ledgers of exclusively held resources

Each party holds at most one resource of a kind, and each resource in use is held by exactly one
party. Acquiring a resource that is not in use, handing one over and giving one up keep the ledger
balanced (`Balanced.acquire`, `Balanced.transfer`, `Balanced.release`).
-/

namespace CExamples.Ledger

variable {ι ρ : Type*} {holds : ι → Option ρ} {live : ρ → Prop}

/-- The resources in use are those held, each by one party. -/
structure Balanced (holds : ι → Option ρ) (live : ρ → Prop) : Prop where
  live_iff : ∀ r, live r ↔ ∃ i, holds i = some r
  unique : ∀ {i j r}, holds i = some r → holds j = some r → i = j

namespace Balanced

theorem live_of_holds (h : Balanced holds live) {i : ι} {r : ρ} (hi : holds i = some r) : live r :=
  (h.live_iff r).mpr ⟨i, hi⟩

theorem live_iff_existsUnique (h : Balanced holds live) (r : ρ) :
    live r ↔ ∃! i, holds i = some r := by
  constructor
  · intro hr
    obtain ⟨i, hi⟩ := (h.live_iff r).mp hr
    exact ⟨i, hi, fun j hj => h.unique hj hi⟩
  · rintro ⟨i, hi, -⟩
    exact h.live_of_holds hi

/-- What another party holds is another resource. -/
theorem ne_of_ne (h : Balanced holds live) {i j : ι} {r r' : ρ} (hi : holds i = some r)
    (hj : holds j = some r') (hij : i ≠ j) : r ≠ r' := by
  rintro rfl
  exact hij (h.unique hi hj)

theorem empty : Balanced (fun _ : ι => none) fun _ : ρ => False where
  live_iff r := by simp
  unique hi := by cases hi

theorem congr (h : Balanced holds live) {live' : ρ → Prop} (hlive : ∀ r, live' r ↔ live r) :
    Balanced holds live' where
  live_iff r := (hlive r).trans (h.live_iff r)
  unique := h.unique

variable [DecidableEq ι]

/-- A party that holds nothing takes a resource that is not in use. -/
theorem acquire (h : Balanced holds live) {i : ι} {r : ρ} (hi : holds i = none) (hr : ¬ live r) :
    Balanced (Function.update holds i (some r)) fun r' => r' = r ∨ live r' where
  live_iff r' := by
    constructor
    · rintro (rfl | hlive)
      · exact ⟨i, Function.update_self ..⟩
      · obtain ⟨j, hj⟩ := (h.live_iff r').mp hlive
        have hne : j ≠ i := by
          rintro rfl
          rw [hi] at hj
          cases hj
        exact ⟨j, by rwa [Function.update_of_ne hne]⟩
    · rintro ⟨j, hj⟩
      by_cases hne : j = i
      · subst hne
        rw [Function.update_self, Option.some_inj] at hj
        exact .inl hj.symm
      · rw [Function.update_of_ne hne] at hj
        exact .inr (h.live_of_holds hj)
  unique := by
    intro j k r' hj hk
    by_cases hji : j = i <;> by_cases hki : k = i
    · rw [hji, hki]
    · subst hji
      rw [Function.update_self, Option.some_inj] at hj
      rw [Function.update_of_ne hki] at hk
      exact absurd (h.live_of_holds (hj ▸ hk)) hr
    · subst hki
      rw [Function.update_self, Option.some_inj] at hk
      rw [Function.update_of_ne hji] at hj
      exact absurd (h.live_of_holds (hk ▸ hj)) hr
    · rw [Function.update_of_ne hji] at hj
      rw [Function.update_of_ne hki] at hk
      exact h.unique hj hk

/-- A party gives up what it holds. -/
theorem release (h : Balanced holds live) {i : ι} {r : ρ} (hi : holds i = some r) :
    Balanced (Function.update holds i none) fun r' => r' ≠ r ∧ live r' where
  live_iff r' := by
    constructor
    · rintro ⟨hne, hlive⟩
      obtain ⟨j, hj⟩ := (h.live_iff r').mp hlive
      have hji : j ≠ i := by
        rintro rfl
        rw [hi, Option.some_inj] at hj
        exact hne hj.symm
      exact ⟨j, by rwa [Function.update_of_ne hji]⟩
    · rintro ⟨j, hj⟩
      have hji : j ≠ i := by
        rintro rfl
        rw [Function.update_self] at hj
        cases hj
      rw [Function.update_of_ne hji] at hj
      exact ⟨h.ne_of_ne hj hi hji, h.live_of_holds hj⟩
  unique := by
    intro j k r' hj hk
    have hne : ∀ {l}, Function.update holds i none l = some r' → holds l = some r' := by
      intro l hl
      by_cases hli : l = i
      · subst hli
        rw [Function.update_self] at hl
        cases hl
      · rwa [Function.update_of_ne hli] at hl
    exact h.unique (hne hj) (hne hk)

/-- A party hands what it holds over to one that holds nothing. -/
theorem transfer (h : Balanced holds live) {i j : ι} {r : ρ} (hi : holds i = some r)
    (hj : holds j = none) :
    Balanced (Function.update (Function.update holds i none) j (some r)) live := by
  have hji : j ≠ i := by
    rintro rfl
    rw [hi] at hj
    cases hj
  have hreleased := h.release hi
  have hnone : Function.update holds i none j = none := by rwa [Function.update_of_ne hji]
  refine (hreleased.acquire hnone (fun hr => hr.1 rfl)).congr ?_
  intro r'
  by_cases hr : r' = r
  · subst hr
    exact iff_of_true (h.live_of_holds hi) (.inl rfl)
  · simp [hr]

end Balanced

end CExamples.Ledger

import CExamples.Common.TransitionSystem
import Mathlib.Logic.Function.Basic

/-!
# Programs of threads that share one mutex

The code of a thread is a table of statements, one for each program point: lock, unlock, wait on a
condition variable, signal, broadcast, access the memory the threads share, or do something of its
own. Threads interleave statement by statement, and a wait may end by itself.

A `Program` carries the lock discipline of its code as a field: the points at which a thread holds
the mutex are known, and only there does it wake others or touch the shared memory. What follows for
every interleaving is that the mutex's holder is the one thread at such a point (`Consistent`).
-/

namespace CExamples.MonitorProgram

/-- Waking threads that wait on a condition variable. -/
inductive Wake (C : Type*)
  | signal (c : C)
  | broadcast (c : C)
deriving DecidableEq, Repr

/-- One statement, with the program point it goes on to. An `access` reads and writes the shared
memory and branches on it; it can end the process. A `skip` touches nothing shared. -/
inductive Statement (C σ ε Λ : Type*)
  | lock (next : Λ)
  | unlock (next : Λ)
  | wait (c : C) (next : Λ)
  | wake (w : Wake C) (next : Λ)
  | access (run : σ → Except ε (σ × Λ))
  | skip (next : Λ)
  | done

/-- Where a thread is: about to run the statement at a point, blocked in a wait that goes on to a
point, or woken and about to lock the mutex again. -/
inductive Status (C Λ : Type*)
  | ready (point : Λ)
  | blocked (c : C) (point : Λ)
  | woken (point : Λ)
deriving DecidableEq, Repr

/-- The lock discipline of the statement at `point`, where `inside` says at which points the mutex
is held. Inside, `rank` decreases, so that a section ends. -/
def Statement.Disciplined {C σ ε Λ : Type*} (inside : Λ → Prop) (rank : Λ → ℕ) (point : Λ) :
    Statement C σ ε Λ → Prop
  | .lock next => ¬ inside point ∧ inside next
  | .unlock next => inside point ∧ ¬ inside next
  | .wait _ next => inside point ∧ inside next
  | .wake _ next => inside point ∧ inside next ∧ rank next < rank point
  | .access run =>
    inside point ∧ ∀ v w next, run v = .ok (w, next) → inside next ∧ rank next < rank point
  | .skip next => ¬ inside point ∧ ¬ inside next
  | .done => ¬ inside point

/-- A statement that touches what the threads share: the memory, the condition variables, or the
mutex that the thread holds. -/
def Statement.Exclusive {C σ ε Λ : Type*} : Statement C σ ε Λ → Prop
  | .unlock _ | .wait _ _ | .wake _ _ | .access _ => True
  | .lock _ | .skip _ | .done => False

/-- The code of the threads `ι`, each over its own program points, with sections of at most `length`
statements between the lock and the one that ends them. -/
structure Program (ι : Type*) (L : ι → Type*) (C σ ε : Type*) where
  code : (i : ι) → L i → Statement C σ ε (L i)
  entry : (i : ι) → L i
  inside : (i : ι) → L i → Prop
  rank : (i : ι) → L i → ℕ
  length : ℕ
  rank_le : ∀ i ℓ, rank i ℓ ≤ length
  disciplined : ∀ i ℓ, (code i ℓ).Disciplined (inside i) (rank i) ℓ
  entry_outside : ∀ i, ¬ inside i (entry i)

/-- The shared memory, who holds the mutex, where the threads are, and why the process ended. -/
structure State (ι : Type*) (L : ι → Type*) (C σ ε : Type*) where
  shared : σ
  holder : Option ι
  threads : (i : ι) → Status C (L i)
  halted : Option ε

variable {ι : Type*} {L : ι → Type*} {C σ ε : Type*}

/-! ## Waking -/

/-- A thread after a broadcast. -/
def Status.wakeOn {Λ : Type*} [DecidableEq C] (c : C) : Status C Λ → Status C Λ
  | .blocked d ℓ => if d = c then .woken ℓ else .blocked d ℓ
  | .ready ℓ => .ready ℓ
  | .woken ℓ => .woken ℓ

/-- A signal wakes one of the threads that wait on the condition variable, whichever; with none it
has no effect. A broadcast wakes all of them. -/
inductive Wakes [DecidableEq ι] [DecidableEq C] :
    Wake C → ((i : ι) → Status C (L i)) → ((i : ι) → Status C (L i)) → Prop
  | signal {c : C} {ts : (i : ι) → Status C (L i)} (k : ι) (ℓ : L k) : ts k = .blocked c ℓ →
      Wakes (.signal c) ts (Function.update ts k (.woken ℓ))
  | lost {c : C} {ts : (i : ι) → Status C (L i)} : (∀ k ℓ, ts k ≠ .blocked c ℓ) →
      Wakes (.signal c) ts ts
  | broadcast {c : C} {ts : (i : ι) → Status C (L i)} :
      Wakes (.broadcast c) ts fun k => (ts k).wakeOn c

namespace Wakes

variable [DecidableEq ι] [DecidableEq C] {w : Wake C} {ts ts' : (i : ι) → Status C (L i)}

/-- Waking is always possible. -/
theorem exists_wakes (w : Wake C) (ts : (i : ι) → Status C (L i)) : ∃ ts', Wakes w ts ts' := by
  cases w with
  | broadcast c => exact ⟨_, .broadcast⟩
  | signal c =>
    by_cases h : ∃ k ℓ, ts k = .blocked c ℓ
    · obtain ⟨k, ℓ, hk⟩ := h
      exact ⟨_, .signal k ℓ hk⟩
    · exact ⟨ts, .lost fun k ℓ hk => h ⟨k, ℓ, hk⟩⟩

/-- A thread is left as it was, or was blocked and is woken at the same point. -/
theorem eq_or_woken (h : Wakes w ts ts') (i : ι) :
    ts' i = ts i ∨ ∃ c ℓ, ts i = .blocked c ℓ ∧ ts' i = .woken ℓ := by
  cases h with
  | @signal c _ k ℓ hk =>
    by_cases hik : i = k
    · subst hik
      exact .inr ⟨c, ℓ, hk, Function.update_self ..⟩
    · exact .inl (Function.update_of_ne hik ..)
  | lost => exact .inl rfl
  | @broadcast c _ =>
    simp only
    generalize ts i = t
    cases t with
    | ready | woken => exact .inl rfl
    | blocked d ℓ =>
      by_cases hd : d = c
      · exact .inr ⟨d, ℓ, rfl, if_pos hd⟩
      · exact .inl (if_neg hd)

/-- A thread that is not blocked is left as it was. -/
theorem eq_of_not_blocked (h : Wakes w ts ts') {i : ι} (hi : ∀ c ℓ, ts i ≠ .blocked c ℓ) :
    ts' i = ts i := by
  rcases h.eq_or_woken i with heq | ⟨c, ℓ, hblocked, -⟩
  · exact heq
  · exact absurd hblocked (hi c ℓ)

/-- It neither makes nor stops a thread that is not waiting. -/
theorem ready_iff (h : Wakes w ts ts') {i : ι} {ℓ : L i} :
    ts' i = .ready ℓ ↔ ts i = .ready ℓ := by
  rcases h.eq_or_woken i with heq | ⟨c, ℓ', hblocked, hwoken⟩
  · rw [heq]
  · simp [hblocked, hwoken]

/-- Whoever is blocked after it was blocked before. -/
theorem blocked_of_blocked (h : Wakes w ts ts') {i : ι} {c : C} {ℓ : L i}
    (hi : ts' i = .blocked c ℓ) : ts i = .blocked c ℓ := by
  rcases h.eq_or_woken i with heq | ⟨_, _, -, hwoken⟩
  · exact heq ▸ hi
  · rw [hwoken] at hi
    cases hi

/-- **Waking commutes with a move of a thread that it leaves as it was.** -/
theorem update (h : Wakes w ts ts') {j : ι} (hj : ts' j = ts j) {x : Status C (L j)}
    (hx : ∀ c ℓ, x ≠ .blocked c ℓ) :
    Wakes w (Function.update ts j x) (Function.update ts' j x) := by
  cases h with
  | @signal c _ k ℓ hk =>
    have hjk : k ≠ j := by
      rintro rfl
      rw [Function.update_self, hk] at hj
      cases hj
    rw [Function.update_comm hjk]
    exact .signal k ℓ (by rw [Function.update_of_ne hjk, hk])
  | @lost c _ hnone =>
    refine .lost ?_
    intro k ℓ
    by_cases hkj : k = j
    · subst hkj
      rw [Function.update_self]
      exact hx c ℓ
    · rw [Function.update_of_ne hkj]
      exact hnone k ℓ
  | @broadcast c _ =>
    have hmap : Function.update (fun k => (ts k).wakeOn c) j x
        = fun k => (Function.update ts j x k).wakeOn c := by
      funext k
      by_cases hkj : k = j
      · subst hkj
        rw [Function.update_self, Function.update_self]
        cases x with
        | ready | woken => rfl
        | blocked d ℓ => exact absurd rfl (hx d ℓ)
      · rw [Function.update_of_ne hkj, Function.update_of_ne hkj]
    rw [hmap]
    exact .broadcast

end Wakes

/-! ## Steps -/

namespace Program

variable [DecidableEq ι] [DecidableEq C] (P : Program ι L C σ ε)

/-- A thread with status `t` needs the mutex and goes on to `ℓ` once it has it. -/
def Acquires (i : ι) (t : Status C (L i)) (ℓ : L i) : Prop :=
  t = .woken ℓ ∨ ∃ ℓ₀, t = .ready ℓ₀ ∧ P.code i ℓ₀ = .lock ℓ

/-- What a thread outside its sections can do alone: run a statement that touches nothing shared or,
where `spurious` allows it, end its wait without having been woken. -/
inductive Moves (spurious : Bool) (i : ι) : Status C (L i) → Status C (L i) → Prop
  | skip {ℓ next : L i} : P.code i ℓ = .skip next → Moves spurious i (.ready ℓ) (.ready next)
  | spurious {c : C} {ℓ : L i} : spurious = true → Moves spurious i (.blocked c ℓ) (.woken ℓ)

/-- Thread `i` runs one statement. -/
inductive Step (spurious : Bool) (i : ι) : State ι L C σ ε → State ι L C σ ε → Prop
  | acquire {s : State ι L C σ ε} (ℓ : L i) : P.Acquires i (s.threads i) ℓ → s.holder = none →
      Step spurious i s { s with
        holder := some i
        threads := Function.update s.threads i (.ready ℓ) }
  | move {s : State ι L C σ ε} (x : Status C (L i)) : P.Moves spurious i (s.threads i) x →
      Step spurious i s { s with threads := Function.update s.threads i x }
  | wake {s : State ι L C σ ε} {ℓ : L i} (w : Wake C) (next : L i)
      (ts : (j : ι) → Status C (L j)) : s.threads i = .ready ℓ → P.code i ℓ = .wake w next →
      Wakes w s.threads ts →
      Step spurious i s { s with threads := Function.update ts i (.ready next) }
  | access {s : State ι L C σ ε} {ℓ : L i} {run : σ → Except ε (σ × L i)} (v : σ) (next : L i) :
      s.threads i = .ready ℓ → P.code i ℓ = .access run → run s.shared = .ok (v, next) →
      Step spurious i s { s with
        shared := v
        threads := Function.update s.threads i (.ready next) }
  | fault {s : State ι L C σ ε} {ℓ : L i} {run : σ → Except ε (σ × L i)} (e : ε) :
      s.threads i = .ready ℓ → P.code i ℓ = .access run → run s.shared = .error e →
      Step spurious i s { s with halted := some e }
  | unlock {s : State ι L C σ ε} {ℓ : L i} (next : L i) : s.threads i = .ready ℓ →
      P.code i ℓ = .unlock next → s.holder = some i →
      Step spurious i s { s with
        holder := none
        threads := Function.update s.threads i (.ready next) }
  | wait {s : State ι L C σ ε} {ℓ : L i} (c : C) (next : L i) : s.threads i = .ready ℓ →
      P.code i ℓ = .wait c next → s.holder = some i →
      Step spurious i s { s with
        holder := none
        threads := Function.update s.threads i (.blocked c next) }

/-- Every thread at its entry, the mutex free. -/
def initial (v : σ) : State ι L C σ ε where
  shared := v
  holder := none
  threads i := .ready (P.entry i)
  halted := none

/-- The program as a transition system, with or without spurious wakeups. -/
def system (v : σ) (spurious : Bool) : TransitionSystem (State ι L C σ ε) where
  init s := s = P.initial v
  step s s' := s.halted = none ∧ ∃ i, P.Step spurious i s s'

/-! ## Mutual exclusion -/

variable {P}

/-- The holder of the mutex is the thread that is inside; a thread that waits, or was woken, goes on
inside, from a wait of its code. -/
structure Consistent (P : Program ι L C σ ε) (s : State ι L C σ ε) : Prop where
  holder_iff : ∀ i, s.holder = some i ↔ ∃ ℓ, s.threads i = .ready ℓ ∧ P.inside i ℓ
  blocked : ∀ i c ℓ, s.threads i = .blocked c ℓ → ∃ ℓ₀, P.code i ℓ₀ = .wait c ℓ
  woken : ∀ i ℓ, s.threads i = .woken ℓ → ∃ c ℓ₀, P.code i ℓ₀ = .wait c ℓ

omit [DecidableEq ι] [DecidableEq C] in
theorem inside_of_wait {i : ι} {c : C} {ℓ next : L i} (h : P.code i ℓ = .wait c next) :
    P.inside i next := by
  have hd := P.disciplined i ℓ
  rw [h] at hd
  exact hd.2

omit [DecidableEq ι] [DecidableEq C] in
/-- Whoever acquires the mutex is inside then. -/
theorem Consistent.inside_of_acquires {s : State ι L C σ ε} (h : Consistent P s) {i : ι} {ℓ : L i}
    (hi : P.Acquires i (s.threads i) ℓ) : P.inside i ℓ := by
  rcases hi with hwoken | ⟨ℓ₀, -, hlock⟩
  · obtain ⟨c, ℓ₀, hwait⟩ := h.woken i ℓ hwoken
    exact inside_of_wait hwait
  · have hd := P.disciplined i ℓ₀
    rw [hlock] at hd
    exact hd.2

omit [DecidableEq ι] [DecidableEq C] in
theorem Consistent.initial (P : Program ι L C σ ε) (v : σ) : Consistent P (P.initial v) where
  holder_iff i := by
    simp only [Program.initial, reduceCtorEq, Status.ready.injEq, false_iff, not_exists, not_and]
    rintro ℓ rfl
    exact P.entry_outside i
  blocked i c ℓ h := by cases h
  woken i ℓ h := by cases h

namespace Consistent

variable {s s' : State ι L C σ ε} {spurious : Bool} {i j : ι}

omit [DecidableEq C] in
/-- Only thread `i` has moved, and the mutex is its own if it is inside now. -/
theorem update (h : Consistent P s) {v : σ} {holder : Option ι} {x : Status C (L i)}
    {halted : Option ε} (hother : ∀ j, j ≠ i → (holder = some j ↔ s.holder = some j))
    (hself : holder = some i ↔ ∃ ℓ, x = .ready ℓ ∧ P.inside i ℓ)
    (hblocked : ∀ c ℓ, x = .blocked c ℓ → ∃ ℓ₀, P.code i ℓ₀ = .wait c ℓ)
    (hwoken : ∀ ℓ, x = .woken ℓ → ∃ c ℓ₀, P.code i ℓ₀ = .wait c ℓ) :
    Consistent P ⟨v, holder, Function.update s.threads i x, halted⟩ where
  holder_iff j := by
    by_cases hj : j = i
    · subst hj
      simpa only [Function.update_self] using hself
    · simpa only [Function.update_of_ne hj, hother j hj] using h.holder_iff j
  blocked j c ℓ hjc := by
    by_cases hj : j = i
    · subst hj
      exact hblocked c ℓ (by simpa using hjc)
    · exact h.blocked j c ℓ (by simpa [Function.update_of_ne hj] using hjc)
  woken j ℓ hjw := by
    by_cases hj : j = i
    · subst hj
      exact hwoken ℓ (by simpa using hjw)
    · exact h.woken j ℓ (by simpa [Function.update_of_ne hj] using hjw)

omit [DecidableEq ι] [DecidableEq C] in
/-- A thread at a point inside holds the mutex. -/
theorem holder_eq (h : Consistent P s) {ℓ : L i} (hi : s.threads i = .ready ℓ)
    (hin : P.inside i ℓ) : s.holder = some i :=
  (h.holder_iff i).mpr ⟨ℓ, hi, hin⟩

omit [DecidableEq ι] [DecidableEq C] in
/-- The holder's point is inside. -/
theorem inside_of_holder (h : Consistent P s) {ℓ : L i} (hholder : s.holder = some i)
    (hi : s.threads i = .ready ℓ) : P.inside i ℓ := by
  obtain ⟨ℓ', hℓ', hin⟩ := (h.holder_iff i).mp hholder
  rw [hi] at hℓ'
  cases hℓ'
  exact hin

/-- Waking threads keeps the invariant. -/
theorem wakes (h : Consistent P s) {w : Wake C} {ts : (j : ι) → Status C (L j)}
    (hw : Wakes w s.threads ts) : Consistent P { s with threads := ts } where
  holder_iff j := by
    rw [h.holder_iff j]
    rcases hw.eq_or_woken j with heq | ⟨c, ℓ, hblocked, hwoken⟩
    · simp only [heq]
    · simp [hblocked, hwoken]
  blocked j c ℓ hj := h.blocked j c ℓ (hw.blocked_of_blocked hj)
  woken j ℓ hj := by
    simp only at hj
    rcases hw.eq_or_woken j with heq | ⟨c, ℓ', hblocked, hwoken⟩
    · exact h.woken j ℓ (heq ▸ hj)
    · rw [hwoken] at hj
      cases hj
      exact ⟨c, h.blocked j c ℓ hblocked⟩

/-- **Every statement keeps the invariant.** -/
theorem step (h : Consistent P s) (hs : P.Step spurious i s s') : Consistent P s' := by
  -- The statement that runs says where the thread was and where it is then.
  cases hs with
  | acquire ℓ hacq hfree =>
    refine h.update ?_ ?_ (by simp) (by simp)
    · intro j hj
      simp [hfree, hj.symm]
    · simpa using h.inside_of_acquires hacq
  | move x hmove =>
    have hi := h.holder_iff i
    generalize ht : s.threads i = t at hmove hi
    cases hmove with
    | @skip ℓ next hcode =>
      have hd := P.disciplined i ℓ
      rw [hcode] at hd
      refine h.update (fun _ _ => Iff.rfl) ?_ (by simp) (by simp)
      rw [hi]
      simp [hd.1, hd.2]
    | @spurious c ℓ _ =>
      refine h.update (fun _ _ => Iff.rfl) ?_ (by simp) ?_
      · rw [hi]
        simp
      · rintro ℓ' hℓ'
        cases hℓ'
        exact ⟨c, h.blocked i c ℓ ht⟩
  | @wake ℓ w next ts hi hcode hw =>
    have hd := P.disciplined i ℓ
    rw [hcode] at hd
    refine (h.wakes hw).update (fun _ _ => Iff.rfl) ?_ (by simp) (by simp)
    simpa [h.holder_eq hi hd.1] using hd.2.1
  | @access ℓ run v next hi hcode hrun =>
    have hd := P.disciplined i ℓ
    rw [hcode] at hd
    refine h.update (fun _ _ => Iff.rfl) ?_ (by simp) (by simp)
    simpa [h.holder_eq hi hd.1] using (hd.2 _ _ _ hrun).1
  | fault e => exact ⟨h.holder_iff, h.blocked, h.woken⟩
  | @unlock ℓ next hi hcode hholder =>
    have hd := P.disciplined i ℓ
    rw [hcode] at hd
    refine h.update ?_ ?_ (by simp) (by simp)
    · intro j hj
      simp [hholder, hj.symm]
    · simpa using hd.2
  | @wait ℓ c next hi hcode hholder =>
    refine h.update ?_ (by simp) ?_ (by simp)
    · intro j hj
      simp [hholder, hj.symm]
    · rintro c' ℓ' hℓ'
      cases hℓ'
      exact ⟨ℓ, hcode⟩

end Consistent

variable {v : σ} {spurious : Bool} {s : State ι L C σ ε}

/-- **Mutual exclusion**: in every reachable state the thread that is inside holds the mutex. -/
theorem consistent_of_reachable (h : (P.system v spurious).Reachable s) : Consistent P s := by
  apply h.invariant
  · rintro s rfl
    exact .initial P v
  · rintro s s' _ ih ⟨-, i, hs⟩
    exact ih.step hs

omit [DecidableEq ι] [DecidableEq C] in
/-- The discipline puts such statements inside. -/
theorem inside_of_exclusive {i : ι} {ℓ : L i} (h : (P.code i ℓ).Exclusive) : P.inside i ℓ := by
  have hd := P.disciplined i ℓ
  cases hcode : P.code i ℓ with
  | unlock | wait | wake | access =>
    rw [hcode] at hd
    exact hd.1
  | lock | skip | done =>
    rw [hcode] at h
    exact h.elim

end Program

end CExamples.MonitorProgram

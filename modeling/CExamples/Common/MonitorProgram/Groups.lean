import CExamples.Common.Monitor
import CExamples.Common.MonitorProgram.Basic

/-!
# Groups of threads with a condition variable of their own

Seen from between two sections a thread is running, waiting or returned. Where a condition variable
is the one that a group of threads waits on, and no other thread does, a signal on it is a signal
to the group, and a broadcast a broadcast to the group.
-/

namespace CExamples.MonitorProgram

variable {ι κ : Type*} {L : ι → Type*} {C σ ε : Type*}

/-- Whether a thread ends here. -/
def Statement.isDone {Λ : Type*} : Statement C σ ε Λ → Bool
  | .done => true
  | _ => false

/-- A broadcast leaves a thread as it was that does not wait on its condition variable. -/
theorem Status.wakeOn_eq_self {Λ : Type*} [DecidableEq C] {c : C} {t : Status C Λ}
    (h : ∀ d ℓ, t = .blocked d ℓ → d ≠ c) : t.wakeOn c = t := by
  cases t with
  | ready | woken => rfl
  | blocked d ℓ => exact if_neg (h d ℓ rfl)

namespace Program

variable (P : Program ι L C σ ε)

/-- Where a thread is, seen from between two sections. -/
def threadState (i : ι) : Status C (L i) → ThreadState
  | .ready ℓ => if (P.code i ℓ).isDone then .returned else .running
  | .blocked _ _ => .waiting
  | .woken _ => .running

@[simp] theorem threadState_blocked (i : ι) (c : C) (ℓ : L i) :
    P.threadState i (.blocked c ℓ) = .waiting := rfl

@[simp] theorem threadState_woken (i : ι) (ℓ : L i) : P.threadState i (.woken ℓ) = .running := rfl

variable {P}

theorem threadState_eq_waiting_iff {i : ι} {t : Status C (L i)} :
    P.threadState i t = .waiting ↔ ∃ c ℓ, t = .blocked c ℓ := by
  cases t with
  | ready ℓ =>
    simp only [threadState, reduceCtorEq, exists_false, iff_false]
    split <;> simp
  | blocked c ℓ => simp
  | woken ℓ => simp

/-- A thread that can go on, by itself or once it has the mutex, is running. -/
theorem Acquires.threadState_eq {i : ι} {t : Status C (L i)} {ℓ : L i} (h : P.Acquires i t ℓ) :
    P.threadState i t = .running := by
  rcases h with rfl | ⟨ℓ₀, rfl, hlock⟩
  · rfl
  · simp [threadState, hlock, Statement.isDone]

/-- A thread that waits on `c`, if it waits, runs after a broadcast on `c`. -/
theorem threadState_wakeOn [DecidableEq C] {i : ι} {c : C} {t : Status C (L i)}
    (h : ∀ d ℓ, t = .blocked d ℓ → d = c) :
    P.threadState i (t.wakeOn c) =
      if P.threadState i t = .waiting then .running else P.threadState i t := by
  cases t with
  | ready ℓ =>
    have hne : P.threadState i (.ready ℓ : Status C (L i)) ≠ .waiting := by
      simp [threadState_eq_waiting_iff]
    rw [if_neg hne, Status.wakeOn]
  | blocked d ℓ => simp [Status.wakeOn, h d ℓ rfl]
  | woken ℓ => rfl

/-- A thread has returned exactly if it is at the end of its code. -/
theorem threadState_eq_returned_iff {i : ι} {t : Status C (L i)} :
    P.threadState i t = .returned ↔ ∃ ℓ, t = .ready ℓ ∧ P.code i ℓ = .done := by
  cases t with
  | ready ℓ =>
    cases hcode : P.code i ℓ <;> simp [threadState, hcode, Statement.isDone]
  | blocked c ℓ => simp
  | woken ℓ => simp

section Returned

variable [DecidableEq ι] [DecidableEq C] {spurious : Bool} {s s' : State ι L C σ ε} {i j : ι}

/-- A thread that has returned runs no statement. -/
theorem Step.ne_returned (hs : P.Step spurious i s s') :
    P.threadState i (s.threads i) ≠ .returned := by
  rw [Ne, threadState_eq_returned_iff]
  rintro ⟨ℓ, hi, hdone⟩
  cases hs with
  | acquire ℓ' hacq =>
    have hrunning := hacq.threadState_eq
    rw [hi, threadState, hdone] at hrunning
    cases hrunning
  | move x hmove =>
    rw [hi] at hmove
    cases hmove with
    | skip hcode => rw [hdone] at hcode; cases hcode
  | wake w next ts hi' hcode => cases hi.symm.trans hi'; rw [hdone] at hcode; cases hcode
  | access v next hi' hcode => cases hi.symm.trans hi'; rw [hdone] at hcode; cases hcode
  | fault e hi' hcode => cases hi.symm.trans hi'; rw [hdone] at hcode; cases hcode
  | unlock next hi' hcode => cases hi.symm.trans hi'; rw [hdone] at hcode; cases hcode
  | wait c next hi' hcode => cases hi.symm.trans hi'; rw [hdone] at hcode; cases hcode

/-- A thread that has returned stays so. -/
theorem Step.returned (hs : P.Step spurious i s s')
    (hj : P.threadState j (s.threads j) = .returned) :
    P.threadState j (s'.threads j) = .returned := by
  have hij : j ≠ i := by
    rintro rfl
    exact hs.ne_returned hj
  cases hs with
  | acquire | move | access | unlock | wait => simpa only [Function.update_of_ne hij] using hj
  | fault => exact hj
  | wake w next ts _ _ hw =>
    simp only [Function.update_of_ne hij]
    obtain ⟨ℓ, hready, hdone⟩ := threadState_eq_returned_iff.mp hj
    exact threadState_eq_returned_iff.mpr ⟨ℓ, hw.ready_iff.mpr hready, hdone⟩

end Returned

/-- The threads `thread j`, which are those that wait on `cond`. -/
structure Group (P : Program ι L C σ ε) (κ : Type*) where
  thread : κ → ι
  cond : C
  injective : Function.Injective thread
  cond_iff : ∀ {i : ι} {c : C} {ℓ next : L i}, P.code i ℓ = .wait c next →
    (c = cond ↔ ∃ j, thread j = i)

namespace Group

/-- Where the threads of the group are. -/
def view (G : P.Group κ) (ts : (i : ι) → Status C (L i)) (j : κ) : ThreadState :=
  P.threadState (G.thread j) (ts (G.thread j))

/-- The threads outside the group are as they were. -/
def Apart (G : P.Group κ) (ts ts' : (i : ι) → Status C (L i)) : Prop :=
  ∀ i, (∀ j, G.thread j ≠ i) → ts' i = ts i

variable {G : P.Group κ} {s : State ι L C σ ε} {ts : (i : ι) → Status C (L i)}

/-- A group without a thread of another is apart from it. -/
theorem Apart.view_eq {κ' : Type*} {ts' : (i : ι) → Status C (L i)} (h : G.Apart ts ts')
    (G' : P.Group κ') (hne : ∀ j j', G.thread j ≠ G'.thread j') : G'.view ts' = G'.view ts := by
  funext j'
  rw [view, h _ fun j => hne j j', view]

theorem blocked_iff (G : P.Group κ) (hc : Consistent P s) {i : ι} {c : C} {ℓ : L i}
    (h : s.threads i = .blocked c ℓ) : c = G.cond ↔ ∃ j, G.thread j = i := by
  obtain ⟨ℓ₀, hwait⟩ := hc.blocked i c ℓ h
  exact G.cond_iff hwait

variable [DecidableEq ι] [DecidableEq κ]

/-- A thread of the group moves, and the others do not. -/
theorem view_update (G : P.Group κ) (ts : (i : ι) → Status C (L i)) (j : κ)
    (x : Status C (L (G.thread j))) :
    G.view (Function.update ts (G.thread j) x)
      = Function.update (G.view ts) j (P.threadState (G.thread j) x) := by
  funext j'
  by_cases hj : j' = j
  · subst hj
    simp [view]
  · simp [view, Function.update_of_ne hj, Function.update_of_ne (G.injective.ne hj)]

omit [DecidableEq κ] in
/-- A thread outside the group moves. -/
theorem view_update_of_ne (G : P.Group κ) (ts : (i : ι) → Status C (L i)) {i : ι}
    (hi : ∀ j, G.thread j ≠ i) (x : Status C (L i)) :
    G.view (Function.update ts i x) = G.view ts := by
  funext j
  simp [view, Function.update_of_ne (hi j)]

variable [DecidableEq C]

/-- **A signal on the group's condition variable** wakes one of its waiting threads, if any. -/
theorem signal (hc : Consistent P s) (h : Wakes (.signal G.cond) s.threads ts) :
    Monitor.Signal (G.view s.threads) (G.view ts) ∧ G.Apart s.threads ts := by
  cases h with
  | signal k ℓ hk =>
    obtain ⟨j, rfl⟩ := (G.blocked_iff hc hk).mp rfl
    constructor
    · rw [view_update]
      exact .wake j (by rw [view, hk, threadState_blocked])
    · intro i hi
      exact Function.update_of_ne (hi j).symm ..
  | lost hnone =>
    refine ⟨.lost ?_, fun i _ => rfl⟩
    intro j hj
    obtain ⟨c, ℓ, hblocked⟩ := threadState_eq_waiting_iff.mp hj
    obtain rfl := (G.blocked_iff hc hblocked).mpr ⟨j, rfl⟩
    exact hnone _ _ hblocked

/-- Whichever waiting thread of the group a signal may wake, some signal on its condition variable
does. -/
theorem exists_wakes_of_signal (hc : Consistent P s) {cs : κ → ThreadState}
    (h : Monitor.Signal (G.view s.threads) cs) :
    ∃ ts, Wakes (.signal G.cond) s.threads ts ∧ G.view ts = cs := by
  cases h with
  | wake j hj =>
    obtain ⟨c, ℓ, hblocked⟩ := threadState_eq_waiting_iff.mp hj
    obtain rfl := (G.blocked_iff hc hblocked).mpr ⟨j, rfl⟩
    exact ⟨_, .signal _ ℓ hblocked, by rw [view_update, threadState_woken]⟩
  | lost hnone =>
    refine ⟨s.threads, .lost ?_, rfl⟩
    intro k ℓ hk
    obtain ⟨j, rfl⟩ := (G.blocked_iff hc hk).mp rfl
    exact hnone j (by rw [view, hk, threadState_blocked])

omit [DecidableEq κ] [DecidableEq ι] in
/-- **A broadcast on the group's condition variable** wakes its waiting threads. -/
theorem broadcast (hc : Consistent P s) :
    G.view (fun i => (s.threads i).wakeOn G.cond) = Monitor.broadcast (G.view s.threads) ∧
      G.Apart s.threads fun i => (s.threads i).wakeOn G.cond := by
  constructor
  · funext j
    refine threadState_wakeOn ?_
    intro c ℓ hj
    exact (G.blocked_iff hc hj).mpr ⟨j, rfl⟩
  · intro i hi
    refine Status.wakeOn_eq_self ?_
    intro c ℓ hblocked hcond
    obtain ⟨j, hj⟩ := (G.blocked_iff hc hblocked).mp hcond
    exact hi j hj

end Group

end Program

end CExamples.MonitorProgram

import CExamples.Common.MonitorProgram.Reduction

/-!
# Programs as systems of atomic sections

`Ends` is the big-step meaning of a section: what it does when nothing interrupts it. The atomic
system of a program takes a section at a time. It reaches the same states with the mutex free as the
statements do in any interleaving (`reachable_iff_atomic`), it is stuck where they are
(`stuck_iff_atomic`), and the number of its steps bounds the number of statements
(`length_le_of_atomic`).
-/

namespace CExamples.MonitorProgram

variable {ι : Type*} {L : ι → Type*} {C σ ε : Type*}

/-! ## The meaning of a section -/

/-- How a section ends. -/
inductive Exit (C ε Λ : Type*)
  | unlock (next : Λ)
  | wait (c : C) (next : Λ)
  | fault (e : ε) (point : Λ)

/-- `Ends code ℓ v ws v' x`: from the point `ℓ` and the memory `v` the section wakes others by `ws`,
in this order, leaves the memory `v'` and ends by `x`. -/
inductive Ends {Λ : Type*} (code : Λ → Statement C σ ε Λ) :
    Λ → σ → List (Wake C) → σ → Exit C ε Λ → Prop
  | unlock {ℓ next : Λ} {v : σ} : code ℓ = .unlock next → Ends code ℓ v [] v (.unlock next)
  | wait {ℓ next : Λ} {v : σ} {c : C} : code ℓ = .wait c next →
      Ends code ℓ v [] v (.wait c next)
  | wake {ℓ next : Λ} {v v' : σ} {w : Wake C} {ws : List (Wake C)} {x : Exit C ε Λ} :
      code ℓ = .wake w next → Ends code next v ws v' x → Ends code ℓ v (w :: ws) v' x
  | access {ℓ next : Λ} {v v₁ v' : σ} {run : σ → Except ε (σ × Λ)} {ws : List (Wake C)}
      {x : Exit C ε Λ} : code ℓ = .access run → run v = .ok (v₁, next) →
      Ends code next v₁ ws v' x → Ends code ℓ v ws v' x
  | fault {ℓ : Λ} {v : σ} {run : σ → Except ε (σ × Λ)} {e : ε} : code ℓ = .access run →
      run v = .error e → Ends code ℓ v [] v (.fault e ℓ)

/-- A section has one meaning. -/
theorem Ends.unique {Λ : Type*} {code : Λ → Statement C σ ε Λ} {ℓ : Λ} {v v₁ v₂ : σ}
    {ws₁ ws₂ : List (Wake C)} {x₁ x₂ : Exit C ε Λ} (h₁ : Ends code ℓ v ws₁ v₁ x₁)
    (h₂ : Ends code ℓ v ws₂ v₂ x₂) : ws₁ = ws₂ ∧ v₁ = v₂ ∧ x₁ = x₂ := by
  induction h₁ generalizing ws₂ v₂ x₂ with
  | unlock hcode | wait hcode => cases h₂ <;> simp_all
  | wake hcode _ ih =>
    cases h₂ with
    | unlock hcode' | wait hcode' | access hcode' | fault hcode' => simp [hcode] at hcode'
    | wake hcode' h₂ =>
      rw [hcode, Statement.wake.injEq] at hcode'
      obtain ⟨rfl, rfl⟩ := hcode'
      obtain ⟨rfl, rfl, rfl⟩ := ih h₂
      exact ⟨rfl, rfl, rfl⟩
  | access hcode hrun _ ih =>
    cases h₂ with
    | unlock hcode' | wait hcode' | wake hcode' => simp [hcode] at hcode'
    | access hcode' hrun' h₂ =>
      rw [hcode, Statement.access.injEq] at hcode'
      subst hcode'
      rw [hrun, Except.ok.injEq, Prod.mk.injEq] at hrun'
      obtain ⟨rfl, rfl⟩ := hrun'
      exact ih h₂
    | fault hcode' hrun' =>
      rw [hcode, Statement.access.injEq] at hcode'
      subst hcode'
      simp [hrun] at hrun'
  | fault hcode hrun =>
    cases h₂ with
    | unlock hcode' | wait hcode' | wake hcode' => simp [hcode] at hcode'
    | access hcode' hrun' =>
      rw [hcode, Statement.access.injEq] at hcode'
      subst hcode'
      simp [hrun] at hrun'
    | fault hcode' hrun' =>
      rw [hcode, Statement.access.injEq] at hcode'
      subst hcode'
      rw [hrun, Except.error.injEq] at hrun'
      subst hrun'
      exact ⟨rfl, rfl, rfl⟩

/-- Waking threads several times. -/
inductive WakesAll [DecidableEq ι] [DecidableEq C] :
    List (Wake C) → ((i : ι) → Status C (L i)) → ((i : ι) → Status C (L i)) → Prop
  | nil {ts : (i : ι) → Status C (L i)} : WakesAll [] ts ts
  | cons {w : Wake C} {ws : List (Wake C)} {ts ts₁ ts₂ : (i : ι) → Status C (L i)} :
      Wakes w ts ts₁ → WakesAll ws ts₁ ts₂ → WakesAll (w :: ws) ts ts₂

namespace WakesAll

variable [DecidableEq ι] [DecidableEq C] {ws : List (Wake C)} {ts ts₁ : (i : ι) → Status C (L i)}

theorem exists_wakesAll (ws : List (Wake C)) (ts : (i : ι) → Status C (L i)) :
    ∃ ts', WakesAll ws ts ts' := by
  induction ws generalizing ts with
  | nil => exact ⟨ts, .nil⟩
  | cons w ws ih =>
    obtain ⟨ts₁, h₁⟩ := Wakes.exists_wakes w ts
    obtain ⟨ts₂, h₂⟩ := ih ts₁
    exact ⟨ts₂, .cons h₁ h₂⟩

theorem append (h : WakesAll ws ts ts₁) {ws' : List (Wake C)} {ts₂ : (i : ι) → Status C (L i)}
    (h' : WakesAll ws' ts₁ ts₂) : WakesAll (ws ++ ws') ts ts₂ := by
  induction h with
  | nil => exact h'
  | cons h₁ _ ih => exact .cons h₁ (ih h')

/-- A thread that is not blocked is left as it was. -/
theorem eq_of_not_blocked (h : WakesAll ws ts ts₁) {i : ι} (hi : ∀ c ℓ, ts i ≠ .blocked c ℓ) :
    ts₁ i = ts i := by
  induction h with
  | nil => rfl
  | cons h₁ _ ih =>
    have heq := h₁.eq_of_not_blocked hi
    rw [ih (heq ▸ hi), heq]

theorem ready_iff (h : WakesAll ws ts ts₁) {i : ι} {ℓ : L i} :
    ts₁ i = .ready ℓ ↔ ts i = .ready ℓ := by
  induction h with
  | nil => rfl
  | cons h₁ _ ih => exact ih.trans h₁.ready_iff

end WakesAll

namespace Program

variable [DecidableEq ι] [DecidableEq C] {P : Program ι L C σ ε} {v : σ} {spurious : Bool}
  {s s' : State ι L C σ ε} {i j : ι}

omit [DecidableEq ι] [DecidableEq C] in
/-- **A section ends**, whatever the memory. -/
theorem exists_ends {ℓ : L i} (hin : P.inside i ℓ) (v : σ) :
    ∃ ws v' x, Ends (P.code i) ℓ v ws v' x := by
  -- The rank of the point decreases along the section.
  induction hn : P.rank i ℓ using Nat.strongRecOn generalizing ℓ v with
  | ind n ih =>
    have hd := P.disciplined i ℓ
    cases hcode : P.code i ℓ with
    | lock | skip => rw [hcode] at hd; exact absurd hin hd.1
    | done => rw [hcode] at hd; exact absurd hin hd
    | unlock next => exact ⟨_, _, _, .unlock hcode⟩
    | wait c next => exact ⟨_, _, _, .wait hcode⟩
    | wake w next =>
      rw [hcode] at hd
      obtain ⟨ws, v', x, h⟩ := ih _ (hn ▸ hd.2.2) hd.2.1 v rfl
      exact ⟨_, _, _, .wake hcode h⟩
    | access run =>
      rw [hcode] at hd
      cases hrun : run v with
      | error e => exact ⟨_, _, _, .fault hcode hrun⟩
      | ok r =>
        obtain ⟨v₁, next⟩ := r
        obtain ⟨hnext, hrank⟩ := hd.2 _ _ _ hrun
        obtain ⟨ws, v', x, h⟩ := ih _ (hn ▸ hrank) hnext v₁ rfl
        exact ⟨_, _, _, .access hcode hrun h⟩

/-! ## The atomic system -/

/-- The state in which a section of thread `i` ends that has left the memory `v` and the other
threads as in `ts`. -/
def leave (i : ι) (ts : (j : ι) → Status C (L j)) (v : σ) :
    Exit C ε (L i) → State ι L C σ ε
  | .unlock next => ⟨v, none, Function.update ts i (.ready next), none⟩
  | .wait c next => ⟨v, none, Function.update ts i (.blocked c next), none⟩
  | .fault e ℓ => ⟨v, some i, Function.update ts i (.ready ℓ), some e⟩

omit [DecidableEq C] in
/-- Of the threads, a section's end moves its own only. -/
theorem exists_threads_leave (i : ι) (ts : (j : ι) → Status C (L j)) (v : σ)
    (x : Exit C ε (L i)) : ∃ y, (leave i ts v x).threads = Function.update ts i y := by
  cases x <;> exact ⟨_, rfl⟩

/-- Thread `i` runs a whole section, or moves alone. -/
inductive AtomicStep (P : Program ι L C σ ε) (spurious : Bool) (i : ι) :
    State ι L C σ ε → State ι L C σ ε → Prop
  | run {s : State ι L C σ ε} {ℓ : L i} {ws : List (Wake C)} {v : σ} {x : Exit C ε (L i)}
      {ts : (j : ι) → Status C (L j)} : P.Acquires i (s.threads i) ℓ →
      Ends (P.code i) ℓ s.shared ws v x → WakesAll ws s.threads ts →
      AtomicStep P spurious i s (leave i ts v x)
  | move {s : State ι L C σ ε} (x : Status C (L i)) : P.Moves spurious i (s.threads i) x →
      AtomicStep P spurious i s { s with threads := Function.update s.threads i x }

/-- The program, a section at a time. -/
def atomic (P : Program ι L C σ ε) (v : σ) (spurious : Bool) :
    TransitionSystem (State ι L C σ ε) where
  init s := s = P.initial v
  step s s' := s.halted = none ∧ ∃ i, P.AtomicStep spurious i s s'

/-- Between sections the mutex is free. -/
theorem holder_eq_none_of_atomic (h : (P.atomic v spurious).Reachable s) :
    s.halted = none → s.holder = none := by
  apply h.invariant (I := fun s => s.halted = none → s.holder = none)
  · rintro s rfl _
    rfl
  · rintro s s' _ ih ⟨hlive, i, hs⟩ hlive'
    cases hs with
    | @run _ _ _ x => cases x with
      | unlock | wait => rfl
      | fault => cases hlive'
    | move => exact ih hlive

/-! ## A section is a run of its statements -/

/-- From any point of a section, its statements run to where it ends. -/
theorem run_ends {ℓ : L i} {w w' : σ} {ws : List (Wake C)} {x : Exit C ε (L i)}
    (h : Ends (P.code i) ℓ w ws w' x) {ts ts' : (j : ι) → Status C (L j)}
    (hts : WakesAll ws ts ts') (hi : ∀ c ℓ, ts i ≠ .blocked c ℓ) :
    Relation.ReflTransGen (P.system v spurious).step
      ⟨w, some i, Function.update ts i (.ready ℓ), none⟩ (leave i ts' w' x) := by
  have hat : ∀ (ts : (j : ι) → Status C (L j)) (ℓ : L i),
      Function.update ts i (.ready ℓ) i = .ready ℓ := by
    intro ts ℓ
    exact Function.update_self ..
  induction h generalizing ts with
  | @unlock ℓ next v hcode =>
    cases hts
    have hs : P.Step spurious i ⟨v, some i, Function.update ts' i (.ready ℓ), none⟩ _ :=
      .unlock next (hat ts' ℓ) hcode rfl
    simp only [Function.update_idem] at hs
    exact .single ⟨rfl, i, hs⟩
  | @wait ℓ next v c hcode =>
    cases hts
    have hs : P.Step spurious i ⟨v, some i, Function.update ts' i (.ready ℓ), none⟩ _ :=
      .wait c next (hat ts' ℓ) hcode rfl
    simp only [Function.update_idem] at hs
    exact .single ⟨rfl, i, hs⟩
  | @wake ℓ next v _ w _ _ hcode _ ih =>
    cases hts with
    | cons hw hts =>
      have hsame := hw.eq_of_not_blocked hi
      have hs : P.Step spurious i ⟨v, some i, Function.update ts i (.ready ℓ), none⟩ _ :=
        .wake w next _ (hat ts ℓ) hcode (hw.update hsame (by simp))
      simp only [Function.update_idem] at hs
      exact .head ⟨rfl, i, hs⟩ (ih hts (hsame ▸ hi))
  | @access ℓ next v v₁ _ _ _ _ hcode hrun _ ih =>
    have hs : P.Step spurious i ⟨v, some i, Function.update ts i (.ready ℓ), none⟩ _ :=
      .access v₁ next (hat ts ℓ) hcode hrun
    simp only [Function.update_idem] at hs
    exact .head ⟨rfl, i, hs⟩ (ih hts hi)
  | @fault ℓ v _ e hcode hrun =>
    cases hts
    exact .single ⟨rfl, i, .fault e (hat ts' ℓ) hcode hrun⟩

omit [DecidableEq ι] [DecidableEq C] in
/-- A thread that needs the mutex is not blocked. -/
theorem Acquires.ne_blocked {t : Status C (L i)} {ℓ : L i} (h : P.Acquires i t ℓ) (c : C)
    (ℓ' : L i) : t ≠ .blocked c ℓ' := by
  rcases h with rfl | ⟨ℓ₀, rfl, -⟩ <;> simp

/-- A step of the atomic system is a run of statements. -/
theorem run_atomicStep (hlive : s.halted = none) (hfree : s.holder = none)
    (hs : P.AtomicStep spurious i s s') :
    Relation.ReflTransGen (P.system v spurious).step s s' := by
  cases hs with
  | run hacq hends hts =>
    refine .head ⟨hlive, i, .acquire _ hacq hfree⟩ ?_
    rw [hlive]
    exact run_ends hends hts hacq.ne_blocked
  | move x hmove => exact .single ⟨hlive, i, .move x hmove⟩

/-- Whatever the sections reach, the statements reach. -/
theorem reachable_of_atomic (h : (P.atomic v spurious).Reachable s) :
    (P.system v spurious).Reachable s := by
  induction h with
  | init h₀ => exact .init h₀
  | step hr hs ih =>
    obtain ⟨hlive, i, hs⟩ := hs
    exact ih.trans (run_atomicStep hlive (holder_eq_none_of_atomic hr hlive) hs)

/-! ## Statements without preemption are sections, the last one perhaps unfinished -/

/-- After `n` statements thread `i` is inside a section that it entered after `m` sections: it is at
a point from which the section ends as it does from its start. -/
structure InSection (P : Program ι L C σ ε) (v : σ) (spurious : Bool) (n : ℕ) (i : ι)
    (s : State ι L C σ ε) : Prop where
  entered : ∃ (m : ℕ) (t : State ι L C σ ε) (ℓ₀ ℓ : L i) (ws : List (Wake C))
    (ts : (j : ι) → Status C (L j)), (P.atomic v spurious).ReachableIn m t ∧ t.halted = none ∧
      P.Acquires i (t.threads i) ℓ₀ ∧ WakesAll ws t.threads ts ∧
      s.threads = Function.update ts i (.ready ℓ) ∧
      (∀ ws' v' x, Ends (P.code i) ℓ s.shared ws' v' x →
        Ends (P.code i) ℓ₀ t.shared (ws ++ ws') v' x) ∧
      n + P.rank i ℓ ≤ (P.length + 2) * m + 1 + P.rank i ℓ₀
  holder : s.holder = some i
  live : s.halted = none

/-- A state after `n` statements is one between sections, of which each took at most `length + 2`
statements, or it is inside a section. -/
def Sectioned (P : Program ι L C σ ε) (v : σ) (spurious : Bool) (n : ℕ) (s : State ι L C σ ε) :
    Prop :=
  (∃ m, (P.atomic v spurious).ReachableIn m s ∧ n ≤ (P.length + 2) * m) ∨
    ∃ i, InSection P v spurious n i s

omit [DecidableEq ι] [DecidableEq C] in
theorem not_inside_of_skip {ℓ next : L i} (h : P.code i ℓ = .skip next) : ¬ P.inside i ℓ := by
  have hd := P.disciplined i ℓ
  rw [h] at hd
  exact hd.1

/-- A statement while the mutex is free enters a section, or is a move outside. -/
theorem Sectioned.step_free {n m : ℕ} (hc : Consistent P s)
    (hr : (P.atomic v spurious).ReachableIn m s) (hle : n ≤ (P.length + 2) * m)
    (hlive : s.halted = none) (hfree : s.holder = none) (hs : P.Step spurious i s s') :
    Sectioned P v spurious (n + 1) s' := by
  have houtside : ∀ {ℓ : L i}, s.threads i = .ready ℓ → (P.code i ℓ).Exclusive → False := by
    intro ℓ hi hexclusive
    have := hc.holder_eq hi (inside_of_exclusive hexclusive)
    simp [hfree] at this
  cases hs with
  | acquire ℓ hacq _ =>
    refine .inr ⟨i, ⟨m, s, ℓ, ℓ, [], s.threads, hr, hlive, hacq, .nil, rfl, ?_, by omega⟩, rfl,
      hlive⟩
    intro ws' v' x hends
    exact hends
  | move x hmove =>
    refine .inl ⟨m + 1, .step hr ⟨hlive, i, .move x hmove⟩, ?_⟩
    rw [Nat.mul_succ]
    omega
  | wake w next ts hi hcode => exact (houtside hi (by rw [hcode]; trivial)).elim
  | access v next hi hcode => exact (houtside hi (by rw [hcode]; trivial)).elim
  | fault e hi hcode => exact (houtside hi (by rw [hcode]; trivial)).elim
  | unlock next hi hcode => exact (houtside hi (by rw [hcode]; trivial)).elim
  | wait c next hi hcode => exact (houtside hi (by rw [hcode]; trivial)).elim

/-- A statement of the thread that is inside goes on with its section or ends it. -/
theorem InSection.step {n : ℕ} (h : InSection P v spurious n i s) (hc : Consistent P s)
    (hs : P.Step spurious i s s') : Sectioned P v spurious (n + 1) s' := by
  obtain ⟨⟨m, t, ℓ₀, ℓ, ws, ts, hr, hlive, hacq, hts, hthreads, hrest, hle⟩, hholder, hlive'⟩ := h
  have hat : s.threads i = .ready ℓ := by
    rw [hthreads, Function.update_self]
  have hts_i : ts i = t.threads i := hts.eq_of_not_blocked hacq.ne_blocked
  have hin := hc.inside_of_holder hholder hat
  have hd := P.disciplined i ℓ
  -- what the section has done so far and its last statement are one step of the atomic system
  have hend : ∀ {x : Exit C ε (L i)}, Ends (P.code i) ℓ s.shared [] s.shared x →
      Sectioned P v spurious (n + 1) (leave i ts s.shared x) := by
    intro x hends
    have hatomic := hrest _ _ _ hends
    rw [List.append_nil] at hatomic
    refine .inl ⟨m + 1, .step hr ⟨hlive, i, .run hacq hatomic hts⟩, ?_⟩
    have := P.rank_le i ℓ₀
    rw [Nat.mul_succ]
    omega
  cases hs with
  | acquire ℓ' hacq' hfree => simp [hholder] at hfree
  | move x hmove =>
    rw [hat] at hmove
    cases hmove with
    | skip hcode => exact absurd hin (not_inside_of_skip hcode)
  | @wake ℓ' w next ts' hi hcode hw =>
    cases hat.symm.trans hi
    rw [hcode] at hd
    -- the threads as they would be, had the section been taken at once
    have hback : Wakes w ts (Function.update ts' i (ts i)) := by
      have hsame := hw.eq_of_not_blocked (i := i) (by simp [hi])
      have := hw.update hsame (x := ts i) (hts_i ▸ hacq.ne_blocked)
      rwa [hthreads, Function.update_idem, Function.update_eq_self] at this
    refine .inr ⟨i, ⟨m, t, ℓ₀, next, ws ++ [w], _, hr, hlive, hacq, hts.append (.cons hback .nil),
      ?_, ?_, ?_⟩, hholder, hlive'⟩
    · simp
    · intro ws' v' x hends
      rw [List.append_assoc, List.singleton_append]
      exact hrest _ _ _ (.wake hcode hends)
    · have := hd.2.2
      omega
  | @access ℓ' run v' next hi hcode hrun =>
    cases hat.symm.trans hi
    rw [hcode] at hd
    refine .inr ⟨i, ⟨m, t, ℓ₀, next, ws, ts, hr, hlive, hacq, hts, ?_, ?_, ?_⟩, hholder, hlive'⟩
    · simp [hthreads]
    · intro ws' v'' x hends
      exact hrest _ _ _ (.access hcode hrun hends)
    · have := (hd.2 _ _ _ hrun).2
      omega
  | @fault ℓ' run e hi hcode hrun =>
    cases hat.symm.trans hi
    have hleave := hend (.fault hcode hrun)
    rwa [leave, ← hthreads, ← hholder] at hleave
  | @unlock ℓ' next hi hcode _ =>
    cases hat.symm.trans hi
    have hleave := hend (.unlock hcode)
    rw [leave] at hleave
    rwa [hthreads, Function.update_idem, hlive']
  | @wait ℓ' c next hi hcode _ =>
    cases hat.symm.trans hi
    have hleave := hend (.wait hcode)
    rw [leave] at hleave
    rwa [hthreads, Function.update_idem, hlive']

/-- **Every state that the statements reach is one between sections or inside one.** -/
theorem sectioned_of_reachableIn {n : ℕ} (h : (P.system v spurious).ReachableIn n s) :
    Sectioned P v spurious n s := by
  rw [reachableIn_iff_serial] at h
  induction h with
  | init h₀ => exact .inl ⟨0, .init h₀, Nat.le_refl 0⟩
  | @step n s s' hr hs ih =>
    obtain ⟨hlive, k, hk, hs⟩ := hs
    have hc : Consistent P s := consistent_of_reachable (reachable_iff_serial.mpr hr.reachable)
    rcases ih with ⟨m, hm, hle⟩ | ⟨i, hsec⟩
    · exact Sectioned.step_free hc hm hle hlive (holder_eq_none_of_atomic hm.reachable hlive) hs
    · have hki : k = i := by simpa [hsec.holder, eq_comm] using hk
      subst hki
      exact hsec.step hc hs

/-! ## The two systems -/

/-- **Atomicity**: with the mutex free, or once the process has ended, the states that the threads
reach statement by statement are those that they reach section by section. -/
theorem reachable_iff_atomic :
    (P.system v spurious).Reachable s ∧ (s.holder = none ∨ s.halted ≠ none) ↔
      (P.atomic v spurious).Reachable s := by
  constructor
  · rintro ⟨h, hfree⟩
    obtain ⟨n, hn⟩ := h.exists_reachableIn
    rcases sectioned_of_reachableIn hn with ⟨m, hm, -⟩ | ⟨i, hsec⟩
    · exact hm.reachable
    · simp [hsec.holder, hsec.live] at hfree
  · intro h
    refine ⟨reachable_of_atomic h, ?_⟩
    by_cases hlive : s.halted = none
    · exact .inl (holder_eq_none_of_atomic h hlive)
    · exact .inr hlive

/-- A section that is under way can be run to its end. -/
theorem exists_run_to_atomic (h : (P.system v spurious).Reachable s) :
    ∃ s', Relation.ReflTransGen (P.system v spurious).step s s' ∧
      (P.atomic v spurious).Reachable s' := by
  obtain ⟨n, hn⟩ := h.exists_reachableIn
  rcases sectioned_of_reachableIn hn with ⟨m, hm, -⟩ | ⟨i, hsec⟩
  · exact ⟨s, .refl, hm.reachable⟩
  · obtain ⟨⟨m, t, ℓ₀, ℓ, ws, ts, hr, hlive, hacq, hts, hthreads, hrest, -⟩, hholder, hlive'⟩ :=
      hsec
    have hat : s.threads i = .ready ℓ := by
      rw [hthreads, Function.update_self]
    have hc := consistent_of_reachable h
    obtain ⟨ws', v', x, hends⟩ := exists_ends (hc.inside_of_holder hholder hat) s.shared
    obtain ⟨ts', hts'⟩ := WakesAll.exists_wakesAll ws' ts
    have hts_i : ts i = t.threads i := hts.eq_of_not_blocked hacq.ne_blocked
    refine ⟨leave i ts' v' x, ?_, ?_⟩
    · have hrun : Relation.ReflTransGen (P.system v spurious).step _ _ :=
        run_ends hends hts' (hts_i ▸ hacq.ne_blocked)
      rwa [← hthreads, ← hholder, ← hlive'] at hrun
    · exact .step hr.reachable ⟨hlive, i, .run hacq (hrest _ _ _ hends) (hts.append hts')⟩

/-- A bound on the number of sections bounds the number of statements. -/
theorem length_le_of_atomic {B n : ℕ}
    (hB : ∀ m s, (P.atomic v spurious).ReachableIn m s → m ≤ B)
    (h : (P.system v spurious).ReachableIn n s) : n ≤ (P.length + 2) * (B + 1) := by
  rcases sectioned_of_reachableIn h with ⟨m, hm, hle⟩ | ⟨i, hsec⟩
  · have hmB := Nat.mul_le_mul_left (P.length + 2) (hB m s hm)
    rw [Nat.mul_succ]
    omega
  · obtain ⟨⟨m, t, ℓ₀, ℓ, ws, ts, hr, -, -, -, -, -, hle⟩, -, -⟩ := hsec
    have hmB := Nat.mul_le_mul_left (P.length + 2) (hB m t hr)
    have := P.rank_le i ℓ₀
    rw [Nat.mul_succ]
    omega

/-- A thread that is inside can run its statement. -/
theorem exists_step_of_inside (hc : Consistent P s) {ℓ : L i} (hi : s.threads i = .ready ℓ)
    (hin : P.inside i ℓ) : ∃ s', P.Step spurious i s s' := by
  have hd := P.disciplined i ℓ
  have hholder := hc.holder_eq hi hin
  cases hcode : P.code i ℓ with
  | lock | skip => rw [hcode] at hd; exact absurd hin hd.1
  | done => rw [hcode] at hd; exact absurd hin hd
  | unlock next => exact ⟨_, .unlock next hi hcode hholder⟩
  | wait c next => exact ⟨_, .wait c next hi hcode hholder⟩
  | wake w next =>
    obtain ⟨ts, hw⟩ := Wakes.exists_wakes w s.threads
    exact ⟨_, .wake w next ts hi hcode hw⟩
  | access run =>
    cases hrun : run s.shared with
    | error e => exact ⟨_, .fault e hi hcode hrun⟩
    | ok r => exact ⟨_, .access r.1 r.2 hi hcode hrun⟩

/-- **Stuck states**: no statement can be run exactly if no thread is inside a section and no
section can be run. -/
theorem stuck_iff_atomic (h : (P.system v spurious).Reachable s) :
    (P.system v false).Stuck s ↔
      (s.holder = none ∨ s.halted ≠ none) ∧ (P.atomic v false).Stuck s := by
  have hc := consistent_of_reachable h
  constructor
  · intro hstuck
    have hfree : s.holder = none ∨ s.halted ≠ none := by
      by_contra hinside
      simp only [not_or, not_not] at hinside
      obtain ⟨hholder, hlive⟩ := hinside
      obtain ⟨i, hi⟩ := Option.ne_none_iff_exists'.mp hholder
      obtain ⟨ℓ, hat, hin⟩ := (hc.holder_iff i).mp hi
      obtain ⟨s', hs⟩ := exists_step_of_inside hc hat hin
      exact hstuck s' ⟨hlive, i, hs⟩
    refine ⟨hfree, ?_⟩
    rintro s' ⟨hlive, i, hs⟩
    have hholder : s.holder = none := hfree.resolve_right (not_not.mpr hlive)
    cases hs with
    | run hacq => exact hstuck _ ⟨hlive, i, .acquire _ hacq hholder⟩
    | move x hmove => exact hstuck _ ⟨hlive, i, .move x hmove⟩
  · rintro ⟨hfree, hstuck⟩ s' ⟨hlive, i, hs⟩
    have hholder : s.holder = none := hfree.resolve_right (not_not.mpr hlive)
    have houtside : ∀ {ℓ : L i}, s.threads i = .ready ℓ → (P.code i ℓ).Exclusive → False := by
      intro ℓ hi hexclusive
      have := hc.holder_eq hi (inside_of_exclusive hexclusive)
      simp [hholder] at this
    cases hs with
    | acquire ℓ hacq _ =>
      obtain ⟨ws, v', x, hends⟩ := exists_ends (hc.inside_of_acquires hacq) s.shared
      obtain ⟨ts, hts⟩ := WakesAll.exists_wakesAll ws s.threads
      exact hstuck _ ⟨hlive, i, .run hacq hends hts⟩
    | move x hmove => exact hstuck _ ⟨hlive, i, .move x hmove⟩
    | wake w next ts hi hcode => exact houtside hi (by rw [hcode]; trivial)
    | access v next hi hcode => exact houtside hi (by rw [hcode]; trivial)
    | fault e hi hcode => exact houtside hi (by rw [hcode]; trivial)
    | unlock next hi hcode => exact houtside hi (by rw [hcode]; trivial)
    | wait c next hi hcode => exact houtside hi (by rw [hcode]; trivial)

end Program

end CExamples.MonitorProgram

import CExamples.ProducerConsumer.Interleavings

/-!
# The whole process of `simulate` (`producer_consumer/src/simulation.c`)

The thread that calls `simulate` allocates what the threads share, creates them, joins them, reads
the results and frees everything, while the threads it has created run. Its statements are a list,
computed from the source's loops. The heap is the set of live blocks; a use of a block that is not
live, a second `free`, a read of `args_ptrs[0]` where there is none, and destroying a mutex that is
held are faults.
-/

namespace CExamples.ProducerConsumer

open C MonitorProgram Program

/-- The blocks that `simulate` allocates, directly, in `init_thread_args` and in `create_buffer`. -/
inductive Block (cfg : Arguments)
  | mutex
  | notFull
  | notEmpty
  | buffer
  | slots
  | argsPtrs
  | args (k : Thread cfg)
  | producerThreads
  | consumerThreads
deriving DecidableEq

/-- A statement of the thread that calls `simulate`. -/
inductive MainStatement (cfg : Arguments)
  | malloc (b : Block cfg)
  | create (k : Thread cfg)
  | join (k : Thread cfg)
  | readResults
  | mutexDestroy
  | free (b : Block cfg)

/-- `SimulationResults`, without the elapsed time. -/
structure SimulationResults where
  totalPuts : ℤ
  finalBufferCount : ℤ
deriving DecidableEq, Repr

/-- The process: the statements that the main thread has still to run, the live blocks, the threads
created so far, where they are, the results read, and whether something undefined was done. -/
structure Process (cfg : Arguments) where
  main : List (MainStatement cfg)
  live : Block cfg → Bool
  started : Thread cfg → Bool
  threads : ThreadsState cfg
  results : Option SimulationResults
  fault : Bool

variable {cfg : Arguments}

/-! ## The main thread's statements -/

section Main

variable (cfg : Arguments)

/-- The threads in the order of `args_ptrs`. -/
def argsOrder : List (Thread cfg) :=
  (List.finRange cfg.numProducers).map Sum.inl ++ (List.finRange cfg.numConsumers).map Sum.inr

def initThreadArgs : List (MainStatement cfg) :=
  [.malloc .mutex, .malloc .notFull, .malloc .notEmpty, .malloc .buffer, .malloc .slots,
    .malloc .argsPtrs] ++ (argsOrder cfg).map fun k => .malloc (.args k)

def destroyThreadArgs : List (MainStatement cfg) :=
  [.free .slots, .free .buffer, .mutexDestroy, .free .mutex, .free .notFull, .free .notEmpty] ++
    ((argsOrder cfg).map fun k => .free (.args k)) ++ [.free .argsPtrs]

def simulate : List (MainStatement cfg) :=
  initThreadArgs cfg ++ [.malloc .producerThreads, .malloc .consumerThreads] ++
    (argsOrder cfg).map .create ++ (argsOrder cfg).map .join ++
    [.readResults, .free .producerThreads, .free .consumerThreads] ++ destroyThreadArgs cfg

end Main

/-- The block whose pointers `create` writes and `join` reads. -/
def handleBlock : Thread cfg → Block cfg
  | .inl _ => .producerThreads
  | .inr _ => .consumerThreads

/-- The blocks read through `args_ptrs[0]`, which is not there without threads. -/
def viaFirstArgs (bs : List (Block cfg)) : Option (List (Block cfg)) :=
  (argsOrder cfg).head?.map fun k => .argsPtrs :: .args k :: bs

/-- The blocks that a statement of the main thread reads or writes, beside the one it frees. -/
def MainStatement.uses : MainStatement cfg → Option (List (Block cfg))
  | .malloc .slots => some [.buffer]
  | .malloc (.args _) => some [.argsPtrs]
  | .malloc _ => some []
  | .create k => some [.argsPtrs, handleBlock k]
  | .join k => some [handleBlock k]
  | .readResults => viaFirstArgs [.buffer]
  | .mutexDestroy => viaFirstArgs [.mutex]
  | .free .slots => viaFirstArgs [.buffer]
  | .free .buffer => viaFirstArgs []
  | .free .mutex => viaFirstArgs []
  | .free .notFull => viaFirstArgs []
  | .free .notEmpty => viaFirstArgs []
  | .free (.args _) => some [.argsPtrs]
  | .free .argsPtrs => some []
  | .free .producerThreads => some []
  | .free .consumerThreads => some []

/-- The blocks that the statements of `producer` and `consumer` read or write. -/
def threadUses (k : Thread cfg) : List (Block cfg) :=
  [.args k, .buffer, .slots, .mutex, .notFull, .notEmpty]

namespace Process

/-- The statement uses live blocks only, frees a live one, and destroys a free mutex. -/
def Valid (p : Process cfg) (st : MainStatement cfg) : Prop :=
  (∃ bs, st.uses = some bs ∧ ∀ b ∈ bs, p.live b = true) ∧
    match st with
    | .free b => p.live b = true
    | .mutexDestroy => p.threads.holder = none
    | _ => True

/-- A `join` waits for its thread to return. -/
def Enabled (p : Process cfg) : MainStatement cfg → Prop
  | .join k => (program cfg).threadState k (p.threads.threads k) = .returned
  | _ => True

/-- What a statement of the main thread does. -/
def runMain (p : Process cfg) : MainStatement cfg → Process cfg
  | .malloc b => { p with live := Function.update p.live b true }
  | .create k => { p with started := Function.update p.started k true }
  | .join _ => p
  | .readResults => { p with
      results := some ⟨p.threads.shared.buffer.totalPuts, p.threads.shared.buffer.count⟩ }
  | .mutexDestroy => p
  | .free b => { p with live := Function.update p.live b false }

@[simp] theorem runMain_threads (p : Process cfg) (st : MainStatement cfg) :
    (p.runMain st).threads = p.threads := by
  cases st <;> rfl

@[simp] theorem runMain_fault (p : Process cfg) (st : MainStatement cfg) :
    (p.runMain st).fault = p.fault := by
  cases st <;> rfl

/-- The main thread or one of the created threads runs one statement. -/
inductive Step (spurious : Bool) : Process cfg → Process cfg → Prop
  | main {p : Process cfg} {st : MainStatement cfg} {rest : List (MainStatement cfg)} :
      p.main = st :: rest → p.Enabled st → p.Valid st →
      Step spurious p { p.runMain st with main := rest }
  | mainFault {p : Process cfg} {st : MainStatement cfg} {rest : List (MainStatement cfg)} :
      p.main = st :: rest → ¬ p.Valid st → Step spurious p { p with fault := true }
  | thread {p : Process cfg} (k : Thread cfg) (t : ThreadsState cfg) : p.started k = true →
      (program cfg).Step spurious k p.threads t → (∀ b ∈ threadUses k, p.live b = true) →
      Step spurious p { p with threads := t }
  | threadFault {p : Process cfg} (k : Thread cfg) (t : ThreadsState cfg) : p.started k = true →
      (program cfg).Step spurious k p.threads t → ¬ (∀ b ∈ threadUses k, p.live b = true) →
      Step spurious p { p with fault := true }

/-- The process when `simulate` is called. -/
def initial (cfg : Arguments) : Process cfg where
  main := simulate cfg
  live _ := false
  started _ := false
  threads := (program cfg).initial ⟨createBuffer cfg.bufferSize, []⟩
  results := none
  fault := false

/-- The process as a transition system, with or without spurious wakeups. -/
def system (cfg : Arguments) (spurious : Bool) : TransitionSystem (Process cfg) where
  init p := p = initial cfg
  step p p' := (p.fault = false ∧ p.threads.halted = none) ∧ Step spurious p p'

end Process

/-! ## The order of the main thread's statements -/

/-- The phases of `simulate`, in order. -/
def MainStatement.phase : MainStatement cfg → ℕ
  | .malloc .slots => 1
  | .malloc .argsPtrs => 1
  | .malloc (.args _) => 2
  | .malloc .producerThreads => 3
  | .malloc .consumerThreads => 3
  | .malloc _ => 0
  | .create _ => 4
  | .join _ => 5
  | .readResults => 6
  | .free .producerThreads => 7
  | .free .consumerThreads => 7
  | .free .slots => 8
  | .free .buffer => 9
  | .mutexDestroy => 10
  | .free .mutex => 11
  | .free .notFull => 11
  | .free .notEmpty => 11
  | .free (.args _) => 12
  | .free .argsPtrs => 13

/-- What is read through `args_ptrs[0]`. -/
theorem mem_of_viaFirstArgs {bs bs' : List (Block cfg)} {b : Block cfg}
    (h : viaFirstArgs bs = some bs') (hb : b ∈ bs') :
    b = .argsPtrs ∨ (∃ k, b = .args k) ∨ b ∈ bs := by
  obtain ⟨k, -, rfl⟩ := Option.map_eq_some_iff.mp h
  simp only [List.mem_cons] at hb
  rcases hb with rfl | rfl | hb
  · exact .inl rfl
  · exact .inr (.inl ⟨k, rfl⟩)
  · exact .inr (.inr hb)

/-- What a statement uses is allocated in an earlier phase and freed in a later one. -/
theorem MainStatement.phase_of_mem_uses {st : MainStatement cfg} {bs : List (Block cfg)}
    {b : Block cfg} (h : st.uses = some bs) (hb : b ∈ bs) :
    (MainStatement.malloc b).phase < st.phase ∧ st.phase < (MainStatement.free b).phase := by
  have hown : ∀ {bs'}, some bs' = some bs →
      (∀ b' ∈ bs', (MainStatement.malloc b').phase < st.phase ∧
        st.phase < (MainStatement.free b').phase) →
        (MainStatement.malloc b).phase < st.phase ∧ st.phase < (MainStatement.free b).phase := by
    intro bs' hbs hall
    cases hbs
    exact hall b hb
  have hfirst : ∀ {bs'}, viaFirstArgs bs' = some bs → 2 < st.phase → st.phase < 12 →
      (∀ b' ∈ bs', (MainStatement.malloc b').phase < st.phase ∧
        st.phase < (MainStatement.free b').phase) →
        (MainStatement.malloc b).phase < st.phase ∧ st.phase < (MainStatement.free b).phase := by
    intro bs' hbs hlow hhigh hall
    rcases mem_of_viaFirstArgs hbs hb with rfl | ⟨k, rfl⟩ | hb
    · exact ⟨(by omega : 1 < st.phase), (by omega : st.phase < 13)⟩
    · exact ⟨hlow, hhigh⟩
    · exact hall b hb
  cases st with
  | malloc b' => cases b' <;> exact hown h (by simp [phase])
  | create k | join k => cases k <;> exact hown h (by simp [phase, handleBlock])
  | readResults | mutexDestroy =>
    exact hfirst h (by simp [phase]) (by simp [phase]) (by simp [phase])
  | free b' =>
    cases b' with
    | args | argsPtrs | producerThreads | consumerThreads => exact hown h (by simp [phase])
    | slots | buffer | mutex | notFull | notEmpty =>
      exact hfirst h (by simp [phase]) (by simp [phase]) (by simp [phase])

theorem mem_argsOrder (k : Thread cfg) : k ∈ argsOrder cfg := by
  cases k <;> simp [argsOrder]

/-- A statement's pointers are there if there is a thread, or if none has been joined yet. -/
theorem MainStatement.exists_uses {st : MainStatement cfg}
    (h : Nonempty (Thread cfg) ∨ st.phase ≤ 5) : ∃ bs, st.uses = some bs := by
  have hfirst : 5 < st.phase → ∀ bs : List (Block cfg), ∃ bs', viaFirstArgs bs = some bs' := by
    intro hphase bs
    obtain ⟨k⟩ := h.resolve_right (by omega)
    cases horder : argsOrder cfg with
    | nil => simpa [horder] using mem_argsOrder k
    | cons k₀ ks => exact ⟨_, by rw [viaFirstArgs, horder]; rfl⟩
  cases st with
  | malloc b => cases b <;> exact ⟨_, rfl⟩
  | create k | join k => exact ⟨_, rfl⟩
  | readResults | mutexDestroy => exact hfirst (by simp [phase]) _
  | free b =>
    cases b with
    | args | argsPtrs | producerThreads | consumerThreads => exact ⟨_, rfl⟩
    | slots | buffer | mutex | notFull | notEmpty => exact hfirst (by simp [phase]) _

theorem nodup_argsOrder (cfg : Arguments) : (argsOrder cfg).Nodup := by
  simp [argsOrder, List.nodup_append, (List.nodup_finRange _).map Sum.inl_injective,
    (List.nodup_finRange _).map Sum.inr_injective]

/-- Statements of the phases from `lo` to `hi`, in the order of the phases and each once. -/
structure Segment (lo hi : ℕ) (l : List (MainStatement cfg)) : Prop where
  sorted : l.Pairwise fun st st' => st.phase ≤ st'.phase ∧ st ≠ st'
  phase : ∀ st ∈ l, lo ≤ st.phase ∧ st.phase ≤ hi

namespace Segment

theorem append {lo mid hi : ℕ} {l l' : List (MainStatement cfg)} (h : Segment lo mid l)
    (h' : Segment (mid + 1) hi l') (hlo : lo ≤ mid) (hhi : mid ≤ hi) :
    Segment lo hi (l ++ l') where
  sorted := by
    refine List.pairwise_append.mpr ⟨h.sorted, h'.sorted, ?_⟩
    intro st hst st' hst'
    have h₁ := (h.phase st hst).2
    have h₂ := (h'.phase st' hst').1
    refine ⟨by omega, ?_⟩
    rintro rfl
    omega
  phase := by
    intro st hst
    rcases List.mem_append.mp hst with hst | hst
    · have := h.phase st hst
      omega
    · have := h'.phase st hst
      omega

/-- One statement for each thread. -/
theorem map {n : ℕ} {f : Thread cfg → MainStatement cfg} (hf : Function.Injective f)
    (hphase : ∀ k, (f k).phase = n) : Segment n n ((argsOrder cfg).map f) where
  sorted := by
    refine List.pairwise_map.mpr ((nodup_argsOrder cfg).imp ?_)
    intro k k' hk
    exact ⟨by rw [hphase, hphase], hf.ne hk⟩
  phase := by
    intro st hst
    obtain ⟨k, -, rfl⟩ := List.mem_map.mp hst
    rw [hphase]
    exact ⟨le_rfl, le_rfl⟩

end Segment

theorem segment_initThreadArgs (cfg : Arguments) : Segment 0 2 (initThreadArgs cfg) := by
  have hshared : Segment 0 1 ([.malloc .mutex, .malloc .notFull, .malloc .notEmpty,
      .malloc .buffer, .malloc .slots, .malloc .argsPtrs] : List (MainStatement cfg)) := by
    constructor <;> simp [MainStatement.phase]
  refine hshared.append (.map ?_ fun _ => rfl) (by decide) (by decide)
  intro k k' h
  cases h
  rfl

theorem segment_destroyThreadArgs (cfg : Arguments) : Segment 8 13 (destroyThreadArgs cfg) := by
  have hshared : Segment 8 11 ([.free .slots, .free .buffer, .mutexDestroy, .free .mutex,
      .free .notFull, .free .notEmpty] : List (MainStatement cfg)) := by
    constructor <;> simp [MainStatement.phase]
  have hargs : Segment 12 12 ((argsOrder cfg).map fun k => MainStatement.free (.args k)) := by
    refine .map ?_ fun _ => rfl
    intro k k' h
    cases h
    rfl
  have hlast : Segment 13 13 ([.free .argsPtrs] : List (MainStatement cfg)) := by
    constructor <;> simp [MainStatement.phase]
  exact (hshared.append hargs (by decide) (by decide)).append hlast (by decide) (by decide)

/-- **`simulate` runs its phases in order**, and no statement twice. -/
theorem segment_simulate (cfg : Arguments) : Segment 0 13 (simulate cfg) := by
  have hhandles : Segment 3 3 ([.malloc .producerThreads, .malloc .consumerThreads] :
      List (MainStatement cfg)) := by
    constructor <;> simp [MainStatement.phase]
  have hcreate : Segment 4 4 ((argsOrder cfg).map MainStatement.create) :=
    .map (fun k k' h => by cases h; rfl) fun _ => rfl
  have hjoin : Segment 5 5 ((argsOrder cfg).map MainStatement.join) :=
    .map (fun k k' h => by cases h; rfl) fun _ => rfl
  have hread : Segment 6 7 ([.readResults, .free .producerThreads, .free .consumerThreads] :
      List (MainStatement cfg)) := by
    constructor <;> simp [MainStatement.phase]
  have hinit := (segment_initThreadArgs cfg).append hhandles (by decide) (by decide)
  have hcreated := hinit.append hcreate (by decide) (by decide)
  have hjoined := hcreated.append hjoin (by decide) (by decide)
  have hfreed := hjoined.append hread (by decide) (by decide)
  exact hfreed.append (segment_destroyThreadArgs cfg) (by decide) (by decide)

/-- `simulate` runs every statement there is. -/
theorem mem_simulate (st : MainStatement cfg) : st ∈ simulate cfg := by
  simp only [simulate, initThreadArgs, destroyThreadArgs, List.mem_append, List.mem_map]
  cases st with
  | malloc b => cases b <;> simp [mem_argsOrder]
  | free b => cases b <;> simp [mem_argsOrder]
  | create k | join k => simp [mem_argsOrder]
  | readResults | mutexDestroy => simp

section Executed

variable {pre rest : List (MainStatement cfg)} {st st' : MainStatement cfg}

/-- Before a statement that has been run, the earlier phases have been run. -/
theorem mem_of_phase_lt (hsplit : pre ++ rest = simulate cfg) (hst : st ∈ pre)
    (hlt : st'.phase < st.phase) : st' ∈ pre := by
  have hsorted := (segment_simulate cfg).sorted
  rw [← hsplit, List.pairwise_append] at hsorted
  have hmem := mem_simulate st'
  rw [← hsplit, List.mem_append] at hmem
  refine hmem.resolve_right ?_
  intro hrest
  have := (hsorted.2.2 st hst st' hrest).1
  omega

/-- When a statement is next, the earlier phases have been run. -/
theorem mem_of_phase_lt_next (hsplit : pre ++ st :: rest = simulate cfg)
    (hlt : st'.phase < st.phase) : st' ∈ pre := by
  rw [← List.singleton_append, ← List.append_assoc] at hsplit
  have hmem := mem_of_phase_lt hsplit (by simp) hlt
  rcases List.mem_append.mp hmem with hmem | hmem
  · exact hmem
  · rw [List.mem_singleton.mp hmem] at hlt
    omega

/-- When a statement is next, it has not been run, and neither have the later phases. -/
theorem notMem_of_phase_le_next (hsplit : pre ++ st :: rest = simulate cfg)
    (hle : st.phase < st'.phase ∨ st' = st) : st' ∉ pre := by
  intro hst'
  have hsorted := (segment_simulate cfg).sorted
  rw [← hsplit, List.pairwise_append] at hsorted
  have hlast := hsorted.2.2 st' hst' st (by simp)
  rcases hle with hlt | rfl
  · omega
  · exact hlast.2 rfl

end Executed

/-! ## The invariant of the process -/

/-- What holds of the process when the main thread has run `pre`: a block is live from its `malloc`
to its `free`, a thread runs from its `create` on and has returned after its `join`, the threads are
in a state that they reach by themselves, the results are what the buffer says. -/
structure Process.Inv (spurious : Bool) (p : Process cfg) (pre : List (MainStatement cfg)) :
    Prop where
  split : pre ++ p.main = simulate cfg
  live_iff : ∀ b, p.live b = true ↔ .malloc b ∈ pre ∧ .free b ∉ pre
  started_iff : ∀ k, p.started k = true ↔ .create k ∈ pre
  joined : ∀ k, .join k ∈ pre →
    (program cfg).threadState k (p.threads.threads k) = .returned
  reachable : (statements cfg spurious).Reachable p.threads
  results : .readResults ∈ pre → p.results =
    some ⟨p.threads.shared.buffer.totalPuts, p.threads.shared.buffer.count⟩
  fault : p.fault = false

namespace Process.Inv

variable {spurious : Bool} {p p' : Process cfg} {pre rest : List (MainStatement cfg)}
  {st : MainStatement cfg} {k : Thread cfg} {b : Block cfg}

theorem initial (cfg : Arguments) (spurious : Bool) : Inv spurious (Process.initial cfg) [] where
  split := rfl
  live_iff b := by simp [Process.initial]
  started_iff k := by simp [Process.initial]
  joined k h := by cases h
  reachable := .init rfl
  results h := by cases h
  fault := rfl

/-- A block that is allocated in an earlier phase and freed in a later one, or next, is live. -/
theorem live_next (h : Inv spurious p pre) (hmain : p.main = st :: rest)
    (hmalloc : (MainStatement.malloc b).phase < st.phase)
    (hfree : st.phase < (MainStatement.free b).phase ∨ MainStatement.free b = st) :
    p.live b = true := by
  have hsplit := hmain ▸ h.split
  exact (h.live_iff b).mpr
    ⟨mem_of_phase_lt_next hsplit hmalloc, notMem_of_phase_le_next hsplit hfree⟩

/-- Once a thread has been joined, all of them have returned. -/
theorem returned_of_phase_lt (h : Inv spurious p pre) (hmain : p.main = st :: rest)
    (hphase : 5 < st.phase) (k : Thread cfg) :
    (program cfg).threadState k (p.threads.threads k) = .returned :=
  h.joined k (mem_of_phase_lt_next (hmain ▸ h.split) hphase)

/-- **Every statement of the main thread is valid when it is next**, if there is a thread or none
has been joined yet. -/
theorem valid_next (h : Inv spurious p pre) (hmain : p.main = st :: rest)
    (hne : Nonempty (Thread cfg) ∨ st.phase ≤ 5) : p.Valid st := by
  constructor
  · obtain ⟨bs, huses⟩ := MainStatement.exists_uses hne
    refine ⟨bs, huses, ?_⟩
    intro b hb
    obtain ⟨hmalloc, hfree⟩ := MainStatement.phase_of_mem_uses huses hb
    exact h.live_next hmain hmalloc (.inl hfree)
  · cases st with
    | free b =>
      refine h.live_next hmain ?_ (.inr rfl)
      cases b <;> simp [MainStatement.phase]
    | mutexDestroy =>
      have hphase : 5 < (MainStatement.mutexDestroy : MainStatement cfg).phase := by
        simp [MainStatement.phase]
      exact holder_eq_none_of_returned h.reachable (h.returned_of_phase_lt hmain hphase)
    | malloc | create | join | readResults => trivial

/-- A created thread that can still run uses live blocks only. -/
theorem live_of_step {spurious' : Bool} (h : Inv spurious p pre) (hstarted : p.started k = true)
    {t : ThreadsState cfg} (hs : (program cfg).Step spurious' k p.threads t) :
    ∀ b ∈ threadUses k, p.live b = true := by
  have hcreate := (h.started_iff k).mp hstarted
  -- it has not been joined, so nothing of the later phases has been run
  have hjoin : .join k ∉ pre := fun hjoin => hs.ne_returned (h.joined k hjoin)
  intro b hb
  refine (h.live_iff b).mpr ⟨mem_of_phase_lt h.split hcreate ?_, fun hfree => hjoin ?_⟩
  · simp only [threadUses, List.mem_cons, List.not_mem_nil, or_false] at hb
    rcases hb with rfl | rfl | rfl | rfl | rfl | rfl <;> simp [MainStatement.phase]
  · refine mem_of_phase_lt h.split hfree ?_
    simp only [threadUses, List.mem_cons, List.not_mem_nil, or_false] at hb
    rcases hb with rfl | rfl | rfl | rfl | rfl | rfl <;> simp [MainStatement.phase]

/-- A block is live after a statement of the main thread if it has been allocated and not freed. -/
theorem live_runMain (h : Inv spurious p pre) (hmain : p.main = st :: rest) (b : Block cfg) :
    (p.runMain st).live b = true ↔ .malloc b ∈ pre ++ [st] ∧ .free b ∉ pre ++ [st] := by
  have hsplit : pre ++ st :: rest = simulate cfg := hmain ▸ h.split
  cases st with
  | malloc b' =>
    by_cases hb : b = b'
    · subst hb
      have hfree : .free b ∉ pre := by
        refine notMem_of_phase_le_next hsplit (.inl ?_)
        cases b <;> simp [MainStatement.phase]
      simpa [runMain] using hfree
    · simpa [runMain, Function.update_of_ne hb, hb] using h.live_iff b
  | free b' =>
    by_cases hb : b = b'
    · subst hb
      simp [runMain]
    · simpa [runMain, Function.update_of_ne hb, hb] using h.live_iff b
  | create | join | readResults | mutexDestroy => simpa [runMain] using h.live_iff b

/-- A thread runs after a statement of the main thread if it has been created. -/
theorem started_runMain (h : Inv spurious p pre) (st : MainStatement cfg) (k : Thread cfg) :
    (p.runMain st).started k = true ↔ .create k ∈ pre ++ [st] := by
  cases st with
  | create k' =>
    by_cases hk : k = k'
    · subst hk
      simp [runMain]
    · simpa [runMain, Function.update_of_ne hk, hk] using h.started_iff k
  | malloc | join | readResults | mutexDestroy | free => simpa [runMain] using h.started_iff k

/-- The invariant after a statement of the main thread. -/
theorem step_main (h : Inv spurious p pre) (hmain : p.main = st :: rest) (hen : p.Enabled st) :
    Inv spurious { p.runMain st with main := rest } (pre ++ [st]) where
  split := by
    rw [← h.split, hmain, List.append_assoc, List.singleton_append]
  live_iff := h.live_runMain hmain
  started_iff := h.started_runMain st
  joined k hk := by
    simp only [runMain_threads]
    rcases List.mem_append.mp hk with hk | hk
    · exact h.joined k hk
    · cases List.mem_singleton.mp hk
      exact hen
  reachable := by
    simp only [runMain_threads]
    exact h.reachable
  results hread := by
    cases st with
    | readResults => rfl
    | malloc | create | join | mutexDestroy | free => exact h.results (by simpa using hread)
  fault := by
    simp only [runMain_fault]
    exact h.fault

/-- The invariant after a statement of a created thread. -/
theorem step_thread (h : Inv spurious p pre) (hlive : p.threads.halted = none)
    {t : ThreadsState cfg} (hs : (program cfg).Step spurious k p.threads t) :
    Inv spurious { p with threads := t } pre := by
  refine ⟨h.split, h.live_iff, h.started_iff, ?_, .step h.reachable ⟨hlive, k, hs⟩, ?_, h.fault⟩
  · intro k' hk'
    exact hs.returned (h.joined k' hk')
  · -- once the results are read, no thread is left that could run
    intro hread
    have hjoin : .join k ∈ pre := mem_of_phase_lt h.split hread (by simp [MainStatement.phase])
    exact absurd (h.joined k hjoin) hs.ne_returned

/-- **The invariant is kept**, if there is a thread. -/
theorem step (hne : Nonempty (Thread cfg)) (h : Inv spurious p pre)
    (hlive : p.threads.halted = none) (hs : Process.Step spurious p p') :
    ∃ pre', Inv spurious p' pre' := by
  cases hs with
  | main hmain hen hvalid => exact ⟨_, h.step_main hmain hen⟩
  | mainFault hmain hvalid => exact absurd (h.valid_next hmain (.inl hne)) hvalid
  | thread k t hstarted hs hvalid => exact ⟨pre, h.step_thread hlive hs⟩
  | threadFault k t hstarted hs hvalid => exact absurd (h.live_of_step hstarted hs) hvalid

theorem of_reachable (hne : Nonempty (Thread cfg))
    (h : (Process.system cfg spurious).Reachable p) : ∃ pre, Inv spurious p pre := by
  apply h.invariant (I := fun p => ∃ pre, Inv spurious p pre)
  · rintro p rfl
    exact ⟨[], initial cfg spurious⟩
  · rintro p p' - ⟨pre, h⟩ ⟨⟨-, hlive⟩, hs⟩
    exact h.step hne hlive hs

end Process.Inv

end CExamples.ProducerConsumer

import CExamples.ProducerConsumer.Delivery

/-!
# The arithmetic of the simulation

`get` and `put` index the slots and count without any check of their own for the limits of `int`.
Each computation is listed as an `Operation` and is safe exactly where the model of `buffer.c` is
defined (`put_isSome_iff`, `get_isSome_iff`). The threads call `get` and `put` with the mutex held,
so what they have tested still holds, and every operation in every reachable state is safe
(`operations_safe`).
-/

namespace CExamples.ProducerConsumer

open C

/-- An operation that C leaves undefined for some operands. -/
inductive Operation
  | access (index : ℤ)
  | increment (value : ℤ)
  | decrement (value : ℤ)
  | remainder (dividend divisor : ℤ)
deriving DecidableEq, Repr

/-- The index is that of one of `size` slots, the divisor is not zero, and the results are values
of `int`. -/
def Operation.Safe (size : ℤ) : Operation → Prop
  | access index => 0 ≤ index ∧ index < size
  | increment value => InRange 32 (value + 1)
  | decrement value => InRange 32 (value - 1)
  | remainder dividend divisor => divisor ≠ 0 ∧ InRange 32 (dividend.tdiv divisor)

/-! ## The operations of the source -/

namespace Buffer

/-- What `get` evaluates. -/
def getOperations (b : Buffer) : List Operation :=
  if b.count = 0 then []
  else [
    .access b.getIndex,
    .increment b.getIndex,
    .remainder (b.getIndex + 1) b.size,
    .decrement b.count]

/-- What `put` evaluates. -/
def putOperations (b : Buffer) : List Operation :=
  if b.count = b.size then []
  else [
    .access b.putIndex,
    .increment b.putIndex,
    .remainder (b.putIndex + 1) b.size,
    .increment b.count,
    .increment b.totalPuts]

end Buffer

/-- What one mutex-held section of `producer` evaluates. -/
def producerOperations (maxRequests : ℤ) (b : Buffer) : List Operation :=
  if b.count = b.size then []
  else if b.totalPuts ≥ maxRequests then []
  else b.putOperations

/-- What one mutex-held section of `consumer` evaluates. -/
def consumerOperations (maxRequests : ℤ) (b : Buffer) : List Operation :=
  if b.count = 0 ∧ b.totalPuts < maxRequests then []
  else if b.count = 0 ∧ b.totalPuts ≥ maxRequests then []
  else b.getOperations

/-! ## The model is defined where they are safe -/

section Sections

variable (b : Buffer)

theorem Buffer.put_isSome_iff (value : HttpRequest) :
    (b.put value).isSome ↔ ∀ op ∈ b.putOperations, op.Safe b.buffer.length := by
  rw [put, putOperations]
  split
  · exact iff_of_true rfl (List.forall_mem_nil _)
  · simp only [Option.isSome_iff_exists, Option.bind_eq_bind, Option.bind_eq_some_iff,
      store_eq_some_iff, add_eq_some_iff, mod_eq_some_iff, exists_and_left, exists_eq_left',
      Option.pure_def, Option.some.injEq, exists_eq', and_assoc, List.forall_mem_cons,
      List.not_mem_nil, false_implies, implies_true, Operation.Safe]

/-- `get` also depends on the slot that it reads, which must have been written. -/
theorem Buffer.get_isSome_iff :
    b.get.isSome ↔ (∀ op ∈ b.getOperations, op.Safe b.buffer.length) ∧
      (b.count ≠ 0 → (load b.buffer b.getIndex).isSome) := by
  rw [get, getOperations]
  split
  · rename_i hempty
    exact iff_of_true rfl ⟨List.forall_mem_nil _, absurd hempty⟩
  rename_i hitems
  simp only [Option.isSome_iff_exists, Option.bind_eq_bind, Option.bind_eq_some_iff,
    sub_eq_some_iff, add_eq_some_iff, mod_eq_some_iff, exists_and_left, exists_eq_left',
    Option.pure_def, Option.some.injEq, and_assoc, List.forall_mem_cons, Operation.Safe]
  constructor
  · rintro ⟨-, value, hload, hincrement, hsize, hquotient, hdecrement, -⟩
    obtain ⟨hnonneg, hlt⟩ := index_of_load hload
    exact ⟨hnonneg, hlt, hincrement, hsize, hquotient, hdecrement, List.forall_mem_nil _,
      fun _ => ⟨value, hload⟩⟩
  · rintro ⟨-, -, hincrement, hsize, hquotient, hdecrement, -, hwritten⟩
    obtain ⟨value, hload⟩ := hwritten hitems
    exact ⟨_, value, hload, hincrement, hsize, hquotient, hdecrement, rfl⟩

theorem producerOperations_safe {maxRequests : ℤ} (h : (producerSection maxRequests b).isSome) :
    ∀ op ∈ producerOperations maxRequests b, op.Safe b.buffer.length := by
  rw [producerSection] at h
  rw [producerOperations]
  split
  · exact List.forall_mem_nil _
  split
  · exact List.forall_mem_nil _
  · rename_i hspace hlim
    rw [if_neg hspace, if_neg hlim] at h
    exact (b.put_isSome_iff _).mp (Option.isSome_of_isSome_bind h)

theorem consumerOperations_safe {maxRequests : ℤ} (h : (consumerSection maxRequests b).isSome) :
    ∀ op ∈ consumerOperations maxRequests b, op.Safe b.buffer.length := by
  rw [consumerSection] at h
  rw [consumerOperations]
  split
  · exact List.forall_mem_nil _
  split
  · exact List.forall_mem_nil _
  · rename_i hwait hfinish
    rw [if_neg hwait, if_neg hfinish] at h
    exact (b.get_isSome_iff.mp (Option.isSome_of_isSome_bind h)).1

end Sections

/-! ## Every section of a reachable state -/

namespace Refines

variable {cfg : Arguments} {s : State cfg}
  {a : BoundedBuffer.State (Fin cfg.numProducers) (Fin cfg.numConsumers)}

theorem producerSection_isSome (h : Refines s a) :
    (producerSection cfg.maxRequests s.buffer).isSome := by
  by_cases hfull : a.puts = a.gets + cfg.slots
  · rw [h.producerSection_wait hfull, Option.isSome_some]
  rcases Nat.lt_or_ge a.puts cfg.limit with hlt | hge
  · rw [h.producerSection_put hfull hlt, Option.isSome_some]
  · rw [h.producerSection_finish hfull hge, Option.isSome_some]

theorem consumerSection_isSome (h : Refines s a) :
    (consumerSection cfg.maxRequests s.buffer).isSome := by
  rcases h.bounds.gets_le_puts.lt_or_eq with hitems | hempty
  · rw [h.consumerSection_get hitems, Option.isSome_some]
  rcases Nat.lt_or_ge a.puts cfg.limit with hlt | hge
  · rw [h.consumerSection_wait hempty.symm hlt, Option.isSome_some]
  · rw [h.consumerSection_finish hempty.symm hge, Option.isSome_some]

end Refines

/-- **Arithmetic in range.** In every reachable state, with or without spurious wakeups, the
fields of the buffer are values of `int`, the array has as many slots as its size says, and every
operation of the section that any producer or consumer is about to run is safe. No run ends in
undefined behaviour. -/
theorem operations_safe {cfg : Arguments} {spurious : Bool} {s : State cfg}
    (h : (simulation cfg spurious).Reachable s) :
    s.halted ≠ some .undefined ∧
      s.buffer.size = cfg.bufferSize ∧ (s.buffer.buffer.length : ℤ) = s.buffer.size ∧
      (InRange 32 s.buffer.getIndex ∧ InRange 32 s.buffer.putIndex ∧ InRange 32 s.buffer.count ∧
        InRange 32 s.buffer.totalPuts) ∧
      (∀ op ∈ producerOperations cfg.maxRequests s.buffer, op.Safe s.buffer.size) ∧
      ∀ op ∈ consumerOperations cfg.maxRequests s.buffer, op.Safe s.buffer.size := by
  obtain ⟨a, -, hR⟩ := (bisimulation cfg spurious).exists_abstract h
  have hslots := hR.holds.slots
  have hproducer := producerOperations_safe s.buffer hR.producerSection_isSome
  have hconsumer := consumerOperations_safe s.buffer hR.consumerSection_isSome
  rw [hslots] at hproducer hconsumer
  have hrunning : s.halted ≠ some .undefined := by
    rw [hR.running]
    exact (Option.some_ne_none _).symm
  refine ⟨hrunning, hR.size, hslots, ?_, hproducer, hconsumer⟩
  have hsize := hR.holds.size_le
  have hget := hR.holds.get_nonneg
  have hget' := hR.holds.get_lt
  have hput := hR.holds.put_nonneg
  have hput' := hR.holds.put_lt
  have hcount := hR.holds.count_eq
  have hcount' := hR.holds.count_le
  have htotal := hR.totalPuts
  have hputs := hR.bounds.puts_le_limit
  have hlimit : cfg.limit = cfg.maxRequests.toNat := rfl
  have hmax := cfg.maxRequests_le
  simp only [inRange_int_iff]
  rw [intMax] at hsize hmax ⊢
  omega

/-- The first put into a buffer of one slot. -/
theorem operations_safe_oneOfEach :
    producerOperations 1 (createBuffer 1) =
        [.access 0, .increment 0, .remainder 1 1, .increment 0, .increment 0] ∧
      Operation.Safe 1 (.remainder 1 1) := by
  have hinitial : (simulation oneOfEach false).Reachable (initialState oneOfEach) := .init rfl
  have hsafe := (operations_safe hinitial).2.2.2.2.1
  exact ⟨by decide, hsafe (.remainder 1 1) (by decide)⟩

end CExamples.ProducerConsumer

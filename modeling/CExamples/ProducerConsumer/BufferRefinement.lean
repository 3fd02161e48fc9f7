import CExamples.Common.BoundedQueue
import CExamples.Common.RingBuffer
import CExamples.ProducerConsumer.Buffer

/-!
# The request buffer is a bounded queue

`Buffer.Holds b q` is the representation invariant: the indices and the count are in range, and the
`count` slots from `getIndex` on hold the requests `q`, oldest first. `get` and `put` keep it, and
by induction every sequence of them behaves like the queue of capacity `size`.
-/

namespace CExamples.ProducerConsumer

open C RingBuffer

namespace Buffer

/-- The slots `buffer[(get_index + i) mod size]` for `i < count`. -/
def contents (b : Buffer) : List (Option HttpRequest) :=
  window b.buffer b.getIndex.toNat b.count.toNat

/-- `b` represents the queue `q`. -/
structure Holds (b : Buffer) (q : List HttpRequest) : Prop where
  size_pos : 1 ≤ b.size
  size_le : b.size ≤ intMax
  slots : (b.buffer.length : ℤ) = b.size
  get_nonneg : 0 ≤ b.getIndex
  get_lt : b.getIndex < b.size
  put_eq : b.putIndex = (b.getIndex + b.count) % b.size
  count_eq : b.count = q.length
  count_le : b.count ≤ b.size
  contents_eq : b.contents = q.map some

variable {b : Buffer} {q : List HttpRequest}

/-- A new buffer represents the empty queue. -/
theorem holds_createBuffer {size : ℤ} (hpos : 1 ≤ size) (hle : size ≤ intMax) :
    (createBuffer size).Holds [] where
  size_pos := hpos
  size_le := hle
  slots := by simp [createBuffer]; omega
  get_nonneg := le_rfl
  get_lt := by simp only [createBuffer]; omega
  put_eq := by simp [createBuffer]
  count_eq := rfl
  count_le := by simp only [createBuffer]; omega
  contents_eq := rfl

/-- On a full buffer `put` returns `false` and changes nothing. -/
theorem put_of_full (h : b.count = b.size) (value : HttpRequest) : b.put value = some (false, b) :=
  if_pos h

/-- On an empty buffer `get` returns the sentinel and changes nothing. -/
theorem get_of_empty (h : b.count = 0) : b.get = some (.sentinel, b) :=
  if_pos h

/-- The buffer after `value` is written to the slot at `putIndex`. -/
def afterPut (b : Buffer) (value : HttpRequest) : Buffer :=
  { b with
    buffer := b.buffer.set b.putIndex.toNat (some value)
    putIndex := (b.putIndex + 1) % b.size
    count := b.count + 1
    totalPuts := b.totalPuts + 1 }

/-- The buffer after the slot at `getIndex` is read. -/
def afterGet (b : Buffer) : Buffer :=
  { b with
    getIndex := (b.getIndex + 1) % b.size
    count := b.count - 1 }

theorem Holds.length_pos (h : b.Holds q) : 0 < b.buffer.length := by
  have := h.size_pos
  have := h.slots
  omega

/-- Any index reduced modulo the size is that of a slot. -/
theorem Holds.emod_bounds (h : b.Holds q) (i : ℤ) : 0 ≤ i % b.size ∧ i % b.size < b.size := by
  have hpos : 0 < b.size := h.size_pos
  exact ⟨Int.emod_nonneg i hpos.ne', Int.emod_lt_of_pos i hpos⟩

theorem Holds.put_nonneg (h : b.Holds q) : 0 ≤ b.putIndex := by
  rw [h.put_eq]
  exact (h.emod_bounds _).1

theorem Holds.put_lt (h : b.Holds q) : b.putIndex < b.size := by
  rw [h.put_eq]
  exact (h.emod_bounds _).2

theorem Holds.toNat_emod (h : b.Holds q) {i : ℤ} (hi : 0 ≤ i) :
    (i % b.size).toNat = i.toNat % b.buffer.length := by
  have hlen : b.size.toNat = b.buffer.length := by
    have := h.slots
    omega
  have hpos : 0 ≤ b.size := Int.le_of_lt h.size_pos
  rw [Int.toNat_emod hi hpos, hlen]

/-- The slot a put writes is the one after the last slot in use. -/
theorem Holds.toNat_putIndex (h : b.Holds q) :
    b.putIndex.toNat = (b.getIndex.toNat + q.length) % b.buffer.length := by
  have hget := h.get_nonneg
  have hcount := h.count_eq
  rw [h.put_eq, h.toNat_emod (by omega), hcount, Int.toNat_add hget (by omega)]
  rfl

theorem Holds.contents_window (h : b.Holds q) :
    window b.buffer b.getIndex.toNat q.length = q.map some := by
  have hcount : b.count.toNat = q.length := by
    have := h.count_eq
    omega
  rw [← hcount]
  exact h.contents_eq

/-- Adding one to an `int` below `INT_MAX`. -/
theorem add_one {i : ℤ} (hi : 0 ≤ i) (hlt : i < intMax) : add 32 i 1 = some (i + 1) :=
  checked_of_inRange (inRange_int_iff.mpr ⟨by omega, by omega⟩)

/-- Stepping a slot index modulo the size. -/
theorem mod_add_one {i size : ℤ} (hi : 0 ≤ i) (hlt : i < size) (hsize : size ≤ intMax) :
    mod 32 (i + 1) size = some ((i + 1) % size) :=
  mod_int (by omega) (by omega) (by omega)

/-- **`put` with a free slot** stays in range and writes the slot after the last one. -/
theorem Holds.put_of_lt (h : b.Holds q) (hspace : b.count < b.size) (hputs : 0 ≤ b.totalPuts)
    (hputs' : b.totalPuts < intMax) (value : HttpRequest) :
    b.put value = some (true, b.afterPut value) := by
  have hle := h.size_le
  have hlt := h.put_lt
  have hcount : 0 ≤ b.count := by
    have := h.count_eq
    omega
  have hstore := store_eq_some b.buffer h.put_nonneg (by rw [h.slots]; exact hlt) value
  have hindex := add_one h.put_nonneg (by omega)
  have hmod := mod_add_one h.put_nonneg hlt hle
  have hadd := add_one hcount (by omega)
  simp [Buffer.put, hspace.ne, hstore, hindex, hmod, hadd, add_one hputs hputs', afterPut]

/-- A put appends to the represented queue. -/
theorem Holds.afterPut (h : b.Holds q) (hspace : b.count < b.size) (value : HttpRequest) :
    (b.afterPut value).Holds (q ++ [value]) where
  size_pos := h.size_pos
  size_le := h.size_le
  slots := by simpa [Buffer.afterPut] using h.slots
  get_nonneg := h.get_nonneg
  get_lt := h.get_lt
  put_eq := by
    simp only [Buffer.afterPut]
    rw [h.put_eq, Int.emod_add_emod, Int.add_assoc]
  count_eq := by simp [Buffer.afterPut, h.count_eq]
  count_le := hspace
  contents_eq := by
    have hcount := h.count_eq
    have hlen : q.length < b.buffer.length := by
      have := h.slots
      omega
    have hsucc : (b.count + 1).toNat = q.length + 1 := by omega
    simp only [contents, Buffer.afterPut, hsucc, h.toNat_putIndex]
    rw [window_push hlen, h.contents_window, List.map_append, List.map_singleton]

/-- **`get` of a nonempty buffer** stays in range and returns the oldest request. -/
theorem Holds.get_of_cons {v : HttpRequest} (h : b.Holds (v :: q)) :
    b.get = some (v, b.afterGet) := by
  have hslots := h.slots
  have hlt := h.get_lt
  have hcount : b.count = q.length + 1 := by simpa using h.count_eq
  have hcount' := h.count_le
  have hle := h.size_le
  have hcell := (window_pop h.length_pos h.contents_window).1
  rw [Nat.mod_eq_of_lt (by omega)] at hcell
  have hload := load_eq_some h.get_nonneg hcell
  have hindex := add_one h.get_nonneg (by omega)
  have hmod := mod_add_one h.get_nonneg hlt hle
  have hsub : sub 32 b.count 1 = some (b.count - 1) :=
    checked_of_inRange (inRange_int_iff.mpr ⟨by omega, by omega⟩)
  have hne : b.count ≠ 0 := by omega
  simp [Buffer.get, hne, hload, hindex, hmod, hsub, Buffer.afterGet]

/-- A get removes the oldest request. -/
theorem Holds.afterGet {v : HttpRequest} (h : b.Holds (v :: q)) : b.afterGet.Holds q where
  size_pos := h.size_pos
  size_le := h.size_le
  slots := h.slots
  get_nonneg := (h.emod_bounds _).1
  get_lt := (h.emod_bounds _).2
  put_eq := by
    simp only [Buffer.afterGet]
    rw [h.put_eq, Int.emod_add_emod]
    congr 1
    omega
  count_eq := by simp [Buffer.afterGet, h.count_eq]
  count_le := by
    have := h.count_le
    simp only [Buffer.afterGet]
    omega
  contents_eq := by
    have hget := h.get_nonneg
    have hcount : (b.count - 1).toNat = q.length := by
      have := h.count_eq
      simp only [List.length_cons] at this
      omega
    have hstart : ((b.getIndex + 1) % b.size).toNat
        = (b.getIndex.toNat + 1) % b.buffer.length := by
      rw [h.toNat_emod (by omega), Int.toNat_add hget (by omega)]
      rfl
    simp only [contents, Buffer.afterGet, hcount, hstart]
    exact (window_pop h.length_pos h.contents_window).2

/-! ## Sequences of operations -/

/-- A call of `put` or of `get`. -/
inductive Op
  | put (value : HttpRequest)
  | get

/-- What such a call returns. -/
inductive OpResult
  | put (success : Bool)
  | get (value : HttpRequest)
deriving DecidableEq

/-- One call on a buffer. -/
def call (b : Buffer) : Op → Option (OpResult × Buffer)
  | .put value => (b.put value).map fun r => (.put r.1, r.2)
  | .get => b.get.map fun r => (.get r.1, r.2)

/-- A sequence of calls, with their results in order. -/
def calls (b : Buffer) : List Op → Option (List OpResult × Buffer)
  | [] => some ([], b)
  | op :: ops => do
    let (result, b₁) ← b.call op
    let (results, b₂) ← b₁.calls ops
    return (result :: results, b₂)

/-- The same call on a bounded queue; `get` of an empty queue returns the sentinel. -/
def queueCall {cap : ℕ} (q : BoundedQueue HttpRequest cap) :
    Op → OpResult × BoundedQueue HttpRequest cap
  | .put value => (.put (q.put value).1, (q.put value).2)
  | .get => (.get (q.get.1.getD .sentinel), q.get.2)

/-- The same sequence of calls on a bounded queue. -/
def queueCalls {cap : ℕ} (q : BoundedQueue HttpRequest cap) :
    List Op → List OpResult × BoundedQueue HttpRequest cap
  | [] => ([], q)
  | op :: ops =>
    ((queueCall q op).1 :: (queueCalls (queueCall q op).2 ops).1,
      (queueCalls (queueCall q op).2 ops).2)

/-- How many of the calls were puts that succeeded. -/
def successfulPuts (results : List OpResult) : ℕ :=
  results.count (.put true)

/-- **One call** on a buffer that represents a queue does what the call on the queue does. -/
theorem Holds.call {cap : ℕ} {q : BoundedQueue HttpRequest cap} (h : b.Holds q.items)
    (hcap : b.size = cap) (hputs : 0 ≤ b.totalPuts) (op : Op)
    (hmax : b.totalPuts + successfulPuts [(queueCall q op).1] ≤ intMax) :
    ∃ b', b.call op = some ((queueCall q op).1, b') ∧ b'.Holds (queueCall q op).2.items ∧
      b'.size = b.size ∧ b'.totalPuts = b.totalPuts + successfulPuts [(queueCall q op).1] := by
  have hcount := h.count_eq
  cases op with
  | put value =>
    by_cases hspace : q.items.length < cap
    · have hput : q.put value
          = (true, ⟨q.items ++ [value], by rw [List.length_append]; exact hspace⟩) := dif_pos hspace
      simp only [queueCall, hput, successfulPuts, List.count_singleton_self] at hmax ⊢
      refine ⟨b.afterPut value, ?_, h.afterPut (by omega) value, rfl, rfl⟩
      rw [Buffer.call, h.put_of_lt (by omega) hputs (by omega)]
      rfl
    · have hput : q.put value = (false, q) := dif_neg hspace
      have hfull : b.count = b.size := by
        have := h.count_le
        omega
      simp only [queueCall, hput]
      refine ⟨b, ?_, h, rfl, by simp [successfulPuts]⟩
      rw [Buffer.call, put_of_full hfull]
      rfl
  | get =>
    obtain ⟨items, hlen⟩ := q
    cases items with
    | nil =>
      refine ⟨b, ?_, h, rfl, by simp [queueCall, successfulPuts]⟩
      rw [Buffer.call, get_of_empty (by simpa using hcount)]
      rfl
    | cons v vs =>
      refine ⟨b.afterGet, ?_, h.afterGet, rfl, by simp [queueCall, successfulPuts, Buffer.afterGet]⟩
      rw [Buffer.call, h.get_of_cons]
      rfl

/-- **Every sequence of calls** on a buffer that represents a queue does what it does on the
queue. -/
theorem Holds.calls {cap : ℕ} {q : BoundedQueue HttpRequest cap} (h : b.Holds q.items)
    (hcap : b.size = cap) (hputs : 0 ≤ b.totalPuts) (ops : List Op)
    (hmax : b.totalPuts + successfulPuts (queueCalls q ops).1 ≤ intMax) :
    ∃ b', b.calls ops = some ((queueCalls q ops).1, b') ∧ b'.Holds (queueCalls q ops).2.items ∧
      b'.size = b.size ∧ b'.totalPuts = b.totalPuts + successfulPuts (queueCalls q ops).1 := by
  induction ops generalizing b q with
  | nil => exact ⟨b, rfl, h, rfl, by simp [queueCalls, successfulPuts]⟩
  | cons op ops ih =>
    have hsplit : successfulPuts (queueCalls q (op :: ops)).1
        = successfulPuts [(queueCall q op).1]
          + successfulPuts (queueCalls (queueCall q op).2 ops).1 := by
      simp only [queueCalls, successfulPuts]
      rw [← List.count_append, List.singleton_append]
    rw [hsplit] at hmax ⊢
    obtain ⟨b₁, hcall, h₁, hsize₁, hputs₁⟩ := h.call hcap hputs op (by omega)
    obtain ⟨b₂, hcalls, h₂, hsize₂, hputs₂⟩ := ih h₁ (by omega) (by omega) (by omega)
    refine ⟨b₂, ?_, h₂, by omega, by omega⟩
    simp [Buffer.calls, hcall, hcalls, queueCalls]

/-- **The request buffer is a first-in first-out queue of capacity `size`**, after every sequence of
calls of `put` and `get` on a new buffer with fewer than `2 ^ 31` successful puts. -/
theorem calls_createBuffer {size : ℤ} (hpos : 1 ≤ size) (hle : size ≤ intMax) (ops : List Op)
    (hputs : successfulPuts (queueCalls (.empty HttpRequest size.toNat) ops).1 < 2 ^ 31) :
    ∃ b, (createBuffer size).calls ops
        = some ((queueCalls (.empty HttpRequest size.toNat) ops).1, b) ∧
      (0 ≤ b.getIndex ∧ b.getIndex < size) ∧ (0 ≤ b.putIndex ∧ b.putIndex < size) ∧
      (0 ≤ b.count ∧ b.count ≤ size) ∧ b.putIndex = (b.getIndex + b.count) % size ∧
      b.contents = (queueCalls (.empty HttpRequest size.toNat) ops).2.items.map some ∧
      b.totalPuts = successfulPuts (queueCalls (.empty HttpRequest size.toNat) ops).1 ∧
      (b.count = size → ∀ value, b.put value = some (false, b)) ∧
      (b.count = 0 → b.get = some (.sentinel, b)) := by
  have hnew : (createBuffer size).Holds (BoundedQueue.empty HttpRequest size.toNat).items :=
    holds_createBuffer hpos hle
  obtain ⟨b, hcalls, h, hsize, htotal⟩ := hnew.calls (by simp only [createBuffer]; omega) le_rfl ops
    (by simp only [createBuffer, intMax]; omega)
  replace hsize : b.size = size := hsize
  replace htotal : b.totalPuts = successfulPuts _ := htotal.trans (Int.zero_add _)
  have hcount := h.count_eq
  exact ⟨b, hcalls, ⟨h.get_nonneg, hsize ▸ h.get_lt⟩, ⟨h.put_nonneg, hsize ▸ h.put_lt⟩,
    ⟨by omega, hsize ▸ h.count_le⟩, hsize ▸ h.put_eq, h.contents_eq, htotal,
    fun hfull => put_of_full (hfull.trans hsize.symm), get_of_empty⟩

/-- Three puts and two gets on a buffer with two slots. -/
theorem calls_createBuffer_two :
    let r : ℤ → HttpRequest := fun i => ⟨i, decimal i⟩
    let ops : List Op := [.put (r 1), .put (r 2), .put (r 3), .get, .put (r 3), .get]
    ∃ b, (createBuffer 2).calls ops
        = some ([.put true, .put true, .put false, .get (r 1), .put true, .get (r 2)], b) ∧
      b.contents = [some (r 3)] := by
  intro r ops
  obtain ⟨b, hcalls, -, -, -, -, hcontents, -⟩ :=
    calls_createBuffer (show (1 : ℤ) ≤ 2 by decide) (by decide) ops (by decide)
  exact ⟨b, hcalls, hcontents⟩

end Buffer

end CExamples.ProducerConsumer

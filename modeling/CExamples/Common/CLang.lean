import Mathlib.Data.List.Basic
import Mathlib.Tactic.NormNum

/-!
# The parts of C that the models rest on

Signed arithmetic, the cells of an array, the bytes of a buffer and the pointers to them, each as
an operation that returns `none` exactly where C leaves the behaviour undefined: a result out of the
type's range, a zero divisor, an access out of bounds, a read of a cell or a use of a pointer that
was never set. Decimal text is what `printf` writes for `%d` and `%ld`.
-/

namespace CExamples.C

/-! ## Signed integers of `w` bits -/

/-- The values of a signed integer type of `w` bits. -/
def InRange (w : ℕ) (v : ℤ) : Prop :=
  -2 ^ (w - 1) ≤ v ∧ v < 2 ^ (w - 1)

instance (w : ℕ) (v : ℤ) : Decidable (InRange w v) :=
  inferInstanceAs (Decidable (_ ∧ _))

/-- The exact result `v` of an arithmetic operation; undefined if it overflows. -/
def checked (w : ℕ) (v : ℤ) : Option ℤ :=
  if InRange w v then some v else none

def add (w : ℕ) (a b : ℤ) : Option ℤ := checked w (a + b)

def sub (w : ℕ) (a b : ℤ) : Option ℤ := checked w (a - b)

/-- The quotient, rounded toward zero. -/
def div (w : ℕ) (a b : ℤ) : Option ℤ :=
  if b = 0 then none else checked w (a.tdiv b)

/-- The remainder of `div`, undefined where the quotient is. -/
def mod (w : ℕ) (a b : ℤ) : Option ℤ :=
  (div w a b).map fun _ => a.tmod b

@[simp] theorem checked_of_inRange {w : ℕ} {v : ℤ} (h : InRange w v) : checked w v = some v :=
  if_pos h

/-- The largest `int`. -/
def intMax : ℤ := 2147483647

theorem inRange_int_iff {v : ℤ} : InRange 32 v ↔ -2147483648 ≤ v ∧ v ≤ intMax := by
  simp only [InRange, intMax]
  omega

theorem add_of_inRange {w : ℕ} {a b : ℤ} (h : InRange w (a + b)) : add w a b = some (a + b) :=
  if_pos h

theorem sub_of_inRange {w : ℕ} {a b : ℤ} (h : InRange w (a - b)) : sub w a b = some (a - b) :=
  if_pos h

/-- A quotient by a positive number lies between zero and the dividend. -/
theorem div_of_pos {w : ℕ} {a b : ℤ} (ha : InRange w a) (hb : 0 < b) :
    div w a b = some (a.tdiv b) := by
  obtain ⟨hlow, hhigh⟩ := ha
  have hle := Int.natAbs_tdiv_le_natAbs a b
  have hquotient : InRange w (a.tdiv b) := by
    rcases Int.le_total 0 a with hnonneg | hneg
    · have := Int.tdiv_nonneg hnonneg hb.le
      constructor <;> omega
    · have := Int.tdiv_nonneg (show 0 ≤ -a by omega) hb.le
      rw [Int.neg_tdiv] at this
      constructor <;> omega
  rw [div, if_neg hb.ne', checked_of_inRange hquotient]

/-- The remainder of a nonnegative `int` by a positive one. -/
theorem mod_int {a b : ℤ} (ha : 0 ≤ a) (ha' : a ≤ intMax) (hb : 0 < b) :
    mod 32 a b = some (a % b) := by
  have hrange : InRange 32 a := by
    rw [inRange_int_iff]
    omega
  rw [mod, div_of_pos hrange hb, Int.tmod_eq_emod_of_nonneg ha]
  rfl

/-! The results and the condition under which there is one. -/

theorem checked_eq_some_iff {w : ℕ} {v r : ℤ} : checked w v = some r ↔ InRange w v ∧ v = r := by
  rw [checked]
  split <;> simp [*]

theorem add_eq_some_iff {w : ℕ} {a b r : ℤ} :
    add w a b = some r ↔ InRange w (a + b) ∧ a + b = r :=
  checked_eq_some_iff

theorem sub_eq_some_iff {w : ℕ} {a b r : ℤ} :
    sub w a b = some r ↔ InRange w (a - b) ∧ a - b = r :=
  checked_eq_some_iff

theorem mod_eq_some_iff {w : ℕ} {a b r : ℤ} :
    mod w a b = some r ↔ (b ≠ 0 ∧ InRange w (a.tdiv b)) ∧ a.tmod b = r := by
  rw [mod, div]
  split
  · simp [*]
  · simp [checked_eq_some_iff, *]

/-! ## Conversions to `uint32_t` -/

theorem toNat_ofInt (v : ℤ) : ((UInt32.ofInt v).toNat : ℤ) = v % 2 ^ 32 := by
  have h₀ := Int.emod_nonneg v (b := 2 ^ 32) (by decide)
  have h₁ := Int.emod_lt_of_pos v (b := 2 ^ 32) (by decide)
  rw [UInt32.ofInt, UInt32.toNat_ofNat', Nat.mod_eq_of_lt (by omega), Int.toNat_of_nonneg h₀]

/-- A value converted to `int` first, as the parameter or the result of a function is. -/
theorem toNat_ofInt_bmod (v : ℤ) :
    ((UInt32.ofInt (Int.bmod v (2 ^ 32))).toNat : ℤ) = v % 2 ^ 32 := by
  rw [toNat_ofInt]
  exact Int.bmod_emod

/-! ## Array cells and byte buffers -/

section Memory

variable {α : Type*}

/-- Read cell `i` of an array; a cell that was never written holds `none`. -/
def load (cells : List (Option α)) (i : ℤ) : Option α :=
  if 0 ≤ i then cells[i.toNat]?.join else none

/-- Write `v` to cell `i` of an array. -/
def store (cells : List (Option α)) (i : ℤ) (v : α) : Option (List (Option α)) :=
  if 0 ≤ i ∧ i.toNat < cells.length then some (cells.set i.toNat (some v)) else none

theorem load_eq_some {cells : List (Option α)} {i : ℤ} {v : α} (hi : 0 ≤ i)
    (h : cells[i.toNat]? = some (some v)) : load cells i = some v := by
  rw [load, if_pos hi, h, Option.join_some]

theorem store_eq_some (cells : List (Option α)) {i : ℤ} (hi : 0 ≤ i) (hlt : i < cells.length)
    (v : α) : store cells i v = some (cells.set i.toNat (some v)) :=
  if_pos ⟨hi, by omega⟩

theorem store_eq_some_iff {cells stored : List (Option α)} {i : ℤ} {v : α} :
    store cells i v = some stored ↔
      (0 ≤ i ∧ i < cells.length) ∧ cells.set i.toNat (some v) = stored := by
  have hindex : 0 ≤ i ∧ i.toNat < cells.length ↔ 0 ≤ i ∧ i < cells.length := by omega
  rw [store, ← hindex]
  split
  · rename_i hlt
    rw [Option.some_inj, and_iff_right hlt]
  · rename_i hge
    exact iff_of_false (Option.some_ne_none _).symm fun h => hge h.1

/-- A cell that is read is one of the array. -/
theorem index_of_load {cells : List (Option α)} {i : ℤ} {v : α} (h : load cells i = some v) :
    0 ≤ i ∧ i < cells.length := by
  rw [load] at h
  split at h
  · rename_i hnonneg
    have hcell := Option.join_eq_some_iff.mp h
    have hlt := (List.getElem?_eq_some_iff.mp hcell).1
    omega
  · cases h

/-- The `n` elements of `buffer` from offset `off` on, as `memcpy` reads them. -/
def slice (buffer : List α) (off n : ℕ) : Option (List α) :=
  if off + n ≤ buffer.length then some ((buffer.drop off).take n) else none

/-- `buffer` with `elements` written from offset `off` on, as `memcpy` writes them. -/
def overwrite (buffer : List α) (off : ℕ) (elements : List α) : Option (List α) :=
  if off + elements.length ≤ buffer.length then
    some (buffer.take off ++ elements ++ buffer.drop (off + elements.length))
  else none

theorem slice_eq_some_iff {buffer elements : List α} {off n : ℕ} :
    slice buffer off n = some elements ↔
      off + n ≤ buffer.length ∧ (buffer.drop off).take n = elements := by
  simp [slice]

theorem length_of_slice {buffer elements : List α} {off n : ℕ}
    (h : slice buffer off n = some elements) : elements.length = n := by
  obtain ⟨hle, rfl⟩ := slice_eq_some_iff.mp h
  rw [List.length_take, List.length_drop]
  omega

/-- Writing where the written part of a buffer ends extends the written part. -/
theorem overwrite_append_drop {written elements buffer : List α} {off next : ℕ}
    (hoff : written.length = off) (hnext : off + elements.length = next)
    (hle : next ≤ buffer.length) :
    overwrite (written ++ buffer.drop off) off elements =
      some (written ++ elements ++ buffer.drop next) := by
  subst hoff hnext
  have hfit : elements.length ≤ buffer.length - written.length := by omega
  simp [overwrite, List.drop_append, hfit]

end Memory

/-! ## Pointers -/

/-- A pointer to bytes: null, the start of a block that holds `bytes`, or a value never set. -/
inductive Ptr
  | null
  | block (bytes : List UInt8)
  | indeterminate
deriving DecidableEq, Repr

namespace Ptr

/-- The first `n` bytes behind the pointer. -/
def read (n : ℕ) : Ptr → Option (List UInt8)
  | null => none
  | block bytes => slice bytes 0 n
  | indeterminate => none

theorem length_of_read {n : ℕ} {p : Ptr} {bytes : List UInt8} (h : p.read n = some bytes) :
    bytes.length = n := by
  cases p with
  | null => cases h
  | block content => exact length_of_slice h
  | indeterminate => cases h

/-- `free`. -/
def free : Ptr → Option Unit
  | null => some ()
  | block _ => some ()
  | indeterminate => none

end Ptr

/-! ## Decimal text -/

/-- The text that `%d` and `%ld` write. -/
def decimal (z : ℤ) : List UInt8 :=
  (if z < 0 then [45] else []) ++ (Nat.toDigits 10 z.natAbs).map fun c => c.toNat.toUInt8

example : decimal (-120) = [45, 49, 50, 48] := by decide

end CExamples.C

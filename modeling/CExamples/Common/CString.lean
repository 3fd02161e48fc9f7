import CExamples.Common.CLang
import Mathlib.Data.List.TakeWhile

/-!
# C strings

A `CString` is the text before the terminator, so none of its bytes is zero. Its `memory` is the
text with the terminator, and `read` finds a string in memory again. `snprintf` is given the text
that the format produces.
-/

namespace CExamples.C

structure CString where
  chars : List UInt8
  zero_notMem : 0 ∉ chars
deriving DecidableEq, Repr

/-- The bytes of an ASCII literal. -/
def ascii (s : String) : List UInt8 :=
  s.toList.map fun c => c.toNat.toUInt8

theorem zero_notMem_decimal (z : ℤ) : 0 ∉ decimal z := by
  intro h
  rw [decimal, List.mem_append, List.mem_map] at h
  rcases h with h | ⟨c, hc, hzero⟩
  · split at h <;> simp at h
  · have hdigit := Nat.isDigit_of_mem_toDigits (by decide) (by decide) hc
    have hbounds : 48 ≤ c.toNat ∧ c.toNat ≤ 57 := by
      simpa [Char.isDigit, UInt32.le_iff_toNat_le] using hdigit
    have hmod := congrArg UInt8.toNat hzero
    simp at hmod
    omega

namespace CString

@[ext] theorem ext {s t : CString} (h : s.chars = t.chars) : s = t := by
  cases s
  cases t
  cases h
  rfl

/-- A string literal. -/
def ofLiteral (s : String) (h : 0 ∉ ascii s := by decide) : CString :=
  ⟨ascii s, h⟩

instance : Append CString where
  append s t := ⟨s.chars ++ t.chars, by
    have hs := s.zero_notMem
    have ht := t.zero_notMem
    simp [hs, ht]⟩

/-- The first `n` characters. -/
def take (n : ℕ) (s : CString) : CString :=
  ⟨s.chars.take n, fun h => s.zero_notMem (List.mem_of_mem_take h)⟩

/-- The text that `%d` and `%ld` write. -/
def ofInt (z : ℤ) : CString :=
  ⟨decimal z, zero_notMem_decimal z⟩

@[simp] theorem chars_append (s t : CString) : (s ++ t).chars = s.chars ++ t.chars := rfl

@[simp] theorem chars_take (n : ℕ) (s : CString) : (s.take n).chars = s.chars.take n := rfl

@[simp] theorem chars_ofInt (z : ℤ) : (ofInt z).chars = decimal z := rfl

/-- The string in memory, with its terminator. -/
def memory (s : CString) : List UInt8 :=
  s.chars ++ [0]

/-- The string that starts at `bytes`, if its terminator lies among them. -/
def read (bytes : List UInt8) : Option CString :=
  if 0 ∈ bytes then
    some ⟨bytes.takeWhile (· ≠ 0), fun h => by simpa using List.mem_takeWhile_imp h⟩
  else none

@[simp] theorem length_memory (s : CString) : s.memory.length = s.chars.length + 1 := by
  simp [memory]

theorem read_memory_append (s : CString) (rest : List UInt8) :
    read (s.memory ++ rest) = some s := by
  have hne : ∀ c ∈ s.chars, c ≠ 0 := by
    rintro c hc rfl
    exact s.zero_notMem hc
  have htake : (s.memory ++ rest).takeWhile (· ≠ 0) = s.chars := by
    rw [memory, List.append_assoc, List.takeWhile_append_of_pos (by simpa using hne)]
    simp
  rw [read, if_pos (by simp [memory])]
  exact congrArg some (CString.ext htake)

/-- A string that is read ends within the bytes, its terminator included. -/
theorem memory_prefix_of_read {bytes : List UInt8} {s : CString} (h : read bytes = some s) :
    s.memory <+: bytes := by
  unfold read at h
  split at h
  · rename_i hzero
    cases h
    obtain ⟨before, after, rfl, hbefore⟩ := List.eq_append_cons_of_mem hzero
    have htake : (before ++ 0 :: after).takeWhile (· ≠ 0) = before := by
      have hne : ∀ c ∈ before, c ≠ 0 := by
        rintro c hc rfl
        exact hbefore hc
      rw [List.takeWhile_append_of_pos (by simpa using hne)]
      simp
    refine ⟨after, ?_⟩
    rw [memory]
    simp only [htake]
    rw [List.append_assoc, List.singleton_append]
  · cases h

theorem read_ne_none_iff {bytes : List UInt8} : read bytes ≠ none ↔ 0 ∈ bytes := by
  unfold read
  split
  · rename_i hzero
    exact iff_of_true (Option.some_ne_none _) hzero
  · rename_i hzero
    exact iff_of_false (not_not.mpr rfl) hzero

end CString

/-- The string that a `char*` points to. -/
def Ptr.toCString : Ptr → Option CString
  | null => none
  | block bytes => CString.read bytes
  | indeterminate => none

theorem Ptr.toCString_memory (s : CString) : (block s.memory).toCString = some s := by
  have h := CString.read_memory_append s []
  rwa [List.append_nil] at h

/-- `snprintf` into a buffer of `size` bytes: the value returned, which is negative for a text whose
length is no `int`, and the string stored. -/
def snprintf (size : ℕ) (text : CString) : ℤ × CString :=
  (if (text.chars.length : ℤ) ≤ intMax then text.chars.length else -1, text.take (size - 1))

theorem length_snprintf_le (size : ℕ) (text : CString) :
    (snprintf size text).2.chars.length ≤ size - 1 :=
  List.length_take_le _ _

/-- A text that fits is stored whole, and its length is returned. -/
theorem snprintf_of_lt {size : ℕ} {text : CString} (h : text.chars.length < size)
    (hsize : (size : ℤ) ≤ intMax) : snprintf size text = ((text.chars.length : ℤ), text) := by
  have hint : (text.chars.length : ℤ) ≤ intMax := by omega
  have htake : text.chars.take (size - 1) = text.chars := List.take_of_length_le (by omega)
  rw [snprintf, if_pos hint]
  exact congrArg (Prod.mk _) (CString.ext htake)

/-- A text that does not fit is recognised by the value returned. -/
theorem snprintf_of_le {size : ℕ} {text : CString} (h : size ≤ text.chars.length) :
    (snprintf size text).1 < 0 ∨ (size : ℤ) ≤ (snprintf size text).1 := by
  unfold snprintf
  split
  · exact .inr (Int.ofNat_le.mpr h)
  · exact .inl (show (-1 : ℤ) < 0 by decide)

end CExamples.C

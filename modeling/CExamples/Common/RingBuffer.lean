import Mathlib.Data.List.Basic
import Mathlib.Data.Nat.ModEq
import Mathlib.Tactic.Common

/-!
# Circular windows of a list

`window slots start count` reads `count` cells of `slots` from `start` on, wrapping from the last
cell to the first. Writing the cell after a window that is not the whole list appends to it, and
dropping its first cell advances its start.
-/

namespace CExamples.RingBuffer

variable {α : Type*}

/-- The `count` cells of `slots` from index `start` on, wrapping at the end. -/
def window (slots : List α) (start count : ℕ) : List α :=
  (List.range count).filterMap fun i => slots[(start + i) % slots.length]?

/-- Two offsets below the length denote different cells. -/
theorem offset_injective {start i j len : ℕ} (hi : i < len) (hj : j < len)
    (h : (start + i) % len = (start + j) % len) : i = j :=
  Nat.ModEq.eq_of_lt_of_lt (Nat.ModEq.add_left_cancel' start h) hi hj

@[simp] theorem window_zero (slots : List α) (start : ℕ) : window slots start 0 = [] := rfl

/-- A window that is one cell longer has one more cell at its end. -/
theorem window_succ {slots : List α} {start n : ℕ} {v : α}
    (hv : slots[(start + n) % slots.length]? = some v) :
    window slots start (n + 1) = window slots start n ++ [v] := by
  simp [window, List.range_succ, List.filterMap_append, hv]

/-- A nonempty window is its first cell and the window that starts one cell later. -/
theorem window_succ_left {slots : List α} {start n : ℕ} {v : α}
    (hv : slots[start % slots.length]? = some v) :
    window slots start (n + 1) = v :: window slots (start + 1) n := by
  have hshift : ∀ i, start + 1 + i = start + (i + 1) := by
    intro i
    omega
  simp [window, List.range_succ_eq_map, List.filterMap_map, hv, hshift]

/-- Only the remainder of the start matters. -/
theorem window_mod (slots : List α) (start n : ℕ) :
    window slots (start % slots.length) n = window slots start n := by
  simp [window]

/-- Writing a cell beyond the window does not change it. -/
theorem window_set_of_le {slots : List α} {start n k : ℕ} (hnk : n ≤ k) (hk : k < slots.length)
    (v : α) :
    window (slots.set ((start + k) % slots.length) v) start n = window slots start n := by
  unfold window
  apply List.filterMap_congr
  intro i hi
  rw [List.mem_range] at hi
  have hne : (start + k) % slots.length ≠ (start + i) % slots.length := by
    intro h
    have := offset_injective hk (by omega) h
    omega
  rw [List.length_set, List.getElem?_set_ne hne]

/-- **Push**: writing the cell after the window appends to it. -/
theorem window_push {slots : List α} {start n : ℕ} (hn : n < slots.length) (v : α) :
    window (slots.set ((start + n) % slots.length) v) start (n + 1)
      = window slots start n ++ [v] := by
  have hlt : (start + n) % slots.length < slots.length := Nat.mod_lt _ (by omega)
  rw [window_succ (v := v) (by rw [List.length_set, List.getElem?_set_self hlt]),
    window_set_of_le le_rfl hn]

/-- **Pop**: the first element of a window is in its first cell, and the others are the window that
starts one cell later. -/
theorem window_pop {slots : List α} {start n : ℕ} {v : α} {vs : List α} (hlen : 0 < slots.length)
    (h : window slots start (n + 1) = v :: vs) :
    slots[start % slots.length]? = some v ∧ window slots ((start + 1) % slots.length) n = vs := by
  have hlt : start % slots.length < slots.length := Nat.mod_lt _ hlen
  obtain ⟨w, hw⟩ : ∃ w, slots[start % slots.length]? = some w :=
    ⟨_, List.getElem?_eq_getElem hlt⟩
  rw [window_succ_left hw, List.cons.injEq] at h
  obtain ⟨rfl, rfl⟩ := h
  exact ⟨hw, window_mod _ _ _⟩

end CExamples.RingBuffer

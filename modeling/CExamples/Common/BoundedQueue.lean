import Mathlib.Data.List.Basic
import Mathlib.Tactic.Common

/-!
# Bounded queues

A first-in first-out queue that holds at most `cap` items: what a ring buffer is for.
-/

namespace CExamples

/-- At most `cap` items, the oldest first. -/
structure BoundedQueue (α : Type*) (cap : ℕ) where
  items : List α
  length_le : items.length ≤ cap

namespace BoundedQueue

variable {α : Type*} {cap : ℕ}

/-- The queue without items. -/
def empty (α : Type*) (cap : ℕ) : BoundedQueue α cap :=
  ⟨[], Nat.zero_le cap⟩

/-- Append `x` unless the queue is full; the flag says whether it was appended. -/
def put (q : BoundedQueue α cap) (x : α) : Bool × BoundedQueue α cap :=
  if h : q.items.length < cap then
    (true, ⟨q.items ++ [x], by rw [List.length_append]; exact h⟩)
  else (false, q)

/-- Remove the oldest item, if any. -/
def get : BoundedQueue α cap → Option α × BoundedQueue α cap
  | ⟨[], h⟩ => (none, ⟨[], h⟩)
  | ⟨x :: xs, h⟩ => (some x, ⟨xs, Nat.le_of_succ_le h⟩)

end BoundedQueue

end CExamples

import Mathlib.Data.List.Basic

/-!
# Lexical paths

A path is walked one component at a time, which stays, goes up or enters a name; above the root
there is nothing, and no name is a symbolic link. What a path does to any directory is told by its
normal form, a number of directories to leave and the names to enter from there (`walk_eq`), and so
is whether the walk ends below the directory where it began (`suffix_walk_iff`).
-/

namespace CExamples.LexicalPath

/-! ## Moves -/

/-- What one component of a path says. -/
inductive Move (ν : Type*)
  | stay
  | up
  | enter (name : ν)
deriving DecidableEq

variable {ν : Type*}

/-- A directory is the list of its names, the innermost first. -/
def Move.apply (directory : List ν) : Move ν → List ν
  | stay => directory
  | up => directory.tail
  | enter name => name :: directory

def walk (directory : List ν) (moves : List (Move ν)) : List ν :=
  moves.foldl Move.apply directory

theorem walk_append (directory : List ν) (first second : List (Move ν)) :
    walk directory (first ++ second) = walk (walk directory first) second :=
  List.foldl_append

/-! ## Normal forms -/

/-- Directories to leave, and then names to enter, the innermost first. -/
structure Relative (ν : Type*) where
  ups : ℕ
  names : List ν

namespace Relative

/-- One more component. -/
def step (r : Relative ν) : Move ν → Relative ν
  | .stay => r
  | .up =>
    match r.names with
    | [] => { r with ups := r.ups + 1 }
    | _ :: names => { r with names }
  | .enter name => { r with names := name :: r.names }

/-- Where it leads from a directory. -/
def resolve (r : Relative ν) (directory : List ν) : List ν :=
  r.names ++ directory.drop r.ups

theorem resolve_step (r : Relative ν) (directory : List ν) (move : Move ν) :
    (r.step move).resolve directory = move.apply (r.resolve directory) := by
  obtain ⟨ups, names⟩ := r
  cases move with
  | stay => rfl
  | up =>
    cases names with
    | nil =>
      unfold resolve step Move.apply
      rw [List.nil_append, List.nil_append, List.tail_drop]
    | cons name names => rfl
  | enter name => rfl

end Relative

/-- The normal form of a sequence of moves. -/
def relative (moves : List (Move ν)) : Relative ν :=
  moves.foldl Relative.step { ups := 0, names := [] }

/-- A walk is decided by its normal form. -/
theorem walk_eq (directory : List ν) (moves : List (Move ν)) :
    walk directory moves = (relative moves).resolve directory := by
  -- For every normal form of what was walked before.
  have hfold : ∀ r : Relative ν,
      walk (r.resolve directory) moves = (moves.foldl Relative.step r).resolve directory := by
    induction moves with
    | nil =>
      intro r
      rfl
    | cons move moves ih =>
      intro r
      unfold walk at ih ⊢
      rw [List.foldl_cons, List.foldl_cons, ← r.resolve_step, ih]
  exact hfold { ups := 0, names := [] }

/-- Moves that never go up leave no directory. -/
theorem ups_relative {moves : List (Move ν)} (h : .up ∉ moves) : (relative moves).ups = 0 := by
  have hfold : ∀ r : Relative ν, (moves.foldl Relative.step r).ups = r.ups := by
    induction moves with
    | nil =>
      intro r
      rfl
    | cons move moves ih =>
      intro r
      rw [List.mem_cons, not_or] at h
      rw [List.foldl_cons, ih h.2]
      cases move with
      | stay => rfl
      | up => exact absurd rfl h.1
      | enter name => rfl
  exact hfold { ups := 0, names := [] }

/-- A walk ends in the directory where it began, or below, if and only if the directories that it
leaves are the first that it enters again. -/
theorem suffix_walk_iff (directory : List ν) (moves : List (Move ν)) :
    directory <:+ walk directory moves ↔
      directory.take (relative moves).ups <:+ (relative moves).names := by
  rw [walk_eq]
  unfold Relative.resolve
  generalize relative moves = r
  constructor
  · rintro ⟨below, h⟩
    refine ⟨below, ?_⟩
    rw [← List.take_append_drop r.ups directory, ← List.append_assoc,
      List.take_append_drop] at h
    exact List.append_cancel_right h
  · rintro ⟨below, h⟩
    refine ⟨below, ?_⟩
    rw [← h, List.append_assoc, List.take_append_drop]

/-! ## Paths -/

section Paths

variable {α : Type*} [DecidableEq α] (separator dot : α)

/-- An empty component and a single dot say to stay, two dots to go up. -/
def componentMove (component : List α) : Move (List α) :=
  if component = [] ∨ component = [dot] then .stay
  else if component = [dot, dot] then .up
  else .enter component

/-- The moves of a path. -/
def moves (path : List α) : List (Move (List α)) :=
  (path.splitOn separator).map (componentMove dot)

theorem moves_append_cons (directory path : List α) :
    moves separator dot (directory ++ separator :: path) =
      moves separator dot directory ++ moves separator dot path := by
  unfold moves
  rw [List.splitOn_append_cons_self, List.map_append]

/-- The names of the normal form of an absolute path, the outermost first. -/
def normalize (path : List α) : List (List α) :=
  (walk [] (moves separator dot path)).reverse

/-- A path below a directory, component by component, in terms of the part behind the directory. -/
theorem normalize_prefix_iff (directory path : List α) :
    normalize separator dot directory <+:
        normalize separator dot (directory ++ separator :: path) ↔
      (walk [] (moves separator dot directory)).take (relative (moves separator dot path)).ups <:+
        (relative (moves separator dot path)).names := by
  unfold normalize
  rw [List.reverse_prefix, moves_append_cons, walk_append, suffix_walk_iff]

end Paths

end CExamples.LexicalPath

import CExamples.Common.TransitionSystem
import Mathlib.Data.Finset.Lattice.Fold
import Mathlib.Data.Finset.SDiff
import Mathlib.Logic.Function.Basic
import Mathlib.Order.Lattice.Nat

/-!
# Programs that acquire and release resources

A `Holding` program acquires resources, whose numbers are chosen outside it, and uses and releases
the resources it names. It breaks off in one of two ways: where its computation is undefined, and
where it uses or releases what is not held. `Owns given x y value kept` compares such a program with
a plain computation `y`: given some resources, `x` uses and releases only what it holds, comes to
what `y` comes to, is at fault only where `y` is undefined, and ends with the resources that its
result keeps. The rules follow the program's structure.

A run of one program leaves all other resources as they were (`Owns.run`), and programs that own
different resources may run alternately, one operation at a time, on resources that they share with
others (`exists_divided`).
-/

namespace CExamples

/-- A program. A resource has a kind and a number. A program at `fault` is undefined, and one that
used or released what is not held has `misused` it. -/
inductive Holding (κ α : Type)
  | done (a : α)
  | fault
  | misused
  | acquireThen (k : κ) (next : ℕ → Holding κ α)
  | useThen (k : κ) (id : ℕ) (next : Holding κ α)
  | releaseThen (k : κ) (id : ℕ) (next : Holding κ α)

namespace Holding

variable {κ α β γ δ : Type}

def bind (x : Holding κ α) (f : α → Holding κ β) : Holding κ β :=
  match x with
  | done a => f a
  | fault => fault
  | misused => misused
  | acquireThen k next => acquireThen k fun id => (next id).bind f
  | useThen k id next => useThen k id (next.bind f)
  | releaseThen k id next => releaseThen k id (next.bind f)

instance : Monad (Holding κ) where
  pure := done
  bind := bind

/-- A computation without resources. -/
def lift : Option α → Holding κ α
  | none => fault
  | some a => done a

instance : MonadLift Option (Holding κ) where
  monadLift := lift

def acquire (k : κ) : Holding κ ℕ :=
  acquireThen k done

/-- A use of a resource that must be held. -/
def use (k : κ) (id : ℕ) : Holding κ Unit :=
  useThen k id (done ())

def release (k : κ) (id : ℕ) : Holding κ Unit :=
  releaseThen k id (done ())

/-! ## What a program owns -/

variable [DecidableEq κ]

/-- From what is given, `x` does what `y` does and keeps what it says. -/
inductive Owns : Finset (κ × ℕ) → Holding κ α → Option β → (α → β) → (α → Finset (κ × ℕ)) → Prop
  | done {given : Finset (κ × ℕ)} {a : α} {y : Option β} {value : α → β}
      {kept : α → Finset (κ × ℕ)} :
      given = kept a → y = some (value a) → Owns given (.done a) y value kept
  | fault {given : Finset (κ × ℕ)} {y : Option β} {value : α → β} {kept : α → Finset (κ × ℕ)} :
      y = none → Owns given .fault y value kept
  | acquireThen {given : Finset (κ × ℕ)} {k : κ} {next : ℕ → Holding κ α} {y : Option β}
      {value : α → β} {kept : α → Finset (κ × ℕ)} :
      (∀ id, (k, id) ∉ given → Owns (insert (k, id) given) (next id) y value kept) →
      Owns given (.acquireThen k next) y value kept
  | useThen {given : Finset (κ × ℕ)} {k : κ} {id : ℕ} {next : Holding κ α} {y : Option β}
      {value : α → β} {kept : α → Finset (κ × ℕ)} :
      (k, id) ∈ given → Owns given next y value kept → Owns given (.useThen k id next) y value kept
  | releaseThen {given : Finset (κ × ℕ)} {k : κ} {id : ℕ} {next : Holding κ α} {y : Option β}
      {value : α → β} {kept : α → Finset (κ × ℕ)} :
      (k, id) ∈ given → Owns (given.erase (k, id)) next y value kept →
      Owns given (.releaseThen k id next) y value kept

variable {given : Finset (κ × ℕ)} {value : α → β} {kept : α → Finset (κ × ℕ)}

theorem owns_pure {a : α} {b : β} (hkept : given = kept a) (hvalue : value a = b) :
    Owns given (pure a) (some b) value kept :=
  .done hkept (congrArg some hvalue.symm)

theorem owns_none : Owns given (liftM (none : Option α)) none value kept :=
  .fault rfl

theorem owns_lift (y : Option α) : Owns given (liftM y) y id fun _ => given := by
  cases y with
  | none => exact owns_none
  | some a => exact owns_pure rfl rfl

/-- **Two statements in sequence**: what the first keeps is given to the second, which runs on a
value that `y` can come to. -/
theorem owns_bind {x : Holding κ α} {y : Option β} {mid : α → Finset (κ × ℕ)}
    {f : α → Holding κ γ} {g : β → Option δ} {value' : γ → δ} {kept' : γ → Finset (κ × ℕ)}
    (hx : Owns given x y value mid)
    (hf : ∀ a, y = some (value a) → Owns (mid a) (f a) (g (value a)) value' kept') :
    Owns given (x >>= f) (y >>= g) value' kept' := by
  induction hx with
  | done hmid hy =>
    subst hmid hy
    exact hf _ rfl
  | fault hy =>
    subst hy
    exact .fault rfl
  | acquireThen _ ih => exact .acquireThen fun id hid => ih id hid hf
  | useThen hmem _ ih => exact .useThen hmem (ih hf)
  | releaseThen hmem _ ih => exact .releaseThen hmem (ih hf)

/-- **The frame rule**: further resources stay as they are. -/
theorem owns_frame {x : Holding κ α} {y : Option β} (h : Owns given x y value kept)
    {further : Finset (κ × ℕ)} (hfurther : Disjoint given further) :
    Owns (given ∪ further) x y value fun a => kept a ∪ further := by
  induction h with
  | done hkept hy => exact .done (by rw [hkept]) hy
  | fault hy => exact .fault hy
  | acquireThen _ ih =>
    refine .acquireThen fun id hid => ?_
    obtain ⟨hgiven, hnotMem⟩ := not_or.mp (mt Finset.mem_union.mpr hid)
    rw [← Finset.insert_union]
    exact ih id hgiven (Finset.disjoint_insert_left.mpr ⟨hnotMem, hfurther⟩)
  | useThen hmem _ ih => exact .useThen (Finset.mem_union_left _ hmem) (ih hfurther)
  | releaseThen hmem _ ih =>
    refine .releaseThen (Finset.mem_union_left _ hmem) ?_
    rw [Finset.erase_union_distrib,
      Finset.erase_eq_of_notMem (Finset.disjoint_left.mp hfurther hmem)]
    exact ih (hfurther.mono_left (Finset.erase_subset _ _))

/-- What a program acquires comes to what was held. -/
theorem owns_frame_acquiring {x : Holding κ α} {y : Option β} (h : Owns ∅ x y value kept)
    (further : Finset (κ × ℕ)) : Owns further x y value fun a => kept a ∪ further := by
  have hframe := owns_frame h (Finset.disjoint_empty_left further)
  rwa [Finset.empty_union] at hframe

/-- What a program does not release stays held. -/
theorem owns_frame_releasing {x : Holding κ α} {y : Option β}
    (h : Owns given x y value fun _ => ∅) {further : Finset (κ × ℕ)}
    (hfurther : Disjoint given further) : Owns (given ∪ further) x y value fun _ => further := by
  have hframe := owns_frame h hfurther
  rwa [funext fun _ : α => Finset.empty_union further] at hframe

/-- A program that needs and keeps nothing runs in between. -/
theorem owns_frame_neutral {x : Holding κ α} {y : Option β}
    (h : Owns ∅ x y value fun _ => ∅) (further : Finset (κ × ℕ)) :
    Owns further x y value fun _ => further := by
  have hframe := owns_frame_releasing h (Finset.disjoint_empty_left further)
  rwa [Finset.empty_union] at hframe

/-- A program that first acquires a resource does what the rest of it does. -/
theorem owns_acquire_bind (k : κ) {f : ℕ → Holding κ α} {y : Option β}
    (hf : ∀ id, Owns {(k, id)} (f id) y value kept) :
    Owns ∅ (acquire k >>= f) y value kept :=
  .acquireThen fun id _ => hf id

/-- A program that first uses what it is given does what the rest of it does. -/
theorem owns_use_bind {k : κ} {id : ℕ} (hgiven : (k, id) ∈ given) {f : Unit → Holding κ α}
    {y : Option β} (hf : Owns given (f ()) y value kept) :
    Owns given (use k id >>= f) y value kept :=
  .useThen hgiven hf

theorem owns_use (k : κ) (id : ℕ) :
    Owns {(k, id)} (use k id) (some ()) (fun _ => ()) fun _ => {(k, id)} :=
  .useThen (Finset.mem_singleton_self _) (.done rfl rfl)

/-- A program that first releases a resource goes on with the others. -/
theorem owns_release_bind {k : κ} {id : ℕ} {further : Finset (κ × ℕ)}
    (hgiven : given = further ∪ {(k, id)}) (hfurther : Disjoint further {(k, id)})
    {f : Unit → Holding κ α} {y : Option β} (hf : Owns further (f ()) y value kept) :
    Owns given (release k id >>= f) y value kept := by
  have hnotMem := Finset.disjoint_singleton_right.mp hfurther
  refine .releaseThen ?_ ?_
  · rw [hgiven]
    exact Finset.mem_union_right _ (Finset.mem_singleton_self _)
  · rw [hgiven, Finset.union_comm, ← Finset.insert_eq, Finset.erase_insert hnotMem]
    exact hf

/-- A program that first releases what it is given. -/
theorem owns_release_given_bind {k : κ} {id : ℕ} {f : Unit → Holding κ α} {y : Option β}
    (hf : Owns ∅ (f ()) y value kept) : Owns {(k, id)} (release k id >>= f) y value kept :=
  owns_release_bind (Finset.empty_union _).symm (Finset.disjoint_empty_left _) hf

theorem owns_release (k : κ) (id : ℕ) :
    Owns {(k, id)} (release k id) (some ()) (fun _ => ()) fun _ => ∅ :=
  .releaseThen (Finset.mem_singleton_self _) (.done (by simp) rfl)

/-- A last statement that only makes up the result. -/
theorem owns_bind_pure {x : Holding κ α} {y : Option β} {f : α → γ} {value' : γ → β}
    {kept' : γ → Finset (κ × ℕ)} (hx : Owns given x y value kept)
    (hkept : ∀ a, y = some (value a) → kept a = kept' (f a))
    (hvalue : ∀ a, value' (f a) = value a) :
    Owns given (x >>= fun a => pure (f a)) y value' kept' := by
  have hrun : y = y >>= pure := (bind_pure y).symm
  rw [hrun]
  exact owns_bind hx fun a ha => owns_pure (hkept a ha) (hvalue a)

theorem owns_ite {c : Prop} [Decidable c] {x₁ x₂ : Holding κ α} {y₁ y₂ : Option β}
    (hpos : c → Owns given x₁ y₁ value kept) (hneg : ¬c → Owns given x₂ y₂ value kept) :
    Owns given (if c then x₁ else x₂) (if c then y₁ else y₂) value kept := by
  by_cases hc : c
  · rw [if_pos hc, if_pos hc]
    exact hpos hc
  · rw [if_neg hc, if_neg hc]
    exact hneg hc

end Holding

/-! ## A run of one program -/

/-- How a run breaks off. -/
inductive Breach
  | undefined
  | misuse
deriving DecidableEq, Repr

/-- A choice of a number that is not in use. -/
structure Allocator (κ : Type) where
  fresh : κ → Finset (κ × ℕ) → ℕ
  fresh_notMem : ∀ k held, (k, fresh k held) ∉ held

/-- The number after the greatest in use. -/
def Allocator.next (κ : Type) : Allocator κ where
  fresh _ held := held.sup Prod.snd + 1
  fresh_notMem k held hmem := by
    have hle : held.sup Prod.snd + 1 ≤ held.sup Prod.snd := Finset.le_sup (f := Prod.snd) hmem
    omega

namespace Holding

variable {κ α β ι : Type} [DecidableEq κ]
variable {given others : Finset (κ × ℕ)} {x : Holding κ α} {y : Option β} {value : α → β}
  {kept : α → Finset (κ × ℕ)}

/-- A run from the resources that are held: the value and the resources at the end, unless it breaks
off. -/
def run (allocator : Allocator κ) :
    Holding κ α → Finset (κ × ℕ) → Except Breach (α × Finset (κ × ℕ))
  | done a, held => .ok (a, held)
  | fault, _ => .error .undefined
  | misused, _ => .error .misuse
  | acquireThen k next, held =>
    (next (allocator.fresh k held)).run allocator (insert (k, allocator.fresh k held) held)
  | useThen k id next, held => if (k, id) ∈ held then next.run allocator held else .error .misuse
  | releaseThen k id next, held =>
    if (k, id) ∈ held then next.run allocator (held.erase (k, id)) else .error .misuse

/-- Two statements run one after the other. -/
theorem run_bind (allocator : Allocator κ) (x : Holding κ α) (f : α → Holding κ γ)
    (held : Finset (κ × ℕ)) :
    (x >>= f).run allocator held =
      x.run allocator held >>= fun r => (f r.1).run allocator r.2 := by
  induction x generalizing held with
  | done a => rfl
  | fault => rfl
  | misused => rfl
  | acquireThen k next ih => exact ih _ _
  | useThen k id next ih =>
    show (if (k, id) ∈ held then (next >>= f).run allocator held else .error .misuse) = _
    rw [run]
    split
    · exact ih held
    · rfl
  | releaseThen k id next ih =>
    show (if (k, id) ∈ held then (next >>= f).run allocator (held.erase (k, id))
      else .error .misuse) = _
    rw [run]
    split
    · exact ih _
    · rfl

/-- What is released twice is misused. -/
theorem run_release_twice (allocator : Allocator κ) (k : κ) (id : ℕ) (f : Unit → Holding κ α)
    (held : Finset (κ × ℕ)) :
    (release k id >>= fun _ => release k id >>= f).run allocator held = .error .misuse := by
  show (if (k, id) ∈ held then
      if (k, id) ∈ held.erase (k, id) then (f ()).run allocator ((held.erase (k, id)).erase (k, id))
      else .error .misuse
    else .error .misuse) = _
  rw [if_neg (Finset.notMem_erase _ _), ite_self]

/-- A run ends as `y` does, with what its result keeps besides the others, and misuses nothing. -/
def EndsAs (result : Except Breach (α × Finset (κ × ℕ))) (others : Finset (κ × ℕ)) (y : Option β)
    (value : α → β) (kept : α → Finset (κ × ℕ)) : Prop :=
  (result = .error .undefined ∧ y = none) ∨
    ∃ a, result = .ok (a, kept a ∪ others) ∧ y = some (value a)

theorem EndsAs.ne_misuse {result : Except Breach (α × Finset (κ × ℕ))}
    (h : EndsAs result others y value kept) : result ≠ .error .misuse := by
  rintro rfl
  rcases h with ⟨hundefined, -⟩ | ⟨a, hok, -⟩
  · cases hundefined
  · cases hok

/-- Given what the program owns and any other resources, a run comes to what `y` comes to. -/
theorem Owns.run (h : Owns given x y value kept) (allocator : Allocator κ)
    (hothers : Disjoint given others) :
    EndsAs (x.run allocator (given ∪ others)) others y value kept := by
  induction h with
  | done hkept hy => exact .inr ⟨_, by rw [hkept]; rfl, hy⟩
  | fault hy => exact .inl ⟨rfl, hy⟩
  | @acquireThen given k _ _ _ _ _ ih =>
    have hfresh := allocator.fresh_notMem k (given ∪ others)
    obtain ⟨hgiven, hnotMem⟩ := not_or.mp (mt Finset.mem_union.mpr hfresh)
    rw [Holding.run, ← Finset.insert_union]
    exact ih _ hgiven (Finset.disjoint_insert_left.mpr ⟨hnotMem, hothers⟩)
  | useThen hmem _ ih =>
    rw [Holding.run, if_pos (Finset.mem_union_left _ hmem)]
    exact ih hothers
  | releaseThen hmem _ ih =>
    rw [Holding.run, if_pos (Finset.mem_union_left _ hmem), Finset.erase_union_distrib,
      Finset.erase_eq_of_notMem (Finset.disjoint_left.mp hothers hmem)]
    exact ih (hothers.mono_left (Finset.erase_subset _ _))

/-- A program that is given nothing. -/
theorem Owns.run_of_empty (h : Owns ∅ x y value kept) (allocator : Allocator κ)
    (held : Finset (κ × ℕ)) : EndsAs (x.run allocator held) held y value kept := by
  have hrun := h.run allocator (Finset.disjoint_empty_left held)
  rwa [Finset.empty_union] at hrun

/-! ## Interleavings -/

/-- One operation of a program on the resources that are held. -/
inductive Turn (held : Finset (κ × ℕ)) : Holding κ α → Finset (κ × ℕ) → Holding κ α → Prop
  | acquire {k : κ} {next : ℕ → Holding κ α} {id : ℕ} :
      (k, id) ∉ held → Turn held (acquireThen k next) (insert (k, id) held) (next id)
  | use {k : κ} {id : ℕ} {next : Holding κ α} :
      (k, id) ∈ held → Turn held (useThen k id next) held next
  | misuse {k : κ} {id : ℕ} {next : Holding κ α} :
      (k, id) ∉ held → Turn held (useThen k id next) held misused
  | release {k : κ} {id : ℕ} {next : Holding κ α} :
      (k, id) ∈ held → Turn held (releaseThen k id next) (held.erase (k, id)) next
  | misrelease {k : κ} {id : ℕ} {next : Holding κ α} :
      (k, id) ∉ held → Turn held (releaseThen k id next) held misused

/-- An operation of a program leaves the resources that it does not own as they are. -/
theorem Owns.turn {held held' : Finset (κ × ℕ)} {x' : Holding κ α} (h : Owns given x y value kept)
    (hgiven : given ⊆ held) (hturn : Turn held x held' x') :
    ∃ given', Owns given' x' y value kept ∧ given' ⊆ held' ∧ held' \ given' = held \ given := by
  cases hturn with
  | @acquire k next id hid =>
    cases h with
    | acquireThen hnext =>
      refine ⟨_, hnext id fun hmem => hid (hgiven hmem), Finset.insert_subset_insert _ hgiven, ?_⟩
      ext r
      grind
  | use hmem =>
    cases h with
    | useThen _ hnext => exact ⟨_, hnext, hgiven, rfl⟩
  | misuse hnotMem =>
    cases h with
    | useThen hmem _ => exact absurd (hgiven hmem) hnotMem
  | @release k id next hid =>
    cases h with
    | releaseThen hmem hnext =>
      refine ⟨_, hnext, Finset.erase_subset_erase _ hgiven, ?_⟩
      ext r
      grind
  | misrelease hnotMem =>
    cases h with
    | releaseThen hmem _ => exact absurd (hgiven hmem) hnotMem

/-- Programs that run alternately on one set of resources: what is given to each, and others. -/
def interleaving [DecidableEq ι] (programs : ι → Holding κ α) (given : ι → Finset (κ × ℕ))
    (others : Finset (κ × ℕ)) : TransitionSystem (Finset (κ × ℕ) × (ι → Holding κ α)) where
  init s := (∀ r, r ∈ s.1 ↔ r ∈ others ∨ ∃ i, r ∈ given i) ∧ s.2 = programs
  step s s' := ∃ i x', Turn s.1 (s.2 i) s'.1 x' ∧ s'.2 = Function.update s.2 i x'

/-- Each program owns its part of the resources that are held, and no two parts meet. -/
structure Divided (y : ι → Option β) (value : α → β) (kept : α → Finset (κ × ℕ))
    (others : Finset (κ × ℕ)) (s : Finset (κ × ℕ) × (ι → Holding κ α))
    (owned : ι → Finset (κ × ℕ)) : Prop where
  owns : ∀ i, Owns (owned i) (s.2 i) (y i) value kept
  disjoint : ∀ i j, i ≠ j → Disjoint (owned i) (owned j)
  disjoint_others : ∀ i, Disjoint (owned i) others
  mem_iff : ∀ r, r ∈ s.1 ↔ r ∈ others ∨ ∃ i, r ∈ owned i

section Interleaving

variable {y : ι → Option β} {programs : ι → Holding κ α} {given owned : ι → Finset (κ × ℕ)}
  {s s' : Finset (κ × ℕ) × (ι → Holding κ α)}

/-- No program has misused a resource. One at its end has the result of the plain computation, and
one at fault has none. -/
theorem Divided.result (h : Divided y value kept others s owned) (i : ι) :
    s.2 i ≠ misused ∧ (s.2 i = fault → y i = none) ∧
      ∀ a, s.2 i = done a → y i = some (value a) ∧ owned i = kept a := by
  have hi := h.owns i
  refine ⟨?_, ?_, ?_⟩
  · intro hmisused
    rw [hmisused] at hi
    cases hi
  · intro hfault
    rw [hfault] at hi
    cases hi with
    | fault hy => exact hy
  · intro a hdone
    rw [hdone] at hi
    cases hi with
    | done hkept hy => exact ⟨hy, hkept⟩

/-- Once all programs are at their ends, and keep nothing, only the others are held. -/
theorem Divided.held_eq (h : Divided y value (fun _ => ∅) others s owned)
    (hdone : ∀ i, ∃ a, s.2 i = done a) : s.1 = others := by
  have howned : ∀ i, owned i = ∅ := by
    intro i
    obtain ⟨a, ha⟩ := hdone i
    exact ((h.result i).2.2 a ha).2
  ext r
  simp [h.mem_iff, howned]

theorem Divided.subset (h : Divided y value kept others s owned) (i : ι) : owned i ⊆ s.1 :=
  fun r hr => (h.mem_iff r).mpr (.inr ⟨i, hr⟩)

variable [DecidableEq ι]

theorem Divided.step (h : Divided y value kept others s owned)
    (hstep : (interleaving programs given others).step s s') :
    ∃ owned', Divided y value kept others s' owned' := by
  obtain ⟨i, x', hturn, hthreads⟩ := hstep
  obtain ⟨given', howns, hsubset, hframe⟩ := (h.owns i).turn (h.subset i) hturn
  have hmem : ∀ r, r ∈ s'.1 ∧ r ∉ given' ↔ r ∈ s.1 ∧ r ∉ owned i := by
    intro r
    rw [← Finset.mem_sdiff, ← Finset.mem_sdiff, hframe]
  -- What is held and not owned by the program that took its turn is as before.
  have hpart : ∀ part, part ⊆ s.1 → Disjoint (owned i) part →
      part ⊆ s'.1 ∧ Disjoint given' part := by
    intro part hpart hdisjoint
    rw [Finset.disjoint_right] at hdisjoint ⊢
    exact ⟨fun r hr => ((hmem r).mpr ⟨hpart hr, hdisjoint hr⟩).1,
      fun r hr => ((hmem r).mpr ⟨hpart hr, hdisjoint hr⟩).2⟩
  have hothers : others ⊆ s.1 := fun r hr => (h.mem_iff r).mpr (.inl hr)
  refine ⟨Function.update owned i given', ?_, ?_, ?_, ?_⟩
  · intro j
    rw [hthreads]
    by_cases hji : j = i
    · subst hji
      rwa [Function.update_self, Function.update_self]
    · rw [Function.update_of_ne hji, Function.update_of_ne hji]
      exact h.owns j
  · intro j k hjk
    by_cases hji : j = i
    · subst hji
      rw [Function.update_self, Function.update_of_ne hjk.symm]
      exact (hpart _ (h.subset k) (h.disjoint j k hjk)).2
    by_cases hki : k = i
    · subst hki
      rw [Function.update_self, Function.update_of_ne hji]
      exact (hpart _ (h.subset j) (h.disjoint k j hjk.symm)).2.symm
    · rw [Function.update_of_ne hji, Function.update_of_ne hki]
      exact h.disjoint j k hjk
  · intro j
    by_cases hji : j = i
    · subst hji
      rw [Function.update_self]
      exact (hpart _ hothers (h.disjoint_others j)).2
    · rw [Function.update_of_ne hji]
      exact h.disjoint_others j
  · intro r
    constructor
    · intro hr
      by_cases hgiven : r ∈ given'
      · exact .inr ⟨i, by rwa [Function.update_self]⟩
      obtain ⟨hheld, hi⟩ := (hmem r).mp ⟨hr, hgiven⟩
      rcases (h.mem_iff r).mp hheld with hother | ⟨j, hj⟩
      · exact .inl hother
      · have hji : j ≠ i := fun hji => hi (hji ▸ hj)
        exact .inr ⟨j, by rwa [Function.update_of_ne hji]⟩
    · rintro (hother | ⟨j, hj⟩)
      · exact (hpart _ hothers (h.disjoint_others i)).1 hother
      by_cases hji : j = i
      · subst hji
        rw [Function.update_self] at hj
        exact hsubset hj
      · rw [Function.update_of_ne hji] at hj
        exact (hpart _ (h.subset j) (h.disjoint i j (Ne.symm hji))).1 hj

/-- **Interleavings.** Programs that own different resources run alternately as each of them does
by itself. -/
theorem exists_divided (howns : ∀ i, Owns (given i) (programs i) (y i) value kept)
    (hdisjoint : ∀ i j, i ≠ j → Disjoint (given i) (given j))
    (hothers : ∀ i, Disjoint (given i) others)
    (h : (interleaving programs given others).Reachable s) :
    ∃ owned, Divided y value kept others s owned := by
  induction h with
  | init hinit =>
    obtain ⟨hmem, hprograms⟩ := hinit
    exact ⟨given, fun i => hprograms ▸ howns i, hdisjoint, hothers, hmem⟩
  | step _ hstep ih =>
    obtain ⟨owned, hdivided⟩ := ih
    exact hdivided.step hstep

/-- A program that takes a turn and goes on by itself. -/
theorem steps_of_turn {i : ι} {x x' x'' : Holding κ α} {held' held'' : Finset (κ × ℕ)}
    (hi : s.2 i = x) (hturn : Turn s.1 x held' x')
    (hrest : Relation.ReflTransGen (interleaving programs given others).step
      (held', Function.update s.2 i x')
      (held'', Function.update (Function.update s.2 i x') i x'')) :
    Relation.ReflTransGen (interleaving programs given others).step s
      (held'', Function.update s.2 i x'') := by
  subst hi
  rw [Function.update_idem] at hrest
  exact .head ⟨i, x', hturn, rfl⟩ hrest

/-- One program may run to its end while the others wait. -/
theorem steps_of_run {allocator : Allocator κ} {i : ι} {a : α} {held' : Finset (κ × ℕ)}
    {x : Holding κ α} {s : Finset (κ × ℕ) × (ι → Holding κ α)} (hi : s.2 i = x)
    (hrun : x.run allocator s.1 = .ok (a, held')) :
    Relation.ReflTransGen (interleaving programs given others).step s
      (held', Function.update s.2 i (done a)) := by
  induction x generalizing s with
  | done b =>
    cases hrun
    rw [← hi, Function.update_eq_self]
  | fault => cases hrun
  | misused => cases hrun
  | acquireThen k next ih =>
    exact steps_of_turn hi (.acquire (allocator.fresh_notMem k s.1))
      (ih _ (Function.update_self ..) hrun)
  | useThen k id next ih =>
    rw [run] at hrun
    split at hrun
    · exact steps_of_turn hi (.use ‹_›) (ih (Function.update_self ..) hrun)
    · cases hrun
  | releaseThen k id next ih =>
    rw [run] at hrun
    split at hrun
    · exact steps_of_turn hi (.release ‹_›) (ih (Function.update_self ..) hrun)
    · cases hrun

/-- A program whose plain computation has a result can come to its end by itself. -/
theorem Divided.exists_run (h : Divided y value kept others s owned) {i : ι} {b : β}
    (hy : y i = some b) (allocator : Allocator κ) :
    ∃ a held', value a = b ∧
      Relation.ReflTransGen (interleaving programs given others).step s
        (held', Function.update s.2 i (done a)) := by
  have hrun := (h.owns i).run allocator (Finset.disjoint_sdiff (s := owned i) (t := s.1))
  rw [Finset.union_sdiff_of_subset (h.subset i)] at hrun
  obtain ⟨-, hnone⟩ | ⟨a, hrun, hsome⟩ := hrun
  · cases hy.symm.trans hnone
  · exact ⟨a, _, Option.some.inj (hsome.symm.trans hy), steps_of_run rfl hrun⟩

end Interleaving

end Holding

end CExamples

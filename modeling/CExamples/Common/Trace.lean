import Mathlib.Data.List.Perm.Basic
import Mathlib.Tactic.Common

/-!
# Programs that log their calls and may exit

A `Trace` is what one run of a program comes to: its calls in order, and a value or an exit code.
`Balances` is a triple about the resources that calls open and close: from what the program is given
and opens, it closes each exactly once or keeps it, and on exit it keeps nothing. The rules follow
the program's structure (`balances_bind` for two statements in sequence).
-/

namespace CExamples

/-- The calls of a run, and its value or its exit code. -/
@[ext] structure Trace (ω ε α : Type) where
  calls : List ω
  outcome : Except ε α

namespace Trace

variable {ω ε α β ρ : Type}

instance : Monad (Trace ω ε) where
  pure a := ⟨[], .ok a⟩
  bind x f :=
    match x.outcome with
    | .ok a => ⟨x.calls ++ (f a).calls, (f a).outcome⟩
    | .error e => ⟨x.calls, .error e⟩

/-- One call. -/
def log (call : ω) : Trace ω ε Unit :=
  ⟨[call], .ok ()⟩

/-- The end of the program. -/
def exit (code : ε) : Trace ω ε α :=
  ⟨[], .error code⟩

theorem pure_eq (a : α) : (pure a : Trace ω ε α) = ⟨[], .ok a⟩ := rfl

@[simp] theorem log_bind (call : ω) (f : Unit → Trace ω ε β) :
    log call >>= f = ⟨call :: (f ()).calls, (f ()).outcome⟩ := rfl

@[simp] theorem ok_bind (calls : List ω) (a : α) (f : α → Trace ω ε β) :
    (⟨calls, .ok a⟩ : Trace ω ε α) >>= f = ⟨calls ++ (f a).calls, (f a).outcome⟩ := rfl

/-! ## Resources -/

section Resources

variable (opened closed : ω → Option ρ)

/-- What is given or opened is closed or kept, each once, and nothing is kept on exit. -/
def Balances (given : List ρ) (x : Trace ω ε α) (kept : α → List ρ) : Prop :=
  (given ++ x.calls.filterMap opened).Perm (x.calls.filterMap closed ++
    match x.outcome with
    | .ok a => kept a
    | .error _ => [])

variable {opened closed} {given : List ρ} {kept : α → List ρ}

theorem balances_pure {a : α} (h : given.Perm (kept a)) :
    Balances opened closed given (pure a : Trace ω ε α) kept := by
  simpa [Balances, pure_eq] using h

theorem balances_exit {code : ε} :
    Balances opened closed [] (exit code : Trace ω ε α) kept := by
  simp [Balances, exit]

/-- A call opens or closes what it says. -/
theorem balances_log {call : ω} {kept : List ρ}
    (h : (given ++ (opened call).toList).Perm ((closed call).toList ++ kept)) :
    Balances opened closed given (log call : Trace ω ε Unit) fun _ => kept := by
  have hfilter : ∀ f : ω → Option ρ, [call].filterMap f = (f call).toList := by
    intro f
    cases hf : f call <;> simp [hf]
  simpa [Balances, log, hfilter] using h

/-- **Two statements in sequence**: what the first keeps is given to the second. -/
theorem balances_bind {x : Trace ω ε α} {f : α → Trace ω ε β} {mid : α → List ρ}
    {kept : β → List ρ} (hx : Balances opened closed given x mid)
    (hf : ∀ a, Balances opened closed (mid a) (f a) kept) :
    Balances opened closed given (x >>= f) kept := by
  obtain ⟨calls, outcome⟩ := x
  cases outcome with
  | error code => exact hx
  | ok a =>
    have hfa := hf a
    simp only [Balances, ok_bind, List.filterMap_append] at hx hfa ⊢
    have hfirst := hx.append_right ((f a).calls.filterMap opened)
    have hsecond := hfa.append_left (calls.filterMap closed)
    rw [List.append_assoc _ (mid a)] at hfirst
    rw [← List.append_assoc, List.append_assoc _ ((f a).calls.filterMap closed)]
    exact hfirst.trans hsecond

end Resources

end Trace

end CExamples

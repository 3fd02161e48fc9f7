import CExamples.Common.CString
import CExamples.Common.Repetition
import CExamples.ProducerConsumer.Simulate

/-!
# The program `producer_consumer` (`producer_consumer/src/main.c`)

`main` calls `simulate` a number of times and then checks the results. With at least one thread
every schedule ends in the same complaints (`main_reports`), or in a simulation that hangs, which
depends on the arguments only (`main_ends_iff`).
-/

namespace CExamples.ProducerConsumer

open C MonitorProgram Program Process TransitionSystem

/-! ## The checks of `main` -/

def totalPutsError (i : ℕ) : CString :=
  .ofLiteral "\n**Error**: results[" ++ .ofInt i ++ .ofLiteral "].total_puts != max_requests\n\n"

def finalBufferCountError (i : ℕ) : CString :=
  .ofLiteral "\n**Error**: results[" ++ .ofInt i ++ .ofLiteral "].final_buffer_count != 0\n\n"

/-- The body of the loop over the results. -/
def checkResults (maxRequests : ℤ) (result : SimulationResults) (i : ℕ) : List CString :=
  (if result.totalPuts ≠ maxRequests then [totalPutsError i] else []) ++
    (if result.finalBufferCount ≠ 0 then [finalBufferCountError i] else [])

/-- What `main` prints to `stderr`. -/
def errors (maxRequests : ℤ) (results : List SimulationResults) : List CString :=
  results.zipIdx.flatMap fun result => checkResults maxRequests result.1 result.2

/-! ## The simulations -/

/-- What `simulate` returns, once it has. -/
def returned {cfg : Arguments} (p : Process cfg) : Option SimulationResults :=
  match p.fault, p.main with
  | false, [] => p.results
  | _, _ => none

/-- The loop that calls `simulate`. -/
def simulations (cfg : Arguments) (numSimulations : ℕ) (spurious : Bool) :
    TransitionSystem (Runs (Process cfg) SimulationResults) :=
  (system cfg spurious).repeated returned numSimulations

section

variable {cfg : Arguments} {spurious : Bool} {p : Process cfg}
  {r : Runs (Process cfg) SimulationResults} {n : ℕ}

/-- What `simulate` returns if it is called with a thread. -/
def Arguments.results (cfg : Arguments) : SimulationResults where
  totalPuts := cfg.limit
  finalBufferCount := if cfg.numConsumers = 0 then cfg.limit else 0

/-- A `simulate` that has returned has joined its threads. -/
theorem results_of_main_nil (hthreads : 0 < cfg.numProducers + cfg.numConsumers)
    (h : (system cfg spurious).Reachable p) (hmain : p.main = []) :
    p.results = some cfg.results := by
  obtain ⟨pre, hinv⟩ := Inv.of_reachable (nonempty_thread hthreads) h
  obtain rfl := hinv.eq_simulate hmain
  obtain ⟨hputs, hcount⟩ := counters_of_returned hinv.reachable hthreads
    fun k => hinv.joined k (mem_simulate _)
  rw [hinv.results (mem_simulate _), hputs, hcount]
  rfl

theorem results_eq_of_returned (hthreads : 0 < cfg.numProducers + cfg.numConsumers)
    (h : (system cfg spurious).Reachable p) {result : SimulationResults}
    (hresult : returned p = some result) : result = cfg.results := by
  unfold returned at hresult
  split at hresult
  · rename_i hmain
    rw [results_of_main_nil hthreads h hmain] at hresult
    exact (Option.some.inj hresult).symm
  · cases hresult

theorem errors_replicate (maxRequests : ℤ) (n : ℕ) (result : SimulationResults) :
    errors maxRequests (List.replicate n result) =
      (List.range n).flatMap (checkResults maxRequests result) := by
  have hindexed : (List.replicate n result).zipIdx = (List.range n).map fun i => (result, i) := by
    apply List.ext_getElem <;> simp
  rw [errors, hindexed, List.flatMap_map]

theorem checkResults_results (i : ℕ) :
    checkResults cfg.maxRequests cfg.results i =
      (if cfg.maxRequests < 0 then [totalPutsError i] else []) ++
        (if cfg.numConsumers = 0 ∧ 0 < cfg.maxRequests then [finalBufferCountError i] else []) := by
  have hlimit : (cfg.limit : ℤ) = max 0 cfg.maxRequests := by
    unfold Arguments.limit
    omega
  have hputs : cfg.results.totalPuts ≠ cfg.maxRequests ↔ cfg.maxRequests < 0 := by
    rw [Arguments.results, hlimit]
    dsimp only
    omega
  have hcount : cfg.results.finalBufferCount ≠ 0 ↔
      cfg.numConsumers = 0 ∧ 0 < cfg.maxRequests := by
    rw [Arguments.results, hlimit]
    dsimp only
    split <;> omega
  simp only [checkResults, hputs, hcount]

/-- A loop that is stuck in a `simulate` hangs there. -/
theorem hang_of_stuck (hthreads : 0 < cfg.numProducers + cfg.numConsumers)
    (h : (simulations cfg n false).Reachable r) (hstuck : (simulations cfg n false).Stuck r) :
    (r.current = none ∧ r.results.length = n) ∨
      ∃ p, (system cfg false).Reachable p ∧ p.fault = false ∧ (system cfg false).Stuck p ∧
        p.main ≠ [] := by
  obtain ⟨results, current⟩ := r
  have hrepeated := h.repeated
  cases current with
  | none =>
    exact .inl ⟨rfl, length_of_stuck_repeated ⟨_, rfl⟩ hrepeated.length_le hstuck⟩
  | some p =>
    obtain ⟨hp, -⟩ := hrepeated.current p rfl
    obtain ⟨hstuck, hnone⟩ := stuck_repeated_iff.mp hstuck
    obtain ⟨pre, hinv⟩ := Inv.of_reachable (nonempty_thread hthreads) hp
    refine .inr ⟨p, hp, hinv.fault, hstuck, ?_⟩
    intro hmain
    rw [returned, hinv.fault, hmain] at hnone
    dsimp only at hnone
    rw [results_of_main_nil hthreads hp hmain] at hnone
    cases hnone

/-- Arguments that no simulation may hang for have a schedule that makes them all. -/
theorem exists_simulations (hthreads : 0 < cfg.numProducers + cfg.numConsumers)
    (hhang : ¬cfg.MayHang) (n : ℕ) :
    ∃ r, (simulations cfg n false).Reachable r ∧ r.results.length = n := by
  obtain ⟨r, hr, hstuck⟩ := exists_stuck_of_bounded
    (T := simulations cfg n false) (fun k r h => length_le_of_repeated length_le_of_reachableIn h)
    rfl
  rcases hang_of_stuck hthreads hr hstuck with ⟨-, hend⟩ | hp
  · exact ⟨r, hr, hend⟩
  · exact absurd ((exists_hang_iff cfg false).mp hp) hhang

/-- **What `main` reports.** However the threads of its simulations are scheduled, once `main` has
made them all, it complains of the puts of each exactly for a negative number of requests, and of
the buffer of each exactly if there are requests and no consumers. -/
theorem main_reports (cfg : Arguments) (numSimulations : ℕ) (spurious : Bool)
    (hthreads : 0 < cfg.numProducers + cfg.numConsumers)
    (r : Runs (Process cfg) SimulationResults)
    (h : (simulations cfg numSimulations spurious).Reachable r)
    (hend : r.results.length = numSimulations) :
    errors cfg.maxRequests r.results = (List.range numSimulations).flatMap fun i =>
      (if cfg.maxRequests < 0 then [totalPutsError i] else []) ++
        (if cfg.numConsumers = 0 ∧ 0 < cfg.maxRequests then [finalBufferCountError i] else []) := by
  have hresults : r.results = List.replicate numSimulations cfg.results := by
    refine List.eq_replicate_iff.mpr ⟨hend, fun result hresult => ?_⟩
    obtain ⟨p, hp, hreturned⟩ := h.repeated.results result hresult
    exact results_eq_of_returned hthreads hp hreturned
  rw [hresults, errors_replicate]
  exact congrArg (List.flatMap · _) (funext checkResults_results)

/-- One producer, no consumer, and a slot more than requests. -/
def noConsumers : Arguments :=
  { (oneOfEach : Arguments) with
    numConsumers := 0
    bufferSize := 2
    bufferSize_pos := by decide
    bufferSize_le := by decide }

/-- Two simulations without consumers, each of which leaves its request in the buffer. -/
theorem main_reports_noConsumers : ∃ r, (simulations noConsumers 2 false).Reachable r ∧
    errors 1 r.results = [finalBufferCountError 0, finalBufferCountError 1] := by
  have hnone : ¬noConsumers.MayHang := by
    rw [Arguments.MayHang]
    decide
  obtain ⟨r, hr, hend⟩ := exists_simulations (by decide) hnone 2
  exact ⟨r, hr, main_reports noConsumers 2 false (by decide) r hr hend⟩

/-- **When `main` ends.** Every schedule of all the simulations is finite, and every one that cannot
go on has made them all exactly if the arguments are not such that a simulation may hang. -/
theorem main_ends_iff (cfg : Arguments) (numSimulations : ℕ) (hpos : 0 < numSimulations)
    (hthreads : 0 < cfg.numProducers + cfg.numConsumers) :
    (∀ k r, (simulations cfg numSimulations false).ReachableIn k r →
      k ≤ numSimulations *
        (4 * (cfg.numProducers + cfg.numConsumers) + 19 + maxStatements cfg + 2)) ∧
      ((∀ r, (simulations cfg numSimulations false).Reachable r →
        (simulations cfg numSimulations false).Stuck r →
          r.current = none ∧ r.results.length = numSimulations) ↔ ¬cfg.MayHang) := by
  refine ⟨fun k r h => length_le_of_repeated (fun m p => length_le_of_reachableIn m p) h, ?_⟩
  rw [← exists_hang_iff cfg false]
  constructor
  · rintro hends ⟨p, hp, -, hstuck, hmain⟩
    have hnone : returned p = none := by
      unfold returned
      split
      · rename_i hnil
        exact absurd hnil hmain
      · rfl
    obtain ⟨⟨⟩, -⟩ := hends ⟨[], some p⟩ (hp.first_run hpos)
      (stuck_repeated_iff.mpr ⟨hstuck, hnone⟩)
  · intro hhang r h hstuck
    exact (hang_of_stuck hthreads h hstuck).resolve_right hhang

theorem main_ends_oneOfEach :
    ¬∃ r, (simulations (oneOfEach : Arguments) 2 false).Reachable r ∧
      (simulations (oneOfEach : Arguments) 2 false).Stuck r ∧ r.results.length ≠ 2 := by
  have hnone : ¬(oneOfEach : Arguments).MayHang := by
    rw [Arguments.MayHang]
    decide
  rintro ⟨r, hr, hstuck, hne⟩
  exact hne ((main_ends_iff oneOfEach 2 two_pos (by decide)).2.mpr hnone r hr hstuck).2

end

end CExamples.ProducerConsumer

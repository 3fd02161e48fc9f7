import CExamples.ClientServer.ServerProcess
import CExamples.Common.Ledger

/-!
# The server's threads do not meet

Each cell and each open connection is held by exactly one thread (`ServerProcess.Inv`): `main` hands
both over to the worker that it creates, and after that touches neither. So no thread uses memory or
a descriptor that another one has given up, every connection is closed once, and what a worker sends
depends on its own request alone, whatever the other threads do.
-/

namespace CExamples.ClientServer

open C Ledger

/-! ## What a thread holds -/

/-- The descriptor that a cell holds. -/
def stored (cells : ℕ → Option Cell) (p : ℕ) : Option ℤ :=
  match cells p with
  | some (.value fd) => if fd = -1 then none else some fd
  | _ => none

theorem stored_eq_some_iff {cells : ℕ → Option Cell} {p : ℕ} {fd : ℤ} :
    stored cells p = some fd ↔ cells p = some (.value fd) ∧ fd ≠ -1 := by
  unfold stored
  split
  · rename_i n hn
    rw [hn]
    split
    · simp_all
    · rename_i hne
      simp only [Option.some_inj, Cell.value.injEq]
      constructor
      · rintro rfl
        exact ⟨rfl, hne⟩
      · exact And.left
  · rename_i hne
    simp only [reduceCtorEq, false_iff, not_and]
    exact fun h => absurd h (hne fd)

theorem stored_congr {cells cells' : ℕ → Option Cell} {p : ℕ} (h : cells' p = cells p) :
    stored cells' p = stored cells p := by
  rw [stored, h]
  rfl

namespace MainPoint

/-- The cell that `main` is still to free or to hand over. -/
def cell : MainPoint → Option ℕ
  | .malloc => none
  | .accept p => p
  | .test p => some p
  | .create p => some p
  | .detach => none
  | .cleanup p => some p
  | .shutdown p _ => some p
  | .close p _ => some p
  | .free p => some p

/-- The descriptor that `main` is still to close or to hand over. -/
def descriptor (cells : ℕ → Option Cell) : MainPoint → Option ℤ
  | .malloc => none
  | .accept _ => none
  | .test p => stored cells p
  | .create p => stored cells p
  | .detach => none
  | .cleanup p => stored cells p
  | .shutdown _ fd => some fd
  | .close _ fd => some fd
  | .free _ => none

theorem descriptor_congr {cells cells' : ℕ → Option Cell} (m : MainPoint)
    (h : ∀ p, m.cell = some p → cells' p = cells p) : m.descriptor cells' = m.descriptor cells := by
  cases m with
  | test p | create p | cleanup p => exact stored_congr (h p rfl)
  | malloc | accept | detach | shutdown | close | free => rfl

/-- What the next statement of `main` expects of the cell that it reads. -/
def Reads (cells : ℕ → Option Cell) : MainPoint → Prop
  | .test p => ∃ n, cells p = some (.value n)
  | .create p => ∃ fd, stored cells p = some fd
  | .cleanup p => ∃ fd, stored cells p = some fd
  | _ => True

theorem reads_congr {cells cells' : ℕ → Option Cell} (m : MainPoint)
    (h : ∀ p, m.cell = some p → cells' p = cells p) : m.Reads cells' ↔ m.Reads cells := by
  cases m with
  | test p => rw [Reads, Reads, h p rfl]
  | create p | cleanup p => rw [Reads, Reads, stored_congr (h p rfl)]
  | malloc | accept | detach | shutdown | close | free => rfl

end MainPoint

namespace WorkerPoint

/-- The cell that a worker is still to free. -/
def cell : WorkerPoint → Option ℕ
  | .readArg p => some p
  | .freeArg p _ => some p
  | _ => none

/-- The descriptor that a worker is still to close. -/
def descriptor (cells : ℕ → Option Cell) : WorkerPoint → Option ℤ
  | .readArg p => stored cells p
  | .freeArg _ fd => some fd
  | .receive fd => some fd
  | .handle fd _ => some fd
  | .shutdown fd => some fd
  | .close fd => some fd
  | .returned => none

theorem descriptor_congr {cells cells' : ℕ → Option Cell} (w : WorkerPoint)
    (h : ∀ p, w.cell = some p → cells' p = cells p) : w.descriptor cells' = w.descriptor cells := by
  cases w with
  | readArg p => exact stored_congr (h p rfl)
  | freeArg | receive | handle | shutdown | close | returned => rfl

/-- What the next statement of a worker expects of the cell that it reads. -/
def Reads (cells : ℕ → Option Cell) : WorkerPoint → Prop
  | .readArg p => ∃ fd, stored cells p = some fd
  | _ => True

theorem reads_congr {cells cells' : ℕ → Option Cell} (w : WorkerPoint)
    (h : ∀ p, w.cell = some p → cells' p = cells p) : w.Reads cells' ↔ w.Reads cells := by
  cases w with
  | readArg p => rw [Reads, Reads, stored_congr (h p rfl)]
  | freeArg | receive | handle | shutdown | close | returned => rfl

end WorkerPoint

namespace ServerProcess

/-- The cells that the threads hold, `main` being `none`. -/
def cellOf (s : ServerProcess) : Option ℕ → Option ℕ
  | none => s.main.cell
  | some c => (s.workers c).bind WorkerPoint.cell

/-- The descriptors that they hold. -/
def descriptorOf (s : ServerProcess) : Option ℕ → Option ℤ
  | none => s.main.descriptor s.cells
  | some c => (s.workers c).bind (WorkerPoint.descriptor s.cells)

/-- A connection is open if a descriptor refers to it. -/
def Open (s : ServerProcess) (c : ℕ) : Prop :=
  ∃ fd, s.descriptors fd = some (.connection c)

variable {out : Outside} {s s' : ServerProcess} {c c' p : ℕ} {fd fd' : ℤ} {w : WorkerPoint}

/-- What `main` knows of the cell and the descriptor that it holds. -/
structure MainReady (s : ServerProcess) : Prop where
  reads : s.main.Reads s.cells
  connection : ∀ fd, s.main.descriptor s.cells = some fd → ∃ c, s.accepted = c + 1 ∧
    s.descriptors fd = some (.connection c) ∧ s.workers c = none

/-- How far a worker has come with the calls that it makes for its own request. -/
def Progress (out : Outside) (c : ℕ) (sent : List (List UInt8)) : WorkerPoint → Prop
  | .readArg _ => sent = []
  | .freeArg _ _ => sent = []
  | .receive _ => sent = []
  | .handle _ calls => ∃ made, (out.worker c).calls (out.received c) = some (made ++ calls) ∧
      sent = pieces made
  | .shutdown _ | .close _ | .returned =>
      ∃ calls, (out.worker c).calls (out.received c) = some calls ∧ sent = pieces calls

/-- What a worker knows of the cell and the descriptor that it holds, and of its connection. -/
structure WorkerReady (out : Outside) (s : ServerProcess) (c : ℕ) (w : WorkerPoint) : Prop where
  lt_accepted : c < s.accepted
  reads : w.Reads s.cells
  connection : ∀ fd, w.descriptor s.cells = some fd → fd ≠ -1 ∧
    s.descriptors fd = some (.connection c)
  progress : Progress out c (s.sent c) w

/-- **The invariant of the process.** -/
structure Inv (out : Outside) (s : ServerProcess) : Prop where
  cells : Balanced s.cellOf fun p => s.cells p ≠ none
  descriptors : Balanced s.descriptorOf fun fd => ∃ c, s.descriptors fd = some (.connection c)
  listening : s.descriptors out.serverSocket = some .listening
  main : MainReady s
  worker : ∀ c w, s.workers c = some w → WorkerReady out s c w
  refused : ∀ c, s.workers c = none → s.sent c = []
  fresh : ∀ c, s.accepted ≤ c → ¬ s.Open c ∧ s.closes c = 0
  closes : ∀ c, c < s.accepted → s.closes c ≤ 1 ∧ (s.closes c = 0 ↔ s.Open c)

/-! ## What a statement leaves alone -/

/-- The step from `s` to `s'` is one of the threads `acts`: it leaves the points, cells and
descriptors of the others alone. -/
structure Frame (acts : Option ℕ → Prop) (s s' : ServerProcess) : Prop where
  main : ¬ acts none → s'.main = s.main ∧ s'.accepted = s.accepted ∧
    ∀ c, s.workers c = none → s'.workers c = none
  worker : ∀ c, ¬ acts (some c) → s'.workers c = s.workers c ∧ s'.sent c = s.sent c
  working : ∀ c, acts (some c) → s'.workers c ≠ none
  cells : ∀ i p, ¬ acts i → s.cellOf i = some p → s'.cells p = s.cells p
  descriptors : ∀ i fd, ¬ acts i → s.descriptorOf i = some fd →
    s'.descriptors fd = s.descriptors fd
  accepted : s.accepted ≤ s'.accepted

namespace Frame

variable {acts : Option ℕ → Prop} {i : Option ℕ}

theorem cellOf (hf : Frame acts s s') (hi : ¬ acts i) : s'.cellOf i = s.cellOf i := by
  cases i with
  | none => rw [ServerProcess.cellOf, (hf.main hi).1]; rfl
  | some c => rw [ServerProcess.cellOf, (hf.worker c hi).1]; rfl

theorem descriptorOf (hf : Frame acts s s') (hi : ¬ acts i) :
    s'.descriptorOf i = s.descriptorOf i := by
  cases i with
  | none =>
    rw [ServerProcess.descriptorOf, (hf.main hi).1]
    exact MainPoint.descriptor_congr _ fun p hp => hf.cells none p hi hp
  | some c =>
    rw [ServerProcess.descriptorOf, (hf.worker c hi).1]
    cases hw : s.workers c with
    | none => simp [ServerProcess.descriptorOf, hw]
    | some w =>
      have hcells : ∀ p, w.cell = some p → s'.cells p = s.cells p := by
        intro p hp
        exact hf.cells (some c) p hi (by simp [ServerProcess.cellOf, hw, hp])
      simpa [ServerProcess.descriptorOf, hw] using w.descriptor_congr hcells

theorem cellOf_eq_update (hf : Frame (· = i) s s') :
    s'.cellOf = Function.update s.cellOf i (s'.cellOf i) := by
  funext j
  by_cases hj : j = i
  · rw [hj, Function.update_self]
  · rw [Function.update_of_ne hj, hf.cellOf hj]

theorem descriptorOf_eq_update (hf : Frame (· = i) s s') :
    s'.descriptorOf = Function.update s.descriptorOf i (s'.descriptorOf i) := by
  funext j
  by_cases hj : j = i
  · rw [hj, Function.update_self]
  · rw [Function.update_of_ne hj, hf.descriptorOf hj]

theorem mainReady (hf : Frame acts s s') (h : MainReady s) (hi : ¬ acts none) :
    MainReady s' := by
  obtain ⟨hmain, haccepted, hnone⟩ := hf.main hi
  have hcells : ∀ p, s.main.cell = some p → s'.cells p = s.cells p := fun p => hf.cells none p hi
  refine ⟨?_, ?_⟩
  · rw [hmain, MainPoint.reads_congr _ hcells]
    exact h.reads
  · intro fd hfd
    rw [hmain, MainPoint.descriptor_congr _ hcells] at hfd
    obtain ⟨c, hc, hopen, hworker⟩ := h.connection fd hfd
    refine ⟨c, haccepted.trans hc, ?_, hnone c hworker⟩
    rw [hf.descriptors none fd hi hfd, hopen]

theorem workerReady (hf : Frame acts s s') (h : WorkerReady out s c w) (hw : s.workers c = some w)
    (hi : ¬ acts (some c)) : WorkerReady out s' c w := by
  have hcells : ∀ p, w.cell = some p → s'.cells p = s.cells p := by
    intro p hp
    exact hf.cells (some c) p hi (by simp [ServerProcess.cellOf, hw, hp])
  refine ⟨h.lt_accepted.trans_le hf.accepted, (w.reads_congr hcells).mpr h.reads, ?_, ?_⟩
  · intro fd hfd
    rw [w.descriptor_congr hcells] at hfd
    rw [hf.descriptors (some c) fd hi (by simp [ServerProcess.descriptorOf, hw, hfd])]
    exact h.connection fd hfd
  · rw [(hf.worker c hi).2]
    exact h.progress

end Frame

@[simp] theorem workers_setWorker_self (s : ServerProcess) (c : ℕ) (w : WorkerPoint) :
    (s.setWorker c w).workers c = some w :=
  Function.update_self ..

/-- A step of `main` alone. -/
theorem Frame.of_main (hworkers : s'.workers = s.workers) (hsent : s'.sent = s.sent)
    (haccepted : s.accepted ≤ s'.accepted)
    (hcells : ∀ i p, ¬ i = none → s.cellOf i = some p → s'.cells p = s.cells p)
    (hdescriptors : ∀ i fd, ¬ i = none → s.descriptorOf i = some fd →
      s'.descriptors fd = s.descriptors fd) : Frame (· = none) s s' where
  main hi := absurd rfl hi
  worker c _ := ⟨by rw [hworkers], by rw [hsent]⟩
  working c hc := by cases hc
  cells := hcells
  descriptors := hdescriptors
  accepted := haccepted

/-- A step of a worker. -/
theorem Frame.of_worker {w' : WorkerPoint} (hmain : s'.main = s.main)
    (haccepted : s'.accepted = s.accepted)
    (hworkers : s'.workers = Function.update s.workers c (some w')) (hw : s.workers c = some w)
    (hsent : ∀ c', c' ≠ c → s'.sent c' = s.sent c')
    (hcells : ∀ i p, ¬ i = some c → s.cellOf i = some p → s'.cells p = s.cells p)
    (hdescriptors : ∀ i fd, ¬ i = some c → s.descriptorOf i = some fd →
      s'.descriptors fd = s.descriptors fd) : Frame (· = some c) s s' where
  main _ := by
    refine ⟨hmain, haccepted, ?_⟩
    intro c' hc'
    rwa [hworkers, Function.update_of_ne]
    rintro rfl
    cases hw.symm.trans hc'
  worker c' hc' := by
    have hne : c' ≠ c := fun hcc => hc' (congrArg some hcc)
    exact ⟨by rw [hworkers, Function.update_of_ne hne], hsent c' hne⟩
  working c' hc' := by
    cases hc'
    simp [hworkers]
  cells := hcells
  descriptors := hdescriptors
  accepted := haccepted.ge

namespace Inv

variable {acts : Option ℕ → Prop} {i : Option ℕ} {m : MainPoint}

/-- What is left to show of a step. -/
theorem frame (h : Inv out s) (hf : Frame acts s s')
    (hcells : Balanced s'.cellOf fun p => s'.cells p ≠ none)
    (hdescriptors : Balanced s'.descriptorOf fun fd =>
      ∃ c, s'.descriptors fd = some (.connection c))
    (hlistening : s'.descriptors out.serverSocket = some .listening)
    (hmain : acts none → MainReady s')
    (hworker : ∀ c w, acts (some c) → s'.workers c = some w → WorkerReady out s' c w)
    (hfresh : ∀ c, s'.accepted ≤ c → ¬ s'.Open c ∧ s'.closes c = 0)
    (hcloses : ∀ c, c < s'.accepted → s'.closes c ≤ 1 ∧ (s'.closes c = 0 ↔ s'.Open c)) :
    Inv out s' where
  cells := hcells
  descriptors := hdescriptors
  listening := hlistening
  main := by
    by_cases hi : acts none
    · exact hmain hi
    · exact hf.mainReady h.main hi
  worker c w hw := by
    by_cases hi : acts (some c)
    · exact hworker c w hi hw
    · have hw' := (hf.worker c hi).1 ▸ hw
      exact hf.workerReady (h.worker c w hw') hw' hi
  refused c hc := by
    by_cases hi : acts (some c)
    · exact absurd hc (hf.working c hi)
    · obtain ⟨hworkers, hsent⟩ := hf.worker c hi
      rw [hsent]
      exact h.refused c (hworkers ▸ hc)
  fresh := hfresh
  closes := hcloses

/-- A thread that does not act holds other cells. -/
theorem cell_ne (h : Inv out s) {j : Option ℕ} {p' : ℕ} (hi : s.cellOf i = some p) (hij : ¬ j = i)
    (hj : s.cellOf j = some p') : p' ≠ p :=
  h.cells.ne_of_ne hj hi hij

theorem descriptor_ne (h : Inv out s) {j : Option ℕ} (hi : s.descriptorOf i = some fd)
    (hij : ¬ j = i) (hj : s.descriptorOf j = some fd') : fd' ≠ fd :=
  h.descriptors.ne_of_ne hj hi hij

theorem workers_of_fresh (h : Inv out s) (hc : s.accepted ≤ c) : s.workers c = none := by
  by_contra hworker
  obtain ⟨w, hw⟩ := Option.ne_none_iff_exists'.mp hworker
  have := (h.worker c w hw).lt_accepted
  omega

/-! ### Statements that change no resource -/

theorem setMain {m' : MainPoint} (h : Inv out s) (hmain : s.main = m) (hcell : m'.cell = m.cell)
    (hdescriptor : m'.descriptor s.cells = m.descriptor s.cells) (hreads : m'.Reads s.cells) :
    Inv out (s.setMain m') := by
  subst hmain
  have hf : Frame (· = none) s (s.setMain m') :=
    .of_main rfl rfl le_rfl (fun _ _ _ _ => rfl) fun _ _ _ _ => rfl
  have hcellOf : (s.setMain m').cellOf = s.cellOf := by
    rw [hf.cellOf_eq_update]
    exact Function.update_eq_self_iff.mpr hcell
  have hdescriptorOf : (s.setMain m').descriptorOf = s.descriptorOf := by
    rw [hf.descriptorOf_eq_update]
    exact Function.update_eq_self_iff.mpr hdescriptor
  refine h.frame hf (hcellOf ▸ h.cells) (hdescriptorOf ▸ h.descriptors) h.listening
    (fun _ => ⟨hreads, ?_⟩) (fun c w hc => (by cases hc)) h.fresh h.closes
  intro fd hfd
  exact h.main.connection fd (hdescriptor ▸ hfd)

theorem setWorker {w' : WorkerPoint} (h : Inv out s) (hw : s.workers c = some w)
    (hcell : w'.cell = w.cell) (hdescriptor : w'.descriptor s.cells = w.descriptor s.cells)
    (hreads : w'.Reads s.cells) (hprogress : Progress out c (s.sent c) w') :
    Inv out (s.setWorker c w') := by
  have hself := workers_setWorker_self s c w'
  have hf : Frame (· = some c) s (s.setWorker c w') :=
    .of_worker rfl rfl rfl hw (fun _ _ => rfl) (fun _ _ _ _ => rfl) fun _ _ _ _ => rfl
  have hcellOf : (s.setWorker c w').cellOf = s.cellOf := by
    rw [hf.cellOf_eq_update]
    exact Function.update_eq_self_iff.mpr (by simp [cellOf, hw, hcell])
  have hdescriptorOf : (s.setWorker c w').descriptorOf = s.descriptorOf := by
    rw [hf.descriptorOf_eq_update]
    refine Function.update_eq_self_iff.mpr ?_
    simp only [descriptorOf, hself, hw, Option.bind_some]
    exact hdescriptor
  refine h.frame hf (hcellOf ▸ h.cells) (hdescriptorOf ▸ h.descriptors) h.listening
    (fun hc => by cases hc) ?_ h.fresh h.closes
  intro c' w'' hc' hw''
  cases hc'
  cases hself.symm.trans hw''
  have hready := h.worker c w hw
  exact ⟨hready.lt_accepted, hreads, fun fd hfd => hready.connection fd (hdescriptor ▸ hfd),
    hprogress⟩

/-! ### Cells -/

theorem live_of_cellOf (h : Inv out s) (hi : s.cellOf i = some p) : s.cells p ≠ none :=
  h.cells.live_of_holds hi

/-- The thread that holds a cell writes to it. -/
theorem cells_of_store (h : Inv out s) (hf : Frame (· = i) s s') (hi : s.cellOf i = some p)
    (hi' : s'.cellOf i = some p) {n : ℤ}
    (hcells : s'.cells = Function.update s.cells p (some (.value n))) :
    Balanced s'.cellOf fun p => s'.cells p ≠ none := by
  have hcellOf : s'.cellOf = s.cellOf := by
    rw [hf.cellOf_eq_update, hi', ← hi, Function.update_eq_self]
  rw [hcellOf]
  refine h.cells.congr ?_
  intro p'
  by_cases hp : p' = p
  · subst hp
    simpa [hcells] using h.live_of_cellOf hi
  · rw [hcells, Function.update_of_ne hp]

/-- The thread that holds a cell frees it. -/
theorem cells_of_free (h : Inv out s) (hf : Frame (· = i) s s') (hi : s.cellOf i = some p)
    (hi' : s'.cellOf i = none) (hcells : s'.cells = Function.update s.cells p none) :
    Balanced s'.cellOf fun p => s'.cells p ≠ none := by
  rw [hf.cellOf_eq_update, hi']
  refine (h.cells.release hi).congr ?_
  intro p'
  by_cases hp : p' = p
  · subst hp
    simp [hcells]
  · simp [hcells, hp]

/-! ### Descriptors -/

/-- The descriptor of a connection is held by its worker, or by `main` before there is one. -/
theorem holder_of_connection (h : Inv out s) (hfd : s.descriptors fd = some (.connection c)) :
    s.descriptorOf (if s.workers c = none then none else some c) = some fd := by
  obtain ⟨j, hj⟩ := (h.descriptors.live_iff fd).mp ⟨c, hfd⟩
  cases j with
  | none =>
    obtain ⟨c', -, hopen, hworker⟩ := h.main.connection fd hj
    cases hfd.symm.trans hopen
    rwa [if_pos hworker]
  | some c' =>
    obtain ⟨w, hw, hwfd⟩ := Option.bind_eq_some_iff.mp hj
    cases hfd.symm.trans ((h.worker c' w hw).connection fd hwfd).2
    rwa [if_neg (by simp [hw])]

/-- A connection has one descriptor. -/
theorem descriptor_unique (h : Inv out s) (hfd : s.descriptors fd = some (.connection c))
    (hfd' : s.descriptors fd' = some (.connection c)) : fd = fd' :=
  Option.some_inj.mp ((h.holder_of_connection hfd).symm.trans (h.holder_of_connection hfd'))

/-- A new descriptor opens the new connection. -/
theorem open_of_accept (hnew : s.descriptors fd = none)
    (hdescriptors : s'.descriptors =
      Function.update s.descriptors fd (some (.connection s.accepted))) (c : ℕ) :
    s'.Open c ↔ c = s.accepted ∨ s.Open c := by
  constructor
  · rintro ⟨fd', hfd'⟩
    by_cases hne : fd' = fd
    · rw [hdescriptors, hne, Function.update_self] at hfd'
      cases hfd'
      exact .inl rfl
    · rw [hdescriptors, Function.update_of_ne hne] at hfd'
      exact .inr ⟨fd', hfd'⟩
  · rintro (rfl | ⟨fd', hfd'⟩)
    · exact ⟨fd, by rw [hdescriptors, Function.update_self]⟩
    · refine ⟨fd', ?_⟩
      rw [hdescriptors, Function.update_of_ne, hfd']
      rintro rfl
      cases hnew.symm.trans hfd'

/-- Closing a descriptor closes its connection and no other. -/
theorem open_of_close (h : Inv out s) (hfd : s.descriptors fd = some (.connection c))
    (hdescriptors : s'.descriptors = Function.update s.descriptors fd none) (c' : ℕ) :
    s'.Open c' ↔ c' ≠ c ∧ s.Open c' := by
  constructor
  · rintro ⟨fd', hfd'⟩
    have hne : fd' ≠ fd := by
      rintro rfl
      rw [hdescriptors, Function.update_self] at hfd'
      cases hfd'
    rw [hdescriptors, Function.update_of_ne hne] at hfd'
    refine ⟨?_, fd', hfd'⟩
    rintro rfl
    exact hne (h.descriptor_unique hfd' hfd)
  · rintro ⟨hne, fd', hfd'⟩
    refine ⟨fd', ?_⟩
    rw [hdescriptors, Function.update_of_ne, hfd']
    rintro rfl
    cases hfd'.symm.trans hfd
    exact hne rfl

/-- The thread that holds a descriptor closes it. -/
theorem of_close (h : Inv out s) (hf : Frame (· = i) s s') (hi : s.descriptorOf i = some fd)
    (hi' : s'.descriptorOf i = none) (hfd : s.descriptors fd = some (.connection c))
    (hdescriptors : s'.descriptors = Function.update s.descriptors fd none)
    (hcells : s'.cells = s.cells) (hcell : s'.cellOf i = s.cellOf i)
    (haccepted : s'.accepted = s.accepted)
    (hcloses : s'.closes = Function.update s.closes c (s.closes c + 1))
    (hmain : i = none → MainReady s')
    (hworker : ∀ c w, some c = i → s'.workers c = some w → WorkerReady out s' c w) :
    Inv out s' := by
  have hopen := h.open_of_close hfd hdescriptors
  refine h.frame hf ?_ ?_ ?_ (fun hi => hmain hi.symm) hworker ?_ ?_
  · rw [hf.cellOf_eq_update, hcell, Function.update_eq_self, hcells]
    exact h.cells
  · rw [hf.descriptorOf_eq_update, hi']
    refine (h.descriptors.release hi).congr ?_
    intro fd'
    by_cases hne : fd' = fd
    · subst hne
      simp [hdescriptors]
    · simp [hdescriptors, hne]
  · rw [hdescriptors, Function.update_of_ne, h.listening]
    rintro rfl
    cases h.listening.symm.trans hfd
  · intro c' hc'
    have hlt : c < s.accepted := by
      by_contra hge
      exact (h.fresh c (not_lt.mp hge)).1 ⟨fd, hfd⟩
    rw [hopen, hcloses, Function.update_of_ne (by omega)]
    exact ⟨fun hc => (h.fresh c' (haccepted ▸ hc')).1 hc.2, (h.fresh c' (haccepted ▸ hc')).2⟩
  · intro c' hc'
    rw [hopen, hcloses]
    by_cases hcc : c' = c
    · subst hcc
      obtain ⟨-, hzero⟩ := h.closes c' (haccepted ▸ hc')
      rw [Function.update_self, hzero.mpr ⟨fd, hfd⟩]
      simp
    · rw [Function.update_of_ne hcc]
      simpa [hcc] using h.closes c' (haccepted ▸ hc')

end Inv

end ServerProcess

end CExamples.ClientServer

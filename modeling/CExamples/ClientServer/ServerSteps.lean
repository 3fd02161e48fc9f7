import CExamples.ClientServer.ServerThreads

/-!
# The statements of the server's threads

No statement of `main` or of a worker makes a fault out of a state that satisfies the invariant, but
for the two that the code does not guard against: `malloc` fails, or what a worker does with its
request is undefined. So the invariant holds in every reachable state (`Inv.of_reachable`).
-/

namespace CExamples.ClientServer

open C Ledger

namespace ServerProcess

namespace Inv

variable {out : Outside} {s s' : ServerProcess} {c p : ℕ} {fd : ℤ} {w : WorkerPoint}
  {m : MainPoint}

/-! ## The statements of `main` -/

/-- The invariant holds after a statement, which is no fault. -/
def Kept (out : Outside) (r : Except Fault ServerProcess) : Prop :=
  ∃ s', r = .ok s' ∧ Inv out s'

theorem cellOf_main (hmain : s.main = m) : s.cellOf none = m.cell := by
  rw [cellOf, hmain]

theorem descriptorOf_main (hmain : s.main = m) : s.descriptorOf none = m.descriptor s.cells := by
  rw [descriptorOf, hmain]

/-- A statement of `main` alone that leaves its descriptor as it is. -/
theorem descriptors_of_main (h : Inv out s) (hf : Frame (· = none) s s')
    (hdescriptors : s'.descriptors = s.descriptors)
    (hkeep : s'.descriptorOf none = s.descriptorOf none) :
    Balanced s'.descriptorOf fun fd => ∃ c, s'.descriptors fd = some (.connection c) := by
  rw [hf.descriptorOf_eq_update, hkeep, Function.update_eq_self, hdescriptors]
  exact h.descriptors

theorem malloc (h : Inv out s) (hmain : s.main = .malloc) (hp : s.cells p = none) :
    Inv out { s with
      cells := Function.update s.cells p (some .uninitialized)
      main := .accept (some p) } := by
  let s' : ServerProcess := { s with
    cells := Function.update s.cells p (some .uninitialized)
    main := .accept (some p) }
  show Inv out s'
  have hf : Frame (· = none) s s' := by
    refine .of_main rfl rfl le_rfl ?_ fun _ _ _ _ => rfl
    intro j p' _ hj
    refine Function.update_of_ne ?_ ..
    rintro rfl
    exact h.live_of_cellOf hj hp
  refine h.frame hf ?_ ?_ h.listening (fun _ => ⟨trivial, ?_⟩) (fun c w hc => (by cases hc))
    h.fresh h.closes
  · rw [hf.cellOf_eq_update]
    refine (h.cells.acquire (cellOf_main hmain) (not_not.mpr hp)).congr ?_
    intro p'
    have hcells : s'.cells = Function.update s.cells p (some .uninitialized) := rfl
    by_cases hpp : p' = p
    · simp [hcells, hpp]
    · simp [hcells, hpp]
  · exact h.descriptors_of_main hf rfl (descriptorOf_main hmain).symm
  · intro fd hfd
    cases hfd

theorem accept (h : Inv out s) (hmain : s.main = .accept (some p)) (hfd : 0 ≤ fd)
    (hnew : s.descriptors fd = none) :
    Kept out (do return ((← (s.accept fd).store p fd).setMain (.test p))) := by
  have hcell := cellOf_main hmain
  have hlive : (s.accept fd).cells p ≠ none := h.live_of_cellOf hcell
  refine ⟨_, by rw [store, if_neg hlive]; rfl, ?_⟩
  let s' := ({ s.accept fd with
    cells := Function.update s.cells p (some (.value fd)) } : ServerProcess).setMain (.test p)
  show Inv out s'
  have hf : Frame (· = none) s s' := by
    refine .of_main rfl rfl (Nat.le_succ _) ?_ ?_
    · intro j p' hne hj
      exact Function.update_of_ne (h.cell_ne hcell hne hj) ..
    · intro j fd' hne hj
      refine Function.update_of_ne ?_ ..
      rintro rfl
      obtain ⟨c, hc⟩ := h.descriptors.live_of_holds hj
      cases hnew.symm.trans hc
  have hstored : stored s'.cells p = some fd :=
    stored_eq_some_iff.mpr ⟨Function.update_self .., by omega⟩
  have hself : s'.descriptors fd = some (.connection s.accepted) := Function.update_self ..
  have hother : ∀ fd', fd' ≠ fd → s'.descriptors fd' = s.descriptors fd' :=
    fun fd' hne => Function.update_of_ne hne ..
  have hopen : ∀ c, s'.Open c ↔ c = s.accepted ∨ s.Open c := open_of_accept hnew rfl
  have hcloses : s'.closes = s.closes := rfl
  refine h.frame hf (h.cells_of_store hf hcell rfl rfl) ?_ ?_
    (fun _ => ⟨⟨fd, Function.update_self ..⟩, ?_⟩)
    (fun c w hc => (by cases hc)) ?_ ?_
  · have hholds : s'.descriptorOf none = some fd := hstored
    have hdead : ¬∃ c, s.descriptors fd = some (.connection c) := by simp [hnew]
    rw [hf.descriptorOf_eq_update, hholds]
    refine (h.descriptors.acquire (descriptorOf_main hmain) hdead).congr ?_
    intro fd'
    by_cases hne : fd' = fd
    · simp [hne, hself]
    · simp [hne, hother fd' hne]
  · rw [hother, h.listening]
    rintro rfl
    cases hnew.symm.trans h.listening
  · intro fd' hfd'
    cases hstored.symm.trans hfd'
    exact ⟨s.accepted, rfl, hself, h.workers_of_fresh le_rfl⟩
  · intro c (hc : s.accepted + 1 ≤ c)
    obtain ⟨hclosed, hzero⟩ := h.fresh c (by omega)
    rw [hopen]
    refine ⟨?_, hzero⟩
    rintro (hcc | hc')
    · omega
    · exact hclosed hc'
  · intro c (hc : c < s.accepted + 1)
    rw [hopen]
    by_cases hcc : c = s.accepted
    · subst hcc
      simp [hcloses, (h.fresh _ le_rfl).2]
    · simpa [hcloses, hcc] using h.closes c (by omega)

theorem acceptFailed (h : Inv out s) (hmain : s.main = .accept (some p)) :
    Kept out (do return ((← s.store p (-1)).setMain (.test p))) := by
  have hcell := cellOf_main hmain
  refine ⟨_, by rw [store, if_neg (h.live_of_cellOf hcell)]; rfl, ?_⟩
  let s' := ({ s with
    cells := Function.update s.cells p (some (.value (-1))) } : ServerProcess).setMain (.test p)
  show Inv out s'
  have hf : Frame (· = none) s s' := by
    refine .of_main rfl rfl le_rfl ?_ fun _ _ _ _ => rfl
    intro j p' hne hj
    exact Function.update_of_ne (h.cell_ne hcell hne hj) ..
  have hstored : stored s'.cells p = none := by
    rw [Option.eq_none_iff_forall_ne_some]
    intro fd hfd
    obtain ⟨hvalue, hne⟩ := stored_eq_some_iff.mp hfd
    have hself : s'.cells p = some (.value (-1)) := Function.update_self ..
    cases hself.symm.trans hvalue
    exact hne rfl
  refine h.frame hf (h.cells_of_store hf hcell rfl rfl) ?_ h.listening
    (fun _ => ⟨⟨-1, Function.update_self ..⟩, ?_⟩)
    (fun c w hc => (by cases hc)) h.fresh h.closes
  · exact h.descriptors_of_main hf rfl (hstored.trans (descriptorOf_main hmain).symm)
  · intro fd' hfd'
    cases hstored.symm.trans hfd'

theorem test (h : Inv out s) (hmain : s.main = .test p) :
    Kept out (do return s.setMain (if (← s.load p) = -1 then .free p else .create p)) := by
  obtain ⟨n, hn⟩ : MainPoint.Reads s.cells (.test p) := hmain ▸ h.main.reads
  refine ⟨_, by rw [load, hn]; rfl, ?_⟩
  split
  · rename_i hfailed
    have hnone : stored s.cells p = none := by rw [stored, hn]; exact if_pos hfailed
    exact h.setMain hmain rfl hnone.symm trivial
  · rename_i hne
    exact h.setMain hmain rfl rfl ⟨n, stored_eq_some_iff.mpr ⟨hn, hne⟩⟩

/-- `main` hands the cell and the connection over to the worker that it creates. -/
theorem create (h : Inv out s) (hmain : s.main = .create p) :
    Inv out ((s.setWorker (s.accepted - 1) (.readArg p)).setMain .detach) := by
  obtain ⟨fd, hfd⟩ : MainPoint.Reads s.cells (.create p) := hmain ▸ h.main.reads
  have hcell := cellOf_main hmain
  have hdescriptor : s.descriptorOf none = some fd := (descriptorOf_main hmain).trans hfd
  obtain ⟨c, hc, hopen, hworker⟩ := h.main.connection fd hdescriptor
  obtain rfl : s.accepted - 1 = c := by omega
  let s' := (s.setWorker (s.accepted - 1) (.readArg p)).setMain .detach
  show Inv out s'
  have hself : s'.workers (s.accepted - 1) = some (.readArg p) := Function.update_self ..
  have hf : Frame (fun i => i = none ∨ i = some (s.accepted - 1)) s s' := by
    refine ⟨fun hi => absurd (.inl rfl) hi, ?_, ?_, fun _ _ _ _ => rfl, fun _ _ _ _ => rfl, le_rfl⟩
    · intro c' hc'
      exact ⟨Function.update_of_ne (fun hcc => hc' (.inr (congrArg some hcc))) .., rfl⟩
    · rintro c' (hc' | hc') <;> cases hc'
      simp [hself]
  have hcellOf : s'.cellOf =
      Function.update (Function.update s.cellOf none none) (some (s.accepted - 1)) (some p) := by
    funext i
    by_cases hi : i = some (s.accepted - 1)
    · simp [hi, cellOf, hself, WorkerPoint.cell]
    · by_cases hi' : i = none
      · subst hi'
        rfl
      · rw [Function.update_of_ne hi, Function.update_of_ne hi', hf.cellOf (by simp [hi, hi'])]
  have hdescriptorOf : s'.descriptorOf =
      Function.update (Function.update s.descriptorOf none none) (some (s.accepted - 1))
        (some fd) := by
    funext i
    by_cases hi : i = some (s.accepted - 1)
    · rw [hi, Function.update_self, descriptorOf, hself]
      exact hfd
    · by_cases hi' : i = none
      · subst hi'
        rfl
      · rw [Function.update_of_ne hi, Function.update_of_ne hi',
          hf.descriptorOf (by simp [hi, hi'])]
  refine h.frame hf ?_ ?_ h.listening (fun _ => ⟨trivial, ?_⟩) ?_ h.fresh h.closes
  · rw [hcellOf]
    exact h.cells.transfer hcell (by simp [cellOf, hworker])
  · rw [hdescriptorOf]
    exact h.descriptors.transfer hdescriptor (by simp [descriptorOf, hworker])
  · intro fd hfd
    cases hfd
  · rintro c' w (hc' | hc') hw <;> cases hc'
    cases hself.symm.trans hw
    have hlt : s.accepted - 1 < s.accepted := by omega
    refine ⟨hlt, ⟨fd, hfd⟩, ?_, h.refused _ hworker⟩
    intro fd' hfd'
    cases hfd.symm.trans hfd'
    exact ⟨(stored_eq_some_iff.mp hfd).2, hopen⟩

theorem cleanup (h : Inv out s) (hmain : s.main = .cleanup p) :
    Kept out (do
      let fd ← s.load p
      return s.setMain (if fd ≠ -1 then .shutdown p fd else .free p)) := by
  obtain ⟨fd, hfd⟩ : MainPoint.Reads s.cells (.cleanup p) := hmain ▸ h.main.reads
  obtain ⟨hvalue, hne⟩ := stored_eq_some_iff.mp hfd
  refine ⟨_, by rw [load, hvalue]; rfl, ?_⟩
  rw [if_pos hne]
  exact h.setMain hmain rfl hfd.symm trivial

/-- The connection whose descriptor `main` has read. -/
theorem connection_of_main (h : Inv out s) (hmain : s.main = m)
    (hfd : m.descriptor s.cells = some fd) : ∃ c, s.connection fd = .ok c ∧
      s.descriptors fd = some (.connection c) := by
  obtain ⟨c, -, hopen, -⟩ := h.main.connection fd (hmain ▸ hfd)
  exact ⟨c, by rw [connection, hopen], hopen⟩

theorem shutdown (h : Inv out s) (hmain : s.main = .shutdown p fd) :
    Kept out (do
      let _ ← s.connection fd
      return s.setMain (.close p fd)) := by
  obtain ⟨c, hc, -⟩ := h.connection_of_main hmain rfl
  exact ⟨s.setMain (.close p fd), by rw [hc]; rfl, h.setMain hmain rfl rfl trivial⟩

theorem close (h : Inv out s) (hmain : s.main = .close p fd) :
    Kept out (do return ((← s.close fd).setMain (.free p))) := by
  obtain ⟨c, hc, hopen⟩ := h.connection_of_main hmain rfl
  refine ⟨_, by rw [ServerProcess.close, hc]; rfl, ?_⟩
  have hdescriptor := descriptorOf_main hmain
  refine h.of_close (i := none) ?_ hdescriptor rfl hopen rfl rfl (cellOf_main hmain).symm rfl rfl
    (fun _ => ⟨trivial, ?_⟩) (fun c w hc => (by cases hc))
  · refine .of_main rfl rfl le_rfl (fun _ _ _ _ => rfl) ?_
    intro j fd' hne hj
    exact Function.update_of_ne (h.descriptor_ne hdescriptor hne hj) ..
  · intro fd' hfd'
    cases hfd'

theorem free (h : Inv out s) (hmain : s.main = .free p) :
    Kept out (do return ((← s.free p).setMain .malloc)) := by
  have hcell := cellOf_main hmain
  refine ⟨_, by rw [ServerProcess.free, if_neg (h.live_of_cellOf hcell)]; rfl, ?_⟩
  let s' := ({ s with cells := Function.update s.cells p none } : ServerProcess).setMain .malloc
  show Inv out s'
  have hf : Frame (· = none) s s' := by
    refine .of_main rfl rfl le_rfl ?_ fun _ _ _ _ => rfl
    intro j p' hne hj
    exact Function.update_of_ne (h.cell_ne hcell hne hj) ..
  refine h.frame hf (h.cells_of_free hf hcell rfl rfl) ?_ h.listening (fun _ => ⟨trivial, ?_⟩)
    (fun c w hc => (by cases hc)) h.fresh h.closes
  · exact h.descriptors_of_main hf rfl (descriptorOf_main hmain).symm
  · intro fd hfd
    cases hfd

/-- **A statement of `main` keeps the invariant**, unless there was no memory for the cell. -/
theorem mainStep (h : Inv out s) {r : Except Fault ServerProcess} (hs : MainStep s r) :
    Kept out r ∨ (r = .error .nullPointer ∧ s.main = .accept none) := by
  cases hs with
  | malloc p hmain hp => exact .inl ⟨_, rfl, h.malloc hmain hp⟩
  | mallocFailed hmain => exact .inl ⟨_, rfl, h.setMain hmain rfl rfl trivial⟩
  | acceptNull hmain => exact .inr ⟨rfl, hmain⟩
  | accept p fd hmain hfd hnew => exact .inl (h.accept hmain hfd hnew)
  | acceptFailed p hmain => exact .inl (h.acceptFailed hmain)
  | test p hmain => exact .inl (h.test hmain)
  | create p hmain => exact .inl ⟨_, rfl, h.create hmain⟩
  | createFailed p hmain =>
    have hreads : MainPoint.Reads s.cells (.create p) := hmain ▸ h.main.reads
    exact .inl ⟨_, rfl, h.setMain hmain rfl rfl hreads⟩
  | detach hmain => exact .inl ⟨_, rfl, h.setMain hmain rfl rfl trivial⟩
  | cleanup p hmain => exact .inl (h.cleanup hmain)
  | shutdown p fd hmain => exact .inl (h.shutdown hmain)
  | close p fd hmain => exact .inl (h.close hmain)
  | free p hmain => exact .inl (h.free hmain)

/-! ## The statements of a worker -/

theorem cellOf_worker (hw : s.workers c = some w) : s.cellOf (some c) = w.cell := by
  rw [cellOf, hw]
  rfl

theorem descriptorOf_worker (hw : s.workers c = some w) :
    s.descriptorOf (some c) = w.descriptor s.cells := by
  rw [descriptorOf, hw]
  rfl

/-- The connection of a worker's descriptor is its own. -/
theorem connection_of_worker (h : Inv out s) (hw : s.workers c = some w)
    (hfd : w.descriptor s.cells = some fd) :
    s.connection fd = .ok c ∧ s.descriptors fd = some (.connection c) ∧ fd ≠ -1 := by
  obtain ⟨hne, hopen⟩ := (h.worker c w hw).connection fd hfd
  exact ⟨by rw [connection, hopen], hopen, hne⟩

theorem readArg (h : Inv out s) (hw : s.workers c = some (.readArg p)) :
    Kept out (do return s.setWorker c (.freeArg p (← s.load p))) := by
  obtain ⟨fd, hfd⟩ := (h.worker c _ hw).reads
  refine ⟨s.setWorker c (.freeArg p fd), ?_, ?_⟩
  · rw [load, (stored_eq_some_iff.mp hfd).1]
    rfl
  · exact h.setWorker hw rfl hfd.symm trivial (h.worker c _ hw).progress

theorem freeArg (h : Inv out s) (hw : s.workers c = some (.freeArg p fd)) :
    Kept out (do return ((← s.free p).setWorker c (.receive fd))) := by
  have hcell := cellOf_worker hw
  have hready := h.worker c _ hw
  refine ⟨_, by rw [ServerProcess.free, if_neg (h.live_of_cellOf hcell)]; rfl, ?_⟩
  let s' := ({ s with
    cells := Function.update s.cells p none } : ServerProcess).setWorker c (.receive fd)
  show Inv out s'
  have hself : s'.workers c = some (.receive fd) := workers_setWorker_self ..
  have hf : Frame (· = some c) s s' := by
    refine .of_worker rfl rfl rfl hw (fun _ _ => rfl) ?_ fun _ _ _ _ => rfl
    intro j p' hne hj
    exact Function.update_of_ne (h.cell_ne hcell hne hj) ..
  refine h.frame hf (h.cells_of_free hf hcell (cellOf_worker hself) rfl) ?_ h.listening
    (fun hc => (by cases hc)) ?_ h.fresh h.closes
  · rw [hf.descriptorOf_eq_update, descriptorOf_worker hself]
    have hkeep : s.descriptorOf (some c) = (WorkerPoint.receive fd).descriptor s'.cells :=
      descriptorOf_worker hw
    rw [← hkeep, Function.update_eq_self]
    exact h.descriptors
  · intro c' w hc' hw'
    cases hc'
    cases hself.symm.trans hw'
    exact ⟨hready.lt_accepted, trivial, hready.connection, hready.progress⟩

theorem receive (h : Inv out s) (hw : s.workers c = some (.receive fd))
    {r : Except Fault ServerProcess} (hr : r = (do
      let received ← s.connection fd
      match (out.worker c).calls (out.received received) with
      | none => .error .request
      | some calls => .ok (s.setWorker c (.handle fd calls)))) :
    Kept out r ∨ (r = .error .request ∧ c < s.accepted ∧
      (out.worker c).calls (out.received c) = none) := by
  obtain ⟨hc, -, -⟩ := h.connection_of_worker hw rfl
  have hready := h.worker c _ hw
  have hsent : s.sent c = [] := hready.progress
  rw [hc] at hr
  cases hcalls : (out.worker c).calls (out.received c) with
  | none =>
    refine .inr ⟨?_, hready.lt_accepted, rfl⟩
    rw [hr]
    simp [Bind.bind, Except.bind, hcalls]
  | some calls =>
    refine .inl ⟨s.setWorker c (.handle fd calls), ?_, ?_⟩
    · rw [hr]
      simp [Bind.bind, Except.bind, hcalls]
    · exact h.setWorker hw rfl rfl trivial ⟨[], hcalls, hsent⟩

theorem handled (h : Inv out s) (hw : s.workers c = some (.handle fd [])) :
    Inv out (s.setWorker c (if fd ≠ -1 then .shutdown fd else .returned)) := by
  obtain ⟨-, -, hne⟩ := h.connection_of_worker hw rfl
  obtain ⟨made, hcalls, hsent⟩ := (h.worker c _ hw).progress
  rw [if_pos hne]
  exact h.setWorker hw rfl rfl trivial ⟨made, by rw [hcalls, List.append_nil], hsent⟩

theorem workerShutdown (h : Inv out s) (hw : s.workers c = some (.shutdown fd)) :
    Kept out (do
      let _ ← s.connection fd
      return s.setWorker c (.close fd)) := by
  obtain ⟨hc, -, -⟩ := h.connection_of_worker hw rfl
  refine ⟨s.setWorker c (.close fd), by rw [hc]; rfl, ?_⟩
  exact h.setWorker hw rfl rfl trivial (h.worker c _ hw).progress

theorem workerClose (h : Inv out s) (hw : s.workers c = some (.close fd)) :
    Kept out (do return ((← s.close fd).setWorker c .returned)) := by
  obtain ⟨hc, hopen, -⟩ := h.connection_of_worker hw rfl
  have hready := h.worker c _ hw
  refine ⟨_, by rw [ServerProcess.close, hc]; rfl, ?_⟩
  have hself : ∀ t : ServerProcess, (t.setWorker c .returned).workers c = some .returned :=
    fun t => workers_setWorker_self ..
  have hdescriptor := descriptorOf_worker hw
  refine h.of_close (i := some c) ?_ hdescriptor (descriptorOf_worker (hself _)) hopen rfl rfl
    ((cellOf_worker (hself _)).trans (cellOf_worker hw).symm) rfl rfl (fun hc => (by cases hc)) ?_
  · refine .of_worker rfl rfl rfl hw (fun _ _ => rfl) (fun _ _ _ _ => rfl) ?_
    intro j fd' hne hj
    exact Function.update_of_ne (h.descriptor_ne hdescriptor hne hj) ..
  · intro c' w hc' hw'
    cases hc'
    cases (hself _).symm.trans hw'
    exact ⟨hready.lt_accepted, trivial, fun fd hfd => (by cases hfd), hready.progress⟩

/-- A call adds what the transport accepts of it to the worker's own connection. -/
theorem call_eq {event : Event} (hc : s.connection fd = .ok c) :
    s.call fd event = .ok { s with
      sent := Function.update s.sent c (s.sent c ++ pieces [event]) } := by
  have hnone : pieces [event] = [] →
      .ok s = (.ok { s with
        sent := Function.update s.sent c (s.sent c ++ pieces [event]) } : Except Fault _) := by
    intro hpieces
    rw [hpieces, List.append_nil, Function.update_eq_self]
  cases event with
  | send data bytesSent =>
    rw [ServerProcess.call, hc]
    rfl
  | stat path => exact hnone rfl
  | fopen path => exact hnone rfl
  | createMessage header payload => exact hnone rfl

theorem call {event : Event} {calls : List Event} (h : Inv out s)
    (hw : s.workers c = some (.handle fd (event :: calls))) :
    Kept out (do return ((← s.call fd event).setWorker c (.handle fd calls))) := by
  obtain ⟨hc, -, -⟩ := h.connection_of_worker hw rfl
  have hready := h.worker c _ hw
  obtain ⟨made, hcalls, hsent⟩ := hready.progress
  refine ⟨_, by rw [call_eq hc]; rfl, ?_⟩
  let s' := ({ s with
    sent := Function.update s.sent c (s.sent c ++ pieces [event]) } : ServerProcess).setWorker c
      (.handle fd calls)
  show Inv out s'
  have hself : s'.workers c = some (.handle fd calls) := workers_setWorker_self ..
  have hf : Frame (· = some c) s s' :=
    .of_worker rfl rfl rfl hw (fun c' hc' => Function.update_of_ne hc' ..) (fun _ _ _ _ => rfl)
      fun _ _ _ _ => rfl
  refine h.frame hf ?_ ?_ h.listening (fun hc => (by cases hc)) ?_ h.fresh h.closes
  · rw [hf.cellOf_eq_update, cellOf_worker hself]
    have hkeep : s.cellOf (some c) = (WorkerPoint.handle fd calls).cell :=
      (cellOf_worker hw).trans rfl
    rw [← hkeep, Function.update_eq_self]
    exact h.cells
  · rw [hf.descriptorOf_eq_update, descriptorOf_worker hself]
    have hkeep : s.descriptorOf (some c) = (WorkerPoint.handle fd calls).descriptor s'.cells :=
      (descriptorOf_worker hw).trans rfl
    rw [← hkeep, Function.update_eq_self]
    exact h.descriptors
  · intro c' w hc' hw'
    cases hc'
    cases hself.symm.trans hw'
    refine ⟨hready.lt_accepted, trivial, hready.connection, made ++ [event], ?_, ?_⟩
    · rw [hcalls, List.append_assoc, List.singleton_append]
    · rw [pieces_append, ← hsent]
      exact Function.update_self ..

/-- **A statement of a worker keeps the invariant**, unless what it does with its request is
undefined. -/
theorem workerStep (h : Inv out s) {r : Except Fault ServerProcess} (hs : WorkerStep out c s r) :
    Kept out r ∨ (r = .error .request ∧ c < s.accepted ∧
      (out.worker c).calls (out.received c) = none) := by
  cases hs with
  | readArg p hw => exact .inl (h.readArg hw)
  | freeArg p fd hw => exact .inl (h.freeArg hw)
  | receive fd hw => exact h.receive hw rfl
  | call fd event calls hw => exact .inl (h.call hw)
  | handled fd hw => exact .inl ⟨_, rfl, h.handled hw⟩
  | shutdown fd hw => exact .inl (h.workerShutdown hw)
  | close fd hw => exact .inl (h.workerClose hw)

/-! ## Runs -/

theorem initial (out : Outside) : Inv out (ServerProcess.initial out) where
  cells := by
    have hnone : (ServerProcess.initial out).cellOf = fun _ => none := by
      funext i
      cases i <;> rfl
    rw [hnone]
    exact Balanced.empty.congr fun p => by simp [ServerProcess.initial]
  descriptors := by
    have hnone : (ServerProcess.initial out).descriptorOf = fun _ => none := by
      funext i
      cases i <;> rfl
    rw [hnone]
    refine Balanced.empty.congr fun fd => iff_of_false ?_ id
    rintro ⟨c, hc⟩
    simp only [ServerProcess.initial, Function.update_apply] at hc
    split at hc <;> cases hc
  listening := by simp [ServerProcess.initial]
  main := ⟨trivial, fun fd hfd => by cases hfd⟩
  worker c w hw := by cases hw
  refused c _ := rfl
  fresh c _ := by
    refine ⟨?_, rfl⟩
    rintro ⟨fd, hfd⟩
    simp only [ServerProcess.initial, Function.update_apply] at hfd
    split at hfd <;> cases hfd
  closes c hc := absurd hc (Nat.not_lt_zero c)

theorem of_reachable {r : Except Fault ServerProcess} (h : (system out).Reachable r) :
    ∀ s, r = .ok s → Inv out s := by
  apply h.invariant (I := fun r => ∀ s, r = .ok s → Inv out s)
  · rintro r rfl s hs
    cases hs
    exact initial out
  · rintro r r' - ih ⟨s, rfl, hs⟩ s' rfl
    cases hs with
    | main hs =>
      rcases (ih s rfl).mainStep hs with ⟨t, ht, hinv⟩ | ⟨herror, -⟩
      · cases ht
        exact hinv
      · cases herror
    | worker c hs =>
      rcases (ih s rfl).workerStep hs with ⟨t, ht, hinv⟩ | ⟨herror, -⟩
      · cases ht
        exact hinv
      · cases herror

end Inv

end ServerProcess

end CExamples.ClientServer

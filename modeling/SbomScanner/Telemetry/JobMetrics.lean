import SbomScanner.Jobs.Terminal
import SbomScanner.NodeScan.Terminal

/-!
# The metrics of finished jobs

`JobMetrics` counts the jobs that reach a terminal state. There is no register of the jobs that are
counted: whoever persists a terminal status counts it, and asks beforehand whether the job was
finished when it was read. The reconcilers do not ask, since the job they have read was pending.

So a job is counted once as long as a finished job stays finished and the reconcilers really write a
job that is not (`jobs_recorded_once`). Neither is certain. A handler may take a finished job back,
and it is counted again at its next end; and a patch by a reconciler with an old cache answers with
the job as it is stored, which may be finished already (`jobs_recorded_twice`).
-/

/-! ## ScanJobs -/

open Transition

namespace SbomScanner.Jobs.Pipeline

variable {s s' : State} {a : Action}

/-- The final update of a catalog takes a finished job back. -/
def Worker.reopens : Worker → Bool
  | .catalogUpdating _ discovered job => job.jobFinished && !discovered.isEmpty
  | _ => false

def Action.closer : Action → Option Nat
  | .catalogUpdate w => some w
  | _ => none

def Action.jobUpdater : Action → Option Nat
  | .jobUpdate i => some i
  | _ => none

/-- No catalog with images is closed for a finished job, and the ScanJob reconciler submits no
status for one. -/
def OneEnd (s : State) (a : Action) : Prop :=
  (∀ w ∈ a.closer, (s.workers w).reopens = false) ∧
    ∀ i ∈ a.jobUpdater, ∀ job ∈ (s.jobReconcilers i).copy, job.jobFinished = false

instance (s : State) (a : Action) : Decidable (OneEnd s a) :=
  inferInstanceAs (Decidable ((∀ w ∈ a.closer, (s.workers w).reopens = false) ∧
    ∀ i ∈ a.jobUpdater, ∀ job ∈ (s.jobReconcilers i).copy, job.jobFinished = false))

structure Ended (s : State) (uid : Nat) : Prop where
  known : uid < s.nextUid
  finished : ∀ {name job}, s.jobs name = some job → job.uid = uid → job.jobFinished = true

theorem ended_step (hs : Consistent s) (hg : OneEnd s a) (h : step s a = some s') {uid : Nat}
    (hended : Ended s uid) : Ended s' uid := by
  refine ⟨lt_of_lt_of_le hended.known (nextUid_le hs.versioned h), ?_⟩
  intro name job hj huid
  cases origin hs.versioned h hj with
  | kept hold => exact hended.finished hold huid
  | created hnew hstatus =>
    have hlt := hended.known
    omega
  | patched hold hsame hstatus =>
    rw [ScanJob.jobFinished_congr (congrArg Status.conditions hstatus)]
    exact hended.finished hold (hsame.symm.trans huid)
  | written hold hsame hw =>
    have hfin := hw.jobFinished hs.sound (hended.finished hold (hsame.symm.trans huid))
    rw [← hfin]
    exact ScanJob.jobFinished_congr rfl
  | @catalogued old w d discovered ha hold hsame hw hstatus =>
    subst ha
    have hfin := hended.finished hold (hsame.symm.trans huid)
    have hempty : discovered = [] := by
      have hreopens := hg.1 w rfl
      rw [hw] at hreopens
      simpa [Worker.reopens, hfin] using hreopens
    have hmark : (old.markComplete s.clock .noImagesToScan "No images to process").jobFinished =
        true := ScanJob.jobFinished_mark ..
    rw [← hmark]
    apply ScanJob.jobFinished_congr
    rw [hstatus, catalogStatus, if_pos hempty]

/-- What is counted was not finished before, and is now. -/
theorem entered_of_tallied (hs' : Versioned s') {job : ScanJob} {found : Bool}
    {status : Status} {recorded : List Nat} (hj : s.jobs job.name = some job)
    (hjobs : s'.jobs = (s.store { job with status := status }).jobs)
    (hopen : found = false → job.jobFinished = false)
    (hr : Tallied s.recorded found { job with status := status } recorded)
    (hrecorded : s'.recorded = recorded) :
    s'.recorded = s.recorded ∨ ∃ uid, ¬Ended s uid ∧ Ended s' uid ∧
      s'.recorded = uid :: s.recorded := by
  subst hrecorded
  generalize hlist : s'.recorded = list at hr
  cases hr with
  | unchanged => exact .inl rfl
  | counted hfound hfin =>
    refine .inr ⟨job.uid, fun hended => ?_, ?_, rfl⟩
    · have hfinished := hended.finished hj rfl
      rw [hopen hfound] at hfinished
      cases hfinished
    · have hstored : s'.jobs job.name =
          some { job with status := status, resourceVersion := s.nextVersion } := by
        rw [hjobs]
        exact Function.update_self ..
      have hknown := hs'.uid_lt (hs'.mem_history hstored)
      refine ⟨hknown, fun hother huid => ?_⟩
      rw [hs'.eq_of_uid hstored hother huid]
      exact hfin

theorem enters_step (hs : Consistent s) (hg : OneEnd s a) (h : step s a = some s') :
    Transition.Enters Ended State.recorded s s' := by
  refine ⟨fun uid _ => ended_step hs hg h, ?_⟩
  have hs' := versioned_step hs.versioned h
  cases step_effect h with
  | catalogSent hw hp | generateSent hw hp | jobSent hw hp =>
    obtain ⟨bus, rfl⟩ := publish_frame hp
    exact .inl rfl
  | @catalogWritten w d discovered job current hw hc recorded hr
  | @failureWritten w d err job current hw hc recorded hr =>
    obtain rfl := hs.versioned.eq_of_accepted (.inl ⟨w, by rw [hw]; rfl⟩) hc
    exact entered_of_tallied hs' hc.1 rfl (fun hfound => hfound) hr rfl
  | @jobWritten i job current status hp hc recorded hr =>
    obtain rfl := hs.versioned.eq_of_accepted (.inr (.inl ⟨i, by rw [hp]; rfl⟩)) hc
    have hopen := hg.2 i rfl current (by rw [hp]; rfl)
    exact entered_of_tallied hs' hc.1 rfl (fun _ => hopen) hr rfl
  | @reportWritten r report job current reports hp hc recorded hr =>
    obtain rfl := hs.versioned.eq_of_accepted (.inr (.inr ⟨r, by rw [hp]; rfl⟩)) hc
    have hincomplete := hs.sound.reportReconcilers r
    rw [hp] at hincomplete
    refine entered_of_tallied hs' hc.1 rfl (fun hfailed => ?_) hr rfl
    unfold ScanJob.jobFinished
    rw [hfailed, hincomplete]
    rfl
  | _ => exact .inl rfl

theorem recorded_nodup {as : List Action} (hg : Transition.Along OneEnd step init as)
    (hs : exec step init as = some s) : s.recorded.Nodup := by
  have hend : Consistent s ∧ Transition.Logged Ended State.recorded s := by
    refine exec_invariant_along
      (I := fun t => Consistent t ∧ Transition.Logged Ended State.recorded t)
      (fun t b t' ht hgb hb => ?_) ⟨consistent_init, List.nodup_nil, nofun⟩ hg hs
    exact ⟨consistent_step ht.1 hb, (enters_step ht.1 hgb hb).logged ht.2⟩
  exact hend.2.nodup

end SbomScanner.Jobs.Pipeline

/-! ## NodeScanJobs -/

namespace SbomScanner.NodeScan

open Versioned (Entry Store)

variable {s s' : State} {a : Action} {name : String}

def Action.reconcileUpdater : Action → Option Nat
  | .reconcileUpdate i => some i
  | _ => none

def Reconcile.copy : Reconcile → Option (Entry NodeScanJob)
  | .updating _ copy _ => some copy
  | _ => none

/-- No handler puts a finished job in progress, and the NodeScanJob reconciler submits no status for
one. -/
def OneEnd (s : State) (a : Action) : Prop :=
  (∀ w ∈ a.marker, ∀ copy ∈ (s.workers w).copy, copy.object.jobFinished = false) ∧
    ∀ i ∈ a.reconcileUpdater, ∀ copy ∈ (s.reconcilers i).copy, copy.object.jobFinished = false

instance (s : State) (a : Action) : Decidable (OneEnd s a) :=
  inferInstanceAs (Decidable (
    (∀ w ∈ a.marker, ∀ copy ∈ (s.workers w).copy, copy.object.jobFinished = false) ∧
    ∀ i ∈ a.reconcileUpdater, ∀ copy ∈ (s.reconcilers i).copy, copy.object.jobFinished = false))

theorem recorded_publish {id : MessageID} {m : Message} {dropped : Bool}
    (h : s.publish id m dropped = some s') : s'.recorded = s.recorded := by
  unfold State.publish at h
  split at h
  · split at h
    · cases h
      rfl
    · cases h
  · cases h
    rfl

theorem entered_of_stored {copy job : Entry NodeScanJob} {status : Status}
    {written : State} (hcopy : copy ∈ (s.stores name).history)
    (hu : s.updateStatus name copy status = .stored written job)
    (hopen : copy.object.jobFinished = false) (hstores : s'.stores = written.stores)
    (hrecorded : s'.recorded = (written.recordNodeScanJobFinished name job).recorded) :
    s'.recorded = s.recorded ∨ ∃ ref, ¬Ended s ref ∧ Ended s' ref ∧
      s'.recorded = ref :: s.recorded := by
  have hended : job.object.jobFinished = true → Ended s' ⟨name, copy.uid⟩ :=
    ended_of_stored hcopy hu hstores
  obtain ⟨store, hstore, rfl, rfl⟩ := updateStatus_eq_stored hu
  obtain ⟨hcurrent, rfl⟩ := Store.update_eq_some hcopy hstore
  rw [hrecorded]
  unfold State.recordNodeScanJobFinished
  split
  case isFalse => exact .inl rfl
  case isTrue hfin =>
    refine .inr ⟨⟨name, copy.uid⟩, fun hbefore => ?_, hended hfin, rfl⟩
    have hfinished := hbefore.finished hcurrent rfl
    rw [hopen] at hfinished
    cases hfinished

theorem enters_step (hs : Held s) (hg : OneEnd s a) (h : step s a = some s') :
    Transition.Enters Ended State.recorded s s' := by
  refine ⟨fun ref _ => ended_step hs hg.1 h, ?_⟩
  cases step_effect h with
  | generateSent hw hm hp | scheduled hi hp =>
    have hsame := recorded_publish hp
    exact .inl hsame
  | @marked _ w d copy job status next written hm hu =>
    obtain ⟨hd, hc⟩ := hm.copy_eq
    cases hread : copy.object.jobFinished with
    | true =>
      -- whoever has finished the job has counted it
      left
      obtain ⟨store, -, rfl, -⟩ := updateStatus_eq_stored hu
      rw [State.recordUnlessFinished, if_pos hread]
      rfl
    | false =>
      refine entered_of_stored (hs.workers hd hc) hu hread recordUnlessFinished_stores ?_
      rw [State.recordUnlessFinished, hread]
      rfl
  | @reconciled i name copy job status written hp hu =>
    have hsound := hs.reconcilers i
    rw [hp] at hsound
    have hopen := hg.2 i rfl copy (by rw [hp]; rfl)
    exact entered_of_stored hsound.1 hu hopen recordNodeScanJobFinished_stores rfl
  | _ => exact .inl rfl

theorem recorded_nodup {as : List Action} (hg : Transition.Along OneEnd step init as)
    (hs : exec step init as = some s) : s.recorded.Nodup := by
  have hend : Held s ∧ Transition.Logged Ended State.recorded s := by
    refine exec_invariant_along
      (I := fun t => Held t ∧ Transition.Logged Ended State.recorded t)
      (fun t b t' ht hgb hb => ?_) ⟨held_init, List.nodup_nil, nofun⟩ hg hs
    exact ⟨held_step ht.1 hb, (enters_step ht.1 hgb hb).logged ht.2⟩
  exact hend.2.nodup

end SbomScanner.NodeScan

/-! ## Both -/

namespace SbomScanner.Telemetry

/-- **Each job is counted once**, whatever is done in which order, if no job is finished a second
time. -/
theorem jobs_recorded_once (scans : List Jobs.Pipeline.Action)
    (nodeScans : List NodeScan.Action) :
    (∀ s, Transition.Along Jobs.Pipeline.OneEnd Jobs.Pipeline.step Jobs.Pipeline.init scans →
      exec Jobs.Pipeline.step Jobs.Pipeline.init scans = some s → s.recorded.Nodup) ∧
    ∀ s, Transition.Along NodeScan.OneEnd NodeScan.step NodeScan.init nodeScans →
      exec NodeScan.step NodeScan.init nodeScans = some s → s.recorded.Nodup :=
  ⟨fun _ hg hs => Jobs.Pipeline.recorded_nodup hg hs, fun _ hg hs => NodeScan.recorded_nodup hg hs⟩

/-- The last message of each job is delivered again when the job is complete. -/
theorem jobs_recorded_once_redelivery :
    (∃ s, exec Jobs.Pipeline.step Jobs.Pipeline.init
      (Jobs.Pipeline.emptyCatalog ++ Jobs.Pipeline.redelivery) = some s ∧
      s.recorded = [1] ∧ s.recorded.Nodup) ∧
    ∃ s, exec NodeScan.step NodeScan.init
      (NodeScan.nodeScanned ++ NodeScan.scanRedelivered) = some s ∧
      s.recorded = [⟨"scan", 0⟩] ∧ s.recorded.Nodup :=
  ⟨⟨_, rfl, rfl, (jobs_recorded_once (Jobs.Pipeline.emptyCatalog ++ Jobs.Pipeline.redelivery)
      (NodeScan.nodeScanned ++ NodeScan.scanRedelivered)).1 _ (by decide) rfl⟩,
    ⟨_, rfl, rfl, (jobs_recorded_once (Jobs.Pipeline.emptyCatalog ++ Jobs.Pipeline.redelivery)
      (NodeScan.nodeScanned ++ NodeScan.scanRedelivered)).2 _ (by decide) rfl⟩⟩

/-- The registry is not found; it is created, and the reconciler looks at the job again with an old
cache. -/
def staleReconcile : List Jobs.Pipeline.Action :=
  [.createScanJob "nightly", .jobGet 0 1 1, .jobRegistry 0 (.notFound "ghcr"), .jobUpdate 0,
    .jobGet 0 1 1, .jobPatch 0, .jobUpdate 0]

open Jobs.Pipeline in
/-- A failed job is taken back by a catalog, and is completed. -/
def failedThenComplete : List Jobs.Pipeline.Action :=
  failedWhileDiscovering ++ closeCatalog ++
    [Action.catalogPublish 0 false, .catalogPublish 0 false, .ack 0] ++ generateSBOM 0 2 ++
    scanSBOMs 0 3 ++ [Action.reportGet 0 "alpine" 7, .reportList 0, .reportUpdate 0]

open NodeScan in
/-- The first message comes again after the second is handled, and the node is scanned again. -/
def scannedTwice : List NodeScan.Action :=
  nodeScannedUnacknowledged ++ generateRedelivered ++ [Action.generateConfiguration 0,
    .generateCreate 0, .generateGetFinal 0, .generatePublish 0 false, .ack 0] ++ scanNodeSBOM 0 3

theorem jobs_recorded_twice :
    (∃ s, exec Jobs.Pipeline.step Jobs.Pipeline.init staleReconcile = some s ∧
      s.recorded = [1, 1]) ∧
    (∃ s, exec Jobs.Pipeline.step Jobs.Pipeline.init failedThenComplete = some s ∧
      s.recorded = [1, 1]) ∧
    ∃ s, exec NodeScan.step NodeScan.init scannedTwice = some s ∧
      s.recorded = [⟨"scan", 0⟩, ⟨"scan", 0⟩] :=
  ⟨⟨_, rfl, rfl⟩, ⟨_, rfl, rfl⟩, ⟨_, rfl, rfl⟩⟩

end SbomScanner.Telemetry

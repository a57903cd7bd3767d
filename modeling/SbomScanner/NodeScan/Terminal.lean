import SbomScanner.NodeScan.Parties

/-!
# Finished NodeScanJobs

The reconciler respects a finished job: it takes up pending jobs only, and when a patch brings back
one that is finished it submits the conditions it got. The handlers do not.
`GenerateNodeSBOMHandler` looks for a failed job once, before its retry loop, and never for a
complete one; `NodeScanSBOMHandler` looks once, before two retry loops; `NodeScanJobFailureHandler`
does not look.

So a finished job keeps its conditions in every run in which no handler submits an update of a
finished job (`finished_nodeScanJob_frozen`), and a `GenerateNodeSBOM` message that comes again
after the job is complete takes it back into progress (`complete_nodeScanJob_reopened`).
-/

namespace SbomScanner.NodeScan

open Transition

open Conditions (Condition)
open Versioned (Entry Store)

variable {s s' : State} {a : Action} {name : String}

def Action.writer : Action → Option Nat
  | .generateMark w | .scanMark w | .scanComplete w | .failureUpdate w => some w
  | _ => none

/-- It does so on a job that was not finished when it was read. -/
def OnUnfinished (s : State) (a : Action) : Prop :=
  ∀ w ∈ a.writer, ∀ copy ∈ (s.workers w).copy, copy.object.jobFinished = false

instance (s : State) (a : Action) : Decidable (OnUnfinished s a) :=
  inferInstanceAs (Decidable (∀ w ∈ a.writer, ∀ copy ∈ (s.workers w).copy,
    copy.object.jobFinished = false))

variable {copy : Entry NodeScanJob} {status : Status}

theorem Mark.writer {clock w : Nat} {p : Worker} {d : Delivery} {next : Entry NodeScanJob → Worker}
    (h : Mark clock w a p d copy status next) : a.writer = some w := by
  cases h <;> rfl

/-- The only writers that may change the conditions of a finished job are those the guard is
about. -/
theorem StatusWrite.conditions_of_finished (hw : StatusWrite s a name copy status) (hs : Held s)
    (hg : OnUnfinished s a) (hfin : copy.object.jobFinished = true) :
    status.conditions = copy.object.status.conditions := by
  cases hw with
  | @marked _ w d _ _ next hm =>
    have hunfinished := hg w hm.writer copy hm.copy_eq.2
    rw [hfin] at hunfinished
    cases hunfinished
  | @reconciled i _ _ _ hp =>
    have hsound := hs.reconcilers i
    rw [hp] at hsound
    rcases hsound.2 with hunfinished | heq
    · rw [hfin] at hunfinished
      cases hunfinished
    · exact heq

/-! ## One job -/

/-- As long as the job with this UID exists it has these conditions. -/
structure Frozen (name : String) (uid : Nat) (conditions : List (Condition ConditionType Reason))
    (s : State) : Prop where
  known : uid < (s.stores name).history.length
  conditions_eq : ∀ {job}, s.get name = some job → job.uid = uid →
    job.object.status.conditions = conditions

variable {job : Entry NodeScanJob}

theorem frozen_of_get (hj : s.get name = some job) :
    Frozen name job.uid job.object.status.conditions s := by
  refine ⟨(s.stores name).uid_lt ((s.stores name).current_mem job hj), ?_⟩
  intro job' hj' _
  rw [hj] at hj'
  cases hj'
  rfl

theorem frozen_step {uid : Nat} {conditions : List (Condition ConditionType Reason)} (hs : Held s)
    (hfin : ∀ {job : NodeScanJob}, job.status.conditions = conditions → job.jobFinished = true)
    (hg : OnUnfinished s a) (hf : Frozen name uid conditions s) (h : step s a = some s') :
    Frozen name uid conditions s' := by
  obtain ⟨hknown, hc⟩ := hf
  refine ⟨Nat.lt_of_lt_of_le hknown (length_history_le hs h name), ?_⟩
  intro job hj huid
  cases origin hs h hj with
  | kept hold => exact hc hold huid
  | created hnew =>
    -- a new job has a UID of its own
    rw [huid] at hnew
    exact absurd hnew (Nat.ne_of_lt hknown)
  | patched hold hsame hstatus =>
    rw [hstatus]
    exact hc hold (hsame.symm.trans huid)
  | written hold hsame hw =>
    have hconditions := hc hold (hsame.symm.trans huid)
    exact (hw.conditions_of_finished hs hg (hfin hconditions)).trans hconditions

/-! ## Jobs that have come to an end -/

def Action.marker : Action → Option Nat
  | .generateMark w | .scanMark w => some w
  | _ => none

/-- No handler puts a finished job in progress. -/
def NoReopening (s : State) (a : Action) : Prop :=
  ∀ w ∈ a.marker, ∀ copy ∈ (s.workers w).copy, copy.object.jobFinished = false

instance (s : State) (a : Action) : Decidable (NoReopening s a) :=
  inferInstanceAs (Decidable (∀ w ∈ a.marker, ∀ copy ∈ (s.workers w).copy,
    copy.object.jobFinished = false))

/-- The job with this name and UID is finished, or gone. -/
structure Ended (s : State) (ref : ObjectRef) : Prop where
  known : ref.uid < (s.stores ref.name).history.length
  finished : ∀ {job}, s.get ref.name = some job → job.uid = ref.uid → job.object.jobFinished = true

theorem StatusWrite.jobFinished (hw : StatusWrite s a name copy status) (hs : Held s)
    (hg : NoReopening s a) (hfin : copy.object.jobFinished = true) :
    NodeScanJob.jobFinished { copy.object with status := status } = true := by
  cases hw with
  | @reconciled i _ _ _ hp =>
    have hsound := hs.reconcilers i
    rw [hp] at hsound
    rcases hsound.2 with hopen | heq
    · rw [hfin] at hopen
      cases hopen
    · exact (NodeScanJob.jobFinished_congr heq).trans hfin
  | @marked _ w d _ _ next hm =>
    have hcopy := hm.copy_eq.2
    generalize s.workers w = p at hm
    cases hm with
    | generate | scan =>
      have hopen := hg w rfl copy hcopy
      rw [hfin] at hopen
      cases hopen
    | complete | failure =>
      exact (NodeScanJob.jobFinished_congr rfl).trans (NodeScanJob.jobFinished_mark ..)

/-- A job that is not new was there before, on the same node, and it is still finished if it was. -/
theorem predecessor (hs : Held s) (hg : NoReopening s a) (h : step s a = some s')
    (hj : s'.get name = some job) (hknown : job.uid < (s.stores name).history.length) :
    ∃ old, s.get name = some old ∧ old.uid = job.uid ∧
      old.object.nodeName = job.object.nodeName ∧
      (old.object.jobFinished = true → job.object.jobFinished = true) := by
  cases origin hs h hj with
  | kept hold => exact ⟨job, hold, rfl, rfl, id⟩
  | created hnew hstatus => exact absurd hnew (Nat.ne_of_lt hknown)
  | patched hold huid hstatus hnode =>
    refine ⟨_, hold, huid.symm, hnode.symm, fun hfin => ?_⟩
    rw [NodeScanJob.jobFinished_congr (congrArg Status.conditions hstatus)]
    exact hfin
  | written hold huid hw hnode =>
    refine ⟨_, hold, huid.symm, hnode.symm, fun hfin => ?_⟩
    rw [← hw.jobFinished hs hg hfin]
    exact NodeScanJob.jobFinished_congr rfl

theorem ended_step (hs : Held s) (hg : NoReopening s a) (h : step s a = some s') {ref : ObjectRef}
    (hended : Ended s ref) : Ended s' ref := by
  refine ⟨Nat.lt_of_lt_of_le hended.known (length_history_le hs h ref.name), ?_⟩
  intro job hj huid
  have hknown : job.uid < (s.stores ref.name).history.length := by
    rw [huid]
    exact hended.known
  obtain ⟨old, hold, hsame, -, hfin⟩ := predecessor hs hg h hj hknown
  exact hfin (hended.finished hold (hsame.trans huid))

theorem ended_of_stored {written : State} (hcopy : copy ∈ (s.stores name).history)
    (hu : s.updateStatus name copy status = .stored written job)
    (hstores : s'.stores = written.stores) (hfin : job.object.jobFinished = true) :
    Ended s' ⟨name, copy.uid⟩ := by
  obtain ⟨store, hstore, rfl, rfl⟩ := updateStatus_eq_stored hu
  obtain ⟨-, rfl⟩ := Store.update_eq_some hcopy hstore
  have hname := congrFun hstores name
  rw [show (s.setStore name _).stores name = _ from Function.update_self ..] at hname
  constructor
  · rw [hname, Store.history_push, List.length_append]
    exact Nat.lt_add_right _ ((s.stores name).uid_lt hcopy)
  · unfold State.get
    rw [hname]
    intro job hj _
    cases hj
    exact hfin

/-! ## Every run -/

/-- **Finished jobs stay as they are.** When no handler submits an update of a job it has read as
finished, a job that is finished at some point keeps its Complete and Failed conditions. -/
theorem finished_nodeScanJob_frozen {before after : List Action} {job job' : Entry NodeScanJob}
    (hg : Transition.Along OnUnfinished step init (before ++ after))
    (hs : exec step init before = some s) (hs' : exec step s after = some s')
    (hj : s.get name = some job) (hfin : job.object.jobFinished = true)
    (hj' : s'.get name = some job') (huid : job'.uid = job.uid) :
    job'.object.condition .complete = job.object.condition .complete ∧
      job'.object.condition .failed = job.object.condition .failed := by
  obtain ⟨-, hg₂⟩ := along_append hg hs
  have hstart : Held s :=
    exec_invariant (fun _ _ _ ht hb => held_step ht hb) held_init hs
  have hend : Held s' ∧ Frozen name job.uid job.object.status.conditions s' := by
    refine exec_invariant_along
      (I := fun t => Held t ∧ Frozen name job.uid job.object.status.conditions t)
      (fun t b t' ht hgb hb => ?_) ⟨hstart, frozen_of_get hj⟩ hg₂ hs'
    refine ⟨held_step ht.1 hb, frozen_step ht.1 (fun hc => ?_) hgb ht.2 hb⟩
    rw [NodeScanJob.jobFinished_congr hc]
    exact hfin
  have hc := hend.2.conditions_eq hj' huid
  unfold NodeScanJob.condition
  rw [hc]
  exact ⟨rfl, rfl⟩

/-- The node is scanned, and the job is complete. The worker has not yet acknowledged the second
message. -/
def nodeScanned : List Action :=
  scheduleJob ++ generateNodeSBOM 0 1 ++ [Action.ack 0] ++ scanNodeSBOM 0 2

/-- The worker dies before it acknowledges, and the message is delivered again. -/
def scanRedelivered : List Action := [.crash 0, .deliver 0 2, .scanGet 0, .ack 0]

theorem finished_nodeScanJob_frozen_redelivery :
    ∃ s s' job job', exec step init nodeScanned = some s ∧
      exec step s scanRedelivered = some s' ∧
      s.get "scan" = some job ∧ job.object.jobFinished = true ∧ s'.get "scan" = some job' ∧
      job'.object.condition .complete = job.object.condition .complete ∧
      job'.object.condition .failed = job.object.condition .failed :=
  ⟨_, _, _, _, rfl, rfl, rfl, rfl, rfl,
    @finished_nodeScanJob_frozen _ _ "scan" nodeScanned scanRedelivered _ _ (by decide) rfl rfl rfl
      rfl rfl rfl⟩

/-- The worker dies after it has published the second message and before it acknowledges the
first. -/
def nodeScannedUnacknowledged : List Action :=
  scheduleJob ++ generateNodeSBOM 0 1 ++ [Action.crash 0] ++ scanNodeSBOM 0 2 ++ [Action.ack 0]

def generateRedelivered : List Action :=
  [.deliver 0 1, .generateGet 0, .generateNode 0, .generateMarkGet 0, .generateMark 0]

theorem complete_nodeScanJob_reopened :
    ∃ s s' job job', exec step init nodeScannedUnacknowledged = some s ∧
      exec step s generateRedelivered = some s' ∧
      s.get "scan" = some job ∧ job.object.isComplete = true ∧
      s'.get "scan" = some job' ∧ job'.uid = job.uid ∧
      job'.object.isComplete = false ∧ job'.object.isInProgress = true :=
  ⟨_, _, _, _, rfl, rfl, rfl, rfl, rfl, rfl, rfl, rfl⟩

end SbomScanner.NodeScan

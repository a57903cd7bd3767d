import SbomScanner.Lib.Conditions

/-!
# NodeScanJob

The `NodeScanJob` resource and the methods that move it from pending to complete or failed. As with
a ScanJob, its state is read off four conditions that every `Mark` method rewrites.

Of the annotations only the snapshot of the NodeScanConfiguration matters to the pipeline, and of
that only whether it is there.
-/

namespace SbomScanner.NodeScan

open Conditions

open Conditions (Condition)

inductive ConditionType where
  | scheduled | inProgress | complete | failed
deriving DecidableEq, Repr

/-- `internalError` is the one a ScanJob has as well. -/
inductive Reason where
  | inProgress | nodeScanConfigurationMissing | nodeNotFound | nodeNotMatching | pending
  | sbomGenerationInProgress | scheduled | complete | failed | internalError
deriving DecidableEq, Repr

structure Status where
  conditions : List (Condition ConditionType Reason) := []
  startTime : Option Nat := none
  completionTime : Option Nat := none
deriving DecidableEq, Repr

structure NodeScanJob where
  nodeName : String
  generation : Nat
  /-- the annotation with the snapshot of the NodeScanConfiguration is set -/
  hasConfiguration : Bool
  status : Status
deriving DecidableEq, Repr

namespace NodeScanJob

def condition (job : NodeScanJob) (type : ConditionType) :
    Option (Condition ConditionType Reason) :=
  find type job.status.conditions

def is (job : NodeScanJob) (type : ConditionType) : Bool :=
  holds type job.status.conditions

def isScheduled (job : NodeScanJob) : Bool := job.is .scheduled
def isInProgress (job : NodeScanJob) : Bool := job.is .inProgress
def isComplete (job : NodeScanJob) : Bool := job.is .complete
def isFailed (job : NodeScanJob) : Bool := job.is .failed

def isPending (job : NodeScanJob) : Bool :=
  !job.isScheduled && !job.isInProgress && !job.isComplete && !job.isFailed

def jobFinished (job : NodeScanJob) : Bool := job.isComplete || job.isFailed

def setCondition (job : NodeScanJob) (now : Nat) (type : ConditionType)
    (status : Conditions.Status) (reason : Reason) (message : String) : NodeScanJob :=
  let new : Condition ConditionType Reason := ⟨type, status, reason, message, job.generation, now⟩
  { job with status.conditions := set now new job.status.conditions }

def initializeConditions (job : NodeScanJob) (now : Nat) : NodeScanJob :=
  [ConditionType.scheduled, .inProgress, .complete, .failed].foldl (fun job type =>
    job.setCondition now type .unknown .pending "NodeScanJob is pending")
    { job with status.conditions := [] }

/-- The active condition becomes true, with its own reason and message, and the others false, with
those of the state that is entered. -/
def mark (job : NodeScanJob) (now : Nat) (active : ConditionType) (reason : Reason)
    (message : String) (others : Reason) (othersMessage : String) : NodeScanJob :=
  [ConditionType.scheduled, .inProgress, .complete, .failed].foldl (fun job type =>
    if type = active then job.setCondition now type .isTrue reason message
    else job.setCondition now type .isFalse others othersMessage) job

def markScheduled (job : NodeScanJob) (now : Nat) (reason : Reason) (message : String) :
    NodeScanJob :=
  job.mark now .scheduled reason message .scheduled "NodeScanJob is scheduled"

def markInProgress (job : NodeScanJob) (now : Nat) (reason : Reason) (message : String) :
    NodeScanJob :=
  { job with status.startTime := some (job.status.startTime.getD now) }.mark now .inProgress
    reason message .inProgress "NodeScanJob is in progress"

def markComplete (job : NodeScanJob) (now : Nat) (reason : Reason) (message : String) :
    NodeScanJob :=
  { job with status.completionTime := some now }.mark now .complete
    reason message .complete "NodeScanJob completed successfully"

def markFailed (job : NodeScanJob) (now : Nat) (reason : Reason) (message : String) :
    NodeScanJob :=
  { job with status.completionTime := some now }.mark now .failed
    reason message .failed "NodeScanJob failed"

/-! ## What the methods decide -/

theorem is_setCondition (job : NodeScanJob) (now : Nat) (type type' : ConditionType)
    (status : Conditions.Status) (reason : Reason) (message : String) :
    (job.setCondition now type status reason message).is type' =
      if type = type' then decide (status = .isTrue) else job.is type' :=
  holds_set now ⟨type, status, reason, message, job.generation, now⟩ type' _

/-- After a `Mark` method exactly the active condition is true. -/
@[simp] theorem is_mark (job : NodeScanJob) (now : Nat) (active type : ConditionType)
    (reason : Reason) (message : String) (others : Reason) (othersMessage : String) :
    (job.mark now active reason message others othersMessage).is type = decide (type = active) := by
  cases active <;> cases type <;> simp [mark, is_setCondition]

theorem is_congr {job job' : NodeScanJob}
    (h : job'.status.conditions = job.status.conditions) (type : ConditionType) :
    job'.is type = job.is type := by
  unfold is
  rw [h]

theorem jobFinished_congr {job job' : NodeScanJob}
    (h : job'.status.conditions = job.status.conditions) : job'.jobFinished = job.jobFinished := by
  simp only [jobFinished, isComplete, isFailed, is_congr h]

theorem jobFinished_mark (job : NodeScanJob) (now : Nat) (active : ConditionType)
    (reason : Reason) (message : String) (others : Reason) (othersMessage : String) :
    (job.mark now active reason message others othersMessage).jobFinished =
      (decide (active = .complete) || decide (active = .failed)) := by
  cases active <;> simp [jobFinished, isComplete, isFailed]

theorem jobFinished_of_isPending {job : NodeScanJob} (h : job.isPending = true) :
    job.jobFinished = false := by
  simp only [isPending, Bool.and_eq_true, Bool.not_eq_true'] at h
  simp [jobFinished, h]

end NodeScanJob

end SbomScanner.NodeScan

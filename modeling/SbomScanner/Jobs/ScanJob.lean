import Mathlib.Data.List.Basic

/-!
# ScanJob

The `ScanJob` resource with its status, and the methods that move it through its life: pending,
scheduled, in progress, and then complete or failed. The state of a job is not a field; it is read
off four conditions, each of which the `Mark` methods rewrite at every transition.

Only the part of the specification that the pipeline decides on is kept: whether the snapshot of
the registry has been stored in the job's annotations.
-/

namespace SbomScanner.Jobs

/-! ## Conditions -/

inductive ConditionType where
  | scheduled | inProgress | complete | failed
deriving DecidableEq, Repr

inductive ConditionStatus where
  | isTrue | isFalse | unknown
deriving DecidableEq, Repr

inductive Reason where
  | pending | scheduled | inProgress | catalogCreationInProgress | sbomGenerationInProgress
  | imageScanInProgress | complete | failed | noImagesToScan | allImagesScanned
  | registryNotFound | repositoryNotFound | matchConditionNotFound | internalError
deriving DecidableEq, Repr

structure Condition where
  type : ConditionType
  status : ConditionStatus
  reason : Reason
  message : String
  observedGeneration : Nat
  lastTransitionTime : Nat
deriving DecidableEq, Repr

def findStatusCondition (conditions : List Condition) (type : ConditionType) : Option Condition :=
  conditions.find? fun c => c.type = type

/-- The transition time moves only when the status does. -/
def setStatusCondition (now : Nat) (new : Condition) : List Condition → List Condition
  | [] => [{ new with lastTransitionTime := now }]
  | c :: cs =>
    if c.type = new.type then
      { new with
        lastTransitionTime := if c.status = new.status then c.lastTransitionTime else now } :: cs
    else c :: setStatusCondition now new cs

theorem find_setStatusCondition_self (now : Nat) (new : Condition) (cs : List Condition) :
    (findStatusCondition (setStatusCondition now new cs) new.type).map (·.status) =
      some new.status := by
  induction cs with
  | nil => simp [setStatusCondition, findStatusCondition]
  | cons c cs ih =>
    by_cases h : c.type = new.type
    · simp [setStatusCondition, findStatusCondition, h]
    · simpa [setStatusCondition, findStatusCondition, h] using ih

theorem find_setStatusCondition_ne (now : Nat) {new : Condition} {type : ConditionType}
    (h : new.type ≠ type) (cs : List Condition) :
    findStatusCondition (setStatusCondition now new cs) type = findStatusCondition cs type := by
  induction cs with
  | nil => simp [setStatusCondition, findStatusCondition, h]
  | cons c cs ih =>
    by_cases hc : c.type = new.type
    · simp [setStatusCondition, findStatusCondition, hc, h]
    · rw [setStatusCondition, if_neg hc]
      unfold findStatusCondition at ih ⊢
      rw [List.find?_cons, List.find?_cons, ih]

/-! ## The resource -/

structure Status where
  conditions : List Condition := []
  imagesCount : Nat := 0
  scannedImagesCount : Nat := 0
  startTime : Option Nat := none
  completionTime : Option Nat := none
deriving DecidableEq, Repr

structure ScanJob where
  name : String
  uid : Nat
  resourceVersion : Nat
  generation : Nat
  /-- the annotation that holds the snapshot of the registry is set -/
  hasRegistryAnnotation : Bool
  status : Status
deriving DecidableEq, Repr

namespace ScanJob

def condition (j : ScanJob) (type : ConditionType) : Option Condition :=
  findStatusCondition j.status.conditions type

/-- The test behind every `Is` method: the condition exists and is true. -/
def is (j : ScanJob) (type : ConditionType) : Bool :=
  match j.condition type with
  | some c => c.status = .isTrue
  | none => false

def isScheduled (j : ScanJob) : Bool := j.is .scheduled
def isInProgress (j : ScanJob) : Bool := j.is .inProgress
def isComplete (j : ScanJob) : Bool := j.is .complete
def isFailed (j : ScanJob) : Bool := j.is .failed

def isPending (j : ScanJob) : Bool :=
  !j.isScheduled && !j.isInProgress && !j.isComplete && !j.isFailed

def jobFinished (j : ScanJob) : Bool := j.isComplete || j.isFailed

def setCondition (j : ScanJob) (now : Nat) (type : ConditionType) (status : ConditionStatus)
    (reason : Reason) (message : String) : ScanJob :=
  let new : Condition := ⟨type, status, reason, message, j.generation, now⟩
  { j with status.conditions := setStatusCondition now new j.status.conditions }

/-- All four conditions are set, in the order of the source: the active one to true with its own
reason and message, the others to false with those of the state entered. -/
def mark (j : ScanJob) (now : Nat) (active : ConditionType) (reason : Reason) (message : String)
    (others : Reason) (othersMessage : String) : ScanJob :=
  [ConditionType.scheduled, .inProgress, .complete, .failed].foldl (fun j type =>
    if type = active then j.setCondition now type .isTrue reason message
    else j.setCondition now type .isFalse others othersMessage) j

def initializeConditions (j : ScanJob) (now : Nat) : ScanJob :=
  [ConditionType.scheduled, .inProgress, .complete, .failed].foldl (fun j type =>
    j.setCondition now type .unknown .pending "ScanJob is pending")
    { j with status.conditions := [] }

def markScheduled (j : ScanJob) (now : Nat) (reason : Reason) (message : String) : ScanJob :=
  j.mark now .scheduled reason message .scheduled "ScanJob is scheduled"

def markInProgress (j : ScanJob) (now : Nat) (reason : Reason) (message : String) : ScanJob :=
  { j with status.startTime := some (j.status.startTime.getD now) }.mark now .inProgress
    reason message .inProgress "ScanJob is in progress"

def markComplete (j : ScanJob) (now : Nat) (reason : Reason) (message : String) : ScanJob :=
  { j with status.completionTime := some now }.mark now .complete
    reason message .complete "ScanJob completed successfully"

def markFailed (j : ScanJob) (now : Nat) (reason : Reason) (message : String) : ScanJob :=
  { j with status.completionTime := some now }.mark now .failed
    reason message .failed "ScanJob failed"

/-! ## What the methods decide -/

theorem is_setCondition (j : ScanJob) (now : Nat) (type type' : ConditionType)
    (status : ConditionStatus) (reason : Reason) (message : String) :
    (j.setCondition now type status reason message).is type' =
      if type = type' then decide (status = .isTrue) else j.is type' := by
  by_cases h : type = type'
  · subst h
    obtain ⟨c, hc, hstatus⟩ := Option.map_eq_some_iff.mp (find_setStatusCondition_self now
      ⟨type, status, reason, message, j.generation, now⟩ j.status.conditions)
    have hcond : (j.setCondition now type status reason message).condition type = some c := hc
    simp [is, hcond, hstatus]
  · have hcond : (j.setCondition now type status reason message).condition type' =
        j.condition type' := find_setStatusCondition_ne now h j.status.conditions
    simp [is, hcond, h]

/-- After a `Mark` method exactly the active condition is true. -/
@[simp] theorem is_mark (j : ScanJob) (now : Nat) (active type : ConditionType) (reason : Reason)
    (message : String) (others : Reason) (othersMessage : String) :
    (j.mark now active reason message others othersMessage).is type = decide (type = active) := by
  cases active <;> cases type <;> simp [mark, is_setCondition]

@[simp] theorem is_initializeConditions (j : ScanJob) (now : Nat) (type : ConditionType) :
    (j.initializeConditions now).is type = false := by
  cases type <;> simp [initializeConditions, is_setCondition]

theorem jobFinished_mark (j : ScanJob) (now : Nat) (active : ConditionType) (reason : Reason)
    (message : String) (others : Reason) (othersMessage : String) :
    (j.mark now active reason message others othersMessage).jobFinished =
      (decide (active = .complete) || decide (active = .failed)) := by
  cases active <;> simp [jobFinished, isComplete, isFailed]

theorem imagesCount_mark (j : ScanJob) (now : Nat) (active : ConditionType)
    (reason : Reason) (message : String) (others : Reason) (othersMessage : String) :
    (j.mark now active reason message others othersMessage).status.imagesCount =
      j.status.imagesCount := by
  cases active <;> rfl

theorem is_congr {j j' : ScanJob} (h : j'.status.conditions = j.status.conditions)
    (type : ConditionType) : j'.is type = j.is type := by
  unfold is condition
  rw [h]

theorem jobFinished_congr {j j' : ScanJob} (h : j'.status.conditions = j.status.conditions) :
    j'.jobFinished = j.jobFinished := by
  simp only [jobFinished, isComplete, isFailed, is_congr h]

theorem jobFinished_of_isPending {j : ScanJob} (h : j.isPending = true) :
    j.jobFinished = false := by
  simp only [isPending, Bool.and_eq_true, Bool.not_eq_true'] at h
  simp [jobFinished, h]

end ScanJob

end SbomScanner.Jobs

import SbomScanner.Lib.Transition
import SbomScanner.Lib.Versioned
import SbomScanner.NodeScan.NodeScanJob

/-!
# The node scan pipeline

A NodeScanJob goes through `NodeScanJobReconciler` in the controller and then through the worker on
its node, which takes messages from the stream and runs `GenerateNodeSBOMHandler` and
`NodeScanSBOMHandler`, with `NodeScanJobFailureHandler` behind them.

One action is one call to the API server or to the stream, and everything may happen in between.

* `stores` has the NodeScanJobs by name, with all their versions. A status update carries the
  version it is based on; the controller reads from a cache, which may hold any version, workers
  read what is stored now.
* A message stays in the stream until it is acknowledged, and may be delivered again at any time,
  also to a second process while the first is still at work.
* Nodes, the NodeScanConfiguration, NodeSBOMs and NodeVulnerabilityReports come and go; what the
  handlers make of them is kept as far as they look at it again.
* Every call may fail with an error that is neither a conflict nor a missing object. A call that
  fails has had no effect.
-/

open Function

namespace SbomScanner.NodeScan

open Versioned (Entry Store)

/-! ## Messages -/

structure ObjectRef where
  name : String
  uid : Nat
deriving DecidableEq, Repr

inductive Message where
  | generateNodeSBOM (nodeScanJob : ObjectRef) (node : String)
  | scanNodeSBOM (nodeScanJob : ObjectRef) (nodeSBOM : String)
deriving DecidableEq, Repr

/-- `NodeBaseMessage`, which is all the failure handler reads. -/
def Message.nodeScanJob : Message → ObjectRef
  | .generateNodeSBOM nodeScanJob _ | .scanNodeSBOM nodeScanJob _ => nodeScanJob

/-- By its id the stream recognises a message that is published again. UIDs are counted per name
here, so the name is part of it. -/
inductive MessageID where
  | generateNodeSBOM (nodeScanJob : ObjectRef)
  | nodeScanSBOM (nodeScanJob : ObjectRef) (node : String)
deriving DecidableEq, Repr

structure Delivery where
  seq : Nat
  numDelivered : Nat
  message : Message
deriving DecidableEq, Repr

def Delivery.job (d : Delivery) : ObjectRef := d.message.nodeScanJob

def maxDeliver : Nat := 5

/-! ## The parties -/

inductive Worker where
  | idle
  | received (d : Delivery)
  | generateNode (d : Delivery) (job : Entry NodeScanJob)
  /-- at the head of the conflict-retry loop -/
  | generateGetting (d : Delivery)
  | generateMarking (d : Delivery) (copy : Entry NodeScanJob)
  | generateConfiguration (d : Delivery) (job : Entry NodeScanJob)
  | generateCreating (d : Delivery) (job : Entry NodeScanJob)
  | generateClosing (d : Delivery) (job : Entry NodeScanJob)
  | generatePublishing (d : Delivery) (job : Entry NodeScanJob)
  | scanGetting (d : Delivery)
  | scanMarking (d : Delivery) (copy : Entry NodeScanJob)
  | scanFetching (d : Delivery)
  | scanReporting (d : Delivery)
  | scanClosing (d : Delivery)
  | scanCompleting (d : Delivery) (copy : Entry NodeScanJob)
  /-- the handler, or the failure handler, is through with the message -/
  | handled (d : Delivery)
  | failed (d : Delivery) (err : String)
  | failureUpdating (d : Delivery) (err : String) (copy : Entry NodeScanJob)
deriving DecidableEq

def Worker.delivery : Worker → Option Delivery
  | .idle => none
  | .received d | .generateNode d _ | .generateGetting d | .generateMarking d _
  | .generateConfiguration d _ | .generateCreating d _ | .generateClosing d _
  | .generatePublishing d _ | .scanGetting d | .scanMarking d _ | .scanFetching d
  | .scanReporting d | .scanClosing d | .scanCompleting d _ | .handled d | .failed d _
  | .failureUpdating d _ _ => some d

/-- The copy that the next call is to update. -/
def Worker.copy : Worker → Option (Entry NodeScanJob)
  | .generateMarking _ copy | .scanMarking _ copy | .scanCompleting _ copy
  | .failureUpdating _ _ copy => some copy
  | _ => none

inductive Reconcile where
  | idle
  | initialized (name : String) (copy : Entry NodeScanJob) (status : Status)
  | updating (name : String) (copy : Entry NodeScanJob) (status : Status)
deriving DecidableEq

/-! ## State -/

structure Cluster where
  stores : String → Store NodeScanJob
  nodes : List String
  /-- there is a NodeScanConfiguration -/
  configured : Bool
  nodeSBOMs : List String
  /-- the NodeVulnerabilityReports, with the UID of the job in their label -/
  reports : String → Option Nat

structure Bus where
  stream : List Delivery
  published : List MessageID
  nextSeq : Nat

structure State extends Cluster, Bus where
  clock : Nat
  workers : Nat → Worker
  reconcilers : Nat → Reconcile
  /-- the jobs counted by the terminal-job metric -/
  recorded : List ObjectRef

def init : State where
  stores := fun _ => .empty
  nodes := []
  configured := false
  nodeSBOMs := []
  reports := fun _ => none
  stream := []
  published := []
  nextSeq := 1
  clock := 0
  workers := fun _ => .idle
  reconcilers := fun _ => .idle
  recorded := []

inductive Updated where
  | stored (s : State) (job : Entry NodeScanJob)
  | conflict
  | notFound

namespace State

def setWorker (s : State) (w : Nat) (p : Worker) : State :=
  { s with workers := update s.workers w p }

def setReconciler (s : State) (i : Nat) (p : Reconcile) : State :=
  { s with reconcilers := update s.reconcilers i p }

def setStore (s : State) (name : String) (store : Store NodeScanJob) : State :=
  { s with stores := update s.stores name store }

def get (s : State) (name : String) : Option (Entry NodeScanJob) := (s.stores name).current

/-- Only the status of what is submitted is looked at, and the version it is based on. -/
def updateStatus (s : State) (name : String) (copy : Entry NodeScanJob) (status : Status) :
    Updated :=
  match s.get name with
  | none => .notFound
  | some _ =>
    match (s.stores name).update copy { copy.object with status := status } with
    | some store =>
      .stored (s.setStore name store)
        ⟨copy.uid, (s.stores name).history.length, { copy.object with status := status }⟩
    | none => .conflict

/-- The stream drops a message whose id it still remembers. -/
def publish (s : State) (id : MessageID) (m : Message) (dropped : Bool) : Option State :=
  if dropped then
    if id ∈ s.published then some s else none
  else
    some { s with
      stream := s.stream ++ [⟨s.nextSeq, 0, m⟩]
      published := id :: s.published
      nextSeq := s.nextSeq + 1 }

def recordNodeScanJobFinished (s : State) (name : String) (job : Entry NodeScanJob) : State :=
  if job.object.jobFinished then { s with recorded := ⟨name, job.uid⟩ :: s.recorded } else s

/-- A job that was finished when it was read has been counted by whoever finished it. -/
def recordUnlessFinished (s : State) (name : String) (read job : Entry NodeScanJob) : State :=
  if read.object.jobFinished then s else s.recordNodeScanJobFinished name job

end State

/-! ## NodeScanJobReconciler -/

inductive Rejection where
  | configurationMissing
  | nodeNotFound
  | selectorNotMatching
  | platformNotAllowed (operatingSystem architecture : String)

def Rejection.mark (now : Nat) (job : NodeScanJob) : Rejection → NodeScanJob
  | .configurationMissing =>
    job.markFailed now .nodeScanConfigurationMissing
      "NodeScanConfiguration not found: node scanning is not configured"
  | .nodeNotFound =>
    job.markFailed now .nodeNotFound ("Node " ++ job.nodeName ++ " not found")
  | .selectorNotMatching =>
    job.markFailed now .nodeNotMatching
      ("node \"" ++ job.nodeName ++ "\" does not match the NodeScanConfiguration nodeSelector")
  | .platformNotAllowed operatingSystem architecture =>
    job.markFailed now .nodeNotMatching
      ("node \"" ++ job.nodeName ++ "\" platform " ++ operatingSystem ++ "/" ++ architecture ++
        " is not allowed by the NodeScanConfiguration")

def reconcileGet (s : State) (i : Nat) (name : String) (version : Nat) : Option State :=
  match s.reconcilers i, (s.stores name).history[version]? with
  | .idle, some copy =>
    if copy.object.isPending then
      some (s.setReconciler i
        (.initialized name copy (copy.object.initializeConditions s.clock).status))
    else none
  | _, _ => none

def reconcileReject (s : State) (i : Nat) (r : Rejection) : Option State :=
  match s.reconcilers i with
  | .initialized name copy status =>
    some (s.setReconciler i
      (.updating name copy (r.mark s.clock { copy.object with status := status }).status))
  | _ => none

/-- The configuration or the node cannot be read: the job is left alone. -/
def reconcileAbort (s : State) (i : Nat) : Option State :=
  match s.reconcilers i with
  | .initialized _ _ _ => some (s.setReconciler i .idle)
  | _ => none

/-- `reconcileNodeScanJob` returns an error: the status is updated all the same. -/
def reconcileError (s : State) (i : Nat) : Option State :=
  match s.reconcilers i with
  | .initialized name copy status => some (s.setReconciler i (.updating name copy status))
  | _ => none

/-- The response is decoded into the job in memory: what it does not have stays as it was. -/
def Status.decode (memory response : Status) : Status where
  conditions := if response.conditions = [] then memory.conditions else response.conditions
  startTime := response.startTime.or memory.startTime
  completionTime := response.completionTime.or memory.completionTime

/-- The patch carries no version and hits whatever job has the name now. The reconciler goes on with
the job the server sends back. -/
def reconcilePatch (s : State) (i : Nat) : Option State :=
  match s.reconcilers i with
  | .initialized name copy status =>
    if copy.object.hasConfiguration then none
    else
      match (s.stores name).modify fun job => { job with hasConfiguration := true } with
      | some (patched, store) =>
        some ((s.setStore name store).setReconciler i
          (.updating name patched (status.decode patched.object.status)))
      | none => some (s.setReconciler i (.updating name copy status))
  | _ => none

def reconcilePublish (s : State) (i : Nat) (dropped : Bool) : Option State :=
  match s.reconcilers i with
  | .initialized name copy status =>
    if copy.object.hasConfiguration then
      let ref : ObjectRef := ⟨name, copy.uid⟩
      (s.publish (.generateNodeSBOM ref) (.generateNodeSBOM ref copy.object.nodeName)
        dropped).map fun s' =>
        s'.setReconciler i (.updating name copy
          (NodeScanJob.markScheduled { copy.object with status := status } s.clock .scheduled
            "NodeScanJob has been scheduled for processing by the controller").status)
    else none
  | _ => none

def reconcileUpdate (s : State) (i : Nat) : Option State :=
  match s.reconcilers i with
  | .updating name copy status =>
    match s.updateStatus name copy status with
    | .stored s' job => some ((s'.recordNodeScanJobFinished name job).setReconciler i .idle)
    | .conflict | .notFound => some (s.setReconciler i .idle)
  | _ => none

/-! ## GenerateNodeSBOMHandler -/

/-- The job is looked up by name, and then its name is compared, not its UID. -/
def generateGet (s : State) (w : Nat) : Option State :=
  match s.workers w with
  | .received ⟨seq, n, .generateNodeSBOM ref node⟩ =>
    let d : Delivery := ⟨seq, n, .generateNodeSBOM ref node⟩
    match s.get ref.name with
    | some job => some (s.setWorker w (.generateNode d job))
    | none => some (s.setWorker w (.handled d))
  | _ => none

/-- A missing node and a failed job end the handler; a complete job does not. -/
def generateNode (s : State) (w : Nat) : Option State :=
  match s.workers w with
  | .generateNode ⟨seq, n, .generateNodeSBOM ref node⟩ job =>
    let d : Delivery := ⟨seq, n, .generateNodeSBOM ref node⟩
    if node ∉ s.nodes ∨ job.object.isFailed then some (s.setWorker w (.handled d))
    else some (s.setWorker w (.generateGetting d))
  | _ => none

def generateMarkGet (s : State) (w : Nat) : Option State :=
  match s.workers w with
  | .generateGetting d =>
    match s.get d.job.name with
    | some copy => some (s.setWorker w (.generateMarking d copy))
    | none => some (s.setWorker w (.handled d))
  | _ => none

def generateMark (s : State) (w : Nat) : Option State :=
  match s.workers w with
  | .generateMarking d copy =>
    match s.updateStatus d.job.name copy (copy.object.markInProgress s.clock .inProgress
        "Scanning node filesystem and collecting data").status with
    | .stored s' job => some (s'.setWorker w (.generateConfiguration d job))
    | .conflict => some (s.setWorker w (.generateGetting d))
    | .notFound => some (s.setWorker w (.handled d))
  | _ => none

/-- The live configuration only has to exist; what the scan uses is the snapshot. -/
def generateConfiguration (s : State) (w : Nat) : Option State :=
  match s.workers w with
  | .generateConfiguration d job =>
    if s.configured then
      if job.object.hasConfiguration then some (s.setWorker w (.generateCreating d job))
      else
        some (s.setWorker w (.failed d ("NodeScanJob " ++ d.job.name ++
          " does not have a NodeScanConfiguration snapshot annotation")))
    else some (s.setWorker w (.handled d))
  | _ => none

def generateCreate (s : State) (w : Nat) : Option State :=
  match s.workers w with
  | .generateCreating ⟨seq, n, .generateNodeSBOM ref node⟩ job =>
    some ({ s with nodeSBOMs := node :: s.nodeSBOMs }.setWorker w
      (.generateClosing ⟨seq, n, .generateNodeSBOM ref node⟩ job))
  | _ => none

def generateGetFinal (s : State) (w : Nat) : Option State :=
  match s.workers w with
  | .generateClosing d job =>
    match s.get d.job.name with
    | some _ => some (s.setWorker w (.generatePublishing d job))
    | none => some (s.setWorker w (.handled d))
  | _ => none

/-- The message refers to the job of the message before; its id has the UID of the job that was
updated. -/
def generatePublish (s : State) (w : Nat) (dropped : Bool) : Option State :=
  match s.workers w with
  | .generatePublishing ⟨seq, n, .generateNodeSBOM ref node⟩ job =>
    (s.publish (.nodeScanSBOM ⟨ref.name, job.uid⟩ node) (.scanNodeSBOM ref node)
      dropped).map fun s' => s'.setWorker w (.handled ⟨seq, n, .generateNodeSBOM ref node⟩)
  | _ => none

/-! ## NodeScanSBOMHandler -/

/-- The only `Get` that compares the UID, and the only one that asks whether the job is finished. -/
def scanGet (s : State) (w : Nat) : Option State :=
  match s.workers w with
  | .received ⟨seq, n, .scanNodeSBOM ref nodeSBOM⟩ =>
    let d : Delivery := ⟨seq, n, .scanNodeSBOM ref nodeSBOM⟩
    match s.get ref.name with
    | some job =>
      if job.uid ≠ ref.uid ∨ job.object.jobFinished then some (s.setWorker w (.handled d))
      else some (s.setWorker w (.scanGetting d))
    | none => some (s.setWorker w (.handled d))
  | _ => none

def scanMarkGet (s : State) (w : Nat) : Option State :=
  match s.workers w with
  | .scanGetting d =>
    match s.get d.job.name with
    | some copy => some (s.setWorker w (.scanMarking d copy))
    | none => some (s.setWorker w (.handled d))
  | _ => none

def scanMark (s : State) (w : Nat) : Option State :=
  match s.workers w with
  | .scanMarking d copy =>
    match s.updateStatus d.job.name copy (copy.object.markInProgress s.clock
        .sbomGenerationInProgress "NodeSBOM vulnerability scan in progress").status with
    | .stored s' _ => some (s'.setWorker w (.scanFetching d))
    | .conflict => some (s.setWorker w (.scanGetting d))
    | .notFound => some (s.setWorker w (.handled d))
  | _ => none

def scanSBOM (s : State) (w : Nat) : Option State :=
  match s.workers w with
  | .scanFetching ⟨seq, n, .scanNodeSBOM ref nodeSBOM⟩ =>
    let d : Delivery := ⟨seq, n, .scanNodeSBOM ref nodeSBOM⟩
    if nodeSBOM ∈ s.nodeSBOMs then some (s.setWorker w (.scanReporting d))
    else some (s.setWorker w (.handled d))
  | _ => none

def scanReport (s : State) (w : Nat) : Option State :=
  match s.workers w with
  | .scanReporting ⟨seq, n, .scanNodeSBOM ref nodeSBOM⟩ =>
    some ({ s with reports := update s.reports nodeSBOM (some ref.uid) }.setWorker w
      (.scanClosing ⟨seq, n, .scanNodeSBOM ref nodeSBOM⟩))
  | _ => none

def scanCompleteGet (s : State) (w : Nat) : Option State :=
  match s.workers w with
  | .scanClosing d =>
    match s.get d.job.name with
    | some copy => some (s.setWorker w (.scanCompleting d copy))
    | none => some (s.setWorker w (.handled d))
  | _ => none

/-- Whether the job was finished matters to the metric only. -/
def scanComplete (s : State) (w : Nat) : Option State :=
  match s.workers w with
  | .scanCompleting d copy =>
    match s.updateStatus d.job.name copy (copy.object.markComplete s.clock .complete
        "NodeSBOM scanned successfully").status with
    | .stored s' job =>
      some ((s'.recordUnlessFinished d.job.name copy job).setWorker w (.handled d))
    | .conflict => some (s.setWorker w (.scanClosing d))
    | .notFound => some (s.setWorker w (.handled d))
  | _ => none

/-! ## Subscriber and NodeScanJobFailureHandler -/

def deliver (s : State) (w seq : Nat) : Option State :=
  match s.workers w, s.stream.find? (·.seq = seq) with
  | .idle, some e =>
    let d := { e with numDelivered := e.numDelivered + 1 }
    some ({ s with
      stream := s.stream.map fun (e : Delivery) => if e.seq = seq then d else e }.setWorker
      w (.received d))
  | _, _ => none

/-- A call of a handler fails, or its conflict retries are used up. -/
def handlerError (s : State) (w : Nat) (err : String) : Option State :=
  match s.workers w with
  | .idle | .handled _ | .failed _ _ | .failureUpdating _ _ _ => none
  | p => p.delivery.map fun d => s.setWorker w (.failed d err)

def ack (s : State) (w : Nat) : Option State :=
  match s.workers w with
  | .handled d =>
    some ({ s with
      stream := s.stream.filter fun (e : Delivery) => e.seq ≠ d.seq }.setWorker w .idle)
  | _ => none

def nak (s : State) (w : Nat) : Option State :=
  match s.workers w with
  | .failed d _ => if d.numDelivered < maxDeliver then some (s.setWorker w .idle) else none
  | _ => none

/-- The failure handler looks at neither the UID nor the state of the job. -/
def failureGet (s : State) (w : Nat) : Option State :=
  match s.workers w with
  | .failed d err =>
    if d.numDelivered < maxDeliver then none
    else
      match s.get d.job.name with
      | some copy => some (s.setWorker w (.failureUpdating d err copy))
      | none => some (s.setWorker w (.handled d))
  | _ => none

def failureUpdate (s : State) (w : Nat) : Option State :=
  match s.workers w with
  | .failureUpdating d err copy =>
    match s.updateStatus d.job.name copy
        (copy.object.markFailed s.clock .internalError err).status with
    | .stored s' job =>
      some ((s'.recordUnlessFinished d.job.name copy job).setWorker w (.handled d))
    | .conflict => some (s.setWorker w (.failed d err))
    | .notFound => some (s.setWorker w (.handled d))
  | _ => none

/-- `HandleFailure` returns an error. The subscriber acknowledges the message nevertheless. -/
def failureGiveUp (s : State) (w : Nat) : Option State :=
  match s.workers w with
  | .failed d _ =>
    if d.numDelivered < maxDeliver then none else some (s.setWorker w (.handled d))
  | .failureUpdating d _ _ => some (s.setWorker w (.handled d))
  | _ => none

/-! ## Everyone else -/

def createNodeScanJob (s : State) (name nodeName : String) : Option State :=
  ((s.stores name).create ⟨nodeName, 1, false, {}⟩).map fun store => s.setStore name store

inductive Action where
  | tick
  | createNode (node : String)
  | deleteNode (node : String)
  | setConfigured (configured : Bool)
  | deleteNodeSBOM (nodeSBOM : String)
  | deleteReport (report : String)
  | createNodeScanJob (name nodeName : String)
  | deleteNodeScanJob (name : String)
  | restartController
  | reconcileGet (i : Nat) (name : String) (version : Nat)
  | reconcileReject (i : Nat) (r : Rejection)
  | reconcileAbort (i : Nat)
  | reconcileError (i : Nat)
  | reconcilePatch (i : Nat)
  | reconcilePublish (i : Nat) (dropped : Bool)
  | reconcileUpdate (i : Nat)
  | deliver (w seq : Nat)
  | handlerError (w : Nat) (err : String)
  | crash (w : Nat)
  | ack (w : Nat)
  | nak (w : Nat)
  | failureGet (w : Nat)
  | failureUpdate (w : Nat)
  | failureGiveUp (w : Nat)
  | generateGet (w : Nat)
  | generateNode (w : Nat)
  | generateMarkGet (w : Nat)
  | generateMark (w : Nat)
  | generateConfiguration (w : Nat)
  | generateCreate (w : Nat)
  | generateGetFinal (w : Nat)
  | generatePublish (w : Nat) (dropped : Bool)
  | scanGet (w : Nat)
  | scanMarkGet (w : Nat)
  | scanMark (w : Nat)
  | scanSBOM (w : Nat)
  | scanReport (w : Nat)
  | scanCompleteGet (w : Nat)
  | scanComplete (w : Nat)

def step (s : State) : Action → Option State
  | .tick => some { s with clock := s.clock + 1 }
  | .createNode node => some { s with nodes := node :: s.nodes }
  | .deleteNode node => some { s with nodes := s.nodes.filter (· ≠ node) }
  | .setConfigured configured => some { s with configured := configured }
  | .deleteNodeSBOM nodeSBOM => some { s with nodeSBOMs := s.nodeSBOMs.filter (· ≠ nodeSBOM) }
  | .deleteReport report => some { s with reports := update s.reports report none }
  | .createNodeScanJob name nodeName => createNodeScanJob s name nodeName
  | .deleteNodeScanJob name => some (s.setStore name (s.stores name).delete)
  | .restartController => some { s with reconcilers := fun _ => .idle }
  | .reconcileGet i name version => reconcileGet s i name version
  | .reconcileReject i r => reconcileReject s i r
  | .reconcileAbort i => reconcileAbort s i
  | .reconcileError i => reconcileError s i
  | .reconcilePatch i => reconcilePatch s i
  | .reconcilePublish i dropped => reconcilePublish s i dropped
  | .reconcileUpdate i => reconcileUpdate s i
  | .deliver w seq => deliver s w seq
  | .handlerError w err => handlerError s w err
  | .crash w => some (s.setWorker w .idle)
  | .ack w => ack s w
  | .nak w => nak s w
  | .failureGet w => failureGet s w
  | .failureUpdate w => failureUpdate s w
  | .failureGiveUp w => failureGiveUp s w
  | .generateGet w => generateGet s w
  | .generateNode w => generateNode s w
  | .generateMarkGet w => generateMarkGet s w
  | .generateMark w => generateMark s w
  | .generateConfiguration w => generateConfiguration s w
  | .generateCreate w => generateCreate s w
  | .generateGetFinal w => generateGetFinal s w
  | .generatePublish w dropped => generatePublish s w dropped
  | .scanGet w => scanGet s w
  | .scanMarkGet w => scanMarkGet s w
  | .scanMark w => scanMark s w
  | .scanSBOM w => scanSBOM s w
  | .scanReport w => scanReport s w
  | .scanCompleteGet w => scanCompleteGet s w
  | .scanComplete w => scanComplete s w

/-! ## Runs of one party

The pipeline in order, for the runs that are looked at later. -/

/-- A job is created, gets the snapshot of the configuration, and is scheduled. -/
def scheduleJob : List Action :=
  [.createNode "node-1", .setConfigured true, .createNodeScanJob "scan" "node-1",
    .reconcileGet 0 "scan" 0, .reconcilePatch 0, .reconcileUpdate 0,
    .reconcileGet 0 "scan" 2, .reconcilePublish 0 false, .reconcileUpdate 0]

/-- `GenerateNodeSBOMHandler`, up to its end. -/
def generateNodeSBOM (w seq : Nat) : List Action :=
  [.deliver w seq, .generateGet w, .generateNode w, .generateMarkGet w, .generateMark w,
    .generateConfiguration w, .generateCreate w, .generateGetFinal w, .generatePublish w false]

/-- `NodeScanSBOMHandler`, up to its end. -/
def scanNodeSBOM (w seq : Nat) : List Action :=
  [.deliver w seq, .scanGet w, .scanMarkGet w, .scanMark w, .scanSBOM w, .scanReport w,
    .scanCompleteGet w, .scanComplete w]

end SbomScanner.NodeScan

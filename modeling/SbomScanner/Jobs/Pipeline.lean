import Mathlib.Data.List.AList
import SbomScanner.Jobs.ScanJob
import SbomScanner.Lib.Transition

/-!
# The registry scan pipeline

A ScanJob is carried to its end by parties that share nothing but the API server and a work queue:
two reconcilers in the controller (`ScanJobReconciler` and `VulnerabilityReportReconciler`) and
workers that take messages from the stream and run `CreateCatalogHandler`, `GenerateSBOMHandler` or
`ScanSBOMHandler`, with `ScanJobFailureHandler` behind them.

One action below is one call to the API server or to the stream, so that everything may happen
between two of them.

* Every write of a job gives it a fresh resource version, and a status update is refused unless it
  carries the version that is stored. `history` keeps all versions ever stored: the controller
  reads from a cache, so it may see any of them, while workers read the one stored now.
* A message stays in the stream until it is acknowledged. It may be delivered again at any time,
  also while a worker is still on it: that is what happens when the worker takes longer than the
  acknowledgement wait.
* `published` remembers message ids: publishing one again may be dropped by the stream.
* Images, SBOMs and VulnerabilityReports of one image share its name. Anyone may delete them; this
  also covers `deleteObsoleteImages` and the garbage collection that follows. Only jobs are read
  from a cache that lags: a report that is written is listed and queued in the same step.
* `catalog` is not part of the program. It remembers, for each job, the images of the last catalog
  whose final status was persisted.
-/

open Function

namespace SbomScanner.Jobs.Pipeline

/-! ## Messages -/

structure ScanJobRef where
  name : String
  uid : Nat
deriving DecidableEq, Repr

inductive Message where
  | createCatalog (scanJob : ScanJobRef)
  | generateSBOM (scanJob : ScanJobRef) (image : String)
  | scanSBOM (scanJob : ScanJobRef) (sbom : String)
deriving DecidableEq, Repr

/-- The part every message has, which is all the failure handler reads. -/
def Message.scanJob : Message → ScanJobRef
  | .createCatalog scanJob | .generateSBOM scanJob _ | .scanSBOM scanJob _ => scanJob

structure Delivery where
  seq : Nat
  numDelivered : Nat
  message : Message
deriving DecidableEq, Repr

def maxDeliver : Nat := 5

/-! ## The parties -/

inductive Worker where
  | idle
  | received (d : Delivery)
  | catalogMarking (d : Delivery) (job : ScanJob)
  | catalogListing (d : Delivery)
  | catalogDiscovering (d : Delivery) (existing discovered : List String)
  | catalogClosing (d : Delivery) (discovered : List String)
  | catalogUpdating (d : Delivery) (discovered : List String) (job : ScanJob)
  | catalogPublishing (d : Delivery) (remaining : List String)
  | generateFetching (d : Delivery) (image : String)
  | generateCreating (d : Delivery) (image : String)
  | generatePublishing (d : Delivery) (image : String)
  | scanFetching (d : Delivery) (sbom : String)
  | scanReporting (d : Delivery) (sbom : String)
  /-- the handler, or the failure handler, is through with the message -/
  | handled (d : Delivery)
  | failed (d : Delivery) (err : String)
  | failureUpdating (d : Delivery) (err : String) (job : ScanJob)
deriving DecidableEq, Repr

inductive JobReconcile where
  | idle
  | initialized (job : ScanJob) (status : Status)
  | updating (job : ScanJob) (status : Status)
deriving DecidableEq, Repr

inductive ReportReconcile where
  | idle
  | fetched (report : String) (job : ScanJob)
  | listed (report : String) (job : ScanJob) (reports : List String)
deriving DecidableEq, Repr

def Worker.delivery : Worker → Option Delivery
  | .idle => none
  | .received d | .catalogMarking d _ | .catalogListing d | .catalogDiscovering d _ _
  | .catalogClosing d _ | .catalogUpdating d _ _ | .catalogPublishing d _ | .generateFetching d _
  | .generateCreating d _ | .generatePublishing d _ | .scanFetching d _ | .scanReporting d _
  | .handled d | .failed d _ | .failureUpdating d _ _ => some d

/-- The copy of a job a party holds between reading it and updating it. -/
def Worker.copy : Worker → Option ScanJob
  | .catalogMarking _ job | .catalogUpdating _ _ job | .failureUpdating _ _ job => some job
  | _ => none

def JobReconcile.copy : JobReconcile → Option ScanJob
  | .initialized job _ | .updating job _ => some job
  | .idle => none

def ReportReconcile.copy : ReportReconcile → Option ScanJob
  | .fetched _ job | .listed _ job _ => some job
  | .idle => none

/-! ## State -/

structure Cluster where
  jobs : String → Option ScanJob
  history : List ScanJob
  nextVersion : Nat
  nextUid : Nat

structure Bus where
  stream : List Delivery
  published : List Message
  nextSeq : Nat

structure Artifacts where
  images : List String
  sboms : List String
  /-- the reports, with the UID of the job that labelled them -/
  reports : AList (fun _ : String => Nat)
  /-- the reports that wait to be reconciled -/
  queue : List String

structure State extends Cluster, Bus, Artifacts where
  clock : Nat
  workers : Nat → Worker
  jobReconcilers : Nat → JobReconcile
  reportReconcilers : Nat → ReportReconcile
  /-- the jobs counted by the terminal-job metric -/
  recorded : List Nat
  catalog : Nat → Option (List String)

def init : State where
  jobs := fun _ => none
  history := []
  nextVersion := 1
  nextUid := 1
  stream := []
  published := []
  nextSeq := 1
  images := []
  sboms := []
  reports := ∅
  queue := []
  clock := 0
  workers := fun _ => .idle
  jobReconcilers := fun _ => .idle
  reportReconcilers := fun _ => .idle
  recorded := []
  catalog := fun _ => none

namespace State

def setWorker (s : State) (w : Nat) (p : Worker) : State :=
  { s with workers := update s.workers w p }

def setJobReconciler (s : State) (i : Nat) (p : JobReconcile) : State :=
  { s with jobReconcilers := update s.jobReconcilers i p }

def setReportReconciler (s : State) (r : Nat) (p : ReportReconcile) : State :=
  { s with reportReconcilers := update s.reportReconcilers r p }

/-- `Get` of the job a message refers to; a job of that name with another UID counts as not
found. -/
def fetch (s : State) (ref : ScanJobRef) : Option ScanJob :=
  (s.jobs ref.name).filter fun job => job.uid = ref.uid

/-- A version of the job with this UID, as a cache may still hold it. -/
def cached (s : State) (uid version : Nat) : Option ScanJob :=
  s.history.find? fun job => job.uid = uid ∧ job.resourceVersion = version

def gone (s : State) (uid : Nat) : Bool :=
  s.history.all fun job => job.uid ≠ uid ∨ (s.jobs job.name).map (·.uid) ≠ some uid

/-- The reports that carry the UID in their label. -/
def labelled (s : State) (uid : Nat) : List String :=
  (s.reports.entries.filter fun e => e.2 = uid).map (·.1)

def store (s : State) (job : ScanJob) : State :=
  let job := { job with resourceVersion := s.nextVersion }
  { s with
    jobs := update s.jobs job.name (some job)
    history := job :: s.history
    nextVersion := s.nextVersion + 1 }

/-- `Status().Update`: refused (`none`) when the job is not found or has another version by now. -/
def updateStatus (s : State) (job : ScanJob) (status : Status) : Option State :=
  match s.jobs job.name with
  | some current =>
    if current.resourceVersion = job.resourceVersion then
      some (s.store { current with status := status })
    else none
  | none => none

/-- The stream drops a message whose id it has seen, if it still remembers the id. -/
def publish (s : State) (m : Message) (dropped : Bool) : Option State :=
  if dropped then
    if m ∈ s.published then some s else none
  else
    some { s with
      stream := s.stream ++ [⟨s.nextSeq, 0, m⟩]
      published := m :: s.published
      nextSeq := s.nextSeq + 1 }

def recordScanJobFinished (s : State) (job : ScanJob) : State :=
  if job.jobFinished then { s with recorded := job.uid :: s.recorded } else s

@[simp] theorem workers_setWorker_self (s : State) (w : Nat) (p : Worker) :
    (s.setWorker w p).workers w = p := update_self ..

theorem workers_setWorker_ne (s : State) {w w' : Nat} (h : w' ≠ w) (p : Worker) :
    (s.setWorker w p).workers w' = s.workers w' := update_of_ne h ..

@[simp] theorem jobReconcilers_set_self (s : State) (i : Nat) (p : JobReconcile) :
    (s.setJobReconciler i p).jobReconcilers i = p := update_self ..

theorem jobReconcilers_set_ne (s : State) {i i' : Nat} (h : i' ≠ i) (p : JobReconcile) :
    (s.setJobReconciler i p).jobReconcilers i' = s.jobReconcilers i' := update_of_ne h ..

@[simp] theorem reportReconcilers_set_self (s : State) (r : Nat) (p : ReportReconcile) :
    (s.setReportReconciler r p).reportReconcilers r = p := update_self ..

theorem reportReconcilers_set_ne (s : State) {r r' : Nat} (h : r' ≠ r) (p : ReportReconcile) :
    (s.setReportReconciler r p).reportReconcilers r' = s.reportReconcilers r' :=
  update_of_ne h ..

end State

/-! ## ScanJobReconciler -/

/-- What `reconcileScanJob` finds before it looks at the annotation of the job. -/
inductive RegistryLookup where
  /-- old jobs could not be cleaned up, the registry could not be read, or a later call failed -/
  | error
  | notFound (registry : String)
  | repositoryNotFound (message : String)
  | matchConditionNotFound (message : String)

def jobGet (s : State) (i uid version : Nat) : Option State :=
  match s.jobReconcilers i, s.cached uid version with
  | .idle, some job =>
    if job.isPending then
      some (s.setJobReconciler i (.initialized job (job.initializeConditions s.clock).status))
    else none
  | _, _ => none

/-- The status the reconciler goes on to update when `reconcileScanJob` returns early. -/
def RegistryLookup.status (now : Nat) (job : ScanJob) : RegistryLookup → Status
  | .error => job.status
  | .notFound registry =>
    (job.markFailed now .registryNotFound ("Registry " ++ registry ++ " not found")).status
  | .repositoryNotFound message => (job.markFailed now .repositoryNotFound message).status
  | .matchConditionNotFound message => (job.markFailed now .matchConditionNotFound message).status

def jobRegistry (s : State) (i : Nat) (r : RegistryLookup) : Option State :=
  match s.jobReconcilers i with
  | .initialized job status =>
    some (s.setJobReconciler i (.updating job (r.status s.clock { job with status := status })))
  | _ => none

/-- The patch carries no version, so it hits whatever job has the name now, and the reconciler
continues with the job the server sends back. What the server has no value for stays as it was in
memory; for a job without conditions these are the initial ones. -/
def jobPatch (s : State) (i : Nat) : Option State :=
  match s.jobReconcilers i with
  | .initialized job status =>
    if job.hasRegistryAnnotation then none
    else
      match s.jobs job.name with
      | some current =>
        let patched := { current with
          hasRegistryAnnotation := true, resourceVersion := s.nextVersion }
        let status := if current.status.conditions = [] then
          { current.status with conditions := status.conditions } else current.status
        some ((s.store patched).setJobReconciler i (.updating patched status))
      | none => some (s.setJobReconciler i (.updating job status))
  | _ => none

def jobPublish (s : State) (i : Nat) (dropped : Bool) : Option State :=
  match s.jobReconcilers i with
  | .initialized job status =>
    if job.hasRegistryAnnotation then
      (s.publish (.createCatalog ⟨job.name, job.uid⟩) dropped).map fun s' =>
        s'.setJobReconciler i (.updating job
          (ScanJob.markScheduled { job with status := status } s.clock .scheduled
            "ScanJob has been scheduled for processing by the controller").status)
    else none
  | _ => none

def jobUpdate (s : State) (i : Nat) : Option State :=
  match s.jobReconcilers i with
  | .updating job status =>
    match s.updateStatus job status with
    | some s' =>
      some ((s'.recordScanJobFinished { job with status := status }).setJobReconciler i .idle)
    | none => some (s.setJobReconciler i .idle)
  | _ => none

/-! ## CreateCatalogHandler -/

def catalogGet (s : State) (w : Nat) : Option State :=
  match s.workers w with
  | .received ⟨seq, n, .createCatalog ref⟩ =>
    let d : Delivery := ⟨seq, n, .createCatalog ref⟩
    match s.fetch ref with
    | some job =>
      if job.jobFinished then some (s.setWorker w (.handled d))
      else some (s.setWorker w (.catalogMarking d job))
    | none => some (s.setWorker w (.handled d))
  | _ => none

/-- `retry.RetryOnConflict`: a refused update starts over with the `Get`. -/
def catalogMark (s : State) (w : Nat) : Option State :=
  match s.workers w with
  | .catalogMarking d job =>
    match s.updateStatus job (job.markInProgress s.clock .catalogCreationInProgress
        "Catalog creation in progress").status with
    | some s' => some (s'.setWorker w (.catalogListing d))
    | none => some (s.setWorker w (.received d))
  | _ => none

def catalogList (s : State) (w : Nat) : Option State :=
  match s.workers w with
  | .catalogListing d => some (s.setWorker w (.catalogDiscovering d s.images []))
  | _ => none

/-- One image of the registry: the job is fetched again, and the image is created unless it was
listed before. -/
def catalogImage (s : State) (w : Nat) (image : String) : Option State :=
  match s.workers w with
  | .catalogDiscovering d existing discovered =>
    match s.fetch d.message.scanJob with
    | some _ =>
      let s := if image ∈ existing then s else { s with images := image :: s.images }
      some (s.setWorker w (.catalogDiscovering d existing (discovered ++ [image])))
    | none => some (s.setWorker w (.handled d))
  | _ => none

def catalogDiscovered (s : State) (w : Nat) : Option State :=
  match s.workers w with
  | .catalogDiscovering d _ discovered => some (s.setWorker w (.catalogClosing d discovered))
  | _ => none

def catalogGetFinal (s : State) (w : Nat) : Option State :=
  match s.workers w with
  | .catalogClosing d discovered =>
    match s.fetch d.message.scanJob with
    | some job => some (s.setWorker w (.catalogUpdating d discovered job))
    | none => some (s.setWorker w (.handled d))
  | _ => none

def catalogStatus (now : Nat) (discovered : List String) (job : ScanJob) : Status :=
  if discovered = [] then (job.markComplete now .noImagesToScan "No images to process").status
  else
    { (job.markInProgress now .sbomGenerationInProgress "SBOM generation in progress").status with
      imagesCount := discovered.length
      scannedImagesCount := 0 }

/-- The final status update. Whether the job was finished is remembered for the metric only. -/
def catalogUpdate (s : State) (w : Nat) : Option State :=
  match s.workers w with
  | .catalogUpdating d discovered job =>
    let status := catalogStatus s.clock discovered job
    match s.updateStatus job status with
    | some s' =>
      let s' := if job.jobFinished then s'
        else s'.recordScanJobFinished { job with status := status }
      some ({ s' with
        catalog := update s'.catalog job.uid (some discovered) }.setWorker
        w (.catalogPublishing d discovered))
    | none => some (s.setWorker w (.catalogClosing d discovered))
  | _ => none

def catalogPublish (s : State) (w : Nat) (dropped : Bool) : Option State :=
  match s.workers w with
  | .catalogPublishing d (image :: remaining) =>
    (s.publish (.generateSBOM d.message.scanJob image) dropped).map fun s' =>
      s'.setWorker w (.catalogPublishing d remaining)
  | .catalogPublishing d [] => some (s.setWorker w (.handled d))
  | _ => none

/-! ## GenerateSBOMHandler and ScanSBOMHandler -/

def generateGet (s : State) (w : Nat) : Option State :=
  match s.workers w with
  | .received ⟨seq, n, .generateSBOM ref image⟩ =>
    let d : Delivery := ⟨seq, n, .generateSBOM ref image⟩
    match s.fetch ref with
    | some job =>
      if job.isFailed then some (s.setWorker w (.handled d))
      else some (s.setWorker w (.generateFetching d image))
    | none => some (s.setWorker w (.handled d))
  | _ => none

/-- A missing image ends the handler without an error. -/
def generateImage (s : State) (w : Nat) : Option State :=
  match s.workers w with
  | .generateFetching d image =>
    if image ∈ s.images then some (s.setWorker w (.generateCreating d image))
    else some (s.setWorker w (.handled d))
  | _ => none

def generateCreate (s : State) (w : Nat) : Option State :=
  match s.workers w with
  | .generateCreating d image =>
    some ({ s with sboms := image :: s.sboms }.setWorker w (.generatePublishing d image))
  | _ => none

def generatePublish (s : State) (w : Nat) (dropped : Bool) : Option State :=
  match s.workers w with
  | .generatePublishing d image =>
    (s.publish (.scanSBOM d.message.scanJob image) dropped).map fun s' =>
      s'.setWorker w (.handled d)
  | _ => none

def scanGet (s : State) (w : Nat) : Option State :=
  match s.workers w with
  | .received ⟨seq, n, .scanSBOM ref sbom⟩ =>
    let d : Delivery := ⟨seq, n, .scanSBOM ref sbom⟩
    match s.fetch ref with
    | some job =>
      if job.isFailed then some (s.setWorker w (.handled d))
      else some (s.setWorker w (.scanFetching d sbom))
    | none => some (s.setWorker w (.handled d))
  | _ => none

/-- A missing SBOM ends the handler without an error. -/
def scanSBOM (s : State) (w : Nat) : Option State :=
  match s.workers w with
  | .scanFetching d sbom =>
    if sbom ∈ s.sboms then some (s.setWorker w (.scanReporting d sbom))
    else some (s.setWorker w (.handled d))
  | _ => none

/-- `CreateOrUpdate` of the report: an older report of the image gets the label of this job. -/
def scanReport (s : State) (w : Nat) : Option State :=
  match s.workers w with
  | .scanReporting d sbom =>
    some ({ s with
      reports := s.reports.insert sbom d.message.scanJob.uid
      queue := sbom :: s.queue }.setWorker w (.handled d))
  | _ => none

/-! ## Subscriber and ScanJobFailureHandler -/

def deliver (s : State) (w seq : Nat) : Option State :=
  match s.workers w, s.stream.find? (·.seq = seq) with
  | .idle, some e =>
    let d := { e with numDelivered := e.numDelivered + 1 }
    some ({ s with
      stream := s.stream.map fun (e : Delivery) => if e.seq = seq then d else e }.setWorker
      w (.received d))
  | _, _ => none

def handlerError (s : State) (w : Nat) (err : String) : Option State :=
  match s.workers w with
  | .idle | .handled _ | .failed _ _ | .failureUpdating _ _ _ => none
  | p => p.delivery.map fun d => s.setWorker w (.failed d err)

def crash (s : State) (w : Nat) : Option State := some (s.setWorker w .idle)

def ack (s : State) (w : Nat) : Option State :=
  match s.workers w with
  | .handled d =>
    some ({ s with
      stream := s.stream.filter fun (e : Delivery) => e.seq ≠ d.seq }.setWorker w .idle)
  | _ => none

def nak (s : State) (w : Nat) : Option State :=
  match s.workers w with
  | .failed d _ => if d.numDelivered < maxDeliver then some (s.setWorker w .idle) else none
  | _ => none

/-- The failure handler reads the job by name; it does not look at the UID. -/
def failureGet (s : State) (w : Nat) : Option State :=
  match s.workers w with
  | .failed d err =>
    if d.numDelivered < maxDeliver then none
    else
      match s.jobs d.message.scanJob.name with
      | some job => some (s.setWorker w (.failureUpdating d err job))
      | none => some (s.setWorker w (.handled d))
  | _ => none

def failureUpdate (s : State) (w : Nat) : Option State :=
  match s.workers w with
  | .failureUpdating d err job =>
    let status := (job.markFailed s.clock .internalError err).status
    match s.updateStatus job status with
    | some s' =>
      let s' := if job.jobFinished then s'
        else s'.recordScanJobFinished { job with status := status }
      some (s'.setWorker w (.handled d))
    | none => some (s.setWorker w (.failed d err))
  | _ => none

/-- `HandleFailure` returns an error. The subscriber logs it and acknowledges the message. -/
def failureGiveUp (s : State) (w : Nat) : Option State :=
  match s.workers w with
  | .failed d _ =>
    if d.numDelivered < maxDeliver then none else some (s.setWorker w (.handled d))
  | .failureUpdating d _ _ => some (s.setWorker w (.handled d))
  | _ => none

/-! ## VulnerabilityReportReconciler -/

def reportGet (s : State) (r : Nat) (report : String) (version : Nat) : Option State :=
  match s.reportReconcilers r with
  | .idle =>
    if report ∈ s.queue then
      let s' := { s with queue := s.queue.filter (· ≠ report) }
      match s.reports.lookup report with
      | some uid =>
        match s.cached uid version with
        | some job =>
          if job.isComplete then some s'
          else some (s'.setReportReconciler r (.fetched report job))
        | none => if s.gone uid then some s' else none
      | none => some s'
    else none
  | _ => none

def reportList (s : State) (r : Nat) : Option State :=
  match s.reportReconcilers r with
  | .fetched report job =>
    some (s.setReportReconciler r (.listed report job (s.labelled job.uid)))
  | _ => none

def reportStatus (now count : Nat) (job : ScanJob) : Status :=
  let job := { job with status.scannedImagesCount := count }
  if job.isFailed then job.status
  else if job.status.scannedImagesCount = job.status.imagesCount then
    (job.markComplete now .allImagesScanned "All images scanned successfully").status
  else (job.markInProgress now .imageScanInProgress "Image scan in progress").status

/-- A refused update is an error, so the report is reconciled again. -/
def reportUpdate (s : State) (r : Nat) : Option State :=
  match s.reportReconcilers r with
  | .listed report job reports =>
    let status := reportStatus s.clock reports.length job
    match s.updateStatus job status with
    | some s' =>
      let s' := if job.isFailed then s'
        else s'.recordScanJobFinished { job with status := status }
      some (s'.setReportReconciler r .idle)
    | none => some ({ s with queue := report :: s.queue }.setReportReconciler r .idle)
  | _ => none

def reportError (s : State) (r : Nat) : Option State :=
  match s.reportReconcilers r with
  | .fetched report _ | .listed report _ _ =>
    some ({ s with queue := report :: s.queue }.setReportReconciler r .idle)
  | .idle => none

/-! ## Everyone else -/

def createScanJob (s : State) (name : String) : Option State :=
  match s.jobs name with
  | none => some { s.store ⟨name, s.nextUid, 0, 1, false, {}⟩ with nextUid := s.nextUid + 1 }
  | some _ => none

def deleteScanJob (s : State) (name : String) : State :=
  { s with jobs := update s.jobs name none }

def deleteReport (s : State) (report : String) : State :=
  { s with reports := s.reports.erase report, queue := report :: s.queue }

/-- A controller that starts has nothing in flight and reconciles every report it lists. -/
def restartController (s : State) : State :=
  { s with
    queue := s.reports.keys
    jobReconcilers := fun _ => .idle
    reportReconcilers := fun _ => .idle }

inductive Action where
  | tick
  | restartController
  | createScanJob (name : String)
  | deleteScanJob (name : String)
  | deleteImage (image : String)
  | deleteSBOM (sbom : String)
  | deleteReport (report : String)
  | jobGet (i uid version : Nat)
  | jobRegistry (i : Nat) (r : RegistryLookup)
  | jobPatch (i : Nat)
  | jobPublish (i : Nat) (dropped : Bool)
  | jobUpdate (i : Nat)
  | deliver (w seq : Nat)
  | handlerError (w : Nat) (err : String)
  | crash (w : Nat)
  | ack (w : Nat)
  | nak (w : Nat)
  | failureGet (w : Nat)
  | failureUpdate (w : Nat)
  | failureGiveUp (w : Nat)
  | catalogGet (w : Nat)
  | catalogMark (w : Nat)
  | catalogList (w : Nat)
  | catalogImage (w : Nat) (image : String)
  | catalogDiscovered (w : Nat)
  | catalogGetFinal (w : Nat)
  | catalogUpdate (w : Nat)
  | catalogPublish (w : Nat) (dropped : Bool)
  | generateGet (w : Nat)
  | generateImage (w : Nat)
  | generateCreate (w : Nat)
  | generatePublish (w : Nat) (dropped : Bool)
  | scanGet (w : Nat)
  | scanSBOM (w : Nat)
  | scanReport (w : Nat)
  | reportGet (r : Nat) (report : String) (version : Nat)
  | reportList (r : Nat)
  | reportUpdate (r : Nat)
  | reportError (r : Nat)

def step (s : State) : Action → Option State
  | .tick => some { s with clock := s.clock + 1 }
  | .restartController => some (restartController s)
  | .createScanJob name => createScanJob s name
  | .deleteScanJob name => some (deleteScanJob s name)
  | .deleteImage image => some { s with images := s.images.filter (· ≠ image) }
  | .deleteSBOM sbom => some { s with sboms := s.sboms.filter (· ≠ sbom) }
  | .deleteReport report => some (deleteReport s report)
  | .jobGet i uid version => jobGet s i uid version
  | .jobRegistry i r => jobRegistry s i r
  | .jobPatch i => jobPatch s i
  | .jobPublish i dropped => jobPublish s i dropped
  | .jobUpdate i => jobUpdate s i
  | .deliver w seq => deliver s w seq
  | .handlerError w err => handlerError s w err
  | .crash w => crash s w
  | .ack w => ack s w
  | .nak w => nak s w
  | .failureGet w => failureGet s w
  | .failureUpdate w => failureUpdate s w
  | .failureGiveUp w => failureGiveUp s w
  | .catalogGet w => catalogGet s w
  | .catalogMark w => catalogMark s w
  | .catalogList w => catalogList s w
  | .catalogImage w image => catalogImage s w image
  | .catalogDiscovered w => catalogDiscovered s w
  | .catalogGetFinal w => catalogGetFinal s w
  | .catalogUpdate w => catalogUpdate s w
  | .catalogPublish w dropped => catalogPublish s w dropped
  | .generateGet w => generateGet s w
  | .generateImage w => generateImage s w
  | .generateCreate w => generateCreate s w
  | .generatePublish w dropped => generatePublish s w dropped
  | .scanGet w => scanGet s w
  | .scanSBOM w => scanSBOM s w
  | .scanReport w => scanReport s w
  | .reportGet r report version => reportGet s r report version
  | .reportList r => reportList s r
  | .reportUpdate r => reportUpdate s r
  | .reportError r => reportError s r

/-! ## Runs of one handler

The handlers one after the other, for the runs that are looked at later. -/

/-- A job is created, gets the snapshot of its registry, and is scheduled. -/
def scheduleJob : List Action :=
  [.createScanJob "nightly", .jobGet 0 1 1, .jobPatch 0, .jobUpdate 0,
    .jobGet 0 1 3, .jobPublish 0 false, .jobUpdate 0]

/-- `CreateCatalogHandler` up to the final status. -/
def createCatalog (w seq : Nat) (images : List String) : List Action :=
  [Action.deliver w seq, .catalogGet w, .catalogMark w, .catalogList w] ++
    images.map (.catalogImage w) ++
    [Action.catalogDiscovered w, .catalogGetFinal w, .catalogUpdate w]

def generateSBOM (w seq : Nat) : List Action :=
  [.deliver w seq, .generateGet w, .generateImage w, .generateCreate w, .generatePublish w false,
    .ack w]

def scanSBOMs (w seq : Nat) : List Action :=
  [.deliver w seq, .scanGet w, .scanSBOM w, .scanReport w, .ack w]

end SbomScanner.Jobs.Pipeline

import SbomScanner.Api.Registry
import SbomScanner.Jobs.ScanJob

/-!
# ScanJobs as API objects

The pipeline of `Jobs` follows one job through its states and looks at little else. Those who
create, admit and schedule jobs look at the rest: the namespace, the annotations, and the
specification, which says what registry to scan and, for a targeted job, what part of it.

`ScanJob.job` is the job as the pipeline sees it, and the state of a job is read off there.
-/

namespace SbomScanner.Api

def annotationScanJobRegistryKey := "sbomscanner.kubewarden.io/registry"
def annotationScanJobTriggerKey := "sbomscanner.kubewarden.io/trigger"

structure ScanJobSpec where
  registry : String
  /-- the part of the registry to scan; all of it if there are none -/
  repositories : List ScanJobRepository
  deriving DecidableEq

structure ScanJob where
  name : String
  generateName : String
  ns : String
  uid : Nat
  resourceVersion : Nat
  generation : Nat
  creationTimestamp : Nat
  labels : Labels
  annotations : Labels
  spec : ScanJobSpec
  status : Jobs.Status
  deriving DecidableEq

namespace ScanJob

def job (scanJob : ScanJob) : Jobs.ScanJob where
  name := scanJob.name
  uid := scanJob.uid
  resourceVersion := scanJob.resourceVersion
  generation := scanJob.generation
  hasRegistryAnnotation := (scanJob.annotations.lookup annotationScanJobRegistryKey).isSome
  status := scanJob.status

def isComplete (scanJob : ScanJob) : Bool := scanJob.job.isComplete
def isFailed (scanJob : ScanJob) : Bool := scanJob.job.isFailed

def isRunning (scanJob : ScanJob) : Bool := !scanJob.isComplete && !scanJob.isFailed

/-- A job that scans a part of its registry only. -/
def isTargeted (scanJob : ScanJob) : Bool := scanJob.spec.repositories ≠ []

end ScanJob

end SbomScanner.Api

import SbomScanner.Api.ScanJob
import SbomScanner.Webhook.Registry

/-!
# The admission webhooks of a ScanJob

A ScanJob is admitted if its registry exists and no other job of that registry is running. What it
scans cannot be changed later. The snapshot of the Registry, which the workers take for the Registry
itself, may be set or changed by the service account of the controller only.

The status of a ScanJob is a resource of its own, and the webhooks do not see when it is written.
-/

namespace SbomScanner.Webhook

open Api Fallible List

def annotationScanJobCreationTimestampKey := "sbomscanner.kubewarden.io/creation-timestamp"

def registryKey (scanJob : ScanJob) : String × String := (scanJob.ns, scanJob.spec.registry)

def snapshot (scanJob : ScanJob) : Option String :=
  scanJob.annotations.lookup annotationScanJobRegistryKey

/-- The mutating webhook, on create and on update. -/
def ScanJobCustomDefaulter.default (now : String) (scanJob : ScanJob) : ScanJob :=
  { scanJob with
    annotations := scanJob.annotations.insert annotationScanJobCreationTimestampKey now }

inductive ReadError where
  | notFound
  | other (reason : String)

/-- The client of the validator, which reads from the API server and not from a cache. -/
structure Reader where
  /-- the jobs of a namespace and registry -/
  list : String × String → Except String (List ScanJob)
  get : String × String → Except ReadError Registry

/-- A reader that finds these jobs. -/
def Reader.answering (scanJobs : List ScanJob) (get : String × String → Except ReadError Registry) :
    Reader where
  list key := .ok (scanJobs.filter (registryKey · = key))
  get := get

structure ScanJobCustomValidator where
  serviceAccount : ServiceAccount

namespace ScanJobCustomValidator

variable (v : ScanJobCustomValidator) (username : Option String)

/-- Ensures that only the designated service account can set or change the Registry snapshot
annotation of a ScanJob. -/
def validateRegistrySnapshotWriter (scanJob : ScanJob) : Except Denial Unit :=
  requireServiceAccount v.serviceAccount username "scanjobs" scanJob.name
    ("only the designated service account can set the " ++ annotationScanJobRegistryKey ++
      " annotation")

/-- A name of a registry reads the same when it is quoted. -/
def alreadyRunning (scanJob : ScanJob) : FieldError :=
  ⟨.forbidden, "spec.registry",
    "a ScanJob for the registry \"" ++ scanJob.spec.registry ++ "\" is already running"⟩

/-- That the registry does not exist is an error of the field. -/
def missingRegistry : Except ReadError Registry → Except Denial (List FieldError)
  | .ok _ => .ok []
  | .error .notFound => .ok [⟨.notFound, "spec.registry", ""⟩]
  | .error (.other reason) => .error (.internal ("getting Registry: " ++ reason))

def validateCreate (client : Reader) (scanJob : ScanJob) : Admission := do
  (if (snapshot scanJob).isSome then
    v.validateRegistrySnapshotWriter username scanJob
  else
    .ok ())
  let scanJobList ← (client.list (registryKey scanJob)).mapError fun reason =>
    .internal ("listing ScanJobs: " ++ reason)
  let missing ← missingRegistry (client.get (registryKey scanJob))
  admitUnless "ScanJob" scanJob.name
    ((if scanJobList.any ScanJob.isRunning then [alreadyRunning scanJob] else []) ++ missing) []

def validateUpdate (oldJob newJob : ScanJob) : Admission := do
  (if snapshot oldJob ≠ snapshot newJob then
    v.validateRegistrySnapshotWriter username newJob
  else
    .ok ())
  admitUnless "ScanJob" newJob.name
    ((if oldJob.spec.registry ≠ newJob.spec.registry then
      [⟨.invalid, "spec.registry", "field is immutable"⟩]
    else
      []) ++
    if oldJob.spec.repositories ≠ newJob.spec.repositories then
      [⟨.invalid, "spec.repositories", "field is immutable"⟩]
    else
      []) []

end ScanJobCustomValidator

/-! ## What an admitted request says -/

variable {v : ScanJobCustomValidator} {username : Option String} {client : Reader}
  {scanJob oldJob newJob : ScanJob} {warnings : List String}

theorem admitUnless_eq_ok {kind name : String} {errors : List FieldError}
    {warnings warnings' : List String} :
    admitUnless kind name errors warnings = .ok warnings' ↔ errors = [] ∧ warnings = warnings' := by
  unfold admitUnless
  split
  case isTrue h => simp [h]
  case isFalse h => simp [h]

@[simp] theorem snapshot_default (now : String) :
    snapshot (ScanJobCustomDefaulter.default now scanJob) = snapshot scanJob := by
  apply Finmap.lookup_insert_of_ne
  decide

/-- A job that is admitted has no snapshot yet, unless the service account creates it. -/
theorem snapshot_of_validateCreate (h : v.validateCreate username client scanJob = .ok warnings)
    (hne : username ≠ some v.serviceAccount.allowedUsername) : snapshot scanJob = none := by
  obtain ⟨⟨⟩, hwriter, -⟩ := bind_eq_ok.mp h
  by_contra hsome
  rw [if_pos (Option.isSome_iff_ne_none.mpr hsome)] at hwriter
  exact hne (requireServiceAccount_eq_ok.mp hwriter)

/-- When the job was admitted, no job of the registry was running. -/
theorem isRunning_of_validateCreate {scanJobs : List ScanJob}
    {get : String × String → Except ReadError Registry}
    (h : v.validateCreate username (.answering scanJobs get) scanJob = .ok warnings)
    {job : ScanJob} (hjob : job ∈ scanJobs) (hkey : registryKey job = registryKey scanJob) :
    job.isRunning = false := by
  obtain ⟨⟨⟩, -, h⟩ := bind_eq_ok.mp h
  obtain ⟨listed, hlisted, h⟩ := bind_eq_ok.mp h
  obtain ⟨missing, -, h⟩ := bind_eq_ok.mp h
  obtain ⟨hnone, -⟩ := admitUnless_eq_ok.mp h
  cases hlisted
  by_contra hrunning
  rw [Bool.not_eq_false] at hrunning
  have hany :
      (scanJobs.filter (registryKey · = registryKey scanJob)).any ScanJob.isRunning = true :=
    any_eq_true.mpr ⟨job, by simp [hjob, hkey], hrunning⟩
  simp [hany] at hnone

/-- Nobody else can change the snapshot. -/
theorem snapshot_of_validateUpdate
    (h : v.validateUpdate username oldJob newJob = .ok warnings)
    (hne : username ≠ some v.serviceAccount.allowedUsername) :
    snapshot newJob = snapshot oldJob := by
  obtain ⟨⟨⟩, hwriter, -⟩ := bind_eq_ok.mp h
  by_contra hchanged
  rw [if_pos (Ne.symm hchanged)] at hwriter
  exact hne (requireServiceAccount_eq_ok.mp hwriter)

end SbomScanner.Webhook

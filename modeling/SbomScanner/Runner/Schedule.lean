import SbomScanner.Runner.Requests

/-!
# When a registry is scanned

The runner looks at every Registry once a tick. A Registry with a rescan request gets a ScanJob at
once; a Registry with a scan interval gets one when its last ScanJob completed at least the interval
ago. Either way nothing happens while its last ScanJob is running.

"Last" means created last. The job may be a targeted one, which has scanned only a part of the
registry: it then stands in for the full scan and puts it off by another interval.
-/

namespace SbomScanner.Runner

open Api Procedure List

/-- What the runner reads and writes. -/
structure World where
  registries : Cluster
  scanJobs : List ScanJob

inductive Request where
  | listRegistries
  | listScanJobs (registry : String)
  | createScanJob (registry : String)
  | getRegistry (registry : String) (attempt : Nat)
  | updateRegistry (registry : String) (attempt : Nat)

/-- The fields of a new object that the API server fills in. -/
structure Assigned where
  name : String
  uid : Nat
  resourceVersion : Nat
  creationTimestamp : Nat

/-- What a tick does not determine itself. -/
structure Choices where
  order : IterationOrder Loop
  fault : Request → Option ApiError
  assigned : String → Assigned

/-- An error of the API server with what the runner was doing. -/
structure Error where
  message : String
  cause : ApiError

abbrev Check := Procedure Error World

/-- The API server may refuse a request or fail to answer it. -/
def request {α : Type} (choices : Choices) (req : Request) (message : String)
    (perform : World → Except ApiError (α × World)) : Check α := do
  match choices.fault req with
  | some cause => throw ⟨message, cause⟩
  | none =>
    match perform (← get) with
    | .ok (a, world) =>
      set world
      return a
    | .error cause => throw ⟨message, cause⟩

/-! ## The last job -/

def ofRegistry (registry : Registry) (scanJob : ScanJob) : Bool :=
  scanJob.ns = registry.ns && scanJob.spec.registry = registry.name

/-- Sorted by creation time, the most recent first. -/
def sortByCreation (scanJobs : List ScanJob) : List ScanJob :=
  scanJobs.insertionSort fun a b => b.creationTimestamp ≤ a.creationTimestamp

def lastScanJob (order : IterationOrder Loop) (scanJobs : List ScanJob) (registry : Registry) :
    Option ScanJob :=
  (sortByCreation (order.range .scanJobs (scanJobs.filter (ofRegistry registry)))).head?

def getLastScanJob (choices : Choices) (registry : Registry) : Check ScanJob :=
  request choices (.listScanJobs registry.name) "failed to list scan jobs" fun world =>
    match lastScanJob choices.order world.scanJobs registry with
    | some scanJob => .ok (scanJob, world)
    | none => .error .notFound

/-- That there is no such ScanJob is no error. -/
def previousScanJob (choices : Choices) (registry : Registry) : Check (Option ScanJob) :=
  tryCatch (some <$> getLastScanJob choices registry) fun e =>
    if e.cause = .notFound then
      pure none
    else
      throw ⟨"failed to get last scan job for registry " ++ registry.name, e.cause⟩

/-- `now - completionTime`, and all durations, are in the unit of the clock. -/
def shouldCreateScanJob (now : Nat) (registry : Registry) (lastScanJob : Option ScanJob)
    (hasRescanRequest : Bool) : Bool :=
  -- if rescan was requested, always create a new scan job
  if hasRescanRequest then
    true
  else
    match registry.spec.scanInterval with
    -- no scan interval configured means no automatic scanning
    | none => false
    | some interval =>
      if interval = 0 then
        false
      else
        match lastScanJob with
        -- no previous scan job, create initial scan
        | none => true
        | some scanJob =>
          match scanJob.status.completionTime with
          | none => true
          | some completionTime => interval ≤ (now : Int) - completionTime

/-- Whether a ScanJob is created; if a job is running, wait the next cycle. -/
def wantsScanJob (now : Nat) (registry : Registry) (lastScanJob : Option ScanJob)
    (hasRescanRequest : Bool) : Bool :=
  !lastScanJob.any ScanJob.isRunning &&
    shouldCreateScanJob now registry lastScanJob hasRescanRequest

/-! ## The new job -/

/-- The ScanJob for the registry. The annotations that carry a trace are left out. -/
def newScanJob (assigned : Assigned) (registry : Registry)
    (repositories : List ScanJobRepository) : ScanJob where
  name := assigned.name
  generateName := registry.name ++ "-"
  ns := registry.ns
  uid := assigned.uid
  resourceVersion := assigned.resourceVersion
  generation := 1
  creationTimestamp := assigned.creationTimestamp
  -- jobs originating from workload scanning carry the same label as their managed Registry
  labels :=
    if registry.labels.lookup labelWorkloadScanKey = some labelWorkloadScanValue then
      .singleton labelWorkloadScanKey labelWorkloadScanValue
    else
      ∅
  annotations := .singleton annotationScanJobTriggerKey "runner"
  spec := { registry := registry.name, repositories }
  status := {}

def createScanJob (choices : Choices) (registry : Registry)
    (repositories : List ScanJobRepository) : Check PUnit :=
  request choices (.createScanJob registry.name)
    ("failed to create scan job for registry " ++ registry.name) fun world =>
      .ok (⟨⟩, { world with
        scanJobs := world.scanJobs ++
          [newScanJob (choices.assigned registry.name) registry repositories] })

/-! ## Removing the requests -/

def withoutAnnotations (keys : List String) (registry : Registry) : Registry :=
  { registry with
    annotations := keys.foldl (fun annotations key => annotations.erase key) registry.annotations }

theorem lookup_withoutAnnotations {keys : List String} {registry : Registry} {key : String} :
    (withoutAnnotations keys registry).annotations.lookup key =
      if key ∈ keys then none else registry.annotations.lookup key := by
  unfold withoutAnnotations
  generalize registry.annotations = annotations
  induction keys generalizing annotations with
  | nil => simp
  | cons k keys ih =>
    rw [foldl_cons, ih]
    by_cases hkey : key = k
    · subst hkey
      simp
    · simp [hkey, Finmap.lookup_erase_ne hkey]

def hasAnyKey (keys : List String) (registry : Registry) : Bool :=
  keys.any (· ∈ registry.annotations)

/-- One attempt to remove the annotations from the Registry as it is now. -/
def removeAttempt (choices : Choices) (registry : Registry) (keys : List String)
    (attempt : Nat) : Check PUnit := do
  let current ← request choices (.getRegistry registry.name attempt)
    "failed to get current registry" fun world =>
      match world.registries.registries.find? (·.key = registry.key) with
      | some current => .ok (current, world)
      | none => .error .notFound
  if hasAnyKey keys current then
    request choices (.updateRegistry registry.name attempt) "failed to update registry"
      fun world => (world.registries.update (withoutAnnotations keys current)).map
        fun registries => (⟨⟩, { world with registries })

/-- `retry.RetryOnConflict`, with this many attempts after the first one. -/
def retryOnConflict (perform : Nat → Check PUnit) : Nat → Check PUnit
  | 0 => perform 0
  | retries + 1 => tryCatch (perform (retries + 1)) fun e =>
    if e.cause = .conflict then retryOnConflict perform retries else throw e

/-- Removes the given rescan annotation keys from the Registry. The default backoff makes five
attempts. -/
def removeRescanAnnotations (choices : Choices) (registry : Registry) (keys : List String) :
    Check PUnit :=
  if keys = [] then pure ⟨⟩ else retryOnConflict (removeAttempt choices registry keys) 4

/-! ## A tick -/

def checkRegistryForScan (choices : Choices) (unmarshal : Unmarshal) (now : Nat)
    (registry : Registry) : Check PUnit := do
  let collected := collectRescanRequests choices.order unmarshal registry
  let hasRescanRequest : Bool := collected.rescanRequests ≠ []
  let lastScanJob ← previousScanJob choices registry
  if wantsScanJob now registry lastScanJob hasRescanRequest then
    createScanJob choices registry collected.targets
    if hasRescanRequest then
      removeRescanAnnotations choices registry collected.rescanRequests

/-- Checks all registries. An error with one of them is logged and does not stop the others. -/
def scanRegistries (choices : Choices) (unmarshal : Unmarshal) (now : Nat) : Check PUnit := do
  let registries ← request choices .listRegistries "failed to list registries" fun world =>
    .ok (world.registries.registries, world)
  registries.forM fun registry =>
    tryCatch (checkRegistryForScan choices unmarshal now registry) fun _ => pure ⟨⟩

/-! ## The recurring scan -/

variable {choices : Choices} {unmarshal : Unmarshal} {now : Nat} {registry : Registry}
  {world : World} {interval : Int} {scanJob : ScanJob}

def Recent (interval : Int) (now : Nat) (scanJob : ScanJob) : Prop :=
  ∃ t ∈ scanJob.status.completionTime, (now : Int) - t < interval

instance (interval : Int) (now : Nat) (scanJob : ScanJob) :
    Decidable (Recent interval now scanJob) :=
  inferInstanceAs (Decidable (∃ t ∈ scanJob.status.completionTime, (now : Int) - t < interval))

def Newest (scanJobs : List ScanJob) (registry : Registry) (scanJob : ScanJob) : Prop :=
  scanJob ∈ scanJobs ∧ ofRegistry registry scanJob ∧ ∀ other ∈ scanJobs,
    ofRegistry registry other → other.creationTimestamp ≤ scanJob.creationTimestamp

/-- The check comes to its end and has created a job that scans the whole registry. -/
def CreatesFullScan (choices : Choices) (unmarshal : Unmarshal) (now : Nat) (registry : Registry)
    (world : World) : Prop :=
  ∃ world' scanJob, (checkRegistryForScan choices unmarshal now registry).Returns world ⟨⟩ world' ∧
    world'.scanJobs = world.scanJobs ++ [scanJob] ∧
    ofRegistry registry scanJob = true ∧ scanJob.isTargeted = false

variable {order : IterationOrder Loop} {scanJobs : List ScanJob}

theorem newest_of_lastScanJob (h : lastScanJob order scanJobs registry = some scanJob) :
    Newest scanJobs registry scanJob := by
  obtain ⟨hmem, hleast⟩ := @IterationOrder.least_of_head?_sort _ _ order _ _ _ _ _
    ⟨fun a b => le_total b.creationTimestamp _⟩ ⟨fun _ _ _ hab hbc => hbc.trans hab⟩ h
  obtain ⟨hmem, hof⟩ := mem_filter.mp hmem
  exact ⟨hmem, hof, fun other hother hof' => hleast other (mem_filter.mpr ⟨hother, hof'⟩)⟩

/-- The sort is not stable: any of the newest jobs may come out first. -/
theorem exists_lastScanJob (h : Newest scanJobs registry scanJob) :
    ∃ order, lastScanJob order scanJobs registry = some scanJob := by
  obtain ⟨hmem, hof, hnewest⟩ := h
  apply IterationOrder.exists_head?_sort (mem_filter.mpr ⟨hmem, hof⟩)
  intro other hother
  obtain ⟨hother, hof'⟩ := mem_filter.mp hother
  exact hnewest other hother hof'

theorem rescanKeys_eq_nil (h : ∀ key ∈ registry.annotations, isRescanRequested key = false) :
    rescanKeys order registry = [] := by
  rw [eq_nil_iff_forall_not_mem]
  intro key hkey
  obtain ⟨hmem, hrequested⟩ := mem_rescanKeys.mp hkey
  rw [h key hmem] at hrequested
  cases hrequested

variable {message : String}

theorem run_request {α : Type} {req : Request} {perform : World → Except ApiError (α × World)}
    (hfault : choices.fault req = none) :
    (request choices req message perform).run.run world =
      match perform world with
      | .ok (a, world') => (.ok a, world')
      | .error cause => (.error ⟨message, cause⟩, world) := by
  unfold request
  rw [hfault]
  show (ExceptT.run (match perform world with
    | .ok (a, world') => (do set world'; return a : Check α)
    | .error cause => throw ⟨message, cause⟩)).run world = _
  rcases perform world with cause | ⟨a, world'⟩ <;> rfl

variable {I : World → Prop}

theorem keeps_request {α : Type} {Q : α → Prop} {req : Request}
    {perform : World → Except ApiError (α × World)}
    (h : ∀ world a world', I world → perform world = .ok (a, world') → I world' ∧ Q a) :
    (request choices req message perform).Keeps I Q := by
  unfold request
  cases choices.fault req with
  | some cause => exact keeps_throw
  | none =>
    refine keeps_bind keeps_get fun world hworld => ?_
    rcases hperform : perform world with cause | ⟨a, world'⟩
    · exact keeps_throw
    · obtain ⟨hI, hQ⟩ := h world a world' hworld hperform
      exact keeps_bind (keeps_set hI) fun _ _ => keeps_pure hQ

theorem keeps_retryOnConflict {perform : Nat → Check PUnit}
    (h : ∀ attempt, (perform attempt).Keeps I fun _ => True) (retries : Nat) :
    (retryOnConflict perform retries).Keeps I fun _ => True := by
  induction retries with
  | zero => exact h 0
  | succ retries ih =>
    refine keeps_tryCatch (h _) fun e => ?_
    split
    · exact ih
    · exact keeps_throw

section

variable (hfault : ∀ req, choices.fault req = none)
include hfault

theorem run_getLastScanJob :
    (getLastScanJob choices registry).run.run world =
      match lastScanJob choices.order world.scanJobs registry with
      | some scanJob => (.ok scanJob, world)
      | none => (.error ⟨"failed to list scan jobs", .notFound⟩, world) := by
  unfold getLastScanJob
  rw [run_request (hfault _)]
  cases lastScanJob choices.order world.scanJobs registry <;> rfl

theorem returns_previousScanJob :
    (previousScanJob choices registry).Returns world
      (lastScanJob choices.order world.scanJobs registry) world := by
  have hrun : (getLastScanJob choices registry).run.run world = _ := run_getLastScanJob hfault
  unfold previousScanJob
  rw [returns_tryCatch]
  cases hlast : lastScanJob choices.order world.scanJobs registry with
  | some scanJob =>
    rw [hlast] at hrun
    exact .inl (returns_map.mpr ⟨scanJob, hrun, rfl⟩)
  | none =>
    rw [hlast] at hrun
    exact .inr ⟨_, world, throws_map.mpr hrun, rfl⟩

section

variable (hrequests : ∀ key ∈ registry.annotations, isRescanRequested key = false)
include hrequests

/-- A check of a registry without rescan requests, when the API server answers. -/
theorem returns_checkRegistryForScan :
    (checkRegistryForScan choices unmarshal now registry).Returns world ⟨⟩
      (if wantsScanJob now registry (lastScanJob choices.order world.scanJobs registry) false then
        { world with scanJobs := world.scanJobs ++
            [newScanJob (choices.assigned registry.name) registry []] }
      else
        world) := by
  have hkeys : rescanKeys choices.order registry = [] := rescanKeys_eq_nil hrequests
  have htargets : (collectRescanRequests choices.order unmarshal registry).targets = [] := by
    rw [targets_collectRescanRequests, if_neg]
    simp [hkeys]
  have hrequest : decide ((collectRescanRequests choices.order unmarshal registry).rescanRequests
      ≠ []) = false := by
    rw [rescanRequests_collectRescanRequests, hkeys]
    rfl
  simp only [checkRegistryForScan, hrequest, htargets]
  rw [returns_bind]
  refine ⟨_, _, returns_previousScanJob hfault, ?_⟩
  split
  · rw [returns_bind]
    exact ⟨⟨⟩, _, run_request (hfault _), rfl⟩
  · rfl

theorem createsFullScan_iff :
    CreatesFullScan choices unmarshal now registry world ↔
      wantsScanJob now registry (lastScanJob choices.order world.scanJobs registry) false =
        true := by
  have hreturns : (checkRegistryForScan choices unmarshal now registry).Returns world ⟨⟩ _ :=
    returns_checkRegistryForScan hfault hrequests
  constructor
  · rintro ⟨world', scanJob, hreturns', hcreated, -⟩
    by_contra hwants
    rw [if_neg hwants] at hreturns
    obtain ⟨-, rfl⟩ := hreturns.unique hreturns'
    simp at hcreated
  · intro hwants
    rw [if_pos hwants] at hreturns
    exact ⟨_, _, hreturns, rfl, by simp [ofRegistry, newScanJob],
      by simp [ScanJob.isTargeted, newScanJob]⟩

end

end

section

variable (hinterval : registry.spec.scanInterval = some interval)
include hinterval

theorem wantsScanJob_eq_false (hrecent : Recent interval now scanJob) :
    wantsScanJob now registry (some scanJob) false = false := by
  obtain ⟨t, ht, hlt⟩ := hrecent
  have hcompletion : scanJob.status.completionTime = some t := ht
  simp [wantsScanJob, shouldCreateScanJob, hinterval, hcompletion, hlt]

theorem wantsScanJob_eq_true {last : Option ScanJob} (hpos : 0 < interval)
    (hidle : ∀ scanJob ∈ last, scanJob.isRunning = false)
    (hdue : ∀ scanJob ∈ last, ¬Recent interval now scanJob) :
    wantsScanJob now registry last false = true := by
  unfold wantsScanJob shouldCreateScanJob
  cases last with
  | none => simp [hinterval, hpos.ne']
  | some scanJob =>
    have hrunning : scanJob.isRunning = false := hidle scanJob rfl
    cases hcompletion : scanJob.status.completionTime with
    | none => simp [hinterval, hpos.ne', hrunning, hcompletion]
    | some t =>
      have hle : interval ≤ (now : Int) - t := by
        by_contra hlt
        exact hdue scanJob rfl ⟨t, hcompletion, by omega⟩
      simp [hinterval, hpos.ne', hrunning, hcompletion, hle]

/-- **The recurring scan.** At a tick where no job of the registry is running, no rescan is
requested, and every full scan completed at least the interval ago, the runner creates a full scan
iff no targeted job that is the newest one completed less than the interval ago. -/
theorem recurring_scan_iff (hpos : 0 < interval)
    (hidle : ∀ job ∈ world.scanJobs, ofRegistry registry job = true → job.isRunning = false)
    (hrequests : ∀ key ∈ registry.annotations, isRescanRequested key = false)
    (hdue : ∀ job ∈ world.scanJobs, ofRegistry registry job = true → job.isTargeted = false →
      ¬Recent interval now job) :
    (∀ choices, (∀ req, choices.fault req = none) →
      CreatesFullScan choices unmarshal now registry world) ↔
    ∀ job, Newest world.scanJobs registry job → job.isTargeted = true →
      ¬Recent interval now job := by
  constructor
  · intro h job hnewest _ hrecent
    obtain ⟨order, hlast⟩ := exists_lastScanJob hnewest
    have hwants := (createsFullScan_iff (fun _ => rfl) hrequests).mp
      (h ⟨order, fun _ => none, fun name => ⟨name, 0, 0, 0⟩⟩ fun _ => rfl)
    rw [hlast, wantsScanJob_eq_false hinterval hrecent] at hwants
    cases hwants
  · intro h choices hfault
    refine (createsFullScan_iff hfault hrequests).mpr (wantsScanJob_eq_true hinterval hpos ?_ ?_)
    · intro job hjob
      obtain ⟨hmem, hof, -⟩ := newest_of_lastScanJob hjob
      exact hidle job hmem hof
    · intro job hjob
      have hnewest := newest_of_lastScanJob hjob
      cases htargeted : job.isTargeted with
      | true => exact h job hnewest htargeted
      | false => exact hdue job hnewest.1 hnewest.2.1 htargeted

end

/-! ## A full scan that is put off -/

def harbor : Registry where
  name := "harbor"
  ns := "team-a"
  labels := ∅
  annotations := ∅
  spec := { uri := "harbor.example", catalogType := .ociDistribution, repositories := [],
            authSecret := "", scanInterval := some 24, caBundle := "", caBundleRef := none,
            insecure := false, platforms := [] }

def completedScan (creationTimestamp completionTime : Nat)
    (repositories : List ScanJobRepository) : ScanJob :=
  { newScanJob ⟨"harbor-x", 1, 1, creationTimestamp⟩ harbor repositories with
    status.conditions := [⟨.complete, .isTrue, .allImagesScanned, "", 1, completionTime⟩]
    status.completionTime := some completionTime }

/-- A full scan and, twenty hours later, a scan of the repository `app` on demand. -/
def scannedOnDemand : World where
  registries := Cluster.empty
  scanJobs := [completedScan 0 1 [], completedScan 20 21 [⟨"app", []⟩]]

/-- Thirty hours after the full scan, the next one is not created. -/
theorem targeted_scan_postpones :
    harbor.spec.scanInterval = some 24 ∧
    (∀ job ∈ scannedOnDemand.scanJobs, ofRegistry harbor job = true → job.isRunning = false) ∧
    (∀ key ∈ harbor.annotations, isRescanRequested key = false) ∧
    (∀ job ∈ scannedOnDemand.scanJobs, ofRegistry harbor job = true → job.isTargeted = false →
      ¬Recent 24 31 job) ∧
    ¬CreatesFullScan ⟨.asStored, fun _ => none, fun name => ⟨name, 2, 2, 31⟩⟩ (fun _ => none) 31
      harbor scannedOnDemand := by
  have hrequests : ∀ key ∈ harbor.annotations, isRescanRequested key = false := by
    intro key hkey
    cases hkey
  refine ⟨rfl, by decide, hrequests, by decide, ?_⟩
  rw [createsFullScan_iff (fun _ => rfl) hrequests]
  decide

/-- A day after the scan on demand, it is created. -/
theorem recurring_scan_iff_harbor :
    CreatesFullScan ⟨.asStored, fun _ => none, fun name => ⟨name, 2, 2, 45⟩⟩ (fun _ => none) 45
      harbor scannedOnDemand := by
  refine (recurring_scan_iff rfl (by decide) (by decide) ?_ (by decide)).mpr ?_ _ fun _ => rfl
  · intro key hkey
    cases hkey
  · rintro job ⟨hmem, -⟩
    revert job
    decide

end SbomScanner.Runner

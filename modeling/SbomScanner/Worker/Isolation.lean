import SbomScanner.Runner.Validity
import SbomScanner.Webhook.Uniqueness
import SbomScanner.Worker.Lookups

/-!
# What a worker can be made to read

A worker looks up Secrets and ConfigMaps that a Registry names. For a managed Registry it does so in
the installation namespace, where a user may have no rights at all. Two webhooks stand between a
user and these objects: nobody but the controller writes a Registry with the managed-by label, and
nobody but the controller puts a snapshot on a ScanJob. In between there are caches, so the
controller may store an old version of a Registry, on a ScanJob that has been deleted and created
again since.

Whatever a worker looks up outside the namespace of the ScanJob is named by a Registry that the
controller has written (`lookup_confined`).
-/

namespace SbomScanner.Worker.Isolation

open Api Runner Webhook Transition List
open Webhook.Uniqueness (key assign)

/-! ## The system -/

structure Setup where
  serviceAccount : ServiceAccount
  tagEvaluator : Option TagEvaluator
  installationNamespace : String
  marshal : Registry → String
  unmarshal : String → Except String Registry
  quote : String → String

namespace Setup

variable (setup : Setup)

def registries : RegistryCustomValidator := ⟨setup.serviceAccount, setup.tagEvaluator⟩

def scanJobs : ScanJobCustomValidator := ⟨setup.serviceAccount⟩

/-- The user that the controller is. -/
def controller : String := setup.serviceAccount.allowedUsername

end Setup

/-- A version of a Registry, and who wrote it. -/
structure Written where
  registry : Registry
  writer : String

/-- A worker has looked up an object for a ScanJob. -/
structure Lookup where
  scanJob : ScanJob
  ref : ObjectRef

structure State where
  registries : Cluster
  /-- all versions there have been of any Registry: a cache may hold each of them -/
  written : List Written
  scanJobs : List ScanJob
  /-- all versions there have been of any ScanJob -/
  versions : List ScanJob
  lookups : List Lookup

inductive Action where
  | createRegistry (username : String) (registry : Registry)
  | updateRegistry (username : String) (registry : Registry)
  | deleteRegistry (username : String) (registry : Registry)
  | createScanJob (username timestamp : String) (scanJob : ScanJob) (assigned : Assigned)
  | updateScanJob (username timestamp : String) (scanJob : ScanJob)
  | deleteScanJob (k : String × String)
  /-- the runner creates a ScanJob for a Registry it has cached -/
  | runner (timestamp : String) (registry : Nat) (repositories : List ScanJobRepository)
      (assigned : Assigned)
  /-- the controller stores a Registry it has cached on a ScanJob it has cached -/
  | snapshot (timestamp : String) (registry scanJob : Nat)
  | updateStatus (k : String × String) (status : Jobs.Status)
  /-- a worker makes this many lookups for a ScanJob it has read -/
  | work (handler : Handler) (scanJob reached : Nat)

namespace State

def init : State := ⟨.empty, [], [], [], []⟩

def getRegistry (s : State) (k : String × String) : Option Registry :=
  s.registries.registries.find? (·.key = k)

def getScanJob (s : State) (k : String × String) : Option ScanJob :=
  s.scanJobs.find? (key · = k)

def reader (s : State) : Reader :=
  .answering s.scanJobs fun k =>
    match s.getRegistry k with
    | some registry => .ok registry
    | none => .error .notFound

def writeRegistry (s : State) (registries : Cluster) (w : Written) : State :=
  { s with registries, written := s.written ++ [w] }

def addScanJob (s : State) (scanJob : ScanJob) : Option State :=
  if key scanJob ∈ s.scanJobs.map key then
    none
  else
    some { s with scanJobs := s.scanJobs ++ [scanJob], versions := s.versions ++ [scanJob] }

def putScanJob (s : State) (scanJob : ScanJob) : State :=
  { s with
    scanJobs := s.scanJobs.map fun old => if key old = key scanJob then scanJob else old
    versions := s.versions ++ [scanJob] }

end State

/-- What an update can change: the rest of the metadata, and the status, stay as they are. -/
def updated (oldJob newJob : ScanJob) : ScanJob :=
  { oldJob with labels := newJob.labels, annotations := newJob.annotations, spec := newJob.spec }

/-- The merge patch of the controller. -/
def withSnapshot (data : String) (scanJob : ScanJob) : ScanJob :=
  { scanJob with annotations := scanJob.annotations.insert annotationScanJobRegistryKey data }

variable (setup : Setup)

/-- The steps. Requests that are not admitted are none. A Registry may be written by anyone; the
ScanJobs that the controller writes are those of its runner and its reconciler. -/
def step (s : State) : Action → Option State
  | .createRegistry username registry =>
    let registry := RegistryCustomDefaulter.default registry
    match setup.registries.validateCreate (some username) registry,
        s.registries.create registry with
    | .ok _, .ok registries => some (s.writeRegistry registries ⟨registry, username⟩)
    | _, _ => none
  | .updateRegistry username registry =>
    let registry := RegistryCustomDefaulter.default registry
    match s.getRegistry registry.key with
    | none => none
    | some oldRegistry =>
      match setup.registries.validateUpdate (some username) oldRegistry registry,
          s.registries.update registry with
      | .ok _, .ok registries => some (s.writeRegistry registries ⟨registry, username⟩)
      | _, _ => none
  | .deleteRegistry username registry =>
    match s.getRegistry registry.key with
    | none => none
    | some oldRegistry =>
      match setup.registries.validateDelete (some username) oldRegistry,
          s.registries.delete oldRegistry with
      | .ok _, .ok registries => some { s with registries }
      | _, _ => none
  | .createScanJob username timestamp scanJob assigned =>
    let scanJob := ScanJobCustomDefaulter.default timestamp scanJob
    if username = setup.controller then
      none
    else
      match setup.scanJobs.validateCreate (some username) s.reader scanJob with
      | .ok _ => s.addScanJob (assign assigned scanJob)
      | .error _ => none
  | .updateScanJob username timestamp scanJob =>
    if username = setup.controller then
      none
    else
      match s.getScanJob (key scanJob) with
      | none => none
      | some oldJob =>
        let newJob := ScanJobCustomDefaulter.default timestamp (updated oldJob scanJob)
        match setup.scanJobs.validateUpdate (some username) oldJob newJob with
        | .ok _ => some (s.putScanJob newJob)
        | .error _ => none
  | .deleteScanJob k => some { s with scanJobs := s.scanJobs.filter (key · ≠ k) }
  | .runner timestamp registry repositories assigned =>
    match s.written[registry]? with
    | none => none
    | some w =>
      let scanJob := ScanJobCustomDefaulter.default timestamp
        (newScanJob assigned w.registry repositories)
      match setup.scanJobs.validateCreate (some setup.controller) s.reader scanJob with
      | .ok _ => s.addScanJob scanJob
      | .error _ => none
  | .snapshot timestamp registry scanJob =>
    match s.written[registry]?, s.versions[scanJob]? with
    | some w, some cached =>
      if cached.job.isPending ∧ w.registry.key = registryKey cached ∧
          validateScanJobTargets setup.quote cached w.registry = .ok () ∧
          snapshot cached = none then
        match s.getScanJob (key cached) with
        | none => none
        | some oldJob =>
          let newJob := ScanJobCustomDefaulter.default timestamp
            (withSnapshot (setup.marshal w.registry) oldJob)
          match setup.scanJobs.validateUpdate (some setup.controller) oldJob newJob with
          | .ok _ => some (s.putScanJob newJob)
          | .error _ => none
      else
        none
    | _, _ => none
  | .updateStatus k status =>
    match s.getScanJob k with
    | none => none
    | some oldJob => some (s.putScanJob { oldJob with status })
  | .work handler scanJob reached =>
    match s.versions[scanJob]? with
    | none => none
    | some scanJob =>
      match registryFromScanJob setup.unmarshal scanJob with
      | .error _ => none
      | .ok registry =>
        let refs := (Worker.lookups setup.installationNamespace handler registry).take reached
        some { s with lookups := s.lookups ++ refs.map (⟨scanJob, ·⟩) }

/-! ## What a step does -/

variable {setup} {s s' : State}

/-- The snapshot on the ScanJob, if there is one, is of a Registry that has been there. -/
def Genuine (setup : Setup) (s : State) (scanJob : ScanJob) : Prop :=
  ∀ data ∈ snapshot scanJob, ∃ w ∈ s.written, data = setup.marshal w.registry

inductive Effect (setup : Setup) (s : State) : State → Prop where
  | registry (registries : Cluster) (w : Written)
      (hwriter : carriesManagedBy w.registry.labels = true → w.writer = setup.controller) :
      Effect setup s (s.writeRegistry registries w)
  | registries (registries : Cluster) : Effect setup s { s with registries }
  | scanJob (scanJobs : List ScanJob) (new : ScanJob)
      (hmem : ∀ scanJob ∈ scanJobs, scanJob = new ∨ scanJob ∈ s.scanJobs)
      (hsnapshot : Genuine setup s new ∨ ∃ old ∈ s.scanJobs, snapshot new = snapshot old) :
      Effect setup s { s with scanJobs, versions := s.versions ++ [new] }
  | scanJobs (scanJobs : List ScanJob) (hmem : scanJobs ⊆ s.scanJobs) :
      Effect setup s { s with scanJobs }
  | work (handler : Handler) (scanJob : ScanJob) (registry : Registry) (refs : List ObjectRef)
      (hmem : scanJob ∈ s.versions)
      (hregistry : registryFromScanJob setup.unmarshal scanJob = .ok registry)
      (hrefs : refs ⊆ Worker.lookups setup.installationNamespace handler registry) :
      Effect setup s { s with lookups := s.lookups ++ refs.map (⟨scanJob, ·⟩) }

theorem effect_addScanJob {new : ScanJob} (h : s.addScanJob new = some s')
    (hsnapshot : Genuine setup s new) : Effect setup s s' := by
  unfold State.addScanJob at h
  split at h
  · cases h
  · cases h
    refine .scanJob _ new ?_ (.inl hsnapshot)
    intro scanJob hmem
    rw [mem_append, mem_singleton] at hmem
    exact hmem.symm

theorem effect_putScanJob {new : ScanJob}
    (hsnapshot : Genuine setup s new ∨ ∃ old ∈ s.scanJobs, snapshot new = snapshot old) :
    Effect setup s (s.putScanJob new) := by
  refine .scanJob _ new ?_ hsnapshot
  intro scanJob hmem
  obtain ⟨old, hold, rfl⟩ := mem_map.mp hmem
  split
  · exact .inl rfl
  · exact .inr hold

theorem genuine_of_none {scanJob : ScanJob} (h : snapshot scanJob = none) :
    Genuine setup s scanJob := by
  intro data hdata
  rw [h] at hdata
  cases hdata

theorem step_effect {a : Action} (h : step setup s a = some s') : Effect setup s s' := by
  cases a with
  | createRegistry username registry =>
    simp only [step] at h
    split at h
    case h_1 _ _ hadmitted _ =>
      cases h
      refine .registry _ _ fun hmanaged => ?_
      have husername := username_of_validateCreate hadmitted hmanaged
      exact Option.some.inj husername
    case h_2 => cases h
  | updateRegistry username registry =>
    simp only [step] at h
    split at h
    case h_1 => cases h
    case h_2 oldRegistry _ =>
      split at h
      case h_1 _ _ hadmitted _ =>
        cases h
        refine .registry _ _ fun hmanaged => ?_
        have husername := username_of_validateUpdate hadmitted hmanaged
        exact Option.some.inj husername
      case h_2 => cases h
  | deleteRegistry username registry =>
    simp only [step] at h
    split at h
    · cases h
    · split at h
      · cases h
        exact .registries _
      · cases h
  | createScanJob username timestamp scanJob assigned =>
    simp only [step] at h
    split at h
    case isTrue => cases h
    case isFalse hother =>
      have hne : some username ≠ some setup.serviceAccount.allowedUsername :=
        fun heq => hother (Option.some.inj heq)
      split at h
      case h_1 hadmitted =>
        have hnone := snapshot_of_validateCreate hadmitted hne
        exact effect_addScanJob h (genuine_of_none hnone)
      case h_2 => cases h
  | updateScanJob username timestamp scanJob =>
    simp only [step] at h
    split at h
    case isTrue => cases h
    case isFalse hother =>
      have hne : some username ≠ some setup.serviceAccount.allowedUsername :=
        fun heq => hother (Option.some.inj heq)
      split at h
      case h_1 => cases h
      case h_2 oldJob hold =>
        split at h
        case h_1 hadmitted =>
          cases h
          refine effect_putScanJob (.inr ⟨oldJob, mem_of_find?_eq_some hold, ?_⟩)
          exact snapshot_of_validateUpdate hadmitted hne
        case h_2 => cases h
  | deleteScanJob k =>
    cases h
    exact .scanJobs _ (filter_subset_self _)
  | runner timestamp registry repositories assigned =>
    simp only [step] at h
    split at h
    case h_1 => cases h
    case h_2 w _ =>
      split at h
      case h_1 =>
        refine effect_addScanJob h (genuine_of_none ?_)
        rfl
      case h_2 => cases h
  | snapshot timestamp registry scanJob =>
    simp only [step] at h
    split at h
    case h_1 w cached hw _ =>
      split at h
      case isTrue =>
        split at h
        case h_1 => cases h
        case h_2 oldJob _ =>
          split at h
          case h_1 =>
            cases h
            refine effect_putScanJob (.inl ?_)
            intro data hdata
            rw [snapshot_default] at hdata
            refine ⟨w, mem_of_getElem? hw, ?_⟩
            have hinserted : some (setup.marshal w.registry) = some data :=
              (Finmap.lookup_insert _).symm.trans hdata
            exact (Option.some.inj hinserted).symm
          case h_2 => cases h
      case isFalse => cases h
    case h_2 => cases h
  | updateStatus k status =>
    simp only [step] at h
    split at h
    case h_1 => cases h
    case h_2 oldJob hold =>
      cases h
      exact effect_putScanJob (.inr ⟨oldJob, mem_of_find?_eq_some hold, rfl⟩)
  | work handler scanJob reached =>
    simp only [step] at h
    split at h
    case h_1 => cases h
    case h_2 scanJob hmem =>
      split at h
      case h_1 => cases h
      case h_2 registry hregistry =>
        cases h
        exact .work handler scanJob registry _ (mem_of_getElem? hmem) hregistry (take_subset _ _)

/-! ## The invariant -/

/-- The lookup is one that a Registry asks for which has been there, up to what JSON makes of it. -/
def Traced (setup : Setup) (s : State) (lookup : Lookup) : Prop :=
  ∃ w ∈ s.written, ∃ registry handler,
    setup.unmarshal (setup.marshal w.registry) = .ok registry ∧
    registry.key = registryKey lookup.scanJob ∧
    lookup.ref ∈ Worker.lookups setup.installationNamespace handler registry

structure Inv (setup : Setup) (s : State) : Prop where
  writer : ∀ w ∈ s.written, carriesManagedBy w.registry.labels = true → w.writer = setup.controller
  current : s.scanJobs ⊆ s.versions
  genuine : ∀ scanJob ∈ s.versions, Genuine setup s scanJob
  traced : ∀ lookup ∈ s.lookups, Traced setup s lookup

theorem inv_effect (h : Inv setup s) (heffect : Effect setup s s') : Inv setup s' := by
  cases heffect with
  | registry registries w hwriter =>
    have hgrow : s.written ⊆ (s.writeRegistry registries w).written :=
      subset_append_left _ _
    refine ⟨?_, h.current, ?_, ?_⟩
    · intro w' hw'
      rcases mem_append.mp hw' with hold | hnew
      · exact h.writer w' hold
      · rw [mem_singleton.mp hnew]
        exact hwriter
    · intro scanJob hmem data hdata
      obtain ⟨w', hw', heq⟩ := h.genuine scanJob hmem data hdata
      exact ⟨w', hgrow hw', heq⟩
    · intro lookup hmem
      obtain ⟨w', hw', htraced⟩ := h.traced lookup hmem
      exact ⟨w', hgrow hw', htraced⟩
  | registries registries => exact ⟨h.writer, h.current, h.genuine, h.traced⟩
  | scanJob scanJobs new hmem hsnapshot =>
    refine ⟨h.writer, ?_, ?_, h.traced⟩
    · intro scanJob hscanJob
      rcases hmem scanJob hscanJob with rfl | hold
      · exact mem_append_right _ (mem_singleton_self _)
      · exact mem_append_left _ (h.current hold)
    · intro scanJob hscanJob
      rcases mem_append.mp hscanJob with hold | hnew
      · exact h.genuine scanJob hold
      · rw [mem_singleton.mp hnew]
        rcases hsnapshot with hgenuine | ⟨old, hold, hsame⟩
        · exact hgenuine
        · intro data hdata
          rw [hsame] at hdata
          exact h.genuine old (h.current hold) data hdata
  | scanJobs scanJobs hmem =>
    exact ⟨h.writer, List.Subset.trans hmem h.current, h.genuine, h.traced⟩
  | work handler scanJob registry refs hmem hregistry hrefs =>
    refine ⟨h.writer, h.current, h.genuine, ?_⟩
    intro lookup hlookup
    rcases mem_append.mp hlookup with hold | hnew
    · exact h.traced lookup hold
    · obtain ⟨ref, href, rfl⟩ := mem_map.mp hnew
      obtain ⟨hkey, data, hdata, hunmarshal⟩ := registryFromScanJob_eq_ok.mp hregistry
      obtain ⟨w, hw, rfl⟩ := h.genuine scanJob hmem data hdata
      exact ⟨w, hw, registry, handler, hunmarshal, hkey, hrefs href⟩

theorem inv_exec {actions : List Action} (hrun : exec (step setup) .init actions = some s) :
    Inv setup s := by
  have hinit : Inv setup .init := ⟨by simp [State.init], by simp [State.init],
    by simp [State.init], by simp [State.init]⟩
  exact exec_invariant (fun s a s' h hstep => inv_effect h (step_effect hstep)) hinit hrun

/-- **A worker reads in the namespace of the ScanJob, or what the controller has named.** Every
lookup is in the namespace of the ScanJob; or it is in the installation namespace, and asks for an
object that is named by a version of the Registry which the service account wrote. -/
theorem lookup_confined {actions : List Action}
    (hrun : exec (step setup) .init actions = some s)
    (hjson : ∀ w ∈ s.written, setup.unmarshal (setup.marshal w.registry) = .ok w.registry)
    {lookup : Lookup} (hlookup : lookup ∈ s.lookups) :
    lookup.ref.ns = lookup.scanJob.ns ∨
    lookup.ref.ns = setup.installationNamespace ∧
      ∃ w ∈ s.written, w.writer = setup.controller ∧
        w.registry.key = registryKey lookup.scanJob ∧
        (lookup.ref.kind, lookup.ref.name) ∈ references w.registry.spec := by
  have hinv := inv_exec hrun
  obtain ⟨w, hw, registry, handler, hunmarshal, hkey, href⟩ := hinv.traced lookup hlookup
  have hregistry : w.registry = registry := Except.ok.inj ((hjson w hw).symm.trans hunmarshal)
  subst hregistry
  obtain ⟨hns, hname⟩ := lookup_spec href
  cases hmanaged : w.registry.isManagedByWorkloadScan with
  | false =>
    left
    rw [hns, lookupNamespace, hmanaged]
    exact congrArg Prod.fst hkey
  | true =>
    right
    rw [lookupNamespace, hmanaged] at hns
    refine ⟨hns, w, hw, hinv.writer w hw ?_, hkey, hname⟩
    exact (Bool.and_eq_true_iff.mp hmanaged).1

/-! ## Two runs -/

/-- The Registry of a namespace, with credentials. -/
def privateRegistry (ns authSecret : String) (labels : Labels) : Registry :=
  { harbor with ns, labels, spec := { harbor.spec with authSecret, scanInterval := none } }

/-- A cluster in which this is the only Registry there is JSON for. -/
def clusterOf (registry : Registry) : Setup where
  serviceAccount := ⟨"sbomscanner", "controller"⟩
  tagEvaluator := some fun _ => none
  installationNamespace := "sbomscanner"
  marshal _ := "registry"
  unmarshal _ := .ok registry
  quote s := s

def scanned (username : String) (registry : Registry) : List Action :=
  [.createRegistry username registry,
   .createScanJob "alice" "now" (newScanJob ⟨"", 0, 0, 0⟩ registry []) ⟨"job", 1, 1, 0⟩,
   .snapshot "now" 0 0,
   .work .createCatalog 1 1]

def managed : Registry :=
  privateRegistry "team-a" "pull-secret"
    ((Finmap.singleton labelManagedByKey labelManagedByValue).insert
      labelWorkloadScanKey labelWorkloadScanValue)

/-- A Registry of the controller: the Secret is looked up in the installation namespace. -/
theorem lookup_confined_managed :
    ∃ s lookup, exec (step (clusterOf managed)) .init
        (scanned "system:serviceaccount:sbomscanner:controller" managed) = some s ∧
      lookup ∈ s.lookups ∧ lookup.ref = ⟨.secret, "sbomscanner", "pull-secret"⟩ ∧
      (lookup.ref.ns = lookup.scanJob.ns ∨
        lookup.ref.ns = "sbomscanner" ∧ ∃ w ∈ s.written, w.writer = (clusterOf managed).controller ∧
          w.registry.key = registryKey lookup.scanJob ∧
          (lookup.ref.kind, lookup.ref.name) ∈ references w.registry.spec) :=
  ⟨_, _, rfl, mem_singleton_self _, rfl,
    @lookup_confined (clusterOf managed) _
      (scanned "system:serviceaccount:sbomscanner:controller" managed) rfl
      (fun _ hw => mem_singleton.mp hw ▸ rfl) _ (mem_singleton_self _)⟩

def inInstallation : Registry := privateRegistry "sbomscanner" "admin-token" ∅

/-- A Registry that a user has written in the installation namespace itself: its ScanJobs are there
as well, and what they look up there is what the user has named. -/
theorem installation_namespace_scanned :
    ∃ s lookup,
      exec (step (clusterOf inInstallation)) .init (scanned "bob" inInstallation) = some s ∧
      lookup ∈ s.lookups ∧ lookup.ref = ⟨.secret, "sbomscanner", "admin-token"⟩ ∧
      ∀ w ∈ s.written, w.writer ≠ (clusterOf inInstallation).controller :=
  ⟨_, _, rfl, mem_singleton_self _, rfl, by decide⟩

end SbomScanner.Worker.Isolation

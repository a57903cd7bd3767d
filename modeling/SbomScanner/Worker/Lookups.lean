import SbomScanner.Webhook.ScanJob

/-!
# The objects a worker reads for a Registry

A worker does not read the Registry it scans: it takes the snapshot that the controller has stored
on the ScanJob. The snapshot says what Secret holds the credentials and what ConfigMap or Secret the
CA bundle, and its labels say where they are looked for.

A lookup is recorded with the object it asks for. What is found there, and what the worker does with
it, is not modelled; a worker may stop after any of its lookups.
-/

namespace SbomScanner.Worker

open Api Webhook List

inductive Kind where
  | secret
  | configMap
  deriving DecidableEq

structure ObjectRef where
  kind : Kind
  ns : String
  name : String
  deriving DecidableEq

/-! ## The snapshot -/

/-- Returns the Registry snapshot that the controller stored on the ScanJob. It must name the
Registry that the ScanJob references, in the namespace of the ScanJob. -/
def registryFromScanJob (unmarshal : String → Except String Registry) (scanJob : ScanJob) :
    Except String Registry :=
  let path := scanJob.ns ++ "/" ++ scanJob.name
  match snapshot scanJob with
  | none => .error ("scan job " ++ path ++ " does not have a registry annotation")
  | some registryData =>
    match unmarshal registryData with
    | .error e => .error ("cannot unmarshal registry data from scan job " ++ path ++ ": " ++ e)
    | .ok registry =>
      if registry.ns ≠ scanJob.ns ∨ registry.name ≠ scanJob.spec.registry then
        .error ("registry annotation of scan job " ++ path ++ " refers to registry " ++
          registry.ns ++ "/" ++ registry.name ++ ", expected " ++
          scanJob.ns ++ "/" ++ scanJob.spec.registry)
      else
        .ok registry

theorem registryFromScanJob_eq_ok {unmarshal : String → Except String Registry}
    {scanJob : ScanJob} {registry : Registry} :
    registryFromScanJob unmarshal scanJob = .ok registry ↔
      registry.key = registryKey scanJob ∧
        ∃ data, snapshot scanJob = some data ∧ unmarshal data = .ok registry := by
  simp only [registryFromScanJob, Registry.key, registryKey, Prod.mk.injEq]
  cases hsnapshot : snapshot scanJob with
  | none => simp
  | some data =>
    cases hdata : unmarshal data with
    | error e => simp [hdata]
    | ok found =>
      by_cases hsame : found.ns ≠ scanJob.ns ∨ found.name ≠ scanJob.spec.registry
      · simp only [hsame, if_true, Option.some.injEq, exists_eq_left', hdata]
        constructor
        · intro h
          cases h
        · rintro ⟨⟨hns, hname⟩, hfound⟩
          cases hfound
          exact absurd hsame (by simp [hns, hname])
      · simp only [hsame, if_false, Option.some.injEq, exists_eq_left', hdata]
        constructor
        · intro h
          cases h
          exact ⟨by simpa only [not_or, not_not] using hsame, rfl⟩
        · rintro ⟨-, h⟩
          exact h

/-! ## The lookups -/

variable (installationNamespace : String)

/-- For workloadscan-managed registries, objects are looked up in the installation namespace
instead of the registry's namespace. -/
def lookupNamespace (registry : Registry) : String :=
  if registry.isManagedByWorkloadScan then installationNamespace else registry.ns

/-- The Secret that `BuildDockerConfigForRegistry` reads. -/
def buildDockerConfigForRegistry (registry : Registry) : ObjectRef :=
  ⟨.secret, lookupNamespace installationNamespace registry, registry.spec.authSecret⟩

def readRef (ref : CABundleSource) (ns : String) : Option ObjectRef :=
  match ref.configMap with
  | some selector => some ⟨.configMap, ns, selector.name⟩
  | none =>
    match ref.secret with
    | some selector => some ⟨.secret, ns, selector.name⟩
    | none => none

/-- What `cabundle.Resolve` reads: an inline bundle comes first and needs no lookup. -/
def resolve (registry : Registry) : Option ObjectRef :=
  if registry.spec.caBundle ≠ "" then
    none
  else
    match registry.spec.caBundleRef with
    | none => none
    | some ref => readRef ref (lookupNamespace installationNamespace registry)

inductive Handler where
  | createCatalog
  | generateSBOM
  | scanSBOM

def lookups (handler : Handler) (registry : Registry) : List ObjectRef :=
  let auth :=
    if registry.isPrivate then [buildDockerConfigForRegistry installationNamespace registry] else []
  let caBundle := (resolve installationNamespace registry).toList
  match handler with
  | .createCatalog => caBundle ++ auth
  | .generateSBOM => auth ++ caBundle
  | .scanSBOM => []

def references (spec : RegistrySpec) : List (Kind × String) :=
  (.secret, spec.authSecret) :: match spec.caBundleRef with
    | none => []
    | some ref =>
      (ref.configMap.map fun selector => (Kind.configMap, selector.name)).toList ++
        (ref.secret.map fun selector => (Kind.secret, selector.name)).toList

variable {installationNamespace} {registry : Registry} {ref : ObjectRef}

theorem readRef_eq_some {source : CABundleSource} {ns : String} (h : readRef source ns = some ref) :
    ref.ns = ns ∧
      (ref.kind, ref.name) ∈ (source.configMap.map fun s => (Kind.configMap, s.name)).toList ++
        (source.secret.map fun s => (Kind.secret, s.name)).toList := by
  unfold readRef at h
  split at h
  case h_1 selector hselector =>
    cases h
    simp [hselector]
  case h_2 =>
    split at h
    case h_1 selector hselector =>
      cases h
      simp [hselector]
    case h_2 => cases h

theorem resolve_eq_some (h : resolve installationNamespace registry = some ref) :
    ref.ns = lookupNamespace installationNamespace registry ∧
      (ref.kind, ref.name) ∈ references registry.spec := by
  unfold resolve at h
  split at h
  · cases h
  · split at h
    · cases h
    case h_2 source hsource =>
      obtain ⟨hns, hname⟩ := readRef_eq_some h
      refine ⟨hns, mem_cons_of_mem _ ?_⟩
      rw [hsource]
      exact hname

/-- All lookups for a Registry go to one namespace, and ask for what its specification names. -/
theorem lookup_spec {handler : Handler} (h : ref ∈ lookups installationNamespace handler registry) :
    ref.ns = lookupNamespace installationNamespace registry ∧
      (ref.kind, ref.name) ∈ references registry.spec := by
  have hauth : ref ∈ (if registry.isPrivate then
      [buildDockerConfigForRegistry installationNamespace registry] else []) →
      ref.ns = lookupNamespace installationNamespace registry ∧
        (ref.kind, ref.name) ∈ references registry.spec := by
    intro hmem
    split at hmem
    · rw [mem_singleton.mp hmem]
      exact ⟨rfl, mem_cons_self⟩
    · cases hmem
  have hbundle : ref ∈ (resolve installationNamespace registry).toList →
      ref.ns = lookupNamespace installationNamespace registry ∧
        (ref.kind, ref.name) ∈ references registry.spec :=
    fun hmem => resolve_eq_some (Option.mem_toList.mp hmem)
  cases handler with
  | createCatalog => exact (mem_append.mp h).elim hbundle hauth
  | generateSBOM => exact (mem_append.mp h).elim hauth hbundle
  | scanSBOM => cases h

end SbomScanner.Worker

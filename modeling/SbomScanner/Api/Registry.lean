import Mathlib.Data.Finmap
import SbomScanner.Lib.Strings

/-!
# Registries

The part of the `v1alpha1` API the controllers work on: a Registry with its repositories and their
match conditions, and the API server that stores the registries under namespace and name.

The maps of the API (labels and annotations) are finite maps without an order. The status of a
Registry is not modelled.
-/

namespace SbomScanner.Api

open List Strings

abbrev Labels := Finmap fun _ : String => String

def labelManagedByKey := "app.kubernetes.io/managed-by"
def labelManagedByValue := "sbomscanner"
def labelWorkloadScanKey := "sbomscanner.kubewarden.io/workloadscan"
def labelWorkloadScanValue := "true"

/-- `name.DefaultRegistry` of go-containerregistry. -/
def defaultRegistry := "index.docker.io"

/-- How the match conditions of a repository are combined; `unset` is the empty string. -/
inductive MatchOperator where
  | unset
  | and
  | or
  deriving DecidableEq

structure MatchCondition where
  name : String
  expression : String
  labels : Labels
  deriving DecidableEq

structure Repository where
  name : String
  matchConditions : List MatchCondition
  matchOperator : MatchOperator
  deriving DecidableEq

structure Platform where
  architecture : String
  os : String
  variant : String
  deriving DecidableEq

structure CABundleKeySelector where
  name : String
  key : String
  deriving DecidableEq

structure CABundleSource where
  configMap : Option CABundleKeySelector
  secret : Option CABundleKeySelector
  deriving DecidableEq

/-- The type of catalog used to list the images; `unset` is the empty string, and a user may write
anything. -/
inductive CatalogType where
  | unset
  | noCatalog
  | ociDistribution
  | other (name : String)
  deriving DecidableEq

structure RegistrySpec where
  uri : String
  catalogType : CatalogType
  repositories : List Repository
  authSecret : String
  scanInterval : Option Int
  caBundle : String
  caBundleRef : Option CABundleSource
  insecure : Bool
  platforms : List Platform
  deriving DecidableEq

structure Registry where
  name : String
  ns : String
  labels : Labels
  annotations : Labels
  spec : RegistrySpec
  deriving DecidableEq

/-- The namespace and the name of an object are compared as a pair. -/
instance instLawfulBEqKey : LawfulBEq (String × String) := inferInstance

namespace Registry

def key (registry : Registry) : String × String := (registry.ns, registry.name)

def isManagedByWorkloadScan (registry : Registry) : Bool :=
  registry.labels.lookup labelManagedByKey = some labelManagedByValue &&
    registry.labels.lookup labelWorkloadScanKey = some labelWorkloadScanValue

def isPrivate (registry : Registry) : Bool := registry.spec.authSecret ≠ ""

/-- The other name a repository goes by: on Docker Hub, `library/` may be left out. -/
def shortName (registry : Registry) (repo : String) : String :=
  if registry.spec.uri = defaultRegistry then (cutPrefix repo "library/").getD repo
  else repo

/-- The repository is declared under this name, or under its short form. -/
def answersTo (registry : Registry) (repo : String) (repository : Repository) : Bool :=
  repository.name = repo || repository.name = registry.shortName repo

def getRepository (registry : Registry) (repo : String) : Option Repository :=
  registry.spec.repositories.find? (registry.answersTo repo)

theorem answersTo_iff {registry : Registry} {repo : String} {repository : Repository} :
    registry.answersTo repo repository = true ↔ repository.name = repo ∨
      registry.spec.uri = defaultRegistry ∧ repo = "library/" ++ repository.name := by
  rw [answersTo, Bool.or_eq_true, decide_eq_true_eq, decide_eq_true_eq]
  refine or_congr_right' fun hname => ?_
  unfold shortName
  split
  case isFalse huri => simp [huri, hname]
  case isTrue huri =>
    cases hcut : cutPrefix repo "library/" with
    | none =>
      constructor
      · exact fun hsame => absurd hsame hname
      · rintro ⟨-, hlong⟩
        rw [cutPrefix_eq_some.mpr hlong] at hcut
        cases hcut
    | some rest =>
      obtain rfl := cutPrefix_eq_some.mp hcut
      simp [huri, eq_comm]

end Registry

/-- A repository of a rescan request, with the match conditions it is narrowed to. -/
structure ScanJobRepository where
  name : String
  matchConditions : List String
  deriving DecidableEq

/-- The payload of a rescan-requested annotation. -/
structure RescanRequest where
  repositories : List ScanJobRepository
  deriving DecidableEq

def annotationRescanRequestedKeyPrefix := "sbomscanner.kubewarden.io/rescan-requested-"

/-! ## The API server -/

inductive ApiError where
  | alreadyExists
  | notFound
  | conflict
  | other (reason : String)
  deriving DecidableEq

/-- The registries of all namespaces. No two of them have the same namespace and name. -/
structure Cluster where
  registries : List Registry
  unique : (registries.map Registry.key).Nodup

namespace Cluster

def empty : Cluster := ⟨[], nodup_nil⟩

/-- The registries of a namespace that carry both labels of the workload scan. -/
def managed (c : Cluster) (ns : String) : List Registry :=
  c.registries.filter fun registry => registry.ns = ns && registry.isManagedByWorkloadScan

def create (c : Cluster) (registry : Registry) : Except ApiError Cluster :=
  if h : registry.key ∈ c.registries.map Registry.key then
    .error .alreadyExists
  else
    .ok ⟨registry :: c.registries, nodup_cons.mpr ⟨h, c.unique⟩⟩

/-- Only the object with the same key changes, and it keeps the key. -/
theorem map_key_replace (registries : List Registry) (registry : Registry) :
    (registries.map fun old => if old.key = registry.key then registry else old).map Registry.key =
      registries.map Registry.key := by
  rw [map_map]
  apply map_congr_left
  intro old _
  by_cases h : old.key = registry.key <;> simp [h]

def update (c : Cluster) (registry : Registry) : Except ApiError Cluster :=
  if registry.key ∈ c.registries.map Registry.key then
    .ok ⟨c.registries.map fun old => if old.key = registry.key then registry else old,
      map_key_replace c.registries registry ▸ c.unique⟩
  else
    .error .notFound

def delete (c : Cluster) (registry : Registry) : Except ApiError Cluster :=
  if registry.key ∈ c.registries.map Registry.key then
    .ok ⟨c.registries.filter (·.key ≠ registry.key), c.unique.sublist (filter_sublist.map _)⟩
  else
    .error .notFound

variable {c c' : Cluster} {registry other : Registry}

theorem eq_of_key (h : registry ∈ c.registries) (h' : other ∈ c.registries)
    (hkey : registry.key = other.key) : registry = other :=
  inj_on_of_nodup_map c.unique h h' hkey

theorem mem_managed {ns : String} : registry ∈ c.managed ns ↔
    registry ∈ c.registries ∧ registry.ns = ns ∧ registry.isManagedByWorkloadScan = true := by
  simp [managed]

theorem mem_create (h : c.create registry = .ok c') :
    other ∈ c'.registries ↔ other = registry ∨ other ∈ c.registries := by
  unfold create at h
  split at h
  · cases h
  · cases h
    exact mem_cons

theorem mem_update (h : c.update registry = .ok c') :
    other ∈ c'.registries ↔ other = registry ∨ other ∈ c.registries ∧ other.key ≠ registry.key := by
  unfold update at h
  split at h
  case isFalse => cases h
  case isTrue hkey =>
    cases h
    obtain ⟨old, hold, hsame⟩ := mem_map.mp hkey
    rw [mem_map]
    constructor
    · rintro ⟨x, hx, rfl⟩
      by_cases heq : x.key = registry.key
      · exact .inl (if_pos heq)
      · rw [if_neg heq]
        exact .inr ⟨hx, heq⟩
    · rintro (rfl | ⟨hmem, hne⟩)
      · exact ⟨old, hold, if_pos hsame⟩
      · exact ⟨other, hmem, if_neg hne⟩

theorem mem_delete (h : c.delete registry = .ok c') :
    other ∈ c'.registries ↔ other ∈ c.registries ∧ other.key ≠ registry.key := by
  unfold delete at h
  split at h
  · cases h
    simp
  · cases h

end Cluster

end SbomScanner.Api

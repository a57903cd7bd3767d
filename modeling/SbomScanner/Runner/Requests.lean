import Mathlib.Data.String.Basic
import SbomScanner.Api.ScanJob
import SbomScanner.Lib.Procedure

/-!
# Rescan requests

A rescan of a Registry is requested by an annotation whose key starts with
`AnnotationRescanRequestedKeyPrefix` and whose value says what to scan. `collectRescanRequests`
gathers all the requests that are on a Registry and merges them into the targets of one ScanJob.

The targets cover each of the requests (`covers_collectRescanRequests`), and there is nothing in
them that no request has named (`requested_of_mem_targets`).
-/

namespace SbomScanner.Runner

open Api List

/-- The loops of the runner whose order is not fixed: over the annotations of a Registry, and over
the ScanJobs that `sort.Slice`, which is not stable, is given. -/
inductive Loop where
  | annotations
  | scanJobs

/-- `json.Unmarshal` into a `RescanRequest`. -/
abbrev Unmarshal := String → Option RescanRequest

def isRescanRequested (key : String) : Bool :=
  (Strings.cutPrefix key annotationRescanRequestedKeyPrefix).isSome

def rescanKeys (order : IterationOrder Loop) (registry : Registry) : List String :=
  (order.elements .annotations registry.annotations.keys).filter isRescanRequested

/-- The request an annotation stands for; an empty value asks for the whole registry. -/
def decodeRescanRequest (unmarshal : Unmarshal) (raw : String) : Option RescanRequest :=
  if raw = "" then some ⟨[]⟩ else unmarshal raw

/-- The sets the requests are merged into: the repositories to scan as a whole, and the match
conditions of the others. -/
structure Merged where
  wildcardRepos : List String
  condsByRepo : AList fun _ : String => List String

def mergeRepository (merged : Merged) (repo : ScanJobRepository) : Merged :=
  -- already wildcarded; narrower entries have no effect
  if repo.name ∈ merged.wildcardRepos then
    merged
  -- wildcard subsumes any specific conditions
  else if repo.matchConditions = [] then
    ⟨merged.wildcardRepos.insert repo.name, merged.condsByRepo.erase repo.name⟩
  else
    let conds := (merged.condsByRepo.lookup repo.name).getD []
    { merged with
      condsByRepo := merged.condsByRepo.insert repo.name
        (repo.matchConditions.foldl (fun conds cond => conds.insert cond) conds) }

/-- Returns true if the request targets the entire registry. -/
def mergeRescanRequest (req : RescanRequest) (merged : Merged) : Merged × Bool :=
  if req.repositories = [] then
    (merged, true)
  else
    (req.repositories.foldl mergeRepository merged, false)

def buildMergedTargets (merged : Merged) : List ScanJobRepository :=
  let repoNames := merged.condsByRepo.keys.foldl (fun names name => names.insert name)
    merged.wildcardRepos
  (repoNames.insertionSort (· ≤ ·)).map fun name =>
    { name
      matchConditions := ((merged.condsByRepo.lookup name).getD []).insertionSort (· ≤ ·) }

def requestUnder (unmarshal : Unmarshal) (annotations : Labels) (key : String) :
    Option RescanRequest :=
  decodeRescanRequest unmarshal ((annotations.lookup key).getD "")

/-- One pass of the loop over the annotations; malformed ones are skipped. -/
def mergeRequestUnder (unmarshal : Unmarshal) (annotations : Labels) (acc : Merged × Bool)
    (key : String) : Merged × Bool :=
  match requestUnder unmarshal annotations key with
  | none => acc
  | some req => ((mergeRescanRequest req acc.1).1, acc.2 || (mergeRescanRequest req acc.1).2)

/-- The requests under the keys, merged, and whether one of them is for the entire registry. -/
def mergeAll (unmarshal : Unmarshal) (annotations : Labels) (keys : List String) : Merged × Bool :=
  keys.foldl (mergeRequestUnder unmarshal annotations) (⟨[], ∅⟩, false)

structure Collected where
  rescanRequests : List String
  mergedTargets : List ScanJobRepository
  scanEverything : Bool
  deriving DecidableEq

def collectRescanRequests (order : IterationOrder Loop) (unmarshal : Unmarshal)
    (registry : Registry) : Collected :=
  let rescanRequests := rescanKeys order registry
  if rescanRequests = [] then
    ⟨[], [], false⟩
  else if (mergeAll unmarshal registry.annotations rescanRequests).2 then
    ⟨rescanRequests, [], true⟩
  else
    ⟨rescanRequests,
      buildMergedTargets (mergeAll unmarshal registry.annotations rescanRequests).1, false⟩

/-- The repositories of the ScanJob that serves what was collected. -/
def Collected.targets (collected : Collected) : List ScanJobRepository :=
  if collected.rescanRequests ≠ [] && !collected.scanEverything then
    collected.mergedTargets
  else
    []

/-! ## Merging -/

variable {merged : Merged} {name cond : String} {repo : ScanJobRepository}
  {repos : List ScanJobRepository}

namespace Merged

/-- The repository is to be scanned, as a whole or in part. -/
def Mentions (merged : Merged) (name : String) : Prop :=
  name ∈ merged.wildcardRepos ∨ name ∈ merged.condsByRepo

/-- The match condition of the repository is to be scanned, on its own or with all the others. -/
def Includes (merged : Merged) (name cond : String) : Prop :=
  name ∈ merged.wildcardRepos ∨ ∃ conds, merged.condsByRepo.lookup name = some conds ∧ cond ∈ conds

/-- A repository to scan as a whole has no conditions. -/
def Separated (merged : Merged) : Prop :=
  ∀ name ∈ merged.wildcardRepos, name ∉ merged.condsByRepo

end Merged

theorem mem_foldl_insert {xs ys : List String} {x : String} :
    x ∈ xs.foldl (fun set y => set.insert y) ys ↔ x ∈ ys ∨ x ∈ xs := by
  rw [Accumulate.foldl_iff (P := fun set => x ∈ set) (Q := fun y => x = y)]
  · simp
  · intro acc y
    rw [mem_insert_iff, or_comm]

theorem mem_wildcardRepos_mergeRepository :
    name ∈ (mergeRepository merged repo).wildcardRepos ↔
      name ∈ merged.wildcardRepos ∨ repo.name = name ∧ repo.matchConditions = [] := by
  unfold mergeRepository
  split
  case isTrue h =>
    constructor
    · exact .inl
    · rintro (hname | ⟨rfl, -⟩)
      · exact hname
      · exact h
  case isFalse h =>
    split
    case isTrue hempty => simp [hempty, or_comm, eq_comm]
    case isFalse hsome => simp [hsome]

theorem mentions_mergeRepository :
    (mergeRepository merged repo).Mentions name ↔ merged.Mentions name ∨ repo.name = name := by
  unfold mergeRepository Merged.Mentions
  split
  case isTrue h => grind
  case isFalse h =>
    split
    case isTrue hempty =>
      simp only [mem_insert_iff, AList.mem_erase]
      grind
    case isFalse hsome =>
      simp only [AList.mem_insert]
      grind

theorem includes_mergeRepository :
    (mergeRepository merged repo).Includes name cond ↔ merged.Includes name cond ∨
      repo.name = name ∧ (repo.matchConditions = [] ∨ cond ∈ repo.matchConditions) := by
  unfold mergeRepository Merged.Includes
  split
  case isTrue h => grind
  case isFalse h =>
    split
    case isTrue hempty =>
      by_cases hname : name = repo.name
      · subst hname
        simp [hempty]
      · simp [hempty, hname, AList.lookup_erase_ne hname, Ne.symm hname]
    case isFalse hsome =>
      by_cases hname : name = repo.name
      · subst hname
        cases merged.condsByRepo.lookup repo.name <;> simp [hsome, h, mem_foldl_insert]
      · simp [hsome, AList.lookup_insert_ne hname, Ne.symm hname]

theorem separated_mergeRepository (h : merged.Separated) :
    (mergeRepository merged repo).Separated := by
  unfold mergeRepository
  split
  case isTrue => exact h
  case isFalse hwild =>
    split
    case isTrue =>
      intro name hname
      rw [mem_insert_iff] at hname
      rw [AList.mem_erase]
      rintro ⟨hne, hmem⟩
      rcases hname with rfl | hname
      · exact hne rfl
      · exact h name hname hmem
    case isFalse =>
      intro name hname
      rw [AList.mem_insert]
      rintro (rfl | hmem)
      · exact hwild hname
      · exact h name hname hmem

/-! ## Merging all the annotations -/

variable {unmarshal : Unmarshal} {annotations : Labels} {keys : List String}

/-- A repository that one of the requests asks for. -/
def Requested (unmarshal : Unmarshal) (annotations : Labels) (keys : List String)
    (repo : ScanJobRepository) : Prop :=
  ∃ key ∈ keys, ∃ req, requestUnder unmarshal annotations key = some req ∧ repo ∈ req.repositories

variable {P : Merged → Prop}

/-- A property that the repositories of the requests bring about, each on its own. -/
theorem mergeAll_iff {Q : ScanJobRepository → Prop}
    (h : ∀ merged repo, P (mergeRepository merged repo) ↔ P merged ∨ Q repo) (hempty : ¬P ⟨[], ∅⟩) :
    P (mergeAll unmarshal annotations keys).1 ↔
      ∃ repo, Requested unmarshal annotations keys repo ∧ Q repo := by
  unfold mergeAll Requested
  rw [Accumulate.foldl_iff (P := fun acc : Merged × Bool => P acc.1)
    (Q := fun key => ∃ req, requestUnder unmarshal annotations key = some req ∧
      ∃ repo ∈ req.repositories, Q repo)]
  · simp only [hempty, false_or]
    constructor
    · rintro ⟨key, hkey, req, hreq, repo, hrepo, hQ⟩
      exact ⟨repo, ⟨key, hkey, req, hreq, hrepo⟩, hQ⟩
    · rintro ⟨repo, ⟨key, hkey, req, hreq, hrepo⟩, hQ⟩
      exact ⟨key, hkey, req, hreq, repo, hrepo, hQ⟩
  · intro acc key
    unfold mergeRequestUnder
    cases requestUnder unmarshal annotations key with
    | none => simp
    | some req =>
      by_cases hreq : req.repositories = []
      · simp [mergeRescanRequest, hreq]
      · simp [mergeRescanRequest, hreq, Accumulate.foldl_iff h]

theorem mem_wildcardRepos_mergeAll :
    name ∈ (mergeAll unmarshal annotations keys).1.wildcardRepos ↔
      ∃ repo, Requested unmarshal annotations keys repo ∧
        repo.name = name ∧ repo.matchConditions = [] :=
  mergeAll_iff (P := fun merged => name ∈ merged.wildcardRepos)
    (fun _ _ => mem_wildcardRepos_mergeRepository) (by simp)

theorem mentions_mergeAll :
    (mergeAll unmarshal annotations keys).1.Mentions name ↔
      ∃ repo, Requested unmarshal annotations keys repo ∧ repo.name = name :=
  mergeAll_iff (P := fun merged => merged.Mentions name)
    (fun _ _ => mentions_mergeRepository) (by simp [Merged.Mentions])

theorem includes_mergeAll :
    (mergeAll unmarshal annotations keys).1.Includes name cond ↔
      ∃ repo, Requested unmarshal annotations keys repo ∧
        repo.name = name ∧ (repo.matchConditions = [] ∨ cond ∈ repo.matchConditions) :=
  mergeAll_iff (P := fun merged => merged.Includes name cond)
    (fun _ _ => includes_mergeRepository) (by simp [Merged.Includes])

theorem scanEverything_iff : (mergeAll unmarshal annotations keys).2 = true ↔
    ∃ key ∈ keys, ∃ req, requestUnder unmarshal annotations key = some req ∧
      req.repositories = [] := by
  unfold mergeAll
  rw [Accumulate.foldl_iff (P := fun acc : Merged × Bool => acc.2 = true)
    (Q := fun key => ∃ req, requestUnder unmarshal annotations key = some req ∧
      req.repositories = [])]
  · simp
  · intro acc key
    unfold mergeRequestUnder
    cases requestUnder unmarshal annotations key with
    | none => simp
    | some req => by_cases hreq : req.repositories = [] <;> simp [mergeRescanRequest, hreq]

/-- What every repository leaves true of the sets is true of them in the end. -/
theorem mergeAll_induction (hempty : P ⟨[], ∅⟩)
    (h : ∀ merged repo, P merged → P (mergeRepository merged repo)) :
    P (mergeAll unmarshal annotations keys).1 := by
  refine List.foldlRecOn keys _ (motive := fun acc : Merged × Bool => P acc.1) hempty ?_
  intro acc hacc key _
  unfold mergeRequestUnder
  split
  · exact hacc
  · next req _ =>
      unfold mergeRescanRequest
      split
      · exact hacc
      · exact List.foldlRecOn req.repositories _ hacc fun merged hmerged repo _ =>
          h merged repo hmerged

theorem separated_mergeAll : (mergeAll unmarshal annotations keys).1.Separated :=
  mergeAll_induction (by simp [Merged.Separated]) fun _ _ => separated_mergeRepository

variable {target : ScanJobRepository}

theorem mem_buildMergedTargets :
    target ∈ buildMergedTargets merged ↔ merged.Mentions target.name ∧
      target.matchConditions =
        ((merged.condsByRepo.lookup target.name).getD []).insertionSort (· ≤ ·) := by
  unfold buildMergedTargets
  rw [mem_map]
  have hname : ∀ name, name ∈ (merged.condsByRepo.keys.foldl (fun names name => names.insert name)
      merged.wildcardRepos).insertionSort (· ≤ ·) ↔ merged.Mentions name := by
    intro name
    rw [mem_insertionSort, mem_foldl_insert]
    rfl
  constructor
  · rintro ⟨name, hmem, rfl⟩
    exact ⟨(hname name).mp hmem, rfl⟩
  · rintro ⟨hmem, hconds⟩
    refine ⟨target.name, (hname target.name).mpr hmem, ?_⟩
    rw [← hconds]

theorem exists_target (h : merged.Mentions name) : ∃ target ∈ buildMergedTargets merged,
    target.name = name ∧ target.matchConditions =
      ((merged.condsByRepo.lookup name).getD []).insertionSort (· ≤ ·) :=
  ⟨⟨name, _⟩, mem_buildMergedTargets.mpr ⟨h, rfl⟩, rfl, rfl⟩

/-! ## What the targets cover -/

/-- The targets scan all that the request asks for. -/
def Covers (targets : List ScanJobRepository) (req : RescanRequest) : Prop :=
  targets = [] ∨ req.repositories ≠ [] ∧ ∀ repo ∈ req.repositories, ∃ target ∈ targets,
    target.name = repo.name ∧ (target.matchConditions = [] ∨
      repo.matchConditions ≠ [] ∧ repo.matchConditions ⊆ target.matchConditions)

instance (targets : List ScanJobRepository) (req : RescanRequest) :
    Decidable (Covers targets req) := by
  unfold Covers
  infer_instance

variable {key : String} {req : RescanRequest}

theorem covers_mergeAll (hkey : key ∈ keys)
    (hreq : requestUnder unmarshal annotations key = some req) (hsome : req.repositories ≠ []) :
    Covers (buildMergedTargets (mergeAll unmarshal annotations keys).1) req := by
  refine .inr ⟨hsome, fun repo hrepo => ?_⟩
  have hrequested : Requested unmarshal annotations keys repo := ⟨key, hkey, req, hreq, hrepo⟩
  have hsep : (mergeAll unmarshal annotations keys).1.Separated := separated_mergeAll
  obtain ⟨target, htarget, hname, hconds⟩ := exists_target
    (mentions_mergeAll.mpr ⟨repo, hrequested, rfl⟩)
  refine ⟨target, htarget, hname, ?_⟩
  rw [hconds]
  by_cases hwild : repo.name ∈ (mergeAll unmarshal annotations keys).1.wildcardRepos
  · left
    have hnone := AList.lookup_eq_none.mpr (hsep repo.name hwild)
    rw [hnone]
    rfl
  · right
    constructor
    · intro hempty
      exact hwild (mem_wildcardRepos_mergeAll.mpr ⟨repo, hrequested, rfl, hempty⟩)
    · intro cond hcond
      obtain hname | ⟨conds, hconds, hmem⟩ :=
        includes_mergeAll.mpr ⟨repo, hrequested, rfl, .inr hcond⟩
      · exact absurd hname hwild
      · rw [hconds]
        exact (mem_insertionSort _).mpr hmem

variable {order : IterationOrder Loop} {registry : Registry}

theorem mem_rescanKeys : key ∈ rescanKeys order registry ↔
    key ∈ registry.annotations ∧ isRescanRequested key = true := by
  rw [rescanKeys, mem_filter, IterationOrder.mem_elements, Finmap.mem_keys]

@[simp]
theorem rescanRequests_collectRescanRequests :
    (collectRescanRequests order unmarshal registry).rescanRequests =
      rescanKeys order registry := by
  unfold collectRescanRequests
  by_cases hkeys : rescanKeys order registry = []
  · simp [hkeys]
  · simp only [hkeys, if_false]
    split <;> rfl

/-- The targets of the job that serves the requests: none of them asks for the whole registry, and
all are merged. -/
theorem targets_collectRescanRequests :
    (collectRescanRequests order unmarshal registry).targets =
      if rescanKeys order registry ≠ [] ∧
          (mergeAll unmarshal registry.annotations (rescanKeys order registry)).2 = false then
        buildMergedTargets (mergeAll unmarshal registry.annotations (rescanKeys order registry)).1
      else
        [] := by
  unfold collectRescanRequests
  by_cases hkeys : rescanKeys order registry = []
  · simp [hkeys, Collected.targets]
  · cases hmerged : (mergeAll unmarshal registry.annotations (rescanKeys order registry)).2 <;>
      simp [hkeys, Collected.targets, hmerged]

/-- The job that serves the requests scans all that each of them asks for. -/
theorem covers_collectRescanRequests (hkey : key ∈ rescanKeys order registry)
    (hreq : requestUnder unmarshal registry.annotations key = some req) :
    Covers (collectRescanRequests order unmarshal registry).targets req := by
  rw [targets_collectRescanRequests]
  split
  case isFalse => exact .inl rfl
  case isTrue h =>
    apply covers_mergeAll hkey hreq
    intro hempty
    have heverything := scanEverything_iff.mpr ⟨key, hkey, req, hreq, hempty⟩
    rw [h.2] at heverything
    cases heverything

/-- A target is a repository that some request asks for, with the match conditions that the requests
have named. -/
theorem requested_of_mem_targets
    (h : target ∈ (collectRescanRequests order unmarshal registry).targets) :
    (∃ repo, Requested unmarshal registry.annotations (rescanKeys order registry) repo ∧
      repo.name = target.name) ∧
    ∀ cond ∈ target.matchConditions,
      ∃ repo, Requested unmarshal registry.annotations (rescanKeys order registry) repo ∧
        repo.name = target.name ∧ cond ∈ repo.matchConditions := by
  rw [targets_collectRescanRequests] at h
  split at h
  case isFalse => cases h
  case isTrue =>
    obtain ⟨hmentions, hconds⟩ := mem_buildMergedTargets.mp h
    refine ⟨mentions_mergeAll.mp hmentions, fun cond hcond => ?_⟩
    rw [hconds, mem_insertionSort] at hcond
    cases hlookup : (mergeAll unmarshal registry.annotations
        (rescanKeys order registry)).1.condsByRepo.lookup target.name with
    | none =>
      rw [hlookup] at hcond
      cases hcond
    | some conds =>
      rw [hlookup] at hcond
      obtain ⟨repo, hrequested, hname, hempty | hcond⟩ :=
        includes_mergeAll.mp (.inr ⟨conds, hlookup, hcond⟩)
      · -- a repository to scan as a whole has no match conditions
        have hwild := mem_wildcardRepos_mergeAll.mpr ⟨repo, hrequested, hname, hempty⟩
        have hnone := AList.lookup_eq_none.mpr (separated_mergeAll _ hwild)
        rw [hlookup] at hnone
        cases hnone
      · exact ⟨repo, hrequested, hname, hcond⟩

end SbomScanner.Runner

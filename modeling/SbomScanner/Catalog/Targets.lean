import SbomScanner.Api.ScanJob
import SbomScanner.Catalog.Filters
import SbomScanner.Lib.Procedure

/-!
# Targeted jobs

A ScanJob may name a part of its registry: repositories, and match conditions of each. The worker
narrows the registry to that part before it looks for images (`applyTargetsToRegistry`).

Narrowing drops conditions, and what this does to the images that pass depends on how the conditions
are combined. `targeted_scan_subset_iff` says exactly when a repository of the narrowed registry
accepts no more than the registry itself would. Under `and` this is so only if nothing is dropped
that the conditions left do not say as well (`targeted_scan_widens` is a job that scans an image the
full job leaves out). Under `or`, conditions may be dropped, but a full scan that evaluates them
before the others fails if one of them does.
-/

namespace SbomScanner.Catalog

open Api ShortCircuit Option

inductive TargetError where
  | repositoryNotDeclared (repository registry : String)
  | matchConditionsNotFound (repository registry : String)
  deriving DecidableEq

/-- The repository with the match conditions the target names, or all of them if it names none. -/
def select (target : ScanJobRepository) (repository : Repository) : Repository :=
  if target.matchConditions = [] then repository
  else
    { repository with
      matchConditions := repository.matchConditions.filter (·.name ∈ target.matchConditions) }

/-- One pass of the loop of `applyTargetsToRegistry`. -/
def targetRepository (registry : Registry) (target : ScanJobRepository) :
    Except TargetError Repository :=
  match registry.getRepository target.name with
  | none => .error (.repositoryNotDeclared target.name registry.name)
  | some repository =>
    if target.matchConditions ≠ [] ∧ (select target repository).matchConditions.length ≠
        target.matchConditions.dedup.length then
      .error (.matchConditionsNotFound target.name registry.name)
    else .ok (select target repository)

def applyTargetsToRegistry (registry : Registry) (scanJob : ScanJob) :
    Except TargetError Registry :=
  if scanJob.spec.repositories = [] then .ok registry
  else
    (scanJob.spec.repositories.mapM (targetRepository registry)).map fun repositories =>
      { registry with spec := { registry.spec with repositories } }

/-! ## The narrowed registry -/

variable {registry narrowed : Registry} {scanJob : ScanJob} {targets : List ScanJobRepository}
  {target : ScanJobRepository} {repository : Repository} {repo : String}

@[simp]
theorem name_select : (select target repository).name = repository.name := by
  unfold select
  split <;> rfl

theorem targetRepository_eq_ok (h : targetRepository registry target = .ok repository) :
    ∃ declared, registry.getRepository target.name = some declared ∧
      repository = select target declared := by
  unfold targetRepository at h
  split at h
  · cases h
  · next declared hfound =>
    split at h
    · cases h
    · cases h
      exact ⟨declared, hfound, rfl⟩

/-- The first target whose repository goes by this name. -/
def answering (registry : Registry) (targets : List ScanJobRepository) (repo : String) :
    Option ScanJobRepository :=
  targets.find? fun target =>
    (registry.getRepository target.name).any (registry.answersTo repo)

theorem answersTo_congr {other : Repository} (h : other.name = repository.name) :
    registry.answersTo repo other = registry.answersTo repo repository := by
  unfold Registry.answersTo
  rw [h]

theorem find_targetRepositories {repositories : List Repository}
    (h : List.Forall₂ (fun target repository => targetRepository registry target = .ok repository)
      targets repositories) :
    repositories.find? (registry.answersTo repo) =
      (answering registry targets repo).bind fun target =>
        (registry.getRepository target.name).map (select target) := by
  induction h with
  | nil => rfl
  | @cons target repository targets repositories hfirst _ ih =>
    obtain ⟨declared, hfound, rfl⟩ := targetRepository_eq_ok hfirst
    have hanswers : registry.answersTo repo (select target declared) =
        registry.answersTo repo declared := answersTo_congr name_select
    unfold answering at ih ⊢
    rw [List.find?_cons, List.find?_cons, hanswers, hfound, any_some]
    cases registry.answersTo repo declared with
    | true => simp [hfound]
    | false => exact ih

/-- A repository of the narrowed registry is one of the registry, less the conditions that its
target does not name. -/
theorem getRepository_narrowed (h : applyTargetsToRegistry registry scanJob = .ok narrowed)
    (hne : scanJob.spec.repositories ≠ []) :
    narrowed.getRepository repo =
      (answering registry scanJob.spec.repositories repo).bind fun target =>
        (registry.getRepository target.name).map (select target) := by
  unfold applyTargetsToRegistry at h
  rw [if_neg hne, Fallible.map_eq_ok] at h
  obtain ⟨repositories, hmap, rfl⟩ := h
  exact find_targetRepositories (Fallible.mapM_eq_ok.mp hmap)

theorem isSome_getRepository_of_answering (h : answering registry targets repo = some target) :
    (registry.getRepository repo).isSome = true := by
  have hany := List.find?_some h
  obtain ⟨declared, hfound, hanswers⟩ := (any_eq_true _ _).mp hany
  exact List.find?_isSome.mpr ⟨declared, List.mem_of_find?_eq_some hfound, hanswers⟩

/-! ## When narrowing narrows -/

/-- Whatever makes the selected conditions accept a tag makes the registry accept it. -/
def Narrows (registry : Registry) (targets : List ScanJobRepository) (repo : String) : Prop :=
  ∀ target ∈ answering registry targets repo, ∀ declared ∈ registry.getRepository target.name,
    ∀ full ∈ registry.getRepository repo, Entails (guard (select target declared)) (guard full)

/-- **What a targeted scan covers.** The repository found in the narrowed registry accepts no tag
that the registry would not accept, however the expressions are evaluated, iff the selected
conditions entail those of the registry. -/
theorem targeted_scan_subset_iff (h : applyTargetsToRegistry registry scanJob = .ok narrowed)
    (repo : String) :
    (∀ (evaluate : Evaluate) (tag : String), ∀ found ∈ narrowed.getRepository repo,
      filterByTag evaluate (some found) tag = .ok true →
        filterByTag evaluate (registry.getRepository repo) tag = .ok true) ↔
    Narrows registry scanJob.spec.repositories repo := by
  by_cases hne : scanJob.spec.repositories = []
  case pos =>
    -- an untargeted job is not narrowed
    unfold applyTargetsToRegistry at h
    rw [if_pos hne] at h
    cases h
    rw [hne]
    constructor
    · intro _ target htarget
      cases htarget
    · intro _ evaluate tag found hfound haccept
      rw [mem_def] at hfound
      rw [hfound]
      exact haccept
  case neg =>
    have hnarrowed : narrowed.getRepository repo = _ := getRepository_narrowed h hne
    constructor
    · intro hsubset target htarget declared hdeclared full hfull
      apply (entails_iff (ε := String)).mp
      intro v hv
      have hfound : select target declared ∈ narrowed.getRepository repo := by
        rw [hnarrowed, htarget, bind_some, hdeclared]
        rfl
      have haccept := hsubset (fun e _ => v e) "" _ hfound (accepts_iff.mpr hv)
      rw [hfull] at haccept
      exact accepts_iff.mp haccept
    · intro hnarrows evaluate tag found hfound haccept
      rw [hnarrowed, mem_def, bind_eq_some_iff] at hfound
      obtain ⟨target, htarget, hfound⟩ := hfound
      obtain ⟨declared, hdeclared, rfl⟩ := map_eq_some_iff.mp hfound
      obtain ⟨full, hfull⟩ :=
        isSome_iff_exists.mp (isSome_getRepository_of_answering htarget)
      rw [hfull]
      have hentails := hnarrows target htarget declared hdeclared full hfull
      exact accepts_iff.mpr (entails_iff.mpr hentails _ (accepts_iff.mp haccept))

/-! ## A registry of stable releases

Two conditions have to hold together: the tag is no development build, and it is of version 1. -/

def stableReleases (op : MatchOperator) : Registry where
  name := "releases"
  ns := "team"
  labels := ∅
  annotations := ∅
  spec := {
    uri := "registry.example.com"
    catalogType := .ociDistribution
    repositories := [⟨"app", [⟨"stable", "!tag.endsWith('-dev')", ∅⟩,
      ⟨"version-1", "tag.startsWith('v1')", ∅⟩], op⟩]
    authSecret := ""
    scanInterval := none
    caBundle := ""
    caBundleRef := none
    insecure := false
    platforms := [] }

/-- A job for the releases that are no development builds. -/
def stableJob : ScanJob where
  name := "stable"
  generateName := ""
  ns := "team"
  uid := 1
  resourceVersion := 1
  generation := 1
  creationTimestamp := 0
  labels := ∅
  annotations := ∅
  spec := ⟨"releases", [⟨"app", ["stable"]⟩]⟩
  status := {}

theorem targeted_scan_subset_iff_or :
    ∃ narrowed, applyTargetsToRegistry (stableReleases .or) stableJob = .ok narrowed ∧
      ((∀ (evaluate : Evaluate) (tag : String), ∀ found ∈ narrowed.getRepository "app",
        filterByTag evaluate (some found) tag = .ok true →
          filterByTag evaluate ((stableReleases .or).getRepository "app") tag = .ok true) ↔
      Narrows (stableReleases .or) stableJob.spec.repositories "app") :=
  ⟨_, rfl, targeted_scan_subset_iff rfl "app"⟩

/-- What the two expressions say about `v2`. -/
def evaluateV2 : Evaluate := fun expression _ => .ok (expression = "!tag.endsWith('-dev')")

theorem targeted_scan_widens :
    ∃ narrowed, applyTargetsToRegistry (stableReleases .and) stableJob = .ok narrowed ∧
      (narrowed.getRepository "app").isSome = true ∧
      filterByTag evaluateV2 (narrowed.getRepository "app") "v2" = .ok true ∧
      filterByTag evaluateV2 ((stableReleases .and).getRepository "app") "v2" = .ok false :=
  ⟨_, rfl, by decide, by decide, by decide⟩

end SbomScanner.Catalog

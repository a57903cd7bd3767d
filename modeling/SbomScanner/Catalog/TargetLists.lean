import Mathlib.Data.List.Duplicate
import SbomScanner.Catalog.Handler
import SbomScanner.Runner.Validity

/-!
# Lists of targets

What becomes of the targets of a ScanJob as a list. The controller checks each of them against the
Registry (`validateScanJobTargets`), and the worker, which narrows the Registry to them, checks them
again in its own way: it counts. The two agree on every ScanJob iff no two match conditions of a
repository have the same name (`checks_agree_iff`), which no webhook sees to.

The list may have several targets for one repository. The narrowed Registry then declares the
repository several times, and whoever looks it up finds the first. So the others count only as far
as they ask for nothing that the first does not ask for (`union_iff`).
-/

namespace SbomScanner.Catalog

open Api ShortCircuit Fallible Option
open Runner (validateTarget validateScanJobTargets)

/-! ## Two checks of one list -/

section Checks

variable {quote : String → String} {registry : Registry} {scanJob : ScanJob}
  {target : ScanJobRepository}

/-- To compare the number of elements that are asked for with the number of those that are there is
to ask whether they are there, if they have names of their own. -/
theorem length_filter_eq_iff {α β : Type} [DecidableEq β] {f : α → β} {xs : List α} {asked : List β}
    (h : (xs.map f).Nodup) :
    (xs.filter (f · ∈ asked)).length = asked.dedup.length ↔ ∀ b ∈ asked, ∃ x ∈ xs, f x = b := by
  have hnames : ((xs.filter (f · ∈ asked)).map f).Nodup := h.sublist (List.filter_sublist.map f)
  have hsubset : ((xs.filter (f · ∈ asked)).map f).toFinset ⊆ asked.toFinset := by
    intro b hb
    simp only [List.mem_toFinset, List.mem_map, List.mem_filter, decide_eq_true_eq] at hb ⊢
    obtain ⟨x, ⟨-, hasked⟩, rfl⟩ := hb
    exact hasked
  rw [← List.length_map (f := f), ← List.toFinset_card_of_nodup hnames, ← List.card_toFinset]
  constructor
  · intro hcard b hb
    have heq := Finset.eq_of_subset_of_card_le hsubset hcard.ge
    have hin : b ∈ ((xs.filter (f · ∈ asked)).map f).toFinset := by
      rw [heq]
      exact List.mem_toFinset.mpr hb
    obtain ⟨x, hx, rfl⟩ := List.mem_map.mp (List.mem_toFinset.mp hin)
    exact ⟨x, List.mem_of_mem_filter hx, rfl⟩
  · intro hall
    congr 1
    refine Finset.Subset.antisymm hsubset fun b hb => ?_
    obtain ⟨x, hx, rfl⟩ := hall b (List.mem_toFinset.mp hb)
    refine List.mem_toFinset.mpr (List.mem_map_of_mem ?_)
    exact List.mem_filter.mpr ⟨hx, by simpa using hb⟩

/-- The controller asks whether each of the names is there. -/
theorem validateTarget_iff : validateTarget quote registry target = .ok ⟨⟩ ↔
    ∃ repository, registry.getRepository target.name = some repository ∧
      ∀ cond ∈ target.matchConditions, ∃ condition ∈ repository.matchConditions,
        condition.name = cond := by
  constructor
  · intro h
    unfold validateTarget at h
    split at h
    case h_1 => cases h
    case h_2 repository hrepository =>
      refine ⟨repository, hrepository, ?_⟩
      split at h
      case h_1 => cases h
      case h_2 hnone =>
        intro cond hcond
        simpa using List.find?_eq_none.mp hnone cond hcond
  · rintro ⟨repository, hrepository, hconditions⟩
    exact Runner.validateTarget_eq_ok hrepository hconditions

/-- The worker counts. -/
theorem targetRepository_iff : (∃ narrowed, targetRepository registry target = .ok narrowed) ↔
    ∃ repository, registry.getRepository target.name = some repository ∧
      (target.matchConditions ≠ [] →
        (repository.matchConditions.filter (·.name ∈ target.matchConditions)).length =
          target.matchConditions.dedup.length) := by
  unfold targetRepository
  cases registry.getRepository target.name with
  | none => simp
  | some repository =>
    simp only [Option.some.injEq, exists_eq_left']
    by_cases hall : target.matchConditions = []
    · simp [hall]
    · have hselect : (select target repository).matchConditions =
          repository.matchConditions.filter (·.name ∈ target.matchConditions) := by
        rw [select, if_neg hall]
      rw [hselect]
      split
      case isTrue hcount => simp [hall, hcount.2]
      case isFalse hcount =>
        simp only [ne_eq, hall, not_false_eq_true, true_and, not_not] at hcount
        simp [hcount]

theorem applyTargets_iff : (∃ narrowed, applyTargetsToRegistry registry scanJob = .ok narrowed) ↔
    ∀ target ∈ scanJob.spec.repositories,
      ∃ narrowed, targetRepository registry target = .ok narrowed := by
  unfold applyTargetsToRegistry
  split
  case isTrue hnil => simp [hnil]
  case isFalse =>
    constructor
    · rintro ⟨narrowed, h⟩ target htarget
      obtain ⟨repositories, hmap, -⟩ := map_eq_ok.mp h
      obtain ⟨repository, -, hrepository⟩ := exists_mem_of_mapM hmap htarget
      exact ⟨repository, hrepository⟩
    · intro h
      obtain ⟨repositories, hmap⟩ := exists_mapM_eq_ok h
      exact ⟨_, map_eq_ok.mpr ⟨repositories, hmap, rfl⟩⟩

/-- A name that two match conditions have is there, but there are too many of them. -/
theorem not_targetRepository_of_duplicate {name cond : String} {repository : Repository}
    (hrepository : registry.getRepository name = some repository)
    (hduplicate : List.Duplicate cond (repository.matchConditions.map (·.name))) :
    ¬∃ narrowed, targetRepository registry ⟨name, [cond]⟩ = .ok narrowed := by
  rw [targetRepository_iff]
  rintro ⟨found, hfound, hcount⟩
  cases hrepository.symm.trans hfound
  have hone : (repository.matchConditions.filter (·.name ∈ [cond])).length = 1 :=
    hcount (List.cons_ne_nil _ _)
  have htwo := List.duplicate_iff_two_le_count.mp hduplicate
  rw [List.count, List.countP_map, List.countP_eq_length_filter] at htwo
  have hsame : repository.matchConditions.filter ((· == cond) ∘ (·.name)) =
      repository.matchConditions.filter (·.name ∈ [cond]) := by
    apply List.filter_congr
    intro condition _
    rw [Function.comp_apply, beq_eq_decide]
    simp only [List.mem_singleton]
  rw [hsame, hone] at htwo
  omega

/-- **The two checks agree on every ScanJob** iff the repositories that can be looked up have no two
match conditions of the same name. -/
theorem checks_agree_iff (quote : String → String) (registry : Registry) :
    (∀ scanJob, validateScanJobTargets quote scanJob registry = .ok ⟨⟩ ↔
      ∃ narrowed, applyTargetsToRegistry registry scanJob = .ok narrowed) ↔
    ∀ name, ∀ repository ∈ registry.getRepository name,
      (repository.matchConditions.map (·.name)).Nodup := by
  simp only [validateScanJobTargets, forM_eq_ok, applyTargets_iff]
  constructor
  · intro h name repository hrepository
    by_contra hnodup
    obtain ⟨cond, hduplicate⟩ := List.exists_duplicate_iff_not_nodup.mpr hnodup
    have hagree := (h { stableJob with spec := ⟨registry.name, [⟨name, [cond]⟩]⟩ }).mp
    refine not_targetRepository_of_duplicate hrepository hduplicate (hagree ?_ _ List.mem_cons_self)
    intro target htarget
    obtain rfl := List.mem_singleton.mp htarget
    refine validateTarget_iff.mpr ⟨repository, hrepository, fun asked hasked => ?_⟩
    obtain rfl := List.mem_singleton.mp hasked
    exact List.mem_map.mp hduplicate.mem
  · intro h scanJob
    refine forall₂_congr fun target _ => ?_
    rw [validateTarget_iff, targetRepository_iff]
    refine exists_congr fun repository => and_congr_right fun hrepository => ?_
    rw [length_filter_eq_iff (h target.name repository hrepository)]
    refine ⟨fun hall _ => hall, fun hall => ?_⟩
    by_cases hnil : target.matchConditions = []
    · rw [hnil]
      exact fun cond hcond => absurd hcond List.not_mem_nil
    · exact hall hnil

end Checks

/-- Two conditions of one name, which no webhook objects to. -/
def ambiguousReleases : Registry where
  name := "releases"
  ns := "team"
  labels := ∅
  annotations := ∅
  spec := {
    uri := "registry.example.com"
    catalogType := .ociDistribution
    repositories := [⟨"app", [⟨"stable", "!tag.endsWith('-dev')", ∅⟩,
      ⟨"stable", "!tag.endsWith('-rc')", ∅⟩], .and⟩]
    authSecret := ""
    scanInterval := none
    caBundle := ""
    caBundleRef := none
    insecure := false
    platforms := [] }

/-- The controller accepts a job that no worker will ever run, and refuses one that a worker would
run. -/
theorem checks_disagree :
    (⟨⟨"sbomscanner", "controller"⟩, some fun _ => none⟩ :
      Webhook.RegistryCustomValidator).validateCreate (some "user") ambiguousReleases = .ok [] ∧
    validateScanJobTargets id stableJob ambiguousReleases = .ok ⟨⟩ ∧
    applyTargetsToRegistry ambiguousReleases stableJob =
      .error (.matchConditionsNotFound "app" "releases") ∧
    validateScanJobTargets id
      { stableJob with spec := ⟨"releases", [⟨"app", ["stable", "signed"]⟩]⟩ } ambiguousReleases =
        .error ⟨.matchConditionNotFound,
          "match condition signed is not declared on repository app of registry releases"⟩ ∧
    ∃ narrowed, applyTargetsToRegistry ambiguousReleases
      { stableJob with spec := ⟨"releases", [⟨"app", ["stable", "signed"]⟩]⟩ } = .ok narrowed := by
  refine ⟨by decide, by decide, by decide, by decide, _, rfl⟩

/-! ## The union of the targets -/

section Union

variable {registry narrowed : Registry} {scanJob : ScanJob} {evaluate : Evaluate}
  {repo tag : String}

/-- The target is for a repository that goes by this name, and asks for the tag. -/
def Selects (evaluate : Evaluate) (registry : Registry) (repo tag : String)
    (target : ScanJobRepository) : Prop :=
  ∃ declared, registry.getRepository target.name = some declared ∧
    registry.answersTo repo declared = true ∧
    filterByTag evaluate (some (select target declared)) tag = .ok true

/-- There is a target for the repository, and the first of them asks for whatever another one asks
for. -/
def FirstCovers (registry : Registry) (targets : List ScanJobRepository) (repo : String) : Prop :=
  ∃ first, answering registry targets repo = some first ∧
    ∀ kept, registry.getRepository first.name = some kept →
      ∀ target ∈ targets, ∀ declared, registry.getRepository target.name = some declared →
        registry.answersTo repo declared = true →
          Entails (guard (select target declared)) (guard (select first kept))

variable {targets : List ScanJobRepository}

theorem answering_eq_some {first : ScanJobRepository}
    (h : answering registry targets repo = some first) : first ∈ targets ∧
      ∃ kept, registry.getRepository first.name = some kept ∧
        registry.answersTo repo kept = true := by
  have hany := List.find?_some h
  exact ⟨List.mem_of_find?_eq_some h, (any_eq_true _ _).mp hany⟩

theorem isSome_answering {target : ScanJobRepository} (hmem : target ∈ targets)
    (h : Selects evaluate registry repo tag target) :
    (answering registry targets repo).isSome = true := by
  obtain ⟨declared, hdeclared, hanswers, -⟩ := h
  exact List.find?_isSome.mpr ⟨target, hmem, (any_eq_true _ _).mpr ⟨declared, hdeclared, hanswers⟩⟩

/-- What is accepted under a name is what one of the targets asks for, however the expressions are
evaluated, iff the first target decides for all of them. -/
theorem accepted_iff_selected (h : applyTargetsToRegistry registry scanJob = .ok narrowed)
    (hne : scanJob.spec.repositories ≠ []) (repo tag : String) :
    (∀ evaluate : Evaluate, filterByTag evaluate (narrowed.getRepository repo) tag = .ok true ↔
      ∃ target ∈ scanJob.spec.repositories, Selects evaluate registry repo tag target) ↔
    FirstCovers registry scanJob.spec.repositories repo := by
  have hnarrowed : narrowed.getRepository repo = _ := getRepository_narrowed h hne
  constructor
  · intro hunion
    cases hfirst : answering registry scanJob.spec.repositories repo with
    | none =>
      -- nothing is found, so that everything is accepted
      rw [hfirst, bind_none] at hnarrowed
      rw [hnarrowed] at hunion
      obtain ⟨target, hmem, hselects⟩ := (hunion fun _ _ => .ok true).mp rfl
      have hsome := isSome_answering hmem hselects
      rw [hfirst] at hsome
      cases hsome
    | some first =>
      refine ⟨first, hfirst, fun kept hkept target hmem declared hdeclared hanswers => ?_⟩
      rw [hfirst, bind_some, hkept, map_some] at hnarrowed
      rw [hnarrowed] at hunion
      apply (entails_iff (ε := String)).mp
      intro v hv
      have haccept := (hunion fun e _ => v e).mpr
        ⟨target, hmem, declared, hdeclared, hanswers, accepts_iff.mpr hv⟩
      exact accepts_iff.mp haccept
  · rintro ⟨first, hfirst, hcovers⟩ evaluate
    obtain ⟨hmem, kept, hkept, hanswers⟩ := answering_eq_some hfirst
    rw [hnarrowed, hfirst, bind_some, hkept, map_some]
    constructor
    · intro haccept
      exact ⟨first, hmem, kept, hkept, hanswers, haccept⟩
    · rintro ⟨target, htarget, declared, hdeclared, hfor, haccept⟩
      have hentails := hcovers kept hkept target htarget declared hdeclared hfor
      exact accepts_iff.mpr (entails_iff.mpr hentails _ (accepts_iff.mp haccept))

def Listed (env : Env) (registry : Registry) (ref : ImageName.Reference) : Prop :=
  ∃ references text, discoverReferences env registry = .ok references ∧ text ∈ references ∧
    env.lib.parseReference text = .ok ref

end Union

/-! ## Two targets for one repository -/

namespace TwoTargets

/-- What the two expressions say about `v1-dev`. -/
def evaluate : Evaluate := fun expression _ => .ok (expression = "tag.startsWith('v1')")

def env : Env where
  lib := {
    isAuthority := fun s => '/' ∉ s.toList
    badName := id, quote := id, sha256 := id, base64 := id, evaluate }
  client := {
    catalog := fun _ => .ok []
    tags := fun _ => .ok ["v1-dev"]
    descriptor := fun _ => .error "not found"
    image := fun _ => .error "not found" }
  unmarshal _ := .ok (stableReleases .or)
  order := .asStored
  others _ objects := objects
  fault _ := none
  now _ := 0

/-- A job for everything that one of these targets asks for. -/
def job (targets : List (List String)) : ScanJob :=
  { stableJob with spec := ⟨"releases", targets.map fun conditions => ⟨"app", conditions⟩⟩ }

def ref : ImageName.Reference := ⟨"registry.example.com", "app", "v1-dev"⟩

theorem listed_iff {narrowed : Registry} (h : (discoverReferences env narrowed).toOption =
    some ["registry.example.com/app:v1-dev"]) {found : ImageName.Reference} :
    Listed env narrowed found ↔ found = ref := by
  have hparse : env.lib.parseReference "registry.example.com/app:v1-dev" = .ok ref :=
    eq_ok_of_toOption (by decide +kernel)
  constructor
  · rintro ⟨references, text, hreferences, htext, hfound⟩
    cases (eq_ok_of_toOption h).symm.trans hreferences
    rw [List.mem_singleton.mp htext, hparse] at hfound
    exact (Except.ok.inj hfound).symm
  · rintro rfl
    exact ⟨_, _, eq_ok_of_toOption h, List.mem_cons_self, hparse⟩

end TwoTargets

end SbomScanner.Catalog

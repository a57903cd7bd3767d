import SbomScanner.Runner.Schedule

/-!
# The targets of a requested scan

What a list of repositories asks for: the empty list is the whole registry, a repository without
match conditions is all of the repository, and any other repository is the match conditions it
names. Under this reading the ScanJob for a Registry with rescan requests scans the union of what
the requests ask for, whatever the order in which they are merged
(`exactTargets_collectRescanRequests`).

That takes a request that can be read. A union of no requests is no target, and to the ScanJob no
target is the whole registry.
-/

namespace SbomScanner.Runner

open Api Procedure List

/-! ## What is asked for -/

/-- The repository with a match condition, or, for `none`, all of the repository. -/
def Asks (repo : ScanJobRepository) (name : String) (cond : Option String) : Prop :=
  repo.name = name ∧ (repo.matchConditions = [] ∨ ∃ c ∈ cond, c ∈ repo.matchConditions)

/-- What a ScanJob or a request with these repositories is about. -/
def Scans (repositories : List ScanJobRepository) (name : String) (cond : Option String) : Prop :=
  repositories = [] ∨ ∃ repo ∈ repositories, Asks repo name cond

/-- A rescan annotation of the registry stands for this request. -/
def WellFormed (unmarshal : Unmarshal) (registry : Registry) (req : RescanRequest) : Prop :=
  ∃ key ∈ registry.annotations, isRescanRequested key = true ∧
    requestUnder unmarshal registry.annotations key = some req

/-- The targets are the union of the requests, in order and without repetitions. -/
structure ExactTargets (unmarshal : Unmarshal) (registry : Registry)
    (targets : List ScanJobRepository) : Prop where
  scans_iff : ∀ {name cond}, Scans targets name cond ↔
    ∃ req, WellFormed unmarshal registry req ∧ Scans req.repositories name cond
  everything_iff : targets = [] ↔ ∃ req, WellFormed unmarshal registry req ∧ req.repositories = []
  whole_iff : ∀ target ∈ targets, target.matchConditions = [] ↔
    ∃ req, WellFormed unmarshal registry req ∧ ∃ repo ∈ req.repositories,
      repo.name = target.name ∧ repo.matchConditions = []
  repositories : targets.Pairwise fun a b => a.name < b.name
  conditions : ∀ target ∈ targets, target.matchConditions.Pairwise (· < ·)

/-! ## The merged sets -/

namespace Merged

variable {merged : Merged} {repo : ScanJobRepository} {name : String} {cond : Option String}

def Contains (merged : Merged) (name : String) : Option String → Prop
  | none => name ∈ merged.wildcardRepos
  | some cond => merged.Includes name cond

/-- The lists stand for sets, and a repository is listed with the conditions it has. -/
structure Proper (merged : Merged) : Prop where
  separated : merged.Separated
  wildcardRepos : merged.wildcardRepos.Nodup
  condsByRepo : ∀ {name conds}, merged.condsByRepo.lookup name = some conds →
    conds ≠ [] ∧ conds.Nodup

end Merged

variable {merged : Merged} {repo : ScanJobRepository} {name : String} {cond : Option String}

theorem contains_mergeRepository :
    (mergeRepository merged repo).Contains name cond ↔
      merged.Contains name cond ∨ Asks repo name cond := by
  cases cond with
  | none =>
    have h : name ∈ (mergeRepository merged repo).wildcardRepos ↔ _ :=
      mem_wildcardRepos_mergeRepository
    simpa [Merged.Contains, Asks] using h
  | some c =>
    have h : (mergeRepository merged repo).Includes name c ↔ _ := includes_mergeRepository
    simpa [Merged.Contains, Asks] using h

theorem nodup_foldl_insert {xs ys : List String} (h : ys.Nodup) :
    (xs.foldl (fun set y => set.insert y) ys).Nodup :=
  List.foldlRecOn xs _ h fun _ hset _ _ => hset.insert

theorem proper_mergeRepository (h : merged.Proper) : (mergeRepository merged repo).Proper := by
  refine ⟨separated_mergeRepository h.separated, ?_, ?_⟩
  · unfold mergeRepository
    split
    · exact h.wildcardRepos
    · split
      · exact h.wildcardRepos.insert
      · exact h.wildcardRepos
  · intro name conds hlookup
    unfold mergeRepository at hlookup
    split at hlookup
    · exact h.condsByRepo hlookup
    · split at hlookup
      · by_cases hname : name = repo.name
        · rw [hname, AList.lookup_erase] at hlookup
          cases hlookup
        · rw [AList.lookup_erase_ne hname] at hlookup
          exact h.condsByRepo hlookup
      next hsome =>
        by_cases hname : name = repo.name
        · rw [hname, AList.lookup_insert] at hlookup
          cases hlookup
          obtain ⟨c, hc⟩ := exists_mem_of_ne_nil _ hsome
          constructor
          · exact ne_nil_of_mem (mem_foldl_insert.mpr (.inr hc))
          · apply nodup_foldl_insert
            cases hold : merged.condsByRepo.lookup repo.name with
            | none => exact nodup_nil
            | some old => exact (h.condsByRepo hold).2
        · rw [AList.lookup_insert_ne hname] at hlookup
          exact h.condsByRepo hlookup

variable {unmarshal : Unmarshal} {annotations : Labels} {keys : List String}

theorem proper_mergeAll : (mergeAll unmarshal annotations keys).1.Proper := by
  refine mergeAll_induction ?_ fun _ _ => proper_mergeRepository
  refine ⟨by simp [Merged.Separated], nodup_nil, ?_⟩
  intro name conds hlookup
  cases hlookup

theorem contains_mergeAll : (mergeAll unmarshal annotations keys).1.Contains name cond ↔
    ∃ repo, Requested unmarshal annotations keys repo ∧ Asks repo name cond := by
  refine mergeAll_iff (P := fun merged => merged.Contains name cond)
    (fun _ _ => contains_mergeRepository) ?_
  cases cond <;> simp [Merged.Contains, Merged.Includes]

/-! ## The list that is built from them -/

variable {target : ScanJobRepository}

theorem matchConditions_eq_nil (h : merged.Proper) (htarget : target ∈ buildMergedTargets merged) :
    target.matchConditions = [] ↔ target.name ∈ merged.wildcardRepos := by
  obtain ⟨hmentions, hconds⟩ := mem_buildMergedTargets.mp htarget
  rw [hconds]
  cases hlookup : merged.condsByRepo.lookup target.name with
  | none =>
    have hnot : target.name ∉ merged.condsByRepo := AList.lookup_eq_none.mp hlookup
    simp [hmentions.resolve_right hnot]
  | some conds =>
    have hin : target.name ∈ merged.condsByRepo :=
      AList.lookup_isSome.mp (by rw [hlookup]; rfl)
    constructor
    · intro hempty
      rw [← length_eq_zero_iff, length_insertionSort, length_eq_zero_iff] at hempty
      exact absurd hempty (h.condsByRepo hlookup).1
    · intro hwild
      exact absurd hin (h.separated _ hwild)

theorem exists_asks_buildMergedTargets (h : merged.Proper) :
    (∃ target ∈ buildMergedTargets merged, Asks target name cond) ↔ merged.Contains name cond := by
  constructor
  · rintro ⟨target, htarget, rfl, hempty | ⟨c, hc, hmem⟩⟩
    · have hwild := (matchConditions_eq_nil h htarget).mp hempty
      cases cond with
      | none => exact hwild
      | some c => exact .inl hwild
    · cases hc
      have hconds := (mem_buildMergedTargets.mp htarget).2
      rw [hconds, mem_insertionSort] at hmem
      cases hlookup : merged.condsByRepo.lookup target.name with
      | none =>
        rw [hlookup] at hmem
        cases hmem
      | some conds =>
        rw [hlookup] at hmem
        exact .inr ⟨conds, hlookup, hmem⟩
  · intro hcontains
    have hmentions : merged.Mentions name := by
      cases cond with
      | none => exact .inl hcontains
      | some c =>
        refine hcontains.imp_right ?_
        rintro ⟨conds, hlookup, -⟩
        exact AList.lookup_isSome.mp (by rw [hlookup]; rfl)
    obtain ⟨target, htarget, rfl, hconds⟩ := exists_target hmentions
    refine ⟨target, htarget, rfl, ?_⟩
    cases cond with
    | none => exact .inl ((matchConditions_eq_nil h htarget).mpr hcontains)
    | some c =>
      rcases hcontains with hwild | ⟨conds, hlookup, hmem⟩
      · exact .inl ((matchConditions_eq_nil h htarget).mpr hwild)
      · refine .inr ⟨c, rfl, ?_⟩
        rw [hconds, hlookup]
        exact (mem_insertionSort _).mpr hmem

theorem pairwise_insertionSort_names {names : List String} (h : names.Nodup) :
    (names.insertionSort (· ≤ ·)).Pairwise (· < ·) := by
  apply Accumulate.pairwise_insertionSort_lt (f := fun name : String => name)
  rw [map_id']
  exact h

theorem pairwise_buildMergedTargets (h : merged.Proper) :
    (buildMergedTargets merged).Pairwise fun a b => a.name < b.name := by
  unfold buildMergedTargets
  rw [pairwise_map]
  exact pairwise_insertionSort_names (nodup_foldl_insert h.wildcardRepos)

theorem pairwise_matchConditions (h : merged.Proper)
    (htarget : target ∈ buildMergedTargets merged) :
    target.matchConditions.Pairwise (· < ·) := by
  rw [(mem_buildMergedTargets.mp htarget).2]
  apply pairwise_insertionSort_names
  cases hlookup : merged.condsByRepo.lookup target.name with
  | none => exact nodup_nil
  | some conds => exact (h.condsByRepo hlookup).2

/-! ## What is collected -/

variable {order : IterationOrder Loop} {registry : Registry} {req : RescanRequest}

theorem exists_wellFormed_iff {P : RescanRequest → Prop} :
    (∃ key ∈ rescanKeys order registry,
      ∃ req, requestUnder unmarshal registry.annotations key = some req ∧ P req) ↔
      ∃ req, WellFormed unmarshal registry req ∧ P req := by
  constructor
  · rintro ⟨key, hkey, req, hreq, hP⟩
    obtain ⟨hmem, hrequested⟩ := mem_rescanKeys.mp hkey
    exact ⟨req, ⟨key, hmem, hrequested, hreq⟩, hP⟩
  · rintro ⟨req, ⟨key, hmem, hrequested, hreq⟩, hP⟩
    exact ⟨key, mem_rescanKeys.mpr ⟨hmem, hrequested⟩, req, hreq, hP⟩

theorem requested_iff_wellFormed :
    Requested unmarshal registry.annotations (rescanKeys order registry) repo ↔
      ∃ req, WellFormed unmarshal registry req ∧ repo ∈ req.repositories :=
  exists_wellFormed_iff

theorem everything_iff_wellFormed :
    (mergeAll unmarshal registry.annotations (rescanKeys order registry)).2 = true ↔
      ∃ req, WellFormed unmarshal registry req ∧ req.repositories = [] :=
  scanEverything_iff.trans exists_wellFormed_iff

theorem WellFormed.of_withoutAnnotations
    (h : WellFormed unmarshal (withoutAnnotations keys registry) req) :
    WellFormed unmarshal registry req := by
  obtain ⟨key, hkey, hrequested, hreq⟩ := h
  obtain ⟨value, hvalue⟩ := Finmap.mem_iff.mp hkey
  rw [requestUnder, hvalue] at hreq
  rw [lookup_withoutAnnotations] at hvalue
  split at hvalue
  · cases hvalue
  · refine ⟨key, Finmap.mem_of_lookup_eq_some hvalue, hrequested, ?_⟩
    rw [requestUnder, hvalue]
    exact hreq

section

variable (hreq : WellFormed unmarshal registry req)
include hreq

/-- One request for the whole registry is enough. -/
theorem exactTargets_nil (hempty : req.repositories = []) : ExactTargets unmarshal registry [] where
  scans_iff := ⟨fun _ => ⟨req, hreq, .inl hempty⟩, fun _ => .inl rfl⟩
  everything_iff := ⟨fun _ => ⟨req, hreq, hempty⟩, fun _ => rfl⟩
  whole_iff _ h := by cases h
  repositories := .nil
  conditions _ h := by cases h

theorem exactTargets_buildMergedTargets
    (hnone : ∀ req, WellFormed unmarshal registry req → req.repositories ≠ []) :
    ExactTargets unmarshal registry (buildMergedTargets
      (mergeAll unmarshal registry.annotations (rescanKeys order registry)).1) := by
  have hproper : (mergeAll unmarshal registry.annotations (rescanKeys order registry)).1.Proper :=
    proper_mergeAll
  have hne : buildMergedTargets
      (mergeAll unmarshal registry.annotations (rescanKeys order registry)).1 ≠ [] := by
    obtain ⟨repo, hrepo⟩ := exists_mem_of_ne_nil _ (hnone req hreq)
    obtain ⟨target, htarget, -⟩ := exists_target (mentions_mergeAll.mpr
      ⟨repo, requested_iff_wellFormed.mpr ⟨req, hreq, hrepo⟩, rfl⟩)
    exact ne_nil_of_mem htarget
  refine ⟨?_, ?_, ?_, pairwise_buildMergedTargets hproper,
    fun target => pairwise_matchConditions hproper⟩
  · intro name cond
    rw [Scans, or_iff_right hne, exists_asks_buildMergedTargets hproper, contains_mergeAll]
    constructor
    · rintro ⟨repo, hrequested, hasks⟩
      obtain ⟨req, hreq, hrepo⟩ := requested_iff_wellFormed.mp hrequested
      exact ⟨req, hreq, .inr ⟨repo, hrepo, hasks⟩⟩
    · rintro ⟨req, hreq, hempty | ⟨repo, hrepo, hasks⟩⟩
      · exact absurd hempty (hnone req hreq)
      · exact ⟨repo, requested_iff_wellFormed.mpr ⟨req, hreq, hrepo⟩, hasks⟩
  · constructor
    · exact fun h => absurd h hne
    · rintro ⟨req, hreq, hempty⟩
      exact absurd hempty (hnone req hreq)
  · intro target htarget
    rw [matchConditions_eq_nil hproper htarget, mem_wildcardRepos_mergeAll]
    constructor
    · rintro ⟨repo, hrequested, hwhole⟩
      obtain ⟨req, hreq, hrepo⟩ := requested_iff_wellFormed.mp hrequested
      exact ⟨req, hreq, repo, hrepo, hwhole⟩
    · rintro ⟨req, hreq, repo, hrepo, hwhole⟩
      exact ⟨repo, requested_iff_wellFormed.mpr ⟨req, hreq, hrepo⟩, hwhole⟩

/-- The requests that can be read are merged into exactly their union. -/
theorem exactTargets_collectRescanRequests :
    ExactTargets unmarshal registry (collectRescanRequests order unmarshal registry).targets := by
  rw [targets_collectRescanRequests]
  have hkeys : rescanKeys order registry ≠ [] := by
    obtain ⟨key, hmem, hrequested, -⟩ := hreq
    exact ne_nil_of_mem (mem_rescanKeys.mpr ⟨hmem, hrequested⟩)
  by_cases heverything : ∃ req, WellFormed unmarshal registry req ∧ req.repositories = []
  · rw [if_neg]
    · obtain ⟨req, hreq, hempty⟩ := heverything
      exact exactTargets_nil hreq hempty
    · rw [everything_iff_wellFormed.mpr heverything]
      simp
  · rw [if_pos]
    · exact exactTargets_buildMergedTargets hreq fun req hreq hempty =>
        heverything ⟨req, hreq, hempty⟩
    · refine ⟨hkeys, ?_⟩
      rw [← Bool.not_eq_true, everything_iff_wellFormed]
      exact heverything

end

/-! ## The job that is created -/

variable {choices : Choices} {now : Nat} {world : World}

/-- However the check comes out, these are the ScanJobs it leaves. -/
def scanJobsAfter (choices : Choices) (unmarshal : Unmarshal) (now : Nat) (registry : Registry)
    (world : World) : List ScanJob :=
  ((checkRegistryForScan choices unmarshal now registry).run.run world).2.scanJobs

theorem keeps_previousScanJob_world :
    (previousScanJob choices registry).Keeps (· = world) fun _ => True := by
  refine keeps_tryCatch (keeps_map (keeps_request ?_)) fun e => ?_
  · intro world' a world'' hworld hlist
    split at hlist <;> cases hlist
    exact ⟨hworld, trivial⟩
  · split
    · exact keeps_pure trivial
    · exact keeps_throw

theorem keeps_removeRescanAnnotations {keys : List String} {scanJobs : List ScanJob} :
    (removeRescanAnnotations choices registry keys).Keeps (fun world => world.scanJobs = scanJobs)
      fun _ => True := by
  unfold removeRescanAnnotations
  split
  · exact keeps_pure trivial
  · refine keeps_retryOnConflict (fun attempt => ?_) 4
    refine keeps_bind (Q := fun _ => True) (keeps_request ?_) fun current _ => ?_
    · intro world a world' hworld hget
      split at hget <;> cases hget
      exact ⟨hworld, trivial⟩
    · split
      · refine keeps_request fun world a world' hworld hupdate => ⟨?_, trivial⟩
        obtain ⟨registries, -, heq⟩ := Fallible.map_eq_ok.mp hupdate
        cases heq
        exact hworld
      · exact keeps_pure trivial

/-- A check creates no job, or the one for what it has collected. -/
theorem scanJobsAfter_cases :
    scanJobsAfter choices unmarshal now registry world = world.scanJobs ∨
      scanJobsAfter choices unmarshal now registry world = world.scanJobs ++
        [newScanJob (choices.assigned registry.name) registry
          (collectRescanRequests choices.order unmarshal registry).targets] := by
  show Procedure.Ends (checkRegistryForScan choices unmarshal now registry) world fun _ world' =>
    world'.scanJobs = world.scanJobs ∨ world'.scanJobs = _
  unfold checkRegistryForScan
  rw [ends_bind]
  have hprevious : Procedure.Ends (previousScanJob choices registry) world fun _ world' =>
    world' = world := (keeps_previousScanJob_world world rfl).1
  refine hprevious.mono ?_
  rintro (e | last) world' rfl
  · exact .inl rfl
  · dsimp only
    split
    · rw [ends_bind]
      cases hfault : choices.fault (.createScanJob registry.name) with
      | some cause =>
        unfold createScanJob request
        rw [hfault]
        exact .inl rfl
      | none =>
        unfold createScanJob Procedure.Ends
        rw [run_request hfault]
        dsimp only
        split
        · exact .inr (keeps_removeRescanAnnotations _ rfl).1
        · exact .inr rfl
    · exact .inl rfl

theorem repositories_of_created {scanJob : ScanJob}
    (h : scanJobsAfter choices unmarshal now registry world = world.scanJobs ++ [scanJob]) :
    scanJob.spec.repositories =
      (collectRescanRequests choices.order unmarshal registry).targets := by
  rcases @scanJobsAfter_cases unmarshal registry choices now world with hnone | hone
  · rw [hnone] at h
    simp at h
  · rw [hone] at h
    obtain rfl := singleton_inj.mp (append_cancel_left h)
    rfl

def onDemand (requests : Labels) : Registry :=
  { harbor with annotations := requests, spec.scanInterval := none }

def idleWorld : World := ⟨Cluster.empty, []⟩

def answering : Choices := ⟨.asStored, fun _ => none, fun name => ⟨name, 1, 1, 1⟩⟩

/-- The only request is cut off in the middle. -/
def cutOff : Registry :=
  onDemand (.singleton (annotationRescanRequestedKeyPrefix ++ "a") "\x7b\"repositories\":[")

/-- Next to it, a request that can be read: the two are one targeted scan. -/
def cutOffAndWhole : Registry :=
  onDemand (cutOff.annotations.insert (annotationRescanRequestedKeyPrefix ++ "b") "app")

def readApp (raw : String) : Option RescanRequest :=
  if raw = "app" then some ⟨[⟨"app", []⟩]⟩ else none

end SbomScanner.Runner

import SbomScanner.Catalog.Join

/-!
# References that are read off match conditions

The workload controller writes an identifier into a match condition, as its name and as a quoted
text of its expression, and the worker reads it back. If all conditions of a repository are of that
form and one of them is for a digest, the references of the repository are read off them, and
otherwise its tags are listed.

What is read is right, but it is read off the repository that `GetRepository` finds. `readsOff_iff`
says that this must have the same identifiers: a repository can be declared twice by the targets of
a ScanJob, and on Docker Hub another one may come first under the short form of the name.
-/

namespace SbomScanner.Catalog.ExactReferences

open Api WorkloadScan Fallible List Strings
open Join (ComparesTags Parsed controller)
open ImageName (Identifies)

/-- The identifier of a condition of the form that the controller emits. -/
def identifierOf (lib : Library) (condition : MatchCondition) : Option String :=
  (cutPrefix condition.name "tag-").filter fun identifier =>
    condition.expression = "tag == " ++ lib.quote identifier

def emitted (lib : Library) (repository : Repository) : List String :=
  repository.matchConditions.filterMap (identifierOf lib)

/-- The identifiers of the repository, if all its conditions are of the form and one of them is for
a digest. -/
def identifiers (lib : Library) (repository : Repository) : Option (List String) :=
  if (∀ condition ∈ repository.matchConditions, (identifierOf lib condition).isSome) ∧
      ∃ identifier ∈ emitted lib repository, ImageName.isDigest identifier then
    some (emitted lib repository)
  else
    none

/-- A repository as the controller writes it. Conditions of another form may have been added. -/
structure Written (lib : Library) (repository : Repository) : Prop where
  operator : repository.matchOperator = .or
  nonempty : repository.matchConditions ≠ []
  identifies : ∀ condition ∈ repository.matchConditions,
    ∀ identifier ∈ identifierOf lib condition, Identifies identifier

/-- Its name is `repo:t` for a tag and `repo@d` for a digest. -/
def reference (repo : ImageName.Repository) (identifier : String) : ImageName.Reference :=
  ⟨repo.registry, repo.repository, identifier⟩

/-- The references are exactly those of the identifiers and pass the filter, or the worker declines
to read them off. -/
structure ReadsOff (lib : Library) (registry : Registry) (repo : ImageName.Repository)
    (repository : Repository) : Prop where
  exact : ∀ {ids}, identifiers lib repository = some ids → ∃ refs,
    workloadRepositoryReferences lib registry repo = .ok (some refs) ∧ refs.Pairwise (· < ·) ∧
    (∀ text, text ∈ refs ↔ ∃ identifier ∈ ids, text = (reference repo identifier).name) ∧
    ∀ text ∈ refs, ∃ ref, lib.parseReference text = .ok ref ∧
      filterByTag lib.evaluate (some repository) ref.identifier = .ok true
  declines : identifiers lib repository = none →
    workloadRepositoryReferences lib registry repo = .ok none

variable {lib : Library} {registry narrowed : Registry} {repository found : Repository}
  {repo : ImageName.Repository} {condition : MatchCondition} {identifier : String}

theorem identifierOf_eq_some : identifierOf lib condition = some identifier ↔
    condition.name = tagName identifier ∧
      condition.expression = "tag == " ++ lib.quote identifier := by
  rw [identifierOf, Option.filter_eq_some_iff, cutPrefix_eq_some, decide_eq_true_eq]
  rfl

variable {ids : List String}

theorem identifiers_eq_some (h : identifiers lib repository = some ids) :
    (∀ condition ∈ repository.matchConditions, (identifierOf lib condition).isSome) ∧
      ids = emitted lib repository := by
  unfold identifiers at h
  split at h
  case isTrue hall =>
    cases h
    exact ⟨hall.1, rfl⟩
  case isFalse => cases h

theorem name_inj {other : String}
    (h : (reference repo identifier).name = (reference repo other).name) : identifier = other := by
  unfold ImageName.Reference.name reference at h
  rw [String.append_assoc, String.append_assoc] at h
  have h := (String.append_right_inj _).mp h
  dsimp only at h
  split at h <;> split at h
  · exact (String.append_right_inj _).mp h
  · simp [← String.toList_inj] at h
  · simp [← String.toList_inj] at h
  · exact (String.append_right_inj _).mp h

def rendered (repo : ImageName.Repository) (ids : List String) : List String :=
  (ids.map fun identifier => (reference repo identifier).name).dedup.insertionSort (· ≤ ·)

theorem mem_rendered {text : String} :
    text ∈ rendered repo ids ↔ ∃ identifier ∈ ids, text = (reference repo identifier).name := by
  rw [rendered, mem_insertionSort, mem_dedup, mem_map]
  simp only [eq_comm]

theorem sorted_rendered (ids : List String) : (rendered repo ids).Pairwise (· < ·) := by
  apply Accumulate.pairwise_insertionSort_lt (f := fun text : String => text)
  rw [map_id_fun']
  exact nodup_dedup _

/-! ## What is read -/

section Read

variable (hrepo : lib.newRepository repo.name = .ok repo)
  (hauthority : ImageName.Authority lib.isAuthority)
include hrepo hauthority

theorem parsed_reference (h : Identifies identifier) : Parsed lib (reference repo identifier) :=
  have hnew := parsed_eq_ok.mp hrepo
  ⟨ImageName.newRepository_canonical hauthority hnew, h, hnew⟩

theorem workloadReference_eq
    (h : ∀ identifier ∈ identifierOf lib condition, Identifies identifier) :
    workloadReference lib repo condition =
      .ok ((identifierOf lib condition).map (reference repo)) := by
  cases hid : identifierOf lib condition with
  | none =>
    unfold workloadReference
    cases hcut : cutPrefix condition.name "tag-" with
    | none => rfl
    | some identifier =>
      rw [identifierOf, hcut, Option.filter_some] at hid
      exact if_pos (by simpa using hid)
  | some identifier =>
    obtain ⟨hname, hexpression⟩ := identifierOf_eq_some.mp hid
    exact Join.workloadReference_eq (parsed_reference hrepo hauthority (h identifier hid)) hname
      hexpression

/-- The loop reads all identifiers, or stops at a condition of another form. -/
theorem workloadReferences_eq {conditions : List MatchCondition}
    (h : ∀ condition ∈ conditions, ∀ identifier ∈ identifierOf lib condition,
      Identifies identifier) :
    workloadReferences lib repo conditions =
      .ok (if ∀ condition ∈ conditions, (identifierOf lib condition).isSome then
        some ((conditions.filterMap (identifierOf lib)).map (reference repo)) else none) := by
  induction conditions with
  | nil => rfl
  | cons condition rest ih =>
    have hrest := ih fun other hother => h other (mem_cons_of_mem _ hother)
    have hfirst := workloadReference_eq hrepo hauthority (h condition mem_cons_self)
    rw [workloadReferences, hfirst, hrest]
    cases hid : identifierOf lib condition with
    | none => simp [hid, bind, Except.bind]
    | some identifier =>
      by_cases hall : ∀ condition ∈ rest, (identifierOf lib condition).isSome
      · simp [hid, if_pos hall, bind, Except.bind]
      · simp [hid, if_neg hall, bind, Except.bind]

theorem workloadRepositoryReferences_eq (hmanaged : registry.isManagedByWorkloadScan = true)
    (hfound : registry.getRepository repo.repository = some found) (h : Written lib found) :
    workloadRepositoryReferences lib registry repo =
      .ok ((identifiers lib found).map (rendered repo)) := by
  simp only [workloadRepositoryReferences, hmanaged, Bool.not_true, Bool.false_eq_true, if_false,
    hfound, h.operator, h.nonempty, ne_eq, not_true_eq_false, or_self,
    workloadReferences_eq hrepo hauthority h.identifies]
  by_cases hall : ∀ condition ∈ found.matchConditions, (identifierOf lib condition).isSome
  · have hany : ((emitted lib found).map (reference repo)).any (ImageName.isDigest ·.identifier) =
        true ↔ ∃ identifier ∈ emitted lib found, ImageName.isDigest identifier := by
      rw [any_map, any_eq_true]
      rfl
    rw [if_pos hall]
    show (if ((emitted lib found).map (reference repo)).any (ImageName.isDigest ·.identifier) = true
      then _ else _) = _
    by_cases hdigest : ∃ identifier ∈ emitted lib found, ImageName.isDigest identifier
    · rw [if_pos (hany.mpr hdigest), identifiers, if_pos ⟨hall, hdigest⟩, map_map]
      rfl
    · rw [if_neg (mt hany.mp hdigest), identifiers, if_neg fun h => hdigest h.2]
      rfl
  · rw [if_neg hall, identifiers, if_neg fun h => hall h.1]
    rfl

end Read

theorem filterByTag_of_mem (hcel : ComparesTags lib) (h : Written lib repository)
    (hall : ∀ condition ∈ repository.matchConditions, (identifierOf lib condition).isSome)
    (hid : identifier ∈ emitted lib repository) :
    filterByTag lib.evaluate (some repository) identifier = .ok true := by
  have htags : Join.TagConditions lib repository.matchConditions := by
    intro condition hcondition
    obtain ⟨tag, htag⟩ := Option.isSome_iff_exists.mp (hall condition hcondition)
    exact ⟨tag, identifierOf_eq_some.mp htag⟩
  obtain ⟨condition, hcondition, heq⟩ := mem_filterMap.mp hid
  simp only [filterByTag, h.nonempty, if_false, h.operator]
  exact (Join.filterConditions_tags hcel htags).mpr
    ⟨condition, hcondition, (identifierOf_eq_some.mp heq).1⟩

section Controller

variable {marshal : RescanRequest → String} {choices : Choices} {config : Configuration}
  {c : Cluster} {ns tag : String} {pods : List Pod}

def AllWritten (lib : Library) (registry : Registry) : Prop :=
  ∀ repository ∈ registry.spec.repositories, Written lib repository

theorem allWritten_iff (hsound : Join.Sound (controller lib marshal) registry) :
    AllWritten lib registry ↔ ∀ repo tag labels, Has registry.spec.repositories
      (tagKey (controller lib marshal) repo tag) labels → Identifies tag := by
  constructor
  · rintro h repo tag labels ⟨repository, hmem, condition, hcondition, hkey, -⟩
    exact (h repository hmem).identifies condition hcondition tag (identifierOf_eq_some.mpr
      ⟨congrArg MatchConditionKey.name hkey, congrArg MatchConditionKey.expression hkey⟩)
  · intro h repository hmem
    refine ⟨hsound.tidy.operator repository hmem, hsound.tidy.nonempty repository hmem, ?_⟩
    intro condition hcondition tag htag
    obtain ⟨hname, hexpression⟩ := identifierOf_eq_some.mp htag
    refine h repository.name tag _ ⟨repository, hmem, condition, hcondition, ?_, rfl⟩
    rw [conditionKey, hname, hexpression]
    rfl

/-- What the pods use was parsed. -/
theorem identifies_of_needs {uri repo : String}
    (h : Needs (controller lib marshal) pods uri (tagKey (controller lib marshal) repo tag)) :
    Identifies tag := by
  obtain ⟨pod, -, image, -, hparse⟩ := needs_tagKey.mp h
  obtain ⟨ref, href, heq⟩ := Option.map_eq_some_iff.mp hparse
  cases heq
  exact (ImageName.parseReference_parts href).2

def Kept (lib : Library) (marshal : RescanRequest → String) (registry : Registry) : Prop :=
  Join.Sound (controller lib marshal) registry ∧ AllWritten lib registry

/-- Every call of the controller keeps the repositories of its registries written. -/
theorem allWritten_reconcileRegistries (hc : AllManaged (Kept lib marshal) c) :
    AllManaged (Kept lib marshal)
      ((reconcileRegistries (controller lib marshal) choices ns pods config).run.run c).2 := by
  apply allManaged_reconcileRegistries hc
  · intro registry hmem other hupdated
    obtain ⟨hin, -, hmanaged⟩ := Cluster.mem_managed.mp hmem
    obtain ⟨hsound, hwritten⟩ := hc registry hin hmanaged
    have hsound' := Join.sound_updated hsound hupdated
    refine ⟨hsound', (allWritten_iff hsound').mpr fun repo tag labels hhas => ?_⟩
    rw [(updatedRegistry_frame hupdated).2.2.2] at hhas
    rcases exists_has_updated.mp ⟨labels, has_sortRepositories.mp hhas⟩ with
      hneeds | ⟨old, hold, -⟩
    · exact identifies_of_needs hneeds
    · exact (allWritten_iff hsound).mp hwritten repo tag old hold
  · intro uri tags htags
    refine ⟨Join.sound_new htags, (allWritten_iff (Join.sound_new htags)).mpr ?_⟩
    intro repo tag labels hhas
    exact identifies_of_needs
      ((Join.needs_of_has_new htags).mp ⟨labels, has_sortRepositories.mp hhas⟩)

end Controller

theorem Written.select {target : ScanJobRepository} (h : Written lib repository)
    (hok : targetRepository registry target = .ok found)
    (hget : registry.getRepository target.name = some repository) : Written lib found := by
  simp only [targetRepository, hget] at hok
  split at hok
  case isTrue => cases hok
  case isFalse hlength =>
    cases hok
    unfold Catalog.select at hlength ⊢
    split
    case isTrue => exact h
    case isFalse hne =>
      refine ⟨h.operator, fun hnil => hlength ⟨hne, ?_⟩, fun condition hcondition =>
        h.identifies condition (mem_of_mem_filter hcondition)⟩
      rw [if_neg hne, hnil]
      simpa [eq_comm] using hne

theorem allWritten_narrowed {scanJob : ScanJob}
    (h : applyTargetsToRegistry registry scanJob = .ok narrowed)
    (hwritten : AllWritten lib registry) :
    narrowed.isManagedByWorkloadScan = registry.isManagedByWorkloadScan ∧
      AllWritten lib narrowed := by
  unfold applyTargetsToRegistry at h
  split at h
  case isTrue =>
    cases h
    exact ⟨rfl, hwritten⟩
  case isFalse =>
    obtain ⟨repositories, hmap, rfl⟩ := map_eq_ok.mp h
    refine ⟨rfl, fun found hfound => ?_⟩
    obtain ⟨target, -, hok⟩ := exists_of_forall₂ (mapM_eq_ok.mp hmap).flip hfound
    obtain ⟨declared, hget, -⟩ := targetRepository_eq_ok hok
    exact (hwritten declared (mem_of_find?_eq_some hget)).select hok hget

/-! ## Two repositories of Docker Hub -/

namespace Hub

def hex : String := "aaaaaaaaaaaaaaaaaaaaaaaaaaaaaaaaaaaaaaaaaaaaaaaaaaaaaaaaaaaaaaaa"

def digest : String := "sha256:" ++ hex

def declared (name : String) (ids : List String) : Repository :=
  ⟨name, ids.map fun id => ⟨tagName id, "tag == " ++ id, ∅⟩, .or⟩

def hub (repositories : List Repository) : Registry where
  name := "hub"
  ns := "default"
  labels := (Finmap.singleton labelWorkloadScanKey labelWorkloadScanValue).insert
    labelManagedByKey labelManagedByValue
  annotations := ∅
  spec := {
    uri := defaultRegistry, catalogType := .ociDistribution, repositories
    authSecret := "", scanInterval := none, caBundle := "", caBundleRef := none
    insecure := false, platforms := [] }

def ab : ImageName.Repository := ⟨defaultRegistry, "library/a/b"⟩

theorem written : Written Join.Images.lib (declared "library/a/b" ["v1", digest]) := by
  refine ⟨rfl, by decide, ?_⟩
  intro condition hcondition identifier hid
  obtain ⟨id, hmem, rfl⟩ := mem_map.mp hcondition
  obtain rfl : id = identifier := tagName_inj.mp (identifierOf_eq_some.mp hid).1
  rcases mem_cons.mp hmem with rfl | hdigest
  · exact .inl (by decide)
  · cases mem_singleton.mp hdigest
    exact .inr ⟨hex, rfl, by decide⟩

end Hub

end SbomScanner.Catalog.ExactReferences

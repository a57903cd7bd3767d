import SbomScanner.WorkloadScan.Repositories

/-!
# The managed registries reflect the pods

Each call of `reconcileRegistries` sees the pods of one namespace and works on objects it shares
with the calls of all the others. `Reconciled` is what every successful call keeps: there is one
managed registry for each host that the last pods of some namespace use, and its repositories are
the table of who needs which match condition. The contents of a registry then follow from the last
pods alone (`registries_reflect_pods`), whatever the order of the calls.
-/

namespace SbomScanner.WorkloadScan

open Api Procedure List Function

variable {lib : Libraries} {choices : Choices} {config : Configuration} {c c' : Cluster}
  {uri ns : String} {images : List String} {pods : List Pod} {latest : String → List Pod}

/-! ## Images -/

/-- Some container of the pods runs an image with this reference. -/
def Uses (lib : Libraries) (pods : List Pod) (reference : Reference) : Prop :=
  ∃ pod ∈ pods, ∃ image ∈ extractImagesFromPodSpec pod.spec,
    lib.parseReference image = some reference

def tagsOf (result : AList fun _ : String => RepositoryTags) (uri repository : String) :
    List String :=
  (((result.lookup uri).getD ∅).lookup repository).getD []

variable {tag repository : String} {result : AList fun _ : String => RepositoryTags}

theorem mem_tagsOf_groupImage {image : String} :
    tag ∈ tagsOf (groupImage lib result image) uri repository ↔
      tag ∈ tagsOf result uri repository ∨
        lib.parseReference image = some ⟨uri, repository, tag⟩ := by
  unfold groupImage
  split
  case isTrue hempty => simp [hempty, lib.parseReference_empty]
  case isFalse =>
    cases lib.parseReference image with
    | none => simp
    | some reference =>
      obtain ⟨registry, repository', identifier⟩ := reference
      by_cases huri : uri = registry
      · subst huri
        by_cases hrepository : repository = repository'
        · subst hrepository
          simp [tagsOf, or_comm, eq_comm]
        · simp [tagsOf, AList.lookup_insert_ne, hrepository, Ne.symm hrepository]
      · simp [tagsOf, AList.lookup_insert_ne, huri, Ne.symm huri]

/-- No map or set of the result is empty. -/
structure Filled (result : AList fun _ : String => RepositoryTags) : Prop where
  repositories : ∀ {uri repositories}, result.lookup uri = some repositories →
    ∃ repository tags, repositories.lookup repository = some tags
  tags : ∀ {uri repositories repository tags}, result.lookup uri = some repositories →
    repositories.lookup repository = some tags → tags ≠ [] ∧ tags.Nodup

theorem Filled.tagsOf_nodup (h : Filled result) (uri repository : String) :
    (tagsOf result uri repository).Nodup := by
  unfold tagsOf
  cases huri : result.lookup uri with
  | none => exact nodup_nil
  | some repositories =>
    cases hrepository : repositories.lookup repository with
    | none => simp [hrepository]
    | some tags => simpa [hrepository] using (h.tags huri hrepository).2

theorem filled_groupImage (h : Filled result) (image : String) :
    Filled (groupImage lib result image) := by
  unfold groupImage
  split
  · exact h
  cases lib.parseReference image with
  | none => exact h
  | some reference =>
    refine ⟨fun {uri repositories} huri => ?_, fun {uri repositories repository tags} huri ht => ?_⟩
    · by_cases hsame : uri = reference.registry
      · subst hsame
        simp only [AList.lookup_insert, Option.some.injEq] at huri
        subst huri
        exact ⟨_, _, AList.lookup_insert _⟩
      · rw [AList.lookup_insert_ne hsame] at huri
        exact h.repositories huri
    · by_cases hsame : uri = reference.registry
      · subst hsame
        simp only [AList.lookup_insert, Option.some.injEq] at huri
        subst huri
        by_cases hrepository : repository = reference.repository
        · subst hrepository
          simp only [AList.lookup_insert, Option.some.injEq] at ht
          subst ht
          exact ⟨ne_nil_of_mem (mem_insert_self ..),
            (h.tagsOf_nodup reference.registry reference.repository).insert⟩
        · rw [AList.lookup_insert_ne hrepository] at ht
          cases hold : result.lookup reference.registry with
          | none => simp [hold] at ht
          | some old =>
            rw [hold] at ht
            exact h.tags hold ht
      · rw [AList.lookup_insert_ne hsame] at huri
        exact h.tags huri ht

theorem filled_groupImagesByRegistry (images : List String) :
    Filled (groupImagesByRegistry lib images) := by
  have hempty : Filled ∅ := ⟨(by intro _ _ h; cases h), (by intro _ _ _ _ h; cases h)⟩
  refine List.foldlRecOn images (groupImage lib) hempty ?_
  intro result hfilled image _
  exact filled_groupImage hfilled image

def grouped (lib : Libraries) (pods : List Pod) : AList fun _ : String => RepositoryTags :=
  groupImagesByRegistry lib (pods.flatMap fun pod => extractImagesFromPodSpec pod.spec).dedup

theorem mem_tagsOf_grouped :
    tag ∈ tagsOf (grouped lib pods) uri repository ↔ Uses lib pods ⟨uri, repository, tag⟩ := by
  refine (Accumulate.foldl_iff (P := fun result => tag ∈ tagsOf result uri repository)
    (Q := fun image => lib.parseReference image = some ⟨uri, repository, tag⟩)
    (fun _ _ => mem_tagsOf_groupImage) _ _).trans ?_
  simp only [tagsOf, AList.lookup_empty, Option.getD_none, not_mem_nil, false_or,
    mem_dedup, mem_flatMap, Uses]
  grind

/-! ## Needs -/

/-- The pods need this match condition of the registry. -/
def Needs (lib : Libraries) (pods : List Pod) (uri : String) (key : MatchConditionKey) : Prop :=
  ∃ tag, Uses lib pods ⟨uri, key.repository, tag⟩ ∧ key = tagKey lib key.repository tag

theorem needs_tagKey :
    Needs lib pods uri (tagKey lib repository tag) ↔ Uses lib pods ⟨uri, repository, tag⟩ := by
  constructor
  · rintro ⟨tag', huses, hkey⟩
    rwa [tagName_inj.mp (congrArg MatchConditionKey.name hkey)]
  · intro huses
    exact ⟨tag, huses, rfl⟩

def contribution (lib : Libraries) (pods : List Pod) (uri : String) : RepositoryTags :=
  ((grouped lib pods).lookup uri).getD ∅

variable {key : MatchConditionKey}

theorem mem_needed :
    key ∈ buildNeededMatchConditions lib (contribution lib pods uri) ↔ Needs lib pods uri key := by
  rw [mem_buildNeededMatchConditions]
  apply exists_congr
  intro tag
  rw [← mem_tagsOf_grouped]
  rfl

variable {registry : Registry}

/-- Something is left of a registry only if something is left in it. -/
theorem exists_has_of_ne_nil {tags : RepositoryTags}
    (h : updatedRepositories lib choices registry ns tags ≠ []) :
    ∃ key labels, Has (updatedRepositories lib choices registry ns tags) key labels := by
  obtain ⟨repository, hmem⟩ := exists_mem_of_ne_nil _ h
  simp only [updatedRepositories, has_addNewMatchConditions] at hmem ⊢
  generalize choices.order.range (Loop.newMatchConditions registry.spec.uri) _ = added at hmem ⊢
  cases added with
  | cons key rest => exact ⟨key, _, .inr ⟨mem_cons_self, rfl⟩⟩
  | nil =>
    rw [show addNewMatchConditions _ [] ns = _ from rfl, processExistingRepositories_fst] at hmem
    obtain ⟨old, -, hretain⟩ := mem_filterMap.mp hmem
    obtain ⟨condition, hcondition⟩ :=
      exists_mem_of_ne_nil _ (retain_eq_some.mp hretain).1
    refine ⟨_, _, .inl ⟨repository, ?_, condition, hcondition, rfl, rfl⟩⟩
    rw [processExistingRepositories_fst]
    exact hmem

/-- What is there after the update: what the pods need, and what another namespace needs. -/
theorem exists_has_updated :
    (∃ labels, Has (updatedRepositories lib choices registry ns
        (contribution lib pods registry.spec.uri)) key labels) ↔
      Needs lib pods registry.spec.uri key ∨
        ∃ labels, Has registry.spec.repositories key labels ∧ ∃ label ∈ labels,
          label ≠ nsLabel ns := by
  constructor
  · rintro ⟨labels, hhas⟩
    obtain ⟨hne, old, hbefore, rfl⟩ := claims_updatedRepositories.mp hhas
    obtain ⟨label, value, hlookup⟩ := ne_empty_iff.mp hne
    rcases lookup_claimLabels.mp hlookup with ⟨-, hneeded, -⟩ | ⟨hlabel, hold⟩
    · exact .inl (mem_needed.mp (of_decide_eq_true hneeded))
    · rcases hbefore with hhas | ⟨rfl, -⟩
      · exact .inr ⟨old, hhas, label, Finmap.mem_of_lookup_eq_some hold, hlabel⟩
      · cases hold
  · intro hkept
    obtain ⟨old, hbefore, hlabels⟩ : ∃ old, Before registry.spec.repositories key old ∧
        (Needs lib pods registry.spec.uri key ∨ ∃ label ∈ old, label ≠ nsLabel ns) := by
      rcases hkept with hneeds | ⟨labels, hhas, hlabel⟩
      · obtain ⟨old, hbefore⟩ := exists_before registry.spec.repositories key
        exact ⟨old, hbefore, .inl hneeds⟩
      · exact ⟨labels, .inl hhas, .inr hlabel⟩
    refine ⟨_, claims_updatedRepositories.mpr ⟨?_, old, hbefore, rfl⟩⟩
    rw [ne_empty_iff]
    simp only [lookup_claimLabels]
    rcases hlabels with hneeds | ⟨label, hmem, hne⟩
    · exact ⟨nsLabel ns, "true", .inl ⟨rfl, decide_eq_true (mem_needed.mpr hneeds), rfl⟩⟩
    · obtain ⟨value, hvalue⟩ := Finmap.mem_iff.mp hmem
      exact ⟨label, value, .inr ⟨hne, hvalue⟩⟩

variable {ns' : String}

/-- The needs after the pods of one namespace have been seen anew. -/
theorem replaceNeeds_iff :
    replaceNeeds (fun ns' => Needs lib (latest ns') uri) ns
        (buildNeededMatchConditions lib (contribution lib pods uri)) ns' key ↔
      Needs lib (update latest ns pods ns') uri key := by
  unfold replaceNeeds
  split
  case isTrue h => rw [h, update_self, mem_needed]
  case isFalse h => rw [update_of_ne h]

/-! ## The contents of a registry -/

structure Faithful (lib : Libraries) (latest : String → List Pod) (uri : String)
    (repositories : List Repository) : Prop where
  nonempty : repositories ≠ []
  tidy : Tidy repositories
  sorted : Sorted repositories
  owned : Owned (fun ns => Needs lib (latest ns) uri) repositories

variable {repositories : List Repository}

theorem sortRepositories_eq_nil :
    sortRepositories repositories = [] ↔ repositories = [] := by
  rw [← length_eq_zero_iff, sortRepositories, length_map, length_insertionSort, length_eq_zero_iff]

/-- Sorting the right table gives the contents. -/
theorem faithful_sortRepositories (hne : repositories ≠ []) (ht : Tidy repositories)
    (ho : Owned (fun ns => Needs lib (latest ns) uri) repositories) :
    Faithful lib latest uri (sortRepositories repositories) := by
  have htags : ∀ {key labels}, Has repositories key labels →
      ∃ tag, key = tagKey lib key.repository tag := by
    intro key labels hhas
    obtain ⟨ns, tag, -, hkey⟩ := ho.has_iff.mp ⟨labels, hhas⟩
    exact ⟨tag, hkey⟩
  refine ⟨mt sortRepositories_eq_nil.mp hne, tidy_sortRepositories ht,
    sorted_sortRepositories ht htags, ?_, ?_⟩
  · simp only [has_sortRepositories]
    exact ho.has_iff
  · intro key labels hhas
    exact ho.labels_iff (has_sortRepositories.mp hhas)

theorem Owned.congr {needs needs' : String → MatchConditionKey → Prop}
    (h : Owned needs repositories) (hiff : ∀ ns key, needs ns key ↔ needs' ns key) :
    Owned needs' repositories := by
  have heq : needs = needs' := by
    funext ns key
    exact propext (hiff ns key)
  exact heq ▸ h

/-! ## Requests -/

variable {req : Request} {message : String} {perform : Cluster → Except ApiError Cluster}
  {u : PUnit}

theorem request_returns (h : (request choices req message perform).Returns c u c') :
    perform c = .ok c' := by
  unfold request at h
  cases hfault : choices.fault req with
  | some reason => simp [hfault] at h
  | none =>
    simp only [hfault, returns_bind, returns_get] at h
    obtain ⟨current, state, ⟨hcurrent, hstate⟩, h⟩ := h
    rw [hcurrent, hstate] at h
    cases hperform : perform c with
    | error e => simp [hperform] at h
    | ok t =>
      simp only [hperform, returns_set] at h
      rw [h]

variable {registry other : Registry} {tags : RepositoryTags}

theorem request_throws {e : Error} (h : (request choices req message perform).Throws c e c') :
    c' = c := by
  unfold request at h
  cases hfault : choices.fault req with
  | some reason =>
    rw [hfault] at h
    cases h
    rfl
  | none =>
    rw [hfault] at h
    rcases throws_bind.mp h with hget | ⟨a, t, hget, hrest⟩
    · cases hget
    · obtain ⟨rfl, rfl⟩ := returns_get.mp hget
      split at hrest
      · cases hrest
      · cases hrest
        rfl

/-- A registry that is gone already is deleted as well. -/
theorem mem_of_deleted
    (h : (match c.delete registry with | .error .notFound => .ok c | result => result) =
      Except.ok c') :
    other ∈ c'.registries ↔ other ∈ c.registries ∧ other.key ≠ registry.key := by
  cases hresult : c.delete registry with
  | ok t =>
    simp only [hresult] at h
    cases h
    exact Cluster.mem_delete hresult
  | error e =>
    simp only [hresult] at h
    have hmissing : registry.key ∉ c.registries.map Registry.key := by
      intro hkey
      rw [Cluster.delete, if_pos hkey] at hresult
      cases hresult
    cases e <;> cases h
    refine ⟨fun hmem => ⟨hmem, fun hkey => hmissing ?_⟩, And.left⟩
    exact hkey ▸ mem_map_of_mem hmem

theorem mem_deleteRegistry (h : (deleteRegistry choices registry).Returns c u c') :
    other ∈ c'.registries ↔ other ∈ c.registries ∧ other.key ≠ registry.key :=
  mem_of_deleted (request_returns h)

/-! ## Existing registries -/

/-- What `updateRegistry` makes of the registry, unless it is to be deleted. -/
def updatedRegistry (lib : Libraries) (choices : Choices) (ns : String) (tags : RepositoryTags)
    (config : Configuration) (registry : Registry) : Option Registry :=
  let updated := updatedRepositories lib choices registry ns tags
  if updated = [] then
    none
  else
    some (markForRescan lib choices config (extractMatchConditionsFromRegistry registry)
      (withRepositories config registry (sortRepositories updated)))

theorem updateRegistry_returns {b : Bool}
    (h : (updateRegistry lib choices registry ns tags config).Returns c b c') :
    (b = true ∧ c' = c ∧ updatedRegistry lib choices ns tags config registry = none) ∨
      b = false ∧ ∃ registry', c.update registry' = .ok c' ∧
        updatedRegistry lib choices ns tags config registry = some registry' := by
  unfold updateRegistry at h
  by_cases hempty : updatedRepositories lib choices registry ns tags = []
  · simp only [hempty, if_true, returns_pure] at h
    exact .inl ⟨h.1, h.2, if_pos hempty⟩
  · simp only [hempty, if_false, returns_bind, returns_pure] at h
    obtain ⟨_, t, hrequest, rfl, rfl⟩ := h
    exact .inr ⟨rfl, _, request_returns hrequest, if_neg hempty⟩

theorem markForRescan_eq (lib : Libraries) (choices : Choices) (config : Configuration)
    (old : List MatchConditionKey) (registry : Registry) :
    ∃ annotations,
      markForRescan lib choices config old registry = { registry with annotations } := by
  simp only [markForRescan]
  split
  · exact ⟨_, rfl⟩
  · exact ⟨registry.annotations, rfl⟩

/-- The specification of a managed registry with these repositories. -/
def specOf (config : Configuration) (uri : String) (catalogType : CatalogType)
    (repositories : List Repository) : RegistrySpec where
  uri := uri
  catalogType := catalogType
  repositories := repositories
  authSecret := config.authSecret
  scanInterval := config.scanInterval
  caBundle := config.caBundle
  caBundleRef := config.caBundleRef
  insecure := config.insecure
  platforms := config.platforms

variable {registry' : Registry}

section

variable (h : updatedRegistry lib choices ns tags config registry = some registry')
include h

/-- The update keeps the name, the labels, the host and the catalog type. -/
theorem updatedRegistry_frame :
    registry'.key = registry.key ∧
      registry'.isManagedByWorkloadScan = registry.isManagedByWorkloadScan ∧
      updatedRepositories lib choices registry ns tags ≠ [] ∧
      registry'.spec = specOf config registry.spec.uri registry.spec.catalogType
        (sortRepositories (updatedRepositories lib choices registry ns tags)) := by
  simp only [updatedRegistry] at h
  split at h
  case isTrue => cases h
  case isFalse hne =>
    cases h
    obtain ⟨annotations, heq⟩ := markForRescan_eq lib choices config
      (extractMatchConditionsFromRegistry registry) (withRepositories config registry
        (sortRepositories (updatedRepositories lib choices registry ns tags)))
    rw [heq]
    exact ⟨rfl, rfl, hne, rfl⟩

theorem uri_updatedRegistry :
    registry'.spec.uri = registry.spec.uri := by
  rw [(updatedRegistry_frame h).2.2.2]
  rfl

end

/-- The contribution of the pods to an existing registry. -/
abbrev updatedBy (lib : Libraries) (choices : Choices) (ns : String) (pods : List Pod)
    (config : Configuration) (registry : Registry) : Option Registry :=
  updatedRegistry lib choices ns (contribution lib pods registry.spec.uri) config registry

theorem mem_reconcileExisting
    (h : (reconcileExisting lib choices ns (grouped lib pods) config registry).Returns c u c') :
    other ∈ c'.registries ↔ updatedBy lib choices ns pods config registry = some other ∨
      other ∈ c.registries ∧ other.key ≠ registry.key := by
  obtain ⟨b, t, hupdate, hdelete⟩ := returns_bind.mp h
  rcases updateRegistry_returns hupdate with ⟨rfl, rfl, hnone⟩ | ⟨rfl, registry', hok, hsome⟩
  · rw [if_pos rfl] at hdelete
    rw [mem_deleteRegistry hdelete]
    simp [updatedBy, contribution, hnone]
  · simp only [Bool.false_eq_true, if_false, returns_pure] at hdelete
    obtain ⟨-, rfl⟩ := hdelete
    have hframe := updatedRegistry_frame hsome
    rw [Cluster.mem_update hok, hframe.1]
    have hupdated : updatedBy lib choices ns pods config registry = some registry' := hsome
    rw [hupdated, Option.some.injEq, eq_comm (a := other)]

/-- The loop over the existing registries replaces each of them by what is left of it. -/
theorem mem_existing {existing : List Registry}
    (hmem : ∀ registry ∈ existing, registry ∈ c.registries) (hnodup : existing.Nodup)
    (h : (existing.forM (reconcileExisting lib choices ns (grouped lib pods) config)).Returns c u
      c') :
    other ∈ c'.registries ↔
      (∃ registry ∈ existing, updatedBy lib choices ns pods config registry = some other) ∨
        other ∈ c.registries ∧ other ∉ existing := by
  refine returns_forM (I := fun visited state => ∀ other, other ∈ state.registries ↔
    (∃ registry ∈ visited, updatedBy lib choices ns pods config registry = some other) ∨
      other ∈ c.registries ∧ other ∉ visited) ?_ h (by simp) other
  intro visited registry state state' hvisited hstate hstep other
  rw [mem_reconcileExisting hstep, hstate]
  have hregistry := hmem registry (hvisited.subset (by simp))
  have hnew : registry ∉ visited := by
    have hsub := hnodup.sublist hvisited.sublist
    rw [nodup_append] at hsub
    exact fun hold => hsub.2.2 registry hold registry (mem_singleton_self _) rfl
  -- keys tell the registries of the cluster apart
  have hkey : ∀ {x}, x ∈ c.registries → (x.key ≠ registry.key ↔ x ≠ registry) := by
    intro x hx
    exact not_congr ⟨fun heq => Cluster.eq_of_key hx hregistry heq, fun heq => by rw [heq]⟩
  constructor
  · rintro (hupdated | ⟨⟨old, hold, hupdated⟩ | ⟨hc, hnot⟩, hne⟩)
    · exact .inl ⟨registry, by simp, hupdated⟩
    · exact .inl ⟨old, by simp [hold], hupdated⟩
    · exact .inr ⟨hc, by simp [hnot, (hkey hc).mp hne]⟩
  · rintro (⟨old, hold, hupdated⟩ | ⟨hc, hnot⟩)
    · rcases mem_append.mp hold with hvisit | hlast
      · refine .inr ⟨.inl ⟨old, hvisit, hupdated⟩, ?_⟩
        rw [(updatedRegistry_frame hupdated).1]
        exact (hkey (hmem old (hvisited.subset hold))).mpr fun heq => hnew (heq ▸ hvisit)
      · rw [mem_singleton] at hlast
        exact .inl (hlast ▸ hupdated)
    · rw [mem_append, not_or, mem_singleton] at hnot
      exact .inr ⟨.inr ⟨hc, hnot.1⟩, (hkey hc).mpr hnot.2⟩

/-! ## New registries -/

/-- The loop over the hosts adds a registry for each that has none. -/
theorem mem_created {entries : List (Sigma fun _ : String => RepositoryTags)} {target : String}
    {processedURIs : List String}
    (h : (entries.forM fun entry => if entry.1 ∈ processedURIs then pure ⟨⟩ else createRegistry lib
      choices entry.1 ns target entry.2 config).Returns c u c') :
    other ∈ c'.registries ↔ other ∈ c.registries ∨ ∃ entry ∈ entries,
      entry.1 ∉ processedURIs ∧
        other = newRegistry lib choices entry.1 ns target entry.2 config := by
  refine returns_forM (I := fun visited state => ∀ other, other ∈ state.registries ↔
    other ∈ c.registries ∨ ∃ entry ∈ visited, entry.1 ∉ processedURIs ∧
      other = newRegistry lib choices entry.1 ns target entry.2 config) ?_ h (by simp) other
  intro visited entry state state' _ hstate hstep other
  by_cases hprocessed : entry.1 ∈ processedURIs
  · rw [if_pos hprocessed, returns_pure] at hstep
    rw [hstep.2, hstate]
    simp [or_and_right, exists_or, hprocessed]
  · rw [if_neg hprocessed] at hstep
    rw [Cluster.mem_create (request_returns hstep), hstate]
    simp only [mem_append, mem_singleton, or_and_right, exists_or, exists_eq_left,
      hprocessed, not_false_eq_true, true_and]
    rw [or_comm, or_assoc]

def registryNamespace (config : Configuration) (ns : String) : String :=
  if config.artifactsNamespace = "" then ns else config.artifactsNamespace

/-- The two loops of a call, once the registries are listed. -/
theorem run_reconcileRegistries (hfault : choices.fault .list = none) :
    (reconcileRegistries lib choices ns pods config).run.run c =
      ((c.managed (registryNamespace config ns)).forM
          (reconcileExisting lib choices ns (grouped lib pods) config) >>= fun _ =>
        (choices.order.range .registries (grouped lib pods).entries).forM fun entry =>
          if entry.1 ∈ (c.managed (registryNamespace config ns)).map (·.spec.uri) then
            pure ⟨⟩
          else
            createRegistry lib choices entry.1 ns (registryNamespace config ns) entry.2
              config : Reconcile PUnit).run.run c := by
  unfold reconcileRegistries
  rw [hfault]
  rfl

/-- **The managed registries after a call.** -/
theorem mem_managed_reconcileRegistries
    (h : (reconcileRegistries lib choices ns pods config).Returns c u c') :
    other ∈ c'.managed (registryNamespace config ns) ↔
      (∃ registry ∈ c.managed (registryNamespace config ns),
        updatedBy lib choices ns pods config registry = some other) ∨
      ∃ uri tags, (grouped lib pods).lookup uri = some tags ∧
        (∀ registry ∈ c.managed (registryNamespace config ns), registry.spec.uri ≠ uri) ∧
        other = newRegistry lib choices uri ns (registryNamespace config ns) tags config := by
  cases hfault : choices.fault .list with
  | some reason => simp [reconcileRegistries, hfault] at h
  | none =>
    rw [Procedure.Returns, run_reconcileRegistries hfault] at h
    generalize registryNamespace config ns = target at h ⊢
    obtain ⟨_, t, hexisting, hcreated⟩ := returns_bind.mp h
    have hloop : ∀ other, other ∈ t.registries ↔
        (∃ registry ∈ c.managed target,
          updatedBy lib choices ns pods config registry = some other) ∨
        other ∈ c.registries ∧ other ∉ c.managed target :=
      fun _ => mem_existing (fun _ hmem => (Cluster.mem_managed.mp hmem).1)
        ((List.Nodup.of_map _ c.unique).filter _) hexisting
    rw [Cluster.mem_managed, mem_created hcreated, hloop]
    constructor
    · rintro ⟨(hupdated | ⟨hc, hnot⟩) | ⟨entry, hentry, hnew, rfl⟩, hmanaged⟩
      · exact .inl hupdated
      · exact absurd (Cluster.mem_managed.mpr ⟨hc, hmanaged⟩) hnot
      · rw [IterationOrder.mem_range] at hentry
        refine .inr ⟨entry.1, entry.2, AList.mem_lookup_iff.mpr hentry, ?_, rfl⟩
        exact fun registry hmem huri => hnew (mem_map.mpr ⟨registry, hmem, huri⟩)
    · rintro (⟨registry, hmem, hupdated⟩ | ⟨uri, tags, hlookup, hnew, rfl⟩)
      · obtain ⟨hkey, hsame, -⟩ := updatedRegistry_frame hupdated
        obtain ⟨-, hregistry, hmanaged⟩ := Cluster.mem_managed.mp hmem
        exact ⟨.inl (.inl ⟨registry, hmem, hupdated⟩),
          (congrArg Prod.fst hkey).trans hregistry, hsame.trans hmanaged⟩
      · refine ⟨.inr ⟨⟨uri, tags⟩, ?_, ?_, rfl⟩, rfl, rfl⟩
        · exact (IterationOrder.mem_range _).mpr (AList.mem_lookup_iff.mp hlookup)
        · intro hmem
          obtain ⟨registry, hregistry, huri⟩ := mem_map.mp hmem
          exact hnew registry hregistry huri

/-! ## A call that may fail -/

section Keeps

variable {P : Registry → Prop}

def AllManaged (P : Registry → Prop) (c : Cluster) : Prop :=
  ∀ registry ∈ c.registries, registry.isManagedByWorkloadScan = true → P registry

theorem keeps_request {I : Cluster → Prop} (h : ∀ c c', I c → perform c = .ok c' → I c') :
    (request choices req message perform).Keeps I fun _ => True := by
  unfold request
  cases choices.fault req with
  | some reason => exact keeps_throw
  | none =>
    refine keeps_bind keeps_get fun c hc => ?_
    cases hperform : perform c with
    | ok c' => exact keeps_set (h c c' hc hperform)
    | error e => exact keeps_throw

theorem keeps_deleteRegistry :
    (deleteRegistry choices registry).Keeps (AllManaged P) fun _ => True := by
  refine keeps_request fun c c' hc hdelete other hother => ?_
  exact hc other ((mem_of_deleted hdelete).mp hother).1

theorem keeps_updateRegistry
    (h : ∀ other, updatedRegistry lib choices ns tags config registry = some other → P other) :
    (updateRegistry lib choices registry ns tags config).Keeps (AllManaged P) fun _ => True := by
  unfold updateRegistry
  by_cases hempty : updatedRepositories lib choices registry ns tags = []
  · simp only [hempty, if_true]
    exact keeps_pure trivial
  · simp only [hempty, if_false]
    refine keeps_bind (keeps_request fun c c' hc hupdate other hother => ?_)
      fun _ _ => keeps_pure trivial
    rcases (Cluster.mem_update hupdate).mp hother with rfl | ⟨hold, -⟩
    · exact fun _ => h _ (if_neg hempty)
    · exact hc other hold

theorem keeps_reconcileExisting
    (h : ∀ other, updatedBy lib choices ns pods config registry = some other → P other) :
    (reconcileExisting lib choices ns (grouped lib pods) config registry).Keeps (AllManaged P)
      fun _ => True := by
  refine keeps_bind (keeps_updateRegistry h) fun shouldDelete _ => ?_
  split
  · exact keeps_deleteRegistry
  · exact keeps_pure trivial

theorem keeps_createRegistry {target : String}
    (h : P (newRegistry lib choices uri ns target tags config)) :
    (createRegistry lib choices uri ns target tags config).Keeps (AllManaged P) fun _ => True := by
  refine keeps_request fun c c' hc hcreate other hother => ?_
  rcases (Cluster.mem_create hcreate).mp hother with rfl | hold
  · exact fun _ => h
  · exact hc other hold

/-- **Every outcome of a call.** What the updated and the new registries have, and every managed
registry had before, they all have afterwards, also when the call stops half way. -/
theorem allManaged_reconcileRegistries (hc : AllManaged P c)
    (hupdated : ∀ registry ∈ c.managed (registryNamespace config ns), ∀ other,
      updatedBy lib choices ns pods config registry = some other → P other)
    (hnew : ∀ uri tags, (grouped lib pods).lookup uri = some tags →
      P (newRegistry lib choices uri ns (registryNamespace config ns) tags config)) :
    AllManaged P ((reconcileRegistries lib choices ns pods config).run.run c).2 := by
  cases hfault : choices.fault .list with
  | some reason =>
    unfold reconcileRegistries
    rw [hfault]
    exact hc
  | none =>
    rw [run_reconcileRegistries hfault]
    refine (keeps_bind (keeps_forM fun registry hmem => ?_) (fun _ _ =>
      keeps_forM fun entry hentry => ?_) c hc).1
    · exact keeps_reconcileExisting (hupdated registry hmem)
    · split
      · exact keeps_pure trivial
      · rw [IterationOrder.mem_range] at hentry
        exact keeps_createRegistry (hnew _ _ (AList.mem_lookup_iff.mpr hentry))

end Keeps

/-! ## Every call -/

structure Reconciled (lib : Libraries) (config : Configuration) (latest : String → List Pod)
    (c : Cluster) : Prop where
  unique : ∀ {registry other}, registry ∈ c.managed config.artifactsNamespace →
    other ∈ c.managed config.artifactsNamespace → registry.spec.uri = other.spec.uri →
    registry = other
  faithful : ∀ {registry}, registry ∈ c.managed config.artifactsNamespace →
    Faithful lib latest registry.spec.uri registry.spec.repositories
  settings : ∀ {registry}, registry ∈ c.managed config.artifactsNamespace →
    registry.spec = specOf config registry.spec.uri .unset registry.spec.repositories
  covers : ∀ {ns reference}, Uses lib (latest ns) reference →
    ∃ registry ∈ c.managed config.artifactsNamespace, registry.spec.uri = reference.registry

section

variable (h : Faithful lib latest registry.spec.uri registry.spec.repositories)
include h

theorem owned_updated :
    Owned (fun ns' => Needs lib (update latest ns pods ns') registry.spec.uri)
      (updatedRepositories lib choices registry ns (contribution lib pods registry.spec.uri)) :=
  (claims_updatedRepositories.owned h.owned).congr fun _ _ => replaceNeeds_iff

theorem faithful_updated (hupdated : updatedBy lib choices ns pods config registry = some other) :
    Faithful lib (update latest ns pods) other.spec.uri other.spec.repositories := by
  obtain ⟨-, -, hne, hspec⟩ := updatedRegistry_frame hupdated
  rw [hspec]
  exact faithful_sortRepositories hne (tidy_updatedRepositories h.tidy) (owned_updated h)

end

theorem faithful_new (htags : (grouped lib pods).lookup uri = some tags)
    (hnone : ∀ ns' key, ¬Needs lib (latest ns') uri key) :
    Faithful lib (update latest ns pods) uri
      (sortRepositories (newRepositories lib choices uri ns tags)) := by
  have hfilled : Filled (grouped lib pods) := filled_groupImagesByRegistry _
  have hempty : Owned (fun ns' => Needs lib (latest ns') uri) [] := by
    refine ⟨fun {key} => ?_, ?_⟩
    · simp [Has, hnone]
    · rintro key labels ⟨repository, hmem, -⟩
      cases hmem
  have hcontribution : contribution lib pods uri = tags := by rw [contribution, htags]; rfl
  refine faithful_sortRepositories ?_ (tidy_newRepositories (hfilled.tags htags)) ?_
  · obtain ⟨repository, names, hlookup⟩ := hfilled.repositories htags
    have hentry : ⟨repository, names⟩ ∈ choices.order.range (.repositories uri) tags.entries :=
      (IterationOrder.mem_range _).mpr (AList.mem_lookup_iff.mp hlookup)
    exact ne_nil_of_mem (mem_map_of_mem hentry)
  · refine (claims_newRepositories.owned hempty).congr fun _ _ => ?_
    rw [← hcontribution]
    exact replaceNeeds_iff

variable {reference : Reference}

/-- A host the pods use is one of those their images are grouped by. -/
theorem exists_lookup_of_uses (h : Uses lib pods reference) :
    ∃ tags, (grouped lib pods).lookup reference.registry = some tags := by
  obtain ⟨registry, repository, tag⟩ := reference
  have hmem := mem_tagsOf_grouped.mpr h
  cases hlookup : (grouped lib pods).lookup registry with
  | none =>
    rw [tagsOf, hlookup] at hmem
    cases hmem
  | some tags => exact ⟨tags, rfl⟩

/-- A host that the images are grouped by is used by the pods. -/
theorem uses_of_lookup
    (h : (grouped lib pods).lookup uri = some tags) :
    ∃ repository tag, Uses lib pods ⟨uri, repository, tag⟩ := by
  have hfilled : Filled (grouped lib pods) := filled_groupImagesByRegistry _
  obtain ⟨repository, names, hnames⟩ := hfilled.repositories h
  obtain ⟨tag, htag⟩ := exists_mem_of_ne_nil _ (hfilled.tags h hnames).1
  refine ⟨repository, tag, mem_tagsOf_grouped.mp ?_⟩
  rw [tagsOf, h, Option.getD_some, hnames]
  exact htag

/-- A registry that some namespace uses is not deleted. -/
theorem exists_updated (h : Faithful lib latest registry.spec.uri registry.spec.repositories)
    (huses : Uses lib (update latest ns pods ns') reference)
    (huri : registry.spec.uri = reference.registry) :
    ∃ other, updatedBy lib choices ns pods config registry = some other ∧
      other.spec.uri = reference.registry := by
  cases hupdated : updatedBy lib choices ns pods config registry with
  | some other => exact ⟨other, rfl, (uri_updatedRegistry hupdated).trans huri⟩
  | none =>
    have hneeds : Needs lib (update latest ns pods ns') registry.spec.uri
        (tagKey lib reference.repository reference.identifier) :=
      ⟨reference.identifier, huri ▸ huses, rfl⟩
    obtain ⟨labels, repository, hmem, -⟩ := (owned_updated h).has_iff.mpr ⟨ns', hneeds⟩
    simp only [updatedBy, updatedRegistry] at hupdated
    split at hupdated
    case isTrue hempty =>
      rw [hempty] at hmem
      cases hmem
    case isFalse => cases hupdated

section Step

variable {u : PUnit} (hns : config.artifactsNamespace ≠ "") (hr : Reconciled lib config latest c)
  (h : (reconcileRegistries lib choices ns pods config).Returns c u c')

include hns hr h

omit hr in
/-- The managed registries of the namespace that is shared. -/
theorem mem_managed_step : other ∈ c'.managed config.artifactsNamespace ↔
    (∃ registry ∈ c.managed config.artifactsNamespace,
      updatedBy lib choices ns pods config registry = some other) ∨
    ∃ uri tags, (grouped lib pods).lookup uri = some tags ∧
      (∀ registry ∈ c.managed config.artifactsNamespace, registry.spec.uri ≠ uri) ∧
      other = newRegistry lib choices uri ns config.artifactsNamespace tags config := by
  have hmem : other ∈ c'.managed (registryNamespace config ns) ↔ _ :=
    mem_managed_reconcileRegistries h
  rwa [show registryNamespace config ns = config.artifactsNamespace from if_neg hns] at hmem

section

variable (hregistry : registry ∈ c'.managed config.artifactsNamespace)
include hregistry

theorem unique_step (hother : other ∈ c'.managed config.artifactsNamespace)
    (huri : registry.spec.uri = other.spec.uri) : registry = other := by
  rcases (mem_managed_step hns h).mp hregistry with
    ⟨old, hold, hupdated⟩ | ⟨uri, tags, htags, hnew, rfl⟩ <;>
  rcases (mem_managed_step hns h).mp hother with
    ⟨old', hold', hupdated'⟩ | ⟨uri', tags', htags', hnew', rfl⟩
  · have hsame : old.spec.uri = old'.spec.uri :=
      (uri_updatedRegistry hupdated).symm.trans (huri.trans (uri_updatedRegistry hupdated'))
    obtain rfl := hr.unique hold hold' hsame
    exact Option.some.inj (hupdated.symm.trans hupdated')
  · exact absurd ((uri_updatedRegistry hupdated).symm.trans huri) (hnew' old hold)
  · exact absurd ((uri_updatedRegistry hupdated').symm.trans huri.symm) (hnew old' hold')
  · obtain rfl : uri = uri' := huri
    rw [Option.some.inj (htags.symm.trans htags')]

theorem faithful_step :
    Faithful lib (update latest ns pods) registry.spec.uri registry.spec.repositories := by
  rcases (mem_managed_step hns h).mp hregistry with
    ⟨old, hold, hupdated⟩ | ⟨uri, tags, htags, hnew, rfl⟩
  · exact faithful_updated (hr.faithful hold) hupdated
  · -- no namespace has used the host of a new registry so far
    refine faithful_new htags ?_
    rintro ns' key ⟨tag, huses, -⟩
    obtain ⟨old, hold, huri⟩ := hr.covers huses
    exact hnew old hold huri

end

theorem covers_step (huses : Uses lib (update latest ns pods ns') reference) :
    ∃ registry ∈ c'.managed config.artifactsNamespace, registry.spec.uri = reference.registry := by
  by_cases hexists : ∃ registry ∈ c.managed config.artifactsNamespace,
      registry.spec.uri = reference.registry
  · obtain ⟨registry, hregistry, huri⟩ := hexists
    obtain ⟨other, hupdated, hother⟩ := exists_updated (hr.faithful hregistry) huses huri
    have hmem := (mem_managed_step hns h).mpr (.inl ⟨registry, hregistry, hupdated⟩)
    exact ⟨other, hmem, hother⟩
  · have hns' : ns' = ns := by
      by_contra hne
      rw [update_of_ne hne] at huses
      exact hexists (hr.covers huses)
    rw [hns', update_self] at huses
    obtain ⟨tags, htags⟩ := exists_lookup_of_uses huses
    refine ⟨_, (mem_managed_step hns h).mpr (.inr ⟨_, tags, htags, ?_, rfl⟩), rfl⟩
    exact fun registry hregistry huri => hexists ⟨registry, hregistry, huri⟩

/-- **Each call keeps the managed registries in step with the last pods.** -/
theorem reconciled_step : Reconciled lib config (update latest ns pods) c' := by
  refine ⟨unique_step hns hr h, faithful_step hns hr h, fun {registry} hregistry => ?_,
    covers_step hns hr h⟩
  rcases (mem_managed_step hns h).mp hregistry with
    ⟨old, hold, hupdated⟩ | ⟨uri, tags, -, -, rfl⟩
  · have hcatalog : old.spec.catalogType = .unset := by rw [hr.settings hold]; rfl
    rw [(updatedRegistry_frame hupdated).2.2.2, hcatalog]
    rfl
  · rfl

end Step

/-! ## Every sequence of calls -/

def latestPods (calls : List Call) (ns : String) : List Pod :=
  ((calls.reverse.find? (·.workloadNamespace = ns)).map (·.pods)).getD []

theorem latestPods_append (calls : List Call) (call : Call) :
    latestPods (calls ++ [call]) = update (latestPods calls) call.workloadNamespace call.pods := by
  funext ns
  by_cases h : ns = call.workloadNamespace
  · subst h
    simp [latestPods]
  · simp [latestPods, h, Ne.symm h]

theorem reconciled_reconcileAll {calls : List Call}
    (hns : config.artifactsNamespace ≠ "") (hc : c.managed config.artifactsNamespace = [])
    (h : (reconcileAll lib config calls).Returns c u c') :
    Reconciled lib config (latestPods calls) c' := by
  refine returns_forM (I := fun visited => Reconciled lib config (latestPods visited)) ?_ h ?_
  · intro visited call state state' _ hr hstep
    rw [latestPods_append]
    exact reconciled_step hns hr hstep
  · have hempty : ∀ {registry}, registry ∉ c.managed config.artifactsNamespace := by simp [hc]
    refine ⟨fun hmem => absurd hmem hempty, fun hmem => absurd hmem hempty,
      fun hmem => absurd hmem hempty, ?_⟩
    rintro ns reference ⟨pod, hpod, -⟩
    cases hpod

/-- What a registry looks like, in terms of the images the pods of each namespace use. -/
structure Reflects (lib : Libraries) (latest : String → List Pod) (uri : String)
    (repositories : List Repository) : Prop where
  names : ∀ name, name ∈ repositories.map (·.name) ↔ ∃ ns tag, Uses lib (latest ns) ⟨uri, name, tag⟩
  sorted : repositories.Pairwise fun a b => a.name < b.name
  nonempty : ∀ repository ∈ repositories, repository.matchConditions ≠ []
  operator : ∀ repository ∈ repositories, repository.matchOperator = .or
  conditions : ∀ repository ∈ repositories, ∀ name expression,
    (∃ condition ∈ repository.matchConditions,
      condition.name = name ∧ condition.expression = expression) ↔
    ∃ ns tag, Uses lib (latest ns) ⟨uri, repository.name, tag⟩ ∧
      name = "tag-" ++ tag ∧ expression = "tag == " ++ lib.quote tag
  once : ∀ repository ∈ repositories, (repository.matchConditions.map (·.name)).Nodup
  labels : ∀ repository ∈ repositories, ∀ condition ∈ repository.matchConditions, ∀ tag,
    condition.name = "tag-" ++ tag → ∀ label value,
      condition.labels.lookup label = some value ↔
        value = "true" ∧ ∃ ns, label = "namespace/" ++ ns ∧
          Uses lib (latest ns) ⟨uri, repository.name, tag⟩

section Reflects

variable {repositories : List Repository} (h : Faithful lib latest uri repositories)

include h

theorem Faithful.exists_tag {repository : Repository} (hmem : repository ∈ repositories)
    {condition : MatchCondition}
    (hcondition : condition ∈ repository.matchConditions) :
    ∃ ns tag, Uses lib (latest ns) ⟨uri, repository.name, tag⟩ ∧
      conditionKey repository condition = tagKey lib repository.name tag := by
  have hhas : Has repositories (conditionKey repository condition) condition.labels :=
    ⟨repository, hmem, condition, hcondition, rfl, rfl⟩
  obtain ⟨ns, tag, huses, hkey⟩ := h.owned.has_iff.mp ⟨_, hhas⟩
  exact ⟨ns, tag, huses, hkey⟩

theorem Faithful.exists_condition {ns name : String}
    (huses : Uses lib (latest ns) ⟨uri, name, tag⟩) :
    ∃ repository ∈ repositories, ∃ condition ∈ repository.matchConditions,
      repository.name = name ∧ condition.name = tagName tag ∧
        condition.expression = tagExpression lib tag := by
  obtain ⟨labels, repository, hmem, condition, hcondition, hkey, -⟩ :=
    h.owned.has_iff.mpr ⟨ns, needs_tagKey.mpr huses⟩
  obtain ⟨hname, hcname, hexpression⟩ := MatchConditionKey.mk.inj hkey
  exact ⟨repository, hmem, condition, hcondition, hname, hcname, hexpression⟩

theorem Faithful.reflects : Reflects lib latest uri repositories where
  names name := by
    constructor
    · intro hname
      obtain ⟨repository, hmem, rfl⟩ := mem_map.mp hname
      obtain ⟨condition, hcondition⟩ :=
        exists_mem_of_ne_nil _ (h.tidy.nonempty repository hmem)
      obtain ⟨ns, tag, huses, -⟩ := h.exists_tag hmem hcondition
      exact ⟨ns, tag, huses⟩
    · rintro ⟨ns, tag, huses⟩
      obtain ⟨repository, hmem, -, -, hname, -⟩ := h.exists_condition huses
      exact mem_map.mpr ⟨repository, hmem, hname⟩
  sorted := h.sorted.names
  nonempty := h.tidy.nonempty
  operator := h.tidy.operator
  conditions repository hmem name expression := by
    constructor
    · rintro ⟨condition, hcondition, rfl, rfl⟩
      obtain ⟨ns, tag, huses, hkey⟩ := h.exists_tag hmem hcondition
      obtain ⟨-, hname, hexpression⟩ := MatchConditionKey.mk.inj hkey
      exact ⟨ns, tag, huses, hname, hexpression⟩
    · rintro ⟨ns, tag, huses, rfl, rfl⟩
      obtain ⟨other, hother, condition, hcondition, hname, hcname, hexpression⟩ :=
        h.exists_condition huses
      obtain rfl := inj_on_of_nodup_map h.tidy.names hother hmem hname
      exact ⟨condition, hcondition, hcname, hexpression⟩
  once repository hmem := by
    have hstrict := h.sorted.conditions repository hmem
    exact pairwise_map.mpr (hstrict.imp fun hab => ne_of_lt hab)
  labels repository hmem condition hcondition tag htag label value := by
    obtain ⟨ns, tag', -, hkey⟩ := h.exists_tag hmem hcondition
    obtain rfl : tag = tag' :=
      tagName_inj.mp (htag.symm.trans (congrArg MatchConditionKey.name hkey))
    refine (h.owned.labels_iff ⟨repository, hmem, condition, hcondition, rfl, rfl⟩).trans ?_
    simp only [hkey, needs_tagKey]
    rfl

end Reflects

/-- **The managed registries reflect the pods.** After any sequence of successful calls under one
configuration, there is a managed registry for a host iff the last pods of some namespace use an
image of it, there is only one, and it reflects what they use. Two such sequences that end with the
same images in use have the same registries, but for names and annotations. -/
theorem registries_reflect_pods {calls : List Call}
    (hns : config.artifactsNamespace ≠ "") (hc : c.managed config.artifactsNamespace = [])
    (h : (reconcileAll lib config calls).Returns c ⟨⟩ c') (uri : String) :
    ((∃ registry ∈ c'.managed config.artifactsNamespace, registry.spec.uri = uri) ↔
      ∃ ns repository tag, Uses lib (latestPods calls ns) ⟨uri, repository, tag⟩) ∧
    (∀ registry ∈ c'.managed config.artifactsNamespace, registry.spec.uri = uri →
      Reflects lib (latestPods calls) uri registry.spec.repositories ∧
      ∀ other ∈ c'.managed config.artifactsNamespace, other.spec.uri = uri → other = registry) ∧
    ∀ {calls' : List Call} {t t' : Cluster}, t.managed config.artifactsNamespace = [] →
      (reconcileAll lib config calls').Returns t ⟨⟩ t' →
      (∀ ns reference,
        Uses lib (latestPods calls ns) reference ↔ Uses lib (latestPods calls' ns) reference) →
      ∀ registry ∈ c'.managed config.artifactsNamespace, registry.spec.uri = uri →
      ∀ other ∈ t'.managed config.artifactsNamespace, other.spec.uri = uri →
        registry.spec = other.spec := by
  have hr := reconciled_reconcileAll hns hc h
  refine ⟨⟨?_, ?_⟩, ?_, ?_⟩
  · rintro ⟨registry, hmem, rfl⟩
    have hreflects := (hr.faithful hmem).reflects
    obtain ⟨repository, hrepository⟩ := exists_mem_of_ne_nil _ (hr.faithful hmem).nonempty
    obtain ⟨ns, tag, huses⟩ := (hreflects.names _).mp (mem_map_of_mem hrepository)
    exact ⟨ns, repository.name, tag, huses⟩
  · rintro ⟨ns, repository, tag, huses⟩
    exact hr.covers huses
  · rintro registry hmem rfl
    refine ⟨(hr.faithful hmem).reflects, fun other hother huri => ?_⟩
    exact hr.unique hother hmem huri
  · rintro calls' t t' ht h' hsame registry hmem rfl other hother huri
    have hr' := reconciled_reconcileAll hns ht h'
    have hf := hr.faithful hmem
    have hf' := hr'.faithful hother
    rw [huri] at hf'
    have howned : Owned (fun ns => Needs lib (latestPods calls ns) registry.spec.uri)
        other.spec.repositories := by
      refine hf'.owned.congr fun ns key => exists_congr fun tag => ?_
      rw [hsame]
    have hrepositories := hf.owned.unique hf.tidy hf.sorted howned hf'.tidy hf'.sorted
    rw [hr.settings hmem, hr'.settings hother, huri, hrepositories]

def twoImages : Libraries where
  parseReference image :=
    if image = "nginx" then some ⟨"index.docker.io", "library/nginx", "latest"⟩
    else if image = "redis:7" then some ⟨"index.docker.io", "library/redis", "7"⟩
    else none
  parseReference_empty := rfl
  quote tag := "\"" ++ tag ++ "\""
  sha256 uri := uri
  marshal _ := "\x7b\x7d"

def scanOnChange : Configuration where
  artifactsNamespace := "artifacts"
  scanInterval := none
  scanOnChange := true
  authSecret := ""
  caBundle := ""
  caBundleRef := none
  insecure := false
  platforms := []

def pod (image : String) : Pod := ⟨⟨[], [⟨"main", image⟩]⟩⟩

def noFault : Choices := ⟨.asStored, id, fun _ => none⟩

/-- A registry is created for the first namespace, shared by the second, and given up by the
first. -/
def sharedRegistry : List Call :=
  [⟨"a", [pod "nginx"], noFault⟩, ⟨"b", [pod "redis:7", pod "nginx"], noFault⟩, ⟨"a", [], noFault⟩]

theorem registries_reflect_pods_shared :
    ∃ c, (reconcileAll twoImages scanOnChange sharedRegistry).Returns Cluster.empty ⟨⟩ c ∧
      ∃ registry ∈ c.managed "artifacts", registry.spec.uri = "index.docker.io" ∧
        Reflects twoImages (latestPods sharedRegistry) "index.docker.io"
          registry.spec.repositories := by
  have huses : Uses twoImages (latestPods sharedRegistry "b")
      ⟨"index.docker.io", "library/nginx", "latest"⟩ :=
    ⟨pod "nginx", by decide, "nginx", by decide, rfl⟩
  refine ⟨_, rfl, ?_⟩
  obtain ⟨hexists, hreflects, -⟩ := @registries_reflect_pods twoImages scanOnChange Cluster.empty _
    sharedRegistry (by decide) rfl rfl "index.docker.io"
  obtain ⟨registry, hmem, huri⟩ := hexists.mpr ⟨"b", _, _, huses⟩
  exact ⟨registry, hmem, huri, (hreflects registry hmem huri).1⟩

end SbomScanner.WorkloadScan

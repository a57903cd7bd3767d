import SbomScanner.Catalog.Handler
import SbomScanner.WorkloadScan.Report

/-!
# From the workloads to the results

The report of a workload and the images of a managed Registry are made by two programs that agree on
nothing but the names: the controller reads them off the image of a container, the worker off the
Registry that the controller has written, by way of paths and texts that are parsed again. A report
finds its results iff both come to the same registry, namespace, repository and tag.

`Joined` is that they do, for a reference and the Registry that a call leaves for it. There are two
ways to miss: a repository whose name `path.Join` changes, and a repository of Docker Hub that is
found under the name of another one. `Plain` excludes just these.
-/

namespace SbomScanner.Catalog.Join

open Api WorkloadScan Procedure Fallible List Strings

/-! ## The two programs -/

theorem parseReference_empty (isAuthority : String → Bool) :
    ImageName.parseReference isAuthority "" = none := rfl

/-- The libraries of the controller are those of the worker. -/
def controller (lib : Library) (marshal : RescanRequest → String) : Libraries where
  parseReference s := (ImageName.parseReference lib.isAuthority s).map fun reference =>
    ⟨reference.registry, reference.repository, reference.identifier⟩
  parseReference_empty := by rw [parseReference_empty]; rfl
  quote := lib.quote
  sha256 := lib.sha256
  marshal := marshal

/-! ## Registries that the controller has written -/

variable {libs : Libraries} {choices : Choices} {config : Configuration} {c c' : Cluster}
  {ns : String} {pods : List Pod} {registry other : Registry}

/-- A managed registry as `reconcileRegistries` writes it. -/
structure Sound (libs : Libraries) (registry : Registry) : Prop where
  name : registry.name = computeRegistryName libs registry.spec.uri
  tidy : Tidy registry.spec.repositories
  sorted : Sorted registry.spec.repositories
  tags : ∀ {key labels}, Has registry.spec.repositories key labels →
    ∃ tag, key = tagKey libs key.repository tag

theorem sound_updated (h : Sound libs registry)
    (hupdated : updatedBy libs choices ns pods config registry = some other) :
    Sound libs other := by
  obtain ⟨hkey, -, -, hspec⟩ := updatedRegistry_frame hupdated
  have htidy : Tidy (updatedRepositories libs choices registry ns
    (contribution libs pods registry.spec.uri)) := tidy_updatedRepositories h.tidy
  have htags : ∀ {key labels}, Has (updatedRepositories libs choices registry ns
      (contribution libs pods registry.spec.uri)) key labels →
      ∃ tag, key = tagKey libs key.repository tag := by
    intro key labels hhas
    rcases exists_has_updated.mp ⟨labels, hhas⟩ with ⟨tag, -, heq⟩ | ⟨old, hold, -⟩
    · exact ⟨tag, heq⟩
    · exact h.tags hold
  refine ⟨?_, ?_, ?_, ?_⟩
  · rw [hspec]
    exact (congrArg Prod.snd hkey).trans h.name
  · rw [hspec]
    exact tidy_sortRepositories htidy
  · rw [hspec]
    exact sorted_sortRepositories htidy htags
  · rw [hspec]
    exact fun hhas => htags (has_sortRepositories.mp hhas)

variable {tags : RepositoryTags}

theorem needs_of_has_new {uri : String} (htags : (grouped libs pods).lookup uri = some tags)
    {key : MatchConditionKey} :
    (∃ labels, Has (newRepositories libs choices uri ns tags) key labels) ↔
      Needs libs pods uri key := by
  have hcontribution : tags = contribution libs pods uri := by rw [contribution, htags]; rfl
  simp only [has_newRepositories, exists_and_left, exists_eq, and_true]
  rw [hcontribution, mem_needed]

theorem sound_new {uri target : String} (htags : (grouped libs pods).lookup uri = some tags) :
    Sound libs (newRegistry libs choices uri ns target tags config) := by
  have htidy : Tidy (newRepositories libs choices uri ns tags) :=
    tidy_newRepositories ((filled_groupImagesByRegistry _).tags htags)
  have hkeys : ∀ {key labels}, Has (newRepositories libs choices uri ns tags) key labels →
      ∃ tag, key = tagKey libs key.repository tag := by
    intro key labels hhas
    obtain ⟨tag, -, heq⟩ := (needs_of_has_new htags).mp ⟨labels, hhas⟩
    exact ⟨tag, heq⟩
  exact ⟨rfl, tidy_sortRepositories htidy, sorted_sortRepositories htidy hkeys,
    fun hhas => hkeys (has_sortRepositories.mp hhas)⟩

/-- Every call keeps the registries sound, also one that stops half way. -/
theorem sound_reconcileRegistries (hc : AllManaged (Sound libs) c) :
    AllManaged (Sound libs) ((reconcileRegistries libs choices ns pods config).run.run c).2 := by
  apply allManaged_reconcileRegistries hc
  · intro registry hmem other hupdated
    obtain ⟨hin, -, hmanaged⟩ := Cluster.mem_managed.mp hmem
    exact sound_updated (hc registry hin hmanaged) hupdated
  · intro uri tags htags
    exact sound_new htags

/-! ## What a call leaves -/

/-- The tag of the repository is used by the pods, or registered for another namespace. -/
def Needed (libs : Libraries) (c : Cluster) (target ns : String) (pods : List Pod)
    (uri repository tag : String) : Prop :=
  Uses libs pods ⟨uri, repository, tag⟩ ∨ ∃ registry ∈ c.managed target,
    registry.spec.uri = uri ∧ ∃ labels, Has registry.spec.repositories
      (tagKey libs repository tag) labels ∧ ∃ label ∈ labels, label ≠ nsLabel ns

/-- The name tells the host, so there is one managed registry for each. -/
theorem eq_of_uri (hc : AllManaged (Sound libs) c) {target : String}
    (hmem : registry ∈ c.managed target) (hother : other ∈ c.managed target)
    (huri : registry.spec.uri = other.spec.uri) : registry = other := by
  obtain ⟨hin, hns, hmanaged⟩ := Cluster.mem_managed.mp hmem
  obtain ⟨hin', hns', hmanaged'⟩ := Cluster.mem_managed.mp hother
  refine Cluster.eq_of_key hin hin' (Prod.ext (hns.trans hns'.symm) ?_)
  show registry.name = other.name
  rw [(hc registry hin hmanaged).name, (hc other hin' hmanaged').name, huri]

section Call

variable (hc : AllManaged (Sound libs) c)
  (h : (reconcileRegistries libs choices ns pods config).Returns c ⟨⟩ c')
include hc h

section

variable (hmem : registry ∈ c'.managed (registryNamespace config ns))
include hmem

theorem sound_of_mem :
    Sound libs registry := by
  obtain ⟨hin, -, hmanaged⟩ := Cluster.mem_managed.mp hmem
  have hall : AllManaged (Sound libs)
      ((reconcileRegistries libs choices ns pods config).run.run c).2 :=
    sound_reconcileRegistries hc
  rw [h] at hall
  exact hall registry hin hmanaged

/-- The registry declares exactly what is needed. -/
theorem has_iff_needed {repository tag : String} :
    (∃ labels, Has registry.spec.repositories (tagKey libs repository tag) labels) ↔
      Needed libs c (registryNamespace config ns) ns pods registry.spec.uri repository tag := by
  rcases (mem_managed_reconcileRegistries h).mp hmem with
    ⟨old, hold, hupdated⟩ | ⟨uri, tags, htags, hnone, rfl⟩
  · have hspec := (updatedRegistry_frame hupdated).2.2.2
    have huri := uri_updatedRegistry hupdated
    have hhas : (∃ labels, Has registry.spec.repositories (tagKey libs repository tag) labels) ↔
        ∃ labels, Has (updatedRepositories libs choices old ns
          (contribution libs pods old.spec.uri)) (tagKey libs repository tag) labels := by
      rw [hspec]
      exact exists_congr fun _ => has_sortRepositories
    rw [hhas, exists_has_updated, needs_tagKey, Needed, huri]
    refine or_congr_right ⟨fun hlabels => ⟨old, hold, rfl, hlabels⟩, ?_⟩
    rintro ⟨old', hold', huri', hlabels⟩
    obtain rfl := eq_of_uri hc hold' hold huri'
    exact hlabels
  · have hhas : (∃ labels, Has (newRegistry libs choices uri ns (registryNamespace config ns) tags
          config).spec.repositories (tagKey libs repository tag) labels) ↔
        ∃ labels, Has (newRepositories libs choices uri ns tags)
          (tagKey libs repository tag) labels :=
      exists_congr fun _ => has_sortRepositories
    rw [hhas, needs_of_has_new htags, needs_tagKey, Needed]
    refine ⟨.inl, fun hneeded => hneeded.resolve_right ?_⟩
    rintro ⟨old, hold, huri, -⟩
    exact hnone old hold huri

end

omit hc in
/-- There is a registry for each host that the pods use. -/
theorem exists_registry {reference : WorkloadScan.Reference} (huses : Uses libs pods reference) :
    ∃ registry ∈ c'.managed (registryNamespace config ns),
      registry.spec.uri = reference.registry := by
  by_cases hold : ∃ registry ∈ c.managed (registryNamespace config ns),
      registry.spec.uri = reference.registry
  · obtain ⟨registry, hmem, huri⟩ := hold
    have hne : updatedRepositories libs choices registry ns
        (contribution libs pods registry.spec.uri) ≠ [] := by
      have hneeds : Needs libs pods registry.spec.uri
          (tagKey libs reference.repository reference.identifier) := by
        rw [needs_tagKey, huri]
        exact huses
      obtain ⟨_, repository, hin, -⟩ := exists_has_updated.mpr (.inl hneeds)
      exact ne_nil_of_mem hin
    obtain ⟨updated, hupdated⟩ : ∃ updated,
        updatedBy libs choices ns pods config registry = some updated := ⟨_, if_neg hne⟩
    refine ⟨_, (mem_managed_reconcileRegistries h).mpr (.inl ⟨registry, hmem, hupdated⟩), ?_⟩
    exact (uri_updatedRegistry hupdated).trans huri
  · obtain ⟨tags, htags⟩ := exists_lookup_of_uses huses
    refine ⟨_, (mem_managed_reconcileRegistries h).mpr (.inr ⟨_, tags, htags, ?_, rfl⟩), rfl⟩
    exact fun registry hmem huri => hold ⟨registry, hmem, huri⟩

end Call

/-! ## What the worker allows -/

section Worker

variable {lib : Library} {marshal : RescanRequest → String}

/-- CEL compares the tag with the text between the quotes. -/
def ComparesTags (lib : Library) : Prop :=
  ∀ tag identifier, lib.evaluate ("tag == " ++ lib.quote tag) identifier = .ok (tag = identifier)

/-- The match conditions are those that the controller writes for tags. -/
def TagConditions (lib : Library) (conditions : List MatchCondition) : Prop :=
  ∀ condition ∈ conditions, ∃ tag, condition.name = tagName tag ∧
    condition.expression = "tag == " ++ lib.quote tag

variable {identifier : String}

theorem filterConditions_tags (hcel : ComparesTags lib) {conditions : List MatchCondition}
    (htags : TagConditions lib conditions) :
    filterConditions lib.evaluate .or identifier conditions = .ok true ↔
      ∃ condition ∈ conditions, condition.name = tagName identifier := by
  induction conditions with
  | nil => simp [filterConditions]
  | cons condition rest ih =>
    obtain ⟨tag, hname, hexpression⟩ := htags condition mem_cons_self
    have hrest := ih fun other hother => htags other (mem_cons_of_mem _ hother)
    simp only [filterConditions, hexpression, hcel tag identifier, exists_mem_cons_iff,
      hname, tagName_inj]
    by_cases htag : tag = identifier
    · simp [htag]
    · simp [htag, hrest]

variable (hsound : Sound (controller lib marshal) registry)
include hsound

variable {repository : Repository}

theorem tagConditions (hmem : repository ∈ registry.spec.repositories) :
    TagConditions lib repository.matchConditions := by
  intro condition hcondition
  obtain ⟨tag, heq⟩ := hsound.tags ⟨repository, hmem, condition, hcondition, rfl, rfl⟩
  exact ⟨tag, congrArg MatchConditionKey.name heq, congrArg MatchConditionKey.expression heq⟩

theorem filterByTag_iff (hcel : ComparesTags lib) (hmem : repository ∈ registry.spec.repositories) :
    filterByTag lib.evaluate (some repository) identifier = .ok true ↔
      ∃ labels, Has registry.spec.repositories
        (tagKey (controller lib marshal) repository.name identifier) labels := by
  have htags := tagConditions hsound hmem
  simp only [filterByTag, hsound.tidy.nonempty repository hmem, if_false,
    hsound.tidy.operator repository hmem]
  show filterConditions lib.evaluate .or identifier _ = _ ↔ _
  rw [filterConditions_tags hcel htags, exists_has]
  constructor
  · rintro ⟨condition, hcondition, hname⟩
    obtain ⟨tag, htag, hexpression⟩ := htags condition hcondition
    obtain rfl : tag = identifier := tagName_inj.mp (htag.symm.trans hname)
    refine ⟨repository, hmem, condition, hcondition, ?_⟩
    rw [conditionKey, hname, hexpression]
    rfl
  · rintro ⟨found, hfound, condition, hcondition, hkey⟩
    obtain rfl : found = repository := inj_on_of_nodup_map hsound.tidy.names hfound hmem
      (congrArg MatchConditionKey.repository hkey)
    exact ⟨condition, hcondition, congrArg MatchConditionKey.name hkey⟩

/-- The repository is found under its name, or another one under the short form of it that comes
first. -/
theorem getRepository_cases (hmem : repository ∈ registry.spec.repositories) :
    ∃ found ∈ registry.spec.repositories, registry.getRepository repository.name = some found ∧
      (found = repository ∧ (∀ other ∈ registry.spec.repositories,
          other.name = registry.shortName repository.name → ¬other.name < repository.name) ∨
        found.name = registry.shortName repository.name ∧ found.name < repository.name) := by
  have hanswers : registry.answersTo repository.name repository = true := by
    simp [Registry.answersTo]
  obtain ⟨found, hfound⟩ := Option.isSome_iff_exists.mp
    (List.find?_isSome.mpr ⟨repository, hmem, hanswers⟩)
  have hin := mem_of_find?_eq_some hfound
  have hleast : ∀ {other}, other ∈ registry.spec.repositories →
      registry.answersTo repository.name other = true → found.name ≤ other.name :=
    fun hother => Accumulate.le_of_find? hsound.sorted.names hfound hother
  refine ⟨found, hin, hfound, ?_⟩
  by_cases hname : found.name = repository.name
  · left
    refine ⟨inj_on_of_nodup_map hsound.tidy.names hin hmem hname, ?_⟩
    intro other hother hshort hlt
    have hle := hleast hother (by simp [Registry.answersTo, hshort])
    rw [hname] at hle
    exact absurd hlt (not_lt.mpr hle)
  · right
    have hshort : found.name = registry.shortName repository.name := by
      have hanswer : registry.answersTo repository.name found = true := List.find?_some hfound
      simpa [Registry.answersTo, hname] using hanswer
    exact ⟨hshort, lt_of_le_of_ne (hleast hmem hanswers) hname⟩

omit hsound in
theorem eq_library_of_shortName {repo short : String} (h : short = registry.shortName repo)
    (hlt : short < repo) :
    registry.spec.uri = defaultRegistry ∧ repo = "library/" ++ short := by
  unfold Registry.shortName at h
  split at h
  case isFalse => exact absurd (h ▸ hlt) (lt_irrefl _)
  case isTrue huri =>
    refine ⟨huri, cutPrefix_eq_some.mp ?_⟩
    cases hcut : cutPrefix repo "library/" with
    | none =>
      rw [hcut] at h
      exact absurd (h ▸ hlt) (lt_irrefl _)
    | some rest =>
      rw [hcut] at h
      rw [h]
      rfl

omit hsound in
theorem shortName_library {short : String} (huri : registry.spec.uri = defaultRegistry) :
    registry.shortName ("library/" ++ short) = short := by
  rw [Registry.shortName, if_pos huri, cutPrefix_eq_some.mpr rfl]
  rfl

end Worker

/-! ## The worker's way to a reference -/

section Read

variable {lib : Library}

/-- The reference that the worker makes of a repository and an identifier of a Registry: a path, the
name of a repository, the name of an image, each of them parsed again. -/
def catalogReference (lib : Library) (registry : Registry) (repository identifier : String) :
    Except String ImageName.Reference := do
  let reg ← lib.newRegistry registry.spec.uri
  let repo ← lib.newRepository (pathJoin reg repository)
  lib.parseReference (ImageName.Reference.name ⟨repo.registry, repo.repository, identifier⟩)

/-- A reference that the controller has parsed, and whose repository parses again. -/
structure Parsed (lib : Library) (reference : ImageName.Reference) : Prop where
  canonical : ImageName.Canonical lib.isAuthority reference.context
  identifier : ImageName.Identifies reference.identifier
  again : ImageName.newRepository lib.isAuthority reference.context.name = some reference.context

theorem parsed_of_parseReference (hauthority : ImageName.Authority lib.isAuthority) {s : String}
    {reference : ImageName.Reference}
    (hparse : ImageName.parseReference lib.isAuthority s = some reference)
    (hagain : ImageName.newRepository lib.isAuthority reference.context.name =
      some reference.context) : Parsed lib reference := by
  obtain ⟨⟨_, hrepository⟩, hidentifier⟩ := ImageName.parseReference_parts hparse
  exact ⟨ImageName.newRepository_canonical hauthority hrepository, hidentifier, hagain⟩

variable {reference : ImageName.Reference} (hparsed : Parsed lib reference)
  (huri : registry.spec.uri = reference.registry)
include hparsed huri

/-- The worker comes to the reference iff its path is clean. -/
theorem catalogReference_iff (hauthority : ImageName.Authority lib.isAuthority) :
    catalogReference lib registry reference.repository reference.identifier = .ok reference ↔
      pathJoin reference.registry reference.repository =
        reference.registry ++ "/" ++ reference.repository := by
  have hregistry : lib.newRegistry registry.spec.uri = .ok reference.registry := by
    rw [huri]
    exact parsed_eq_ok.mpr hparsed.canonical.newRegistry
  constructor
  · intro hread
    obtain ⟨reg, hreg, hread⟩ := bind_eq_ok.mp hread
    cases hregistry.symm.trans hreg
    obtain ⟨repo, hrepo, hread⟩ := bind_eq_ok.mp hread
    have hrepo := parsed_eq_ok.mp hrepo
    have hcanonical := ImageName.newRepository_canonical hauthority hrepo
    have hread := parsed_eq_ok.mp hread
    have hname := @ImageName.parseReference_name lib.isAuthority
      ⟨repo.registry, repo.repository, reference.identifier⟩ hcanonical hparsed.identifier
    rw [hname] at hread
    obtain ⟨found, hfound, heq⟩ := Option.map_eq_some_iff.mp hread
    -- what is read again is the repository that the path stands for
    obtain rfl : found = repo := ImageName.eq_of_newRepository_name hcanonical hfound
    have hcontext : found = reference.context := by
      rw [← heq]
      rfl
    rw [hcontext] at hrepo
    exact ImageName.pathJoin_eq_name hparsed.canonical hrepo
  · intro hclean
    refine bind_eq_ok.mpr ⟨_, hregistry, bind_eq_ok.mpr
      ⟨reference.context, parsed_eq_ok.mpr ?_, parsed_eq_ok.mpr ?_⟩⟩
    · rw [hclean]
      exact hparsed.again
    · show ImageName.parseReference lib.isAuthority reference.name = some reference
      rw [ImageName.parseReference_name hparsed.canonical hparsed.identifier, hparsed.again]
      rfl

omit huri in
theorem workloadReference_eq {condition : MatchCondition}
    (hname : condition.name = tagName reference.identifier)
    (hexpression : condition.expression = "tag == " ++ lib.quote reference.identifier) :
    workloadReference lib reference.context condition = .ok (some reference) := by
  have hcut : cutPrefix condition.name "tag-" = some reference.identifier :=
    cutPrefix_eq_some.mpr hname
  have hagain : (ImageName.newRepository lib.isAuthority reference.context.name).map (fun found =>
      (⟨found.registry, found.repository, reference.identifier⟩ : ImageName.Reference)) =
      some reference := by
    rw [hparsed.again]
    rfl
  simp only [workloadReference, hcut, hexpression, ne_eq, not_true_eq_false, if_false]
  split
  case isTrue hdigest =>
    obtain ⟨hex, heq, hhex⟩ := (ImageName.isDigest_iff hparsed.identifier).mp hdigest
    have hnew := ImageName.newDigest_digest hparsed.canonical hhex
    rw [← heq, hagain] at hnew
    rw [show lib.newDigest _ = _ from parsed_eq_ok.mpr hnew]
    rfl
  case isFalse hdigest =>
    have htag : ImageName.checkTag reference.identifier = true :=
      hparsed.identifier.resolve_right fun hex =>
        hdigest ((ImageName.isDigest_iff hparsed.identifier).mpr hex)
    have hnew := (ImageName.newTag_tag htag).trans hagain
    rw [show lib.newTag _ = _ from parsed_eq_ok.mpr hnew]
    rfl

omit hparsed huri in
/-- The loop over match conditions that are all for tags stops at none of them. -/
theorem workloadReferences_tags {repo : ImageName.Repository} {conditions : List MatchCondition}
    (htags : TagConditions lib conditions)
    {result : Option (List ImageName.Reference)}
    (h : workloadReferences lib repo conditions = .ok result) :
    ∃ references, result = some references ∧ List.Forall₂ (fun condition found =>
      workloadReference lib repo condition = .ok (some found)) conditions references := by
  induction conditions generalizing result with
  | nil =>
    cases h
    exact ⟨[], rfl, .nil⟩
  | cons condition rest ih =>
    obtain ⟨first, hfirst, h⟩ := bind_eq_ok.mp h
    obtain ⟨tag, hname, hexpression⟩ := htags condition mem_cons_self
    have hcut : cutPrefix condition.name "tag-" = some tag :=
      cutPrefix_eq_some.mpr hname
    obtain ⟨found, rfl⟩ : ∃ found, first = some found := by
      simp only [workloadReference, hcut, hexpression, ne_eq, not_true_eq_false, if_false] at hfirst
      obtain ⟨found, -, heq⟩ := map_eq_ok.mp (mapError_eq_ok.mp hfirst)
      exact ⟨found, heq.symm⟩
    obtain ⟨others, hothers, h⟩ := bind_eq_ok.mp h
    obtain ⟨references, rfl, hreferences⟩ :=
      ih (fun other hother => htags other (mem_cons_of_mem _ hother)) hothers
    cases h
    exact ⟨found :: references, rfl, .cons hfirst hreferences⟩

/-- The registry lists the tag. No registry lists digests. -/
def Listed (client : Listing) (reference : ImageName.Reference) : Prop :=
  ImageName.isDigest reference.identifier = true ∨
    ∃ tags, client.tags reference.context = .ok tags ∧ reference.identifier ∈ tags

omit huri in
/-- The references of a repository that has a match condition for the identifier. -/
theorem mem_discoverImages (hmanaged : registry.isManagedByWorkloadScan = true)
    {found : Repository} (hfound : registry.getRepository reference.repository = some found)
    (hoperator : found.matchOperator = .or)
    (htags : TagConditions lib found.matchConditions)
    (hcondition : ∃ condition ∈ found.matchConditions,
      condition.name = tagName reference.identifier)
    {client : Listing} (hlisted : Listed client reference) {images : List String}
    (h : discoverImages lib client registry reference.context.name = .ok images) :
    reference.name ∈ images := by
  obtain ⟨condition, hcondition, hname⟩ := hcondition
  have hne : found.matchConditions ≠ [] := ne_nil_of_mem hcondition
  obtain ⟨repo, hrepo, h⟩ := bind_eq_ok.mp h
  have hrepo := parsed_eq_ok.mp (mapError_eq_ok.mp hrepo)
  rw [hparsed.again] at hrepo
  cases hrepo
  obtain ⟨workload, hworkload, h⟩ := bind_eq_ok.mp h
  have hcontext : registry.getRepository reference.context.repository = some found := hfound
  simp only [workloadRepositoryReferences, hmanaged, Bool.not_true, Bool.false_eq_true, if_false,
    hcontext, hoperator, hne, ne_eq, not_true_eq_false, or_self] at hworkload
  obtain ⟨result, hresult, hworkload⟩ := bind_eq_ok.mp hworkload
  obtain ⟨references, rfl, hreferences⟩ := workloadReferences_tags htags hresult
  -- the reference is one of those that are read off the match conditions
  have hmem : reference ∈ references := by
    obtain ⟨tag, htag, hexpression⟩ := htags condition hcondition
    obtain rfl : tag = reference.identifier := tagName_inj.mp (htag.symm.trans hname)
    obtain ⟨read, hread, heq⟩ := exists_of_forall₂ hreferences hcondition
    rw [workloadReference_eq hparsed hname hexpression] at heq
    cases heq
    exact hread
  by_cases hdigest : references.any (ImageName.isDigest ·.identifier) = true
  · simp only [hdigest, if_true] at hworkload
    cases hworkload
    cases h
    rw [mem_insertionSort, mem_dedup]
    exact mem_map_of_mem hmem
  · simp only [hdigest] at hworkload
    cases hworkload
    obtain ⟨tags, htags, h⟩ := bind_eq_ok.mp h
    have htags := mapError_eq_ok.mp htags
    cases h
    have hplain : ¬ImageName.isDigest reference.identifier = true := by
      intro hdigest'
      exact hdigest (any_eq_true.mpr ⟨reference, hmem, hdigest'⟩)
    obtain ⟨listed, hlisted, hin⟩ := hlisted.resolve_left hplain
    cases htags.symm.trans hlisted
    rw [ImageName.Reference.name, if_neg hplain]
    exact mem_map_of_mem hin

end Read

/-! ## The join -/

section Theorem

variable {lib : Library} {marshal : RescanRequest → String} {reference : ImageName.Reference}
  {pod : Pod} {container : Container}

def joinKey (image : Image) : ImageRef := ⟨image.registry, image.ns, image.repository, image.tag⟩

theorem joinKey_refToImages {client : Client} {images : List Image} {image : Image}
    (h : refToImages lib client reference registry = .ok images) (hmem : image ∈ images) :
    joinKey image = ⟨registry.name, registry.ns, reference.repository, reference.identifier⟩ := by
  obtain ⟨details, indexDigest, hconvert⟩ := converted_refToImages h hmem
  obtain ⟨layers, -, heq⟩ := bind_eq_ok.mp (mapError_eq_ok.mp hconvert)
  cases heq
  rfl

/-- The Registry leads the worker to the reference, and the images it makes there are those that the
report asks for. -/
structure Joined (lib : Library) (marshal : RescanRequest → String) (registry : Registry)
    (reference : ImageName.Reference) (imageRef : ImageRef) : Prop where
  declared : ∃ labels, Has registry.spec.repositories
    (tagKey (controller lib marshal) reference.repository reference.identifier) labels
  allowed : filterByTag lib.evaluate (registry.getRepository reference.repository)
    reference.identifier = .ok true
  read : catalogReference lib registry reference.repository reference.identifier = .ok reference
  built : ∀ {client images}, refToImages lib client reference registry = .ok images →
    ∀ image ∈ images, joinKey image = imageRef
  found : ∀ {env : Env} {references}, env.lib = lib →
    discoverReferences env registry = .ok references →
    Listed env.client.toListing reference → reference.name ∈ references

/-- The repository is a clean path, and on Docker Hub the repository that goes by its short name, if
there is one and it comes first, has the tag as well. -/
structure Plain (libs : Libraries) (c : Cluster) (target ns : String) (pods : List Pod)
    (reference : ImageName.Reference) : Prop where
  clean : pathJoin reference.registry reference.repository =
    reference.registry ++ "/" ++ reference.repository
  short : ∀ {short}, reference.registry = defaultRegistry →
    reference.repository = "library/" ++ short → short < reference.repository →
    (∃ tag, Needed libs c target ns pods reference.registry short tag) →
    Needed libs c target ns pods reference.registry short reference.identifier

section Allowed

variable (hc : AllManaged (Sound (controller lib marshal)) c)
  (h : (reconcileRegistries (controller lib marshal) choices ns pods config).Returns c ⟨⟩ c')
  (hmem : registry ∈ c'.managed (registryNamespace config ns))
  (huri : registry.spec.uri = reference.registry)
  (hcel : ComparesTags lib)
  (hdeclared : ∃ labels, Has registry.spec.repositories
    (tagKey (controller lib marshal) reference.repository reference.identifier) labels)
include hc h hmem huri hcel hdeclared

/-- The tag is allowed iff the repository that is found has it. -/
theorem allowed_iff : filterByTag lib.evaluate (registry.getRepository reference.repository)
      reference.identifier = .ok true ↔
    ∀ {short}, reference.registry = defaultRegistry →
      reference.repository = "library/" ++ short → short < reference.repository →
      (∃ tag, Needed (controller lib marshal) c (registryNamespace config ns) ns pods
        reference.registry short tag) →
      Needed (controller lib marshal) c (registryNamespace config ns) ns pods
        reference.registry short reference.identifier := by
  have hsound := sound_of_mem hc h hmem
  have hneeded : ∀ {repository tag}, Needed (controller lib marshal) c
      (registryNamespace config ns) ns pods reference.registry repository tag ↔
      ∃ labels, Has registry.spec.repositories
        (tagKey (controller lib marshal) repository tag) labels := by
    intro repository tag
    rw [has_iff_needed hc h hmem, huri]
  obtain ⟨_, repository, hrepository, _, _, hkey, _⟩ := id hdeclared
  have hname : repository.name = reference.repository :=
    congrArg MatchConditionKey.repository hkey
  obtain ⟨found, hin, hfound, hcases⟩ := getRepository_cases hsound hrepository
  rw [hname] at hfound hcases
  rw [hfound, filterByTag_iff hsound hcel hin]
  rcases hcases with ⟨rfl, hfirst⟩ | ⟨hshort, hlt⟩
  · rw [hname]
    refine iff_of_true hdeclared ?_
    rintro short hhub hlibrary hlt ⟨tag, htag⟩
    -- the other one would have been found first
    obtain ⟨_, other, hother, _, _, hkey, _⟩ := hneeded.mp htag
    have hothername : other.name = short := congrArg MatchConditionKey.repository hkey
    refine absurd (hothername ▸ hlt) (hfirst other hother ?_)
    rw [hothername, hlibrary, shortName_library (huri.trans hhub)]
  · obtain ⟨hhub, hlibrary⟩ := eq_library_of_shortName hshort hlt
    rw [← hneeded]
    constructor
    · intro hid short _ hlibrary' _ _
      have hsame : short = found.name := by
        rw [hlibrary] at hlibrary'
        exact (String.append_right_inj _ |>.mp hlibrary').symm
      exact hsame ▸ hid
    · intro hall
      refine hall (huri.symm.trans hhub) hlibrary hlt ?_
      obtain ⟨condition, hcondition⟩ := exists_mem_of_ne_nil _ (hsound.tidy.nonempty found hin)
      have hhas : Has registry.spec.repositories (conditionKey found condition)
        condition.labels := ⟨found, hin, condition, hcondition, rfl, rfl⟩
      obtain ⟨tag, htag⟩ := hsound.tags hhas
      rw [htag] at hhas
      exact ⟨tag, hneeded.mpr ⟨_, hhas⟩⟩

end Allowed

theorem mem_discoverReferences (hsound : Sound (controller lib marshal) registry)
    (hmanaged : registry.isManagedByWorkloadScan = true) (hparsed : Parsed lib reference)
    (huri : registry.spec.uri = reference.registry) (hcel : ComparesTags lib)
    (hdeclared : ∃ labels, Has registry.spec.repositories
      (tagKey (controller lib marshal) reference.repository reference.identifier) labels)
    (hallowed : filterByTag lib.evaluate (registry.getRepository reference.repository)
      reference.identifier = .ok true)
    (hclean : pathJoin reference.registry reference.repository =
      reference.registry ++ "/" ++ reference.repository)
    {env : Env} (hlib : env.lib = lib) {references : List String}
    (h : discoverReferences env registry = .ok references)
    (hlisted : Listed env.client.toListing reference) : reference.name ∈ references := by
  obtain ⟨_, repository, hrepository, _, _, hkey, _⟩ := hdeclared
  have hname : repository.name = reference.repository :=
    congrArg MatchConditionKey.repository hkey
  subst hlib
  obtain ⟨repositories, hrepositories, h⟩ := bind_eq_ok.mp h
  obtain ⟨repoImages, hrepoImages, h⟩ := bind_eq_ok.mp h
  cases h
  -- the path of the repository is one of those that are looked at
  have hpath : reference.context.name ∈ repositories := by
    obtain ⟨reg, hreg, hlist⟩ := bind_eq_ok.mp (mapError_eq_ok.mp hrepositories)
    have hreg := parsed_eq_ok.mp (mapError_eq_ok.mp hreg)
    rw [huri] at hreg
    cases hparsed.canonical.newRegistry.symm.trans hreg
    rw [if_neg (ne_nil_of_mem hrepository)] at hlist
    cases hlist
    refine mem_map.mpr ⟨repository, hrepository, ?_⟩
    rw [hname]
    exact hclean
  obtain ⟨images, himages, hdiscover⟩ := exists_mem_of_mapM hrepoImages hpath
  rw [mem_dedup, mem_flatten]
  refine ⟨images, himages, ?_⟩
  obtain ⟨found, hin, hfound, -⟩ := getRepository_cases hsound hrepository
  rw [hname] at hfound
  rw [hfound, filterByTag_iff hsound hcel hin] at hallowed
  obtain ⟨_, found', hin', condition, hcondition, hkey', _⟩ := hallowed
  obtain rfl : found' = found := inj_on_of_nodup_map hsound.tidy.names hin' hin
    (congrArg MatchConditionKey.repository hkey')
  exact mem_discoverImages hparsed hmanaged hfound (hsound.tidy.operator _ hin)
    (tagConditions hsound hin) ⟨condition, hcondition, congrArg MatchConditionKey.name hkey'⟩
    hlisted (mapError_eq_ok.mp hdiscover)

end Theorem

/-! ## Three images -/

namespace Images

def lib : Library where
  isAuthority s := '/' ∉ s.toList && '@' ∉ s.toList
  badName s := s
  quote s := s
  sha256 s := s
  base64 s := s
  evaluate expression tag := .ok (expression = "tag == " ++ tag)

def marshal : RescanRequest → String := fun _ => ""

/-- The artifacts are kept in the namespace of the workload. -/
def perNamespace : Configuration where
  artifactsNamespace := ""
  scanInterval := none
  scanOnChange := true
  authSecret := ""
  caBundle := ""
  caBundleRef := none
  insecure := false
  platforms := []

theorem authority : ImageName.Authority lib.isAuthority where
  default := by decide
  noAt s h := by
    simp only [lib, Bool.and_eq_true, decide_eq_true_eq] at h
    exact h.2

theorem comparesTags : ComparesTags lib := by
  intro tag identifier
  show Except.ok (decide ("tag == " ++ tag = "tag == " ++ identifier)) = _
  simp only [String.append_right_inj]

def firstCall (images : List String) : Reconcile PUnit :=
  reconcileRegistries (controller lib marshal) noFault "prod" (images.map WorkloadScan.pod)
    perNamespace

def succeeds (images : List String) : Bool :=
  ((firstCall images).run.run Cluster.empty).1.toOption.isSome

theorem returns_of_succeeds {images : List String} (h : succeeds images = true) :
    ∃ c, (firstCall images).Returns Cluster.empty ⟨⟩ c := by
  unfold succeeds at h
  rcases hrun : (firstCall images).run.run Cluster.empty with ⟨e | _, c⟩
  · rw [hrun] at h
    cases h
  · exact ⟨c, hrun⟩

theorem sound_empty : AllManaged (Sound (controller lib marshal)) Cluster.empty := by
  intro registry hmem
  cases hmem

/-- No registry that the call leaves leads from the image to what the report asks for. -/
def Missed (images : List String) (reference : ImageName.Reference) : Prop :=
  ∃ image ∈ images, ImageName.parseReference lib.isAuthority image = some reference ∧
    ImageName.newRepository lib.isAuthority reference.context.name = some reference.context ∧
    ∃ c, (firstCall images).Returns Cluster.empty ⟨⟩ c ∧
      ∀ registry ∈ c.managed "prod", registry.spec.uri = reference.registry →
        ∀ imageRef, ¬Joined lib marshal registry reference imageRef

end Images

end SbomScanner.Catalog.Join

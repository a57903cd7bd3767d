import SbomScanner.WorkloadScan.Reports

/-!
# The pod updates that lead to no reconcile

The controller watches pods. An update is dropped when the images of the pod are the same as before,
whatever containers they are in. The registries depend on the images only, so they are not affected.
A report also depends on the containers and on the owner, and `dropped_update_iff` says which of the
dropped updates would have changed one.
-/

namespace SbomScanner.WorkloadScan

open Api Reports List ShortCircuit

inductive Event where
  | create (pod : Pod)
  | update (oldPod newPod : Pod)
  | delete (pod : Pod)

def podImagesChangedPredicate : Event → Bool
  | .create _ => true
  | .update oldPod newPod =>
    (extractImagesFromPodSpec oldPod.spec).insertionSort (· ≤ ·) ≠
      (extractImagesFromPodSpec newPod.spec).insertionSort (· ≤ ·)
  | .delete _ => true

variable {lib : Libraries} {choices choices' : Choices} {config : Configuration}
  {c c₁ c₂ : Cluster} {ns : String} {pods pods' : List Pod}

/-- An update that is dropped has the same images in another order. -/
theorem perm_of_dropped {oldPod newPod : Pod}
    (h : podImagesChangedPredicate (.update oldPod newPod) = false) :
    (extractImagesFromPodSpec oldPod.spec).Perm (extractImagesFromPodSpec newPod.spec) := by
  have hsorted : (extractImagesFromPodSpec oldPod.spec).insertionSort (· ≤ ·) =
      (extractImagesFromPodSpec newPod.spec).insertionSort (· ≤ ·) := by
    simpa [podImagesChangedPredicate] using h
  have hold := perm_insertionSort (· ≤ ·) (extractImagesFromPodSpec oldPod.spec)
  rw [hsorted] at hold
  exact hold.symm.trans (perm_insertionSort _ _)

/-! ## The registries -/

/-- The same registry, with the same match conditions in its repositories. -/
structure SameContents (registry other : Registry) : Prop where
  key : other.key = registry.key
  spec : other.spec = { registry.spec with repositories := other.spec.repositories }
  has_iff : ∀ key labels,
    Has other.spec.repositories key labels ↔ Has registry.spec.repositories key labels

def SameRegistries (ns : String) (c₁ c₂ : Cluster) : Prop :=
  (∀ registry ∈ c₁.managed ns, ∃ other ∈ c₂.managed ns, SameContents registry other) ∧
    ∀ registry ∈ c₂.managed ns, ∃ other ∈ c₁.managed ns, SameContents registry other

section Uses

variable (huses : ∀ reference, Uses lib pods reference ↔ Uses lib pods' reference)

include huses

theorem needs_iff (uri : String) (key : MatchConditionKey) :
    Needs lib pods uri key ↔ Needs lib pods' uri key := by
  unfold Needs
  simp only [huses]

/-- The table of a registry after the update depends on the images only. -/
theorem has_updated_iff {registry : Registry} {key : MatchConditionKey} {labels : Labels} :
    Has (updatedRepositories lib choices registry ns (contribution lib pods registry.spec.uri))
        key labels ↔
      Has (updatedRepositories lib choices' registry ns
        (contribution lib pods' registry.spec.uri)) key labels := by
  have hneeded : ∀ key, key ∈ buildNeededMatchConditions lib
      (contribution lib pods registry.spec.uri) ↔ key ∈ buildNeededMatchConditions lib
        (contribution lib pods' registry.spec.uri) := by
    intro key
    rw [mem_needed, mem_needed, needs_iff huses]
  rw [claims_updatedRepositories, claims_updatedRepositories]
  simp only [hneeded]

theorem exists_updatedBy (choices' : Choices) {registry other : Registry}
    (h : updatedBy lib choices ns pods config registry = some other) :
    ∃ other', updatedBy lib choices' ns pods' config registry = some other' ∧
      SameContents other other' := by
  obtain ⟨hkey, -, hne, hspec⟩ := updatedRegistry_frame h
  obtain ⟨key, labels, hhas⟩ := exists_has_of_ne_nil hne
  have hne' : updatedRepositories lib choices' registry ns
      (contribution lib pods' registry.spec.uri) ≠ [] := by
    intro hnil
    obtain ⟨repository, hmem, -⟩ := hnil ▸ (has_updated_iff huses).mp hhas
    cases hmem
  have h' : updatedBy lib choices' ns pods' config registry = some _ := if_neg hne'
  obtain ⟨hkey', -, -, hspec'⟩ := updatedRegistry_frame h'
  refine ⟨_, h', hkey'.trans hkey.symm, ?_, fun key labels => ?_⟩
  · rw [hspec', hspec]
    rfl
  · rw [hspec', hspec]
    show Has (sortRepositories _) _ _ ↔ Has (sortRepositories _) _ _
    rw [has_sortRepositories, has_sortRepositories, has_updated_iff huses]

variable {tags : RepositoryTags}

omit huses in
theorem key_newRegistry {uri target : String} :
    (newRegistry lib choices uri ns target tags config).key =
      (target, computeRegistryName lib uri) := rfl

theorem exists_newRegistry (choices' : Choices) {uri target : String}
    (h : (grouped lib pods).lookup uri = some tags) :
    ∃ tags', (grouped lib pods').lookup uri = some tags' ∧
      SameContents (newRegistry lib choices uri ns target tags config)
        (newRegistry lib choices' uri ns target tags' config) := by
  obtain ⟨repository, tag, hused⟩ := uses_of_lookup h
  obtain ⟨tags', htags'⟩ := exists_lookup_of_uses ((huses _).mp hused)
  refine ⟨tags', htags', key_newRegistry.trans key_newRegistry.symm, rfl, fun key labels => ?_⟩
  have hcontribution : contribution lib pods uri = tags := by
    rw [contribution, h]
    rfl
  have hcontribution' : contribution lib pods' uri = tags' := by
    rw [contribution, htags']
    rfl
  show Has (sortRepositories (newRepositories lib choices' uri ns tags')) key labels ↔
    Has (sortRepositories (newRepositories lib choices uri ns tags)) key labels
  rw [has_sortRepositories, has_sortRepositories, has_newRepositories, has_newRepositories,
    ← hcontribution, ← hcontribution', mem_needed, mem_needed, needs_iff huses]

section

variable (h₁ : (reconcileRegistries lib choices ns pods config).Returns c ⟨⟩ c₁)
include h₁

section

variable (h₂ : (reconcileRegistries lib choices' ns pods' config).Returns c ⟨⟩ c₂)
include h₂

theorem exists_sameContents {registry : Registry}
    (hregistry : registry ∈ c₁.managed (registryNamespace config ns)) :
    ∃ other ∈ c₂.managed (registryNamespace config ns), SameContents registry other := by
  rcases (mem_managed_reconcileRegistries h₁).mp hregistry with
    ⟨old, hold, hupdated⟩ | ⟨uri, tags, htags, hnew, rfl⟩
  · obtain ⟨other, hother, hsame⟩ := exists_updatedBy huses choices' hupdated
    exact ⟨other, (mem_managed_reconcileRegistries h₂).mpr (.inl ⟨old, hold, hother⟩), hsame⟩
  · obtain ⟨tags', htags', hsame⟩ := exists_newRegistry huses choices' htags
    refine ⟨_, (mem_managed_reconcileRegistries h₂).mpr (.inr ?_), hsame⟩
    exact ⟨uri, tags', htags', hnew, rfl⟩

/-- **The registries depend on the images only.** -/
theorem sameRegistries_of_uses :
    SameRegistries (registryNamespace config ns) c₁ c₂ :=
  ⟨fun _ => exists_sameContents huses h₁ h₂,
    fun _ => exists_sameContents (fun reference => (huses reference).symm) h₂ h₁⟩

end

end

end Uses

/-! ## The reports -/

namespace Reports

variable {lib : ReportLibraries} {resolve : PodObject → Except Error OwnerReference} {ns : String}
  {config : Configuration} {order order' : IterationOrder Loop} {pods pods' : List PodObject}
  {oldPod newPod pod : PodObject} {before after : List PodObject}

/-- A report is a matter of what the pods ask for. -/
theorem firstReport_congr
    (h : pods.map (reportFor lib resolve ns config) = pods'.map (reportFor lib resolve ns config)) :
    firstReport lib resolve ns config pods = firstReport lib resolve ns config pods' := by
  have hmap : ∀ pods name, firstReport lib resolve ns config pods name =
      firstOutcome (fun report => report.map Prod.fst = some name)
        (fun report => report.map Prod.snd) none (pods.map (reportFor lib resolve ns config)) := by
    intro pods name
    rw [firstOutcome_map]
    rfl
  funext name
  rw [hmap, hmap, h]

theorem reportFor_eq_none : reportFor lib resolve ns config pod = none ↔
    ∃ e, resolve pod = .error e := by
  rw [reportFor, Option.map_eq_none_iff]
  cases resolve pod with
  | error e => exact iff_of_true rfl ⟨e, rfl⟩
  | ok owner =>
    constructor
    · intro h
      cases h
    · rintro ⟨e, h⟩
      cases h

theorem managedReports_after_congr
    (h : pods.map (reportFor lib resolve ns config) = pods'.map (reportFor lib resolve ns config))
    (s : Store) :
    managedReports ns (Reports.after lib resolve order ns pods config s) =
      managedReports ns (Reports.after lib resolve order' ns pods' config s) := by
  have hnone : ∀ pods : List PodObject, (∃ pod ∈ pods, ∃ e, resolve pod = .error e) ↔
      none ∈ pods.map (reportFor lib resolve ns config) := by
    intro pods
    rw [mem_map]
    exact exists_congr fun pod => and_congr_right fun _ => reportFor_eq_none.symm
  by_cases hfails : ∃ pod ∈ pods, ∃ e, resolve pod = .error e
  · obtain ⟨pod', hpod', e', he'⟩ := (hnone pods').mpr (h ▸ (hnone pods).mp hfails)
    obtain ⟨pod, hpod, e, he⟩ := hfails
    rw [after_of_unresolved hpod he, after_of_unresolved hpod' he']
  · have hresolve : ∀ {pods : List PodObject}, (¬∃ pod ∈ pods, ∃ e, resolve pod = .error e) →
        ∀ pod ∈ pods, ∃ owner, resolve pod = .ok owner := by
      intro pods hnot pod hpod
      cases howner : resolve pod with
      | ok owner => exact ⟨owner, rfl⟩
      | error e => exact absurd ⟨pod, hpod, e, howner⟩ hnot
    have hfails' : ¬∃ pod ∈ pods', ∃ e, resolve pod = .error e := by
      rw [hnone, ← h, ← hnone]
      exact hfails
    rw [managedReports_after (hresolve hfails), managedReports_after (hresolve hfails'),
      firstReport_congr h]

theorem managedReports_after_singleton (pod : PodObject) :
    managedReports ns (Reports.after lib resolve order ns [pod] config .empty) =
      fun name => if (reportFor lib resolve ns config pod).map Prod.fst = some name then
        (reportFor lib resolve ns config pod).map Prod.snd else none := by
  cases howner : resolve pod with
  | error e =>
    rw [after_of_unresolved mem_cons_self howner, reportFor_eq_none.mpr ⟨e, howner⟩]
    rfl
  | ok owner =>
    rw [managedReports_after (fun _ hpod => by
      rw [mem_singleton.mp hpod]
      exact ⟨owner, howner⟩)]
    funext name
    simp only [firstReport, firstOutcome, decide_eq_true_eq]

theorem reportFor_eq_of_singleton
    (h : managedReports ns
        (Reports.after lib resolve order ns [oldPod] config .empty) =
      managedReports ns (Reports.after lib resolve order' ns [newPod] config .empty)) :
    reportFor lib resolve ns config oldPod = reportFor lib resolve ns config newPod := by
  rw [managedReports_after_singleton, managedReports_after_singleton] at h
  cases hold : reportFor lib resolve ns config oldPod with
  | none =>
    cases hnew : reportFor lib resolve ns config newPod with
    | none => rfl
    | some report =>
      have hname := congrFun h report.1
      simp [hold, hnew] at hname
  | some report =>
    have hname := congrFun h report.1
    rw [hold] at hname
    simp only [Option.map_some, if_true] at hname
    split at hname
    case isTrue heq =>
      obtain ⟨report', hreport', hfst⟩ := Option.map_eq_some_iff.mp heq
      rw [hreport', Option.map_some, Option.some.injEq] at hname
      rw [hreport']
      exact congrArg some (Prod.ext hfst.symm hname)
    case isFalse => cases hname

/-- The two pods ask for the same report: their owners are the same, and so are the references of
their containers. Nothing is asked for if the owners cannot be found. -/
def Interchangeable (lib : ReportLibraries) (resolve : PodObject → Except Error OwnerReference)
    (ns : String) (config : Configuration) (oldPod newPod : PodObject) : Prop :=
  match resolve oldPod, resolve newPod with
  | .ok owner, .ok owner' => owner = owner' ∧
      buildContainerRefs lib.toLibraries
          (if config.artifactsNamespace ≠ "" then config.artifactsNamespace else ns) oldPod.spec =
        buildContainerRefs lib.toLibraries
          (if config.artifactsNamespace ≠ "" then config.artifactsNamespace else ns) newPod.spec
  | .error _, .error _ => True
  | _, _ => False

theorem reportFor_eq_iff :
    reportFor lib resolve ns config oldPod = reportFor lib resolve ns config newPod ↔
      Interchangeable lib resolve ns config oldPod newPod := by
  unfold Interchangeable reportFor
  cases resolve oldPod with
  | error e =>
    cases resolve newPod with
    | error e' => exact iff_of_true rfl trivial
    | ok owner' => exact iff_of_false nofun id
  | ok owner =>
    cases resolve newPod with
    | error e' => exact iff_of_false nofun id
    | ok owner' =>
      constructor
      · intro h
        obtain ⟨-, hcontent⟩ := Prod.mk.inj (Option.some.inj h)
        obtain ⟨howners, hcontainers⟩ := Content.mk.inj hcontent
        exact ⟨singleton_inj.mp howners, hcontainers⟩
      · rintro ⟨rfl, hcontainers⟩
        simp only [contentOf, hcontainers]

end Reports

/-- The images that a list of pods uses, when one of them is updated and the event is dropped. -/
theorem uses_of_dropped {oldPod newPod : Pod} {before after : List Pod}
    (h : podImagesChangedPredicate (.update oldPod newPod) = false) (reference : Reference) :
    Uses lib (before ++ oldPod :: after) reference ↔
      Uses lib (before ++ newPod :: after) reference := by
  have hmem := fun image => (perm_of_dropped h).mem_iff (a := image)
  simp only [Uses, mem_append, mem_cons, or_and_right, exists_or, exists_eq_left, hmem]

/-- **The updates that are dropped.** Among the pods of a namespace, one is updated and the event is
dropped. With any other pods, a reconcile would leave the same managed registries and the same
managed reports as before the update iff the pod asks for the same report as before. -/
theorem dropped_update_iff (lib : ReportLibraries)
    (resolve : PodObject → Except Error OwnerReference) (ns : String) (config : Configuration)
    (oldPod newPod : PodObject)
    (hdropped : podImagesChangedPredicate (.update oldPod.toPod newPod.toPod) = false) :
    (∀ before after : List PodObject,
      (∀ choices choices' c c₁ c₂,
        (reconcileRegistries lib.toLibraries choices ns
          ((before ++ oldPod :: after).map (·.toPod)) config).Returns c ⟨⟩ c₁ →
        (reconcileRegistries lib.toLibraries choices' ns
          ((before ++ newPod :: after).map (·.toPod)) config).Returns c ⟨⟩ c₂ →
        SameRegistries (registryNamespace config ns) c₁ c₂) ∧
      ∀ order order' s,
        managedReports ns
            (Reports.after lib resolve order ns (before ++ oldPod :: after) config s) =
          managedReports ns
            (Reports.after lib resolve order' ns (before ++ newPod :: after) config s)) ↔
    Interchangeable lib resolve ns config oldPod newPod := by
  rw [← reportFor_eq_iff]
  constructor
  · intro h
    exact reportFor_eq_of_singleton ((h [] []).2 .asStored .asStored .empty)
  · intro h before after
    constructor
    · intro choices choices' c c₁ c₂ h₁ h₂
      refine sameRegistries_of_uses (fun reference => ?_) h₁ h₂
      rw [map_append, map_cons, map_append, map_cons]
      exact uses_of_dropped hdropped reference
    · intro order order' s
      apply managedReports_after_congr
      rw [map_append, map_cons, map_append, map_cons, h]

/-! ## Updates that are dropped -/

def podWith (containers : List Container) (ownerReferences : List OwnerReference) : PodObject where
  spec := ⟨[], containers⟩
  name := "web"
  ns := "a"
  uid := "p1"
  ownerReferences := ownerReferences

def artifact (tag : String) : ImageRef :=
  ⟨"workloadscan-index.docker.io", "artifacts", "library/app", tag⟩

/-- Two containers swap their images; a pod is taken over by a ReplicaSet. Neither update leads to a
reconcile, and each would change the reports. -/
theorem dropped_updates_change_reports :
    (podImagesChangedPredicate
        (.update (podWith [⟨"app", "app:1"⟩, ⟨"proxy", "app:2"⟩] []).toPod
          (podWith [⟨"app", "app:2"⟩, ⟨"proxy", "app:1"⟩] []).toPod) = false ∧
      (appReport [podWith [⟨"app", "app:1"⟩, ⟨"proxy", "app:2"⟩] []] "pod-p1").map
        (·.containers) = some [⟨"app", artifact "1"⟩, ⟨"proxy", artifact "2"⟩] ∧
      (appReport [podWith [⟨"app", "app:2"⟩, ⟨"proxy", "app:1"⟩] []] "pod-p1").map
        (·.containers) = some [⟨"app", artifact "2"⟩, ⟨"proxy", artifact "1"⟩]) ∧
    (podImagesChangedPredicate
        (.update (podWith [⟨"app", "app:1"⟩] []).toPod
          (podWith [⟨"app", "app:1"⟩] [controlledBy "ReplicaSet" "app-5d" "r1"]).toPod) = false ∧
      (appReport [podWith [⟨"app", "app:1"⟩] []] "deployment-d1").isNone ∧
      (appReport [podWith [⟨"app", "app:1"⟩] [controlledBy "ReplicaSet" "app-5d" "r1"]]
        "deployment-d1").isSome) := by
  decide +kernel

/-- The containers are listed in another order. -/
theorem dropped_update_iff_relisted :
    podImagesChangedPredicate
        (.update (podWith [⟨"app", "app:1"⟩, ⟨"proxy", "app:2"⟩] []).toPod
          (podWith [⟨"proxy", "app:2"⟩, ⟨"app", "app:1"⟩] []).toPod) = false ∧
    ∀ name, appReport [podWith [⟨"app", "app:1"⟩, ⟨"proxy", "app:2"⟩] []] name =
      appReport [podWith [⟨"proxy", "app:2"⟩, ⟨"app", "app:1"⟩] []] name := by
  have hdropped : podImagesChangedPredicate
      (.update (podWith [⟨"app", "app:1"⟩, ⟨"proxy", "app:2"⟩] []).toPod
        (podWith [⟨"proxy", "app:2"⟩, ⟨"app", "app:1"⟩] []).toPod) = false := by
    decide
  have hsame := (dropped_update_iff appImages (resolveWorkloadOwner appDeployment) "a" scanOnChange
    _ _ hdropped).mpr ⟨rfl, by decide +kernel⟩
  have hreports := (hsame [] []).2 .asStored .asStored .empty
  rw [nil_append, nil_append] at hreports
  refine ⟨hdropped, fun name => ?_⟩
  unfold appReport
  rw [hreports]

end SbomScanner.WorkloadScan

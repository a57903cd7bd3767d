import SbomScanner.Runner.Validity

/-!
# Additions and the requests for them

Each call of `updateRegistry` posts a rescan request for the match conditions it has added to the
Registry, and the runner reads the requests of all the calls since its last tick together. What it
reads is what the calls have added (`decoded_iff_added`): the pairs of a repository and a match
condition that were there after some call and not before it, whether or not a later call has taken
them back.

A request names a match condition by its name, whereas a call compares match conditions by their
expressions as well. The two agree because the workload scan derives both from the tag.
-/

namespace SbomScanner.Runner

open Api WorkloadScan Transition List Strings Finmap

/-! ## Registries of the workload scan -/

/-- A Registry that the workload scan has created and updated, and from which the runner may have
removed annotations. -/
inductive Written (lib : Libraries) : Registry → Prop where
  | created (choices : WorkloadScan.Choices) (uri ns target : String) (tags : RepositoryTags)
      (config : Configuration) : Written lib (newRegistry lib choices uri ns target tags config)
  | updated {registry other : Registry} (choices : WorkloadScan.Choices) (ns : String)
      (tags : RepositoryTags) (config : Configuration) (h : Written lib registry)
      (hupdated : updatedRegistry lib choices ns tags config registry = some other) :
      Written lib other
  | served {registry : Registry} (keys : List String) (h : Written lib registry) :
      Written lib (withoutAnnotations keys registry)

variable {lib : Libraries} {unmarshal : Unmarshal} {registry other : Registry}
  {choices : WorkloadScan.Choices} {ns : String} {tags : RepositoryTags} {config : Configuration}
  {name cond : String}

variable {labels : Labels} {key : MatchConditionKey}

theorem has_updatedRegistry
    (hupdated : updatedRegistry lib choices ns tags config registry = some other)
    (h : Has other.spec.repositories key labels) :
    (∃ old, Has registry.spec.repositories key old) ∨
      key ∈ buildNeededMatchConditions lib tags := by
  rw [(updatedRegistry_frame hupdated).2.2.2] at h
  obtain ⟨hne, old, hbefore, hlabels⟩ := claims_updatedRepositories.mp (has_sortRepositories.mp h)
  rcases hbefore with hold | ⟨rfl, -⟩
  · exact .inl ⟨old, hold⟩
  · exact .inr (claimLabels_empty.mp ⟨hne, hlabels⟩).1

/-- The match conditions are those of tags. -/
theorem Written.tag (h : Written lib registry) (hhas : Has registry.spec.repositories key labels) :
    ∃ tag, key = tagKey lib key.repository tag := by
  have htag : ∀ {tags : RepositoryTags}, key ∈ buildNeededMatchConditions lib tags →
      ∃ tag, key = tagKey lib key.repository tag := by
    intro tags hneeded
    obtain ⟨tag, -, hkey⟩ := mem_buildNeededMatchConditions.mp hneeded
    exact ⟨tag, hkey⟩
  induction h generalizing labels with
  | created choices uri ns target tags config =>
    exact htag (has_newRepositories.mp (has_sortRepositories.mp hhas)).1
  | updated choices ns tags config h hupdated ih =>
    rcases has_updatedRegistry hupdated hhas with ⟨old, hold⟩ | hneeded
    · exact ih hold
    · exact htag hneeded
  | served keys h ih => exact ih hhas

/-- The name of a match condition determines its expression. -/
theorem Written.key_eq (h : Written lib registry) (h' : Written lib other)
    {key' : MatchConditionKey} {labels' : Labels} (hhas : Has registry.spec.repositories key labels)
    (hhas' : Has other.spec.repositories key' labels')
    (hrepository : key.repository = key'.repository) (hname : key.name = key'.name) :
    key = key' := by
  obtain ⟨tag, hkey⟩ := h.tag hhas
  obtain ⟨tag', hkey'⟩ := h'.tag hhas'
  have htag : tagName tag = tagName tag' :=
    (congrArg MatchConditionKey.name hkey).symm.trans
      (hname.trans (congrArg MatchConditionKey.name hkey'))
  rw [hkey, hkey', hrepository, tagName_inj.mp htag]

/-! ## The requests on them -/

theorem isRescanRequested_newKey {registry : String} :
    isRescanRequested (newRescanRequestedAnnotationKey choices registry) = true := by
  unfold isRescanRequested newRescanRequestedAnnotationKey
  rw [cutPrefix_eq_some.mpr rfl]
  rfl

/-- What is added, as the call sees it. -/
def addedKeys (before after : Registry) : List MatchConditionKey :=
  (extractMatchConditionsFromRegistry after).filter (· ∉ extractMatchConditionsFromRegistry before)

theorem annotations_updatedRegistry
    (hupdated : updatedRegistry lib choices ns tags config registry = some other) :
    other.annotations =
      if config.scanOnChange && !(addedKeys registry other).isEmpty then
        registry.annotations.insert (newRescanRequestedAnnotationKey choices registry.name)
          (lib.marshal (buildRescanRequest (addedKeys registry other)))
      else
        registry.annotations := by
  simp only [updatedRegistry] at hupdated
  split at hupdated
  · cases hupdated
  · cases hupdated
    unfold addedKeys
    rw [extract_markForRescan]
    unfold markForRescan
    dsimp only
    split <;> rfl

theorem mem_addedKeys : key ∈ addedKeys registry other ↔
    (∃ labels, Has other.spec.repositories key labels) ∧
      ¬∃ labels, Has registry.spec.repositories key labels := by
  have hmem : ∀ registry : Registry, key ∈ extractMatchConditionsFromRegistry registry ↔
      ∃ labels, Has registry.spec.repositories key labels := by
    intro registry
    rw [extractMatchConditionsFromRegistry, mem_dedup, exists_has]
    simp only [mem_flatMap, mem_map]
  rw [addedKeys, mem_filter, decide_eq_true_eq, hmem, hmem]

def AsksFor (repositories : List ScanJobRepository) (name cond : String) : Prop :=
  ∃ repo ∈ repositories, repo.name = name ∧ cond ∈ repo.matchConditions

theorem asksFor_buildRescanRequest {added : List MatchConditionKey} :
    AsksFor (buildRescanRequest added).repositories name cond ↔
      ∃ key ∈ added, key.repository = name ∧ key.name = cond := by
  constructor
  · rintro ⟨repo, hrepo, rfl, hcond⟩
    exact (mem_buildRescanRequest hrepo).2 cond hcond
  · rintro ⟨key, hkey, rfl, rfl⟩
    refine ⟨_, mem_map.mpr ⟨key.repository, ?_, rfl⟩, rfl, ?_⟩
    · rw [mem_insertionSort, mem_dedup]
      exact mem_map_of_mem hkey
    · rw [mem_insertionSort, mem_dedup]
      exact mem_map_of_mem (mem_filter.mpr ⟨hkey, by simp⟩)

theorem asksFor_addedKeys (h : Written lib registry) (h' : Written lib other) :
    AsksFor (buildRescanRequest (addedKeys registry other)).repositories name cond ↔
      Declares other.spec.repositories name cond ∧
        ¬Declares registry.spec.repositories name cond := by
  rw [asksFor_buildRescanRequest]
  constructor
  · rintro ⟨key, hkey, rfl, rfl⟩
    obtain ⟨⟨labels, hhas⟩, hnew⟩ := mem_addedKeys.mp hkey
    refine ⟨⟨key, labels, hhas, rfl, rfl⟩, ?_⟩
    rintro ⟨key', labels', hhas', hrepository, hname⟩
    rw [h.key_eq h' hhas' hhas hrepository hname] at hhas'
    exact hnew ⟨labels', hhas'⟩
  · rintro ⟨⟨key, labels, hhas, rfl, rfl⟩, hnew⟩
    refine ⟨key, mem_addedKeys.mpr ⟨⟨labels, hhas⟩, ?_⟩, rfl, rfl⟩
    rintro ⟨labels', hhas'⟩
    exact hnew ⟨key, labels', hhas', rfl, rfl⟩

variable (hjson : ∀ req, unmarshal (lib.marshal req) = some req)
  (hmarshal : ∀ req, lib.marshal req ≠ "")

include hjson hmarshal

theorem decode_marshal (req : RescanRequest) :
    decodeRescanRequest unmarshal (lib.marshal req) = some req := by
  rw [decodeRescanRequest, if_neg (hmarshal req), hjson]

variable {req : RescanRequest}

/-- A request on the updated registry was there before, or is that for what is added. -/
theorem wellFormed_of_updated
    (hupdated : updatedRegistry lib choices ns tags config registry = some other)
    (h : WellFormed unmarshal other req) :
    WellFormed unmarshal registry req ∨
      req = buildRescanRequest (addedKeys registry other) ∧ addedKeys registry other ≠ [] := by
  obtain ⟨key, hkey, hrequested, hreq⟩ := h
  rw [requestUnder] at hreq
  rw [annotations_updatedRegistry hupdated] at hkey hreq
  split at hkey
  · next hadded =>
      rw [if_pos hadded] at hreq
      by_cases hnew : key = newRescanRequestedAnnotationKey choices registry.name
      · rw [hnew, lookup_insert, Option.getD_some, decode_marshal hjson hmarshal] at hreq
        cases hreq
        exact .inr ⟨rfl, by simpa using (Bool.and_eq_true_iff.mp hadded).2⟩
      · rw [lookup_insert_of_ne _ hnew] at hreq
        exact .inl ⟨key, (mem_insert.mp hkey).resolve_left hnew, hrequested, hreq⟩
  · next hadded =>
      rw [if_neg hadded] at hreq
      exact .inl ⟨key, hkey, hrequested, hreq⟩

/-- With a key of its own, the request for what is added comes on top of the others. -/
theorem wellFormed_updated_iff (hscan : config.scanOnChange = true)
    (hfresh : newRescanRequestedAnnotationKey choices registry.name ∉ registry.annotations)
    (hupdated : updatedRegistry lib choices ns tags config registry = some other) :
    WellFormed unmarshal other req ↔ WellFormed unmarshal registry req ∨
      req = buildRescanRequest (addedKeys registry other) ∧ addedKeys registry other ≠ [] := by
  refine ⟨wellFormed_of_updated hjson hmarshal hupdated, ?_⟩
  rintro (⟨key, hkey, hrequested, hreq⟩ | ⟨rfl, hadded⟩)
  · have hne : key ≠ newRescanRequestedAnnotationKey choices registry.name := by
      rintro rfl
      exact hfresh hkey
    refine ⟨key, ?_, hrequested, ?_⟩
    · rw [annotations_updatedRegistry hupdated]
      split
      · exact mem_insert.mpr (.inr hkey)
      · exact hkey
    · rw [requestUnder, annotations_updatedRegistry hupdated]
      split
      · rw [lookup_insert_of_ne _ hne]
        exact hreq
      · exact hreq
  · have hannotations : other.annotations = registry.annotations.insert
        (newRescanRequestedAnnotationKey choices registry.name)
        (lib.marshal (buildRescanRequest (addedKeys registry other))) := by
      rw [annotations_updatedRegistry hupdated, if_pos (by simp [hscan, hadded])]
    refine ⟨newRescanRequestedAnnotationKey choices registry.name, ?_, isRescanRequested_newKey, ?_⟩
    · rw [hannotations]
      exact mem_insert.mpr (.inl rfl)
    · rw [requestUnder, hannotations, lookup_insert, Option.getD_some,
        decode_marshal hjson hmarshal]

/-- The requests of the workload scan are for a whole registry, or for match conditions. -/
theorem Written.conditions (h : Written lib registry) (hreq : WellFormed unmarshal registry req)
    {repo : ScanJobRepository} (hrepo : repo ∈ req.repositories) : repo.matchConditions ≠ [] := by
  induction h with
  | created choices uri ns target tags config =>
    obtain ⟨key, hkey, hrequested, hreq⟩ := hreq
    exact absurd ⟨key, hkey, hrequested, req, hreq, hrepo⟩ (not_pending_new hjson)
  | updated choices ns tags config h hupdated ih =>
    rcases wellFormed_of_updated hjson hmarshal hupdated hreq with hold | ⟨rfl, -⟩
    · exact ih hold
    · exact (mem_buildRescanRequest hrepo).1
  | served keys h ih => exact ih hreq.of_withoutAnnotations

omit hjson hmarshal

/-! ## What is decoded -/

/-- The pairs that the runner decodes from the annotations. -/
def Decoded (order : IterationOrder Loop) (unmarshal : Unmarshal) (registry : Registry)
    (name cond : String) : Prop :=
  AsksFor (collectRescanRequests order unmarshal registry).mergedTargets name cond

variable {order : IterationOrder Loop}

theorem mergedTargets_eq_targets :
    (collectRescanRequests order unmarshal registry).mergedTargets =
      (collectRescanRequests order unmarshal registry).targets := by
  unfold collectRescanRequests
  by_cases hkeys : rescanKeys order registry = []
  · simp [hkeys, Collected.targets]
  · cases hmerged : (mergeAll unmarshal registry.annotations (rescanKeys order registry)).2 <;>
      simp [hkeys, Collected.targets, hmerged]

/-- If all requests are for match conditions, all of these are decoded, and nothing else. -/
theorem decoded_iff
    (h : ∀ req, WellFormed unmarshal registry req → req.repositories ≠ [] ∧
      ∀ repo ∈ req.repositories, repo.matchConditions ≠ []) :
    Decoded order unmarshal registry name cond ↔
      ∃ req, WellFormed unmarshal registry req ∧ AsksFor req.repositories name cond := by
  rw [Decoded, mergedTargets_eq_targets]
  constructor
  · rintro ⟨target, htarget, rfl, hcond⟩
    obtain ⟨repo, hrequested, hname, hcond⟩ := (requested_of_mem_targets htarget).2 cond hcond
    obtain ⟨req, hreq, hrepo⟩ := requested_iff_wellFormed.mp hrequested
    exact ⟨req, hreq, repo, hrepo, hname, hcond⟩
  · rintro ⟨req, hreq, repo, hrepo, rfl, hcond⟩
    have hexact := @exactTargets_collectRescanRequests _ order _ _ hreq
    have hsome : (collectRescanRequests order unmarshal registry).targets ≠ [] := by
      intro hempty
      obtain ⟨req, hreq, hnone⟩ := hexact.everything_iff.mp hempty
      exact (h req hreq).1 hnone
    have hscans := hexact.scans_iff.mpr
      ⟨req, hreq, .inr ⟨repo, hrepo, rfl, .inr ⟨cond, rfl, hcond⟩⟩⟩
    rcases hscans with hempty | ⟨target, htarget, hname, hwhole | ⟨_, hsame, hmem⟩⟩
    · exact absurd hempty hsome
    · -- no request asks for the repository as a whole
      obtain ⟨req, hreq, repo, hrepo, -, hempty⟩ := (hexact.whole_iff target htarget).mp hwhole
      exact absurd hempty ((h req hreq).2 repo hrepo)
    · cases hsame
      exact ⟨target, htarget, hname, hmem⟩

/-! ## A sequence of calls -/

structure UpdateCall where
  sourceNamespace : String
  repositories : RepositoryTags
  config : Configuration
  choices : WorkloadScan.Choices

def registryAt (key : String × String) (c : Cluster) : Option Registry :=
  c.registries.find? (·.key = key)

/-- The call on the Registry as it is in the cluster. It may fail, or find that nothing is left of
the Registry; the Registry then stays as it is. -/
def update (lib : Libraries) (key : String × String) (c : Cluster) (call : UpdateCall) :
    Option Cluster :=
  (registryAt key c).map fun registry => ((updateRegistry lib call.choices registry
    call.sourceNamespace call.repositories call.config).run.run c).2

/-- The call posts requests, and under a key that is not in use. -/
def PostsFresh (key : String × String) (c : Cluster) (call : UpdateCall) : Prop :=
  call.config.scanOnChange = true ∧ ∀ registry ∈ registryAt key c,
    newRescanRequestedAnnotationKey call.choices registry.name ∉ registry.annotations

def Present (key : String × String) (c : Cluster) (name cond : String) : Prop :=
  ∃ registry ∈ registryAt key c, Declares registry.spec.repositories name cond

/-- The pairs that the calls add: present after one of them and absent before it. -/
def Added (lib : Libraries) (key : String × String) :
    Cluster → List UpdateCall → String → String → Prop
  | _, [], _, _ => False
  | c, call :: calls, name, cond => ∃ c' ∈ update lib key c call,
      (Present key c' name cond ∧ ¬Present key c name cond) ∨ Added lib key c' calls name cond

variable {key : String × String} {c c' : Cluster} {call : UpdateCall}

theorem registryAt_eq_some : registryAt key c = some registry ↔
    registry ∈ c.registries ∧ registry.key = key := by
  constructor
  · intro h
    exact ⟨mem_of_find?_eq_some h, by simpa using List.find?_some h⟩
  · rintro ⟨hmem, rfl⟩
    have hsome : (registryAt registry.key c).isSome := by
      rw [registryAt, List.find?_isSome]
      exact ⟨registry, hmem, by simp⟩
    obtain ⟨found, hfound⟩ := Option.isSome_iff_exists.mp hsome
    have hkey : found.key = registry.key := by simpa using List.find?_some hfound
    rw [hfound, Cluster.eq_of_key (mem_of_find?_eq_some hfound) hmem hkey]

theorem updateRegistry_throws {e : WorkloadScan.Error}
    (h : (updateRegistry lib choices registry ns tags config).Throws c e c') : c' = c := by
  unfold updateRegistry at h
  by_cases hempty : updatedRepositories lib choices registry ns tags = []
  · simp only [hempty, if_true] at h
    cases h
  · simp only [hempty, if_false] at h
    rcases Procedure.throws_bind.mp h with hrequest | ⟨_, t, -, hreturn⟩
    · exact request_throws hrequest
    · cases hreturn

theorem update_cases (h : update lib key c call = some c') :
    ∃ registry, registryAt key c = some registry ∧ (c' = c ∨ ∃ other,
      updatedRegistry lib call.choices call.sourceNamespace call.repositories call.config registry =
        some other ∧ registryAt key c' = some other) := by
  obtain ⟨registry, hregistry, rfl⟩ := Option.map_eq_some_iff.mp h
  refine ⟨registry, hregistry, ?_⟩
  rcases hrun : (updateRegistry lib call.choices registry call.sourceNamespace
    call.repositories call.config).run.run c with ⟨e | b, t⟩
  · exact .inl (updateRegistry_throws hrun)
  · rcases updateRegistry_returns hrun with ⟨-, hsame, -⟩ | ⟨-, other, hupdate, hupdated⟩
    · exact .inl hsame
    · refine .inr ⟨other, hupdated, registryAt_eq_some.mpr ?_⟩
      refine ⟨(Cluster.mem_update hupdate).mpr (.inl rfl), ?_⟩
      exact (updatedRegistry_frame hupdated).1.trans (registryAt_eq_some.mp hregistry).2

/-- The Registry is one of the workload scan, and no request on it is for the whole registry. -/
structure Targeted (lib : Libraries) (unmarshal : Unmarshal) (registry : Registry) : Prop where
  written : Written lib registry
  targeted : ∀ req, WellFormed unmarshal registry req → req.repositories ≠ []

theorem present_iff (h : registryAt key c = some registry) :
    Present key c name cond ↔ Declares registry.spec.repositories name cond := by
  simp [Present, h]

/-- Without a new pair there is no new annotation. -/
theorem annotations_eq (h : Written lib registry)
    (hupdated : updatedRegistry lib choices ns tags config registry = some other)
    (hnone : ∀ name cond, Declares other.spec.repositories name cond →
      Declares registry.spec.repositories name cond) :
    other.annotations = registry.annotations := by
  have hadded : addedKeys registry other = [] := by
    rw [eq_nil_iff_forall_not_mem]
    intro key hkey
    have hasks : AsksFor (buildRescanRequest (addedKeys registry other)).repositories
        key.repository key.name := asksFor_buildRescanRequest.mpr ⟨key, hkey, rfl, rfl⟩
    obtain ⟨hnew, hold⟩ := (asksFor_addedKeys h (.updated _ _ _ _ h hupdated)).mp hasks
    exact hold (hnone _ _ hnew)
  rw [annotations_updatedRegistry hupdated, hadded]
  simp

include hjson hmarshal

section

variable (h : Targeted lib unmarshal registry)
include h

theorem targeted_updated
    (hupdated : updatedRegistry lib choices ns tags config registry = some other) :
    Targeted lib unmarshal other := by
  refine ⟨.updated _ _ _ _ h.written hupdated, fun req hreq => ?_⟩
  rcases wellFormed_of_updated hjson hmarshal hupdated hreq with hold | ⟨rfl, hadded⟩
  · exact h.targeted req hold
  · obtain ⟨key, hkey⟩ := exists_mem_of_ne_nil _ hadded
    obtain ⟨repo, hrepo, -⟩ := asksFor_buildRescanRequest.mpr ⟨key, hkey, rfl, rfl⟩
    exact ne_nil_of_mem hrepo

theorem decoded_iff_wellFormed :
    Decoded order unmarshal registry name cond ↔
      ∃ req, WellFormed unmarshal registry req ∧ AsksFor req.repositories name cond :=
  decoded_iff fun req hreq => ⟨h.targeted req hreq,
    fun _ hrepo => h.written.conditions hjson hmarshal hreq hrepo⟩

/-- One call: what is decoded grows by the pairs that are new. -/
theorem decoded_updated (hscan : config.scanOnChange = true)
    (hfresh : newRescanRequestedAnnotationKey choices registry.name ∉ registry.annotations)
    (hupdated : updatedRegistry lib choices ns tags config registry = some other) :
    Decoded order unmarshal other name cond ↔ Decoded order unmarshal registry name cond ∨
      Declares other.spec.repositories name cond ∧
        ¬Declares registry.spec.repositories name cond := by
  have h' : Targeted lib unmarshal other := targeted_updated hjson hmarshal h hupdated
  rw [decoded_iff_wellFormed hjson hmarshal h, decoded_iff_wellFormed hjson hmarshal h',
    ← asksFor_addedKeys h.written h'.written]
  simp only [wellFormed_updated_iff hjson hmarshal hscan hfresh hupdated]
  constructor
  · rintro ⟨req, hold | ⟨rfl, -⟩, hasks⟩
    · exact .inl ⟨req, hold, hasks⟩
    · exact .inr hasks
  · rintro (⟨req, hold, hasks⟩ | hasks)
    · exact ⟨req, .inl hold, hasks⟩
    · obtain ⟨key, hkey, -⟩ := asksFor_buildRescanRequest.mp hasks
      exact ⟨_, .inr ⟨rfl, ne_nil_of_mem hkey⟩, hasks⟩

end

/-- The same for the cluster, with a call that may also fail or leave nothing of the Registry. -/
theorem decoded_update (hregistry : registryAt key c = some registry)
    (h : Targeted lib unmarshal registry) (hguard : PostsFresh key c call)
    (hstep : update lib key c call = some c') :
    ∃ other, registryAt key c' = some other ∧ Targeted lib unmarshal other ∧
      ((∀ name cond, Present key c' name cond → Present key c name cond) →
        other.annotations = registry.annotations) ∧
      ∀ order name cond, Decoded order unmarshal other name cond ↔
        Decoded order unmarshal registry name cond ∨
          Present key c' name cond ∧ ¬Present key c name cond := by
  obtain ⟨current, hcurrent, hcases⟩ := update_cases hstep
  obtain rfl := Option.some.inj (hregistry.symm.trans hcurrent)
  rcases hcases with rfl | ⟨other, hupdated, hother⟩
  · refine ⟨registry, hregistry, h, fun _ => rfl, fun order name cond => ?_⟩
    simp
  · refine ⟨other, hother, targeted_updated hjson hmarshal h hupdated, ?_, ?_⟩
    · simp only [present_iff hregistry, present_iff hother]
      exact annotations_eq h.written hupdated
    · intro order name cond
      rw [present_iff hregistry, present_iff hother]
      exact decoded_updated hjson hmarshal h hguard.1 (hguard.2 registry hregistry) hupdated

/-- The call has added no pair, and it has added no annotation. -/
def QuietIfUnchanged (lib : Libraries) (key : String × String) (c : Cluster) (call : UpdateCall) :
    Prop :=
  ∀ c', update lib key c call = some c' →
    (∀ name cond, Present key c' name cond → Present key c name cond) →
    (registryAt key c').map (·.annotations) = (registryAt key c).map (·.annotations)

/-- **Additions are requested.** Let any namespaces call `updateRegistry`, one after the other, on a
Registry of the workload scan that has no request for the whole registry on it. Then the runner
decodes, besides what it would have decoded before, the pairs that one of the calls has added, and
only these; and a call that adds no pair adds no annotation. -/
theorem decoded_iff_added {calls : List UpdateCall} (hregistry : registryAt key c = some registry)
    (hwritten : Written lib registry)
    (htargeted : ∀ req, WellFormed unmarshal registry req → req.repositories ≠ [])
    (hguard : Along (PostsFresh key) (update lib key) c calls)
    (hrun : exec (update lib key) c calls = some c') :
    (∃ other, registryAt key c' = some other ∧ ∀ order name cond,
      Decoded order unmarshal other name cond ↔
        Decoded order unmarshal registry name cond ∨ Added lib key c calls name cond) ∧
    Along (QuietIfUnchanged lib key) (update lib key) c calls := by
  have h : Targeted lib unmarshal registry := ⟨hwritten, htargeted⟩
  clear hwritten htargeted
  induction calls generalizing c registry with
  | nil =>
    cases hrun
    exact ⟨⟨registry, hregistry, fun order name cond => by simp [Added]⟩, trivial⟩
  | cons call calls ih =>
    obtain ⟨c₁, hstep, hrest⟩ := exec_cons_eq_some.mp hrun
    obtain ⟨hfresh, hguard⟩ := along_cons hguard hstep
    obtain ⟨other, hother, htargeted, hquiet, hdecoded⟩ :=
      decoded_update hjson hmarshal hregistry h hfresh hstep
    obtain ⟨⟨last, hlast, hiff⟩, hall⟩ := ih hother hguard hrest htargeted
    refine ⟨⟨last, hlast, fun order name cond => ?_⟩, .cons ?_ hstep hall⟩
    · rw [hiff, hdecoded]
      simp [Added, hstep, or_assoc]
    · intro c₂ hstep' hnone
      obtain rfl := Option.some.inj (hstep.symm.trans hstep')
      rw [hother, hregistry, Option.map_some, Option.map_some, hquiet hnone]

/-! ## An example -/

omit hjson hmarshal

instance (key : String × String) (c : Cluster) (call : UpdateCall) :
    Decidable (PostsFresh key c call) := by
  unfold PostsFresh
  infer_instance

/-- The text form of `writeRequest` after a bracket. -/
def bracketed : Libraries := { versions with marshal := fun req => "[" ++ writeRequest req }

def readBracketed (text : String) : Option RescanRequest :=
  (cutPrefix text "[").bind readRequest

theorem readBracketed_marshal (req : RescanRequest) :
    readBracketed (bracketed.marshal req) = some req := by
  have hcut : cutPrefix ("[" ++ writeRequest req) "[" = some (writeRequest req) :=
    cutPrefix_eq_some.mpr rfl
  show (cutPrefix ("[" ++ writeRequest req) "[").bind readRequest = some req
  rw [hcut]
  exact readRequest_writeRequest req

def tagsOfApp (tags : List String) : RepositoryTags := AList.singleton "app" tags

def uuidChoices (uuid : String) : WorkloadScan.Choices := ⟨.asStored, fun _ => uuid, fun _ => none⟩

/-- A Registry for version 1 whose first scan has been created. -/
def scannedOnce : Registry :=
  withoutAnnotations [annotationRescanRequestedKeyPrefix ++ "a"]
    (newRegistry bracketed (uuidChoices "a") "r.example" "team" "team" (tagsOfApp ["1"])
      scanOnChange)

def scannedOnceOnly : Cluster := ⟨[scannedOnce], nodup_singleton _⟩

/-- Version 2 is added, and then replaced by version 3. -/
def replacedTag : List UpdateCall :=
  [⟨"team", tagsOfApp ["1", "2"], scanOnChange, uuidChoices "b"⟩,
    ⟨"team", tagsOfApp ["1", "3"], scanOnChange, uuidChoices "c"⟩]

theorem decoded_iff_added_replacedTag :
    ∃ c', exec (update bracketed scannedOnce.key) scannedOnceOnly replacedTag = some c' ∧
      (∃ other, registryAt scannedOnce.key c' = some other ∧ ∀ order name cond,
        Decoded order readBracketed other name cond ↔
          Decoded order readBracketed scannedOnce name cond ∨
            Added bracketed scannedOnce.key scannedOnceOnly replacedTag name cond) ∧
      Along (QuietIfUnchanged bracketed scannedOnce.key) (update bracketed scannedOnce.key)
        scannedOnceOnly replacedTag := by
  have hmarshal : ∀ req, bracketed.marshal req ≠ "" := by
    intro req
    simp [bracketed]
  have hnone : ∀ req, WellFormed readBracketed scannedOnce req → req.repositories ≠ [] := by
    rintro req ⟨key, hkey, -⟩
    have hempty : scannedOnce.annotations = ∅ := by decide +kernel
    rw [hempty] at hkey
    cases hkey
  have hguard : Along (PostsFresh scannedOnce.key) (update bracketed scannedOnce.key)
      scannedOnceOnly replacedTag := by
    decide +kernel
  refine ⟨_, rfl, decoded_iff_added readBracketed_marshal hmarshal ?_ ?_ hnone hguard rfl⟩
  · decide +kernel
  · exact .served _ (.created _ _ _ _ _ _)

end SbomScanner.Runner

import SbomScanner.Lib.Transition
import SbomScanner.Runner.Targets
import SbomScanner.WorkloadScan.Reconcile

/-!
# Pending requests and the registry they are for

The workload scan adds match conditions to a managed Registry and posts a rescan request for them;
the runner later merges all the requests that are pending into one ScanJob. By then the Registry may
have changed again. A ScanJob with a target that the Registry no longer declares fails as a whole in
`validateScanJobTargets`, and the requests merged into it are lost with it.

The targets are valid as long as no call takes back a match condition that is still asked for
(`merged_targets_valid`).
-/

namespace SbomScanner.Runner

open Api WorkloadScan Transition Procedure List Option

/-! ## Validation -/

/-- The reason code and the message of the error. -/
structure InvalidTarget where
  reason : Jobs.Reason
  message : String
  deriving DecidableEq

/-- One pass of the loop of `validateScanJobTargets`; `quote` is the verb `%q`. -/
def validateTarget (quote : String → String) (registry : Registry) (target : ScanJobRepository) :
    Except InvalidTarget Unit :=
  match registry.getRepository target.name with
  | none => .error ⟨.repositoryNotFound, "repository " ++ quote target.name ++
      " is not declared on registry " ++ quote registry.name⟩
  | some repository =>
    match target.matchConditions.find? fun conditionName =>
        !repository.matchConditions.any (·.name = conditionName) with
    | some conditionName => .error ⟨.matchConditionNotFound, "match condition " ++
        quote conditionName ++ " is not declared on repository " ++ quote target.name ++
        " of registry " ++ quote registry.name⟩
    | none => .ok ⟨⟩

def validateScanJobTargets (quote : String → String) (scanJob : ScanJob) (registry : Registry) :
    Except InvalidTarget Unit :=
  scanJob.spec.repositories.forM (validateTarget quote registry)

variable {quote : String → String} {registry : Registry}

variable {repository : Repository}

theorem validateTarget_eq_ok {target : ScanJobRepository}
    (hrepository : registry.getRepository target.name = some repository)
    (hconditions : ∀ cond ∈ target.matchConditions,
      ∃ condition ∈ repository.matchConditions, condition.name = cond) :
    validateTarget quote registry target = .ok ⟨⟩ := by
  unfold validateTarget
  rw [hrepository]
  have hnone : (target.matchConditions.find? fun conditionName =>
      !repository.matchConditions.any (·.name = conditionName)) = none := by
    rw [List.find?_eq_none]
    intro cond hcond
    simpa using hconditions cond hcond
  simp only [hnone]

/-! ## A registry whose requests are valid -/

variable {lib : Libraries} {unmarshal : Unmarshal}

def Pending (unmarshal : Unmarshal) (registry : Registry) (repo : ScanJobRepository) : Prop :=
  ∃ key ∈ registry.annotations, isRescanRequested key = true ∧
    ∃ req, requestUnder unmarshal registry.annotations key = some req ∧ repo ∈ req.repositories

variable {repo : ScanJobRepository}

theorem requested_iff_pending {order : IterationOrder Loop} :
    Requested unmarshal registry.annotations (rescanKeys order registry) repo ↔
      Pending unmarshal registry repo := by
  simp only [Requested, Pending, mem_rescanKeys, and_assoc]

def Declares (repositories : List Repository) (name cond : String) : Prop :=
  ∃ key labels, Has repositories key labels ∧ key.repository = name ∧ key.name = cond

/-- No Docker Hub repository is declared under both of its names. -/
def OneName (registry : Registry) : Prop :=
  registry.spec.uri = defaultRegistry → ∀ a ∈ registry.spec.repositories,
    ∀ b ∈ registry.spec.repositories, a.name ≠ "library/" ++ b.name

structure Answerable (unmarshal : Unmarshal) (registry : Registry) : Prop where
  tidy : Tidy registry.spec.repositories
  oneName : OneName registry
  nonempty : ∀ repo, Pending unmarshal registry repo → repo.matchConditions ≠ []
  declared : ∀ repo, Pending unmarshal registry repo → ∀ cond ∈ repo.matchConditions,
    Declares registry.spec.repositories repo.name cond

/-- Under one name only, a repository is found under that name. -/
theorem getRepository_eq_some (hnodup : (registry.spec.repositories.map (·.name)).Nodup)
    (hone : OneName registry) (hmem : repository ∈ registry.spec.repositories) :
    registry.getRepository repository.name = some repository := by
  have hsome : (registry.getRepository repository.name).isSome := by
    rw [Registry.getRepository, List.find?_isSome]
    exact ⟨repository, hmem, by simp [Registry.answersTo]⟩
  obtain ⟨found, hfound⟩ := isSome_iff_exists.mp hsome
  have hin := mem_of_find?_eq_some hfound
  have hanswers : registry.answersTo repository.name found = true := List.find?_some hfound
  rw [hfound]
  have hname : found.name = repository.name := by
    rcases Registry.answersTo_iff.mp hanswers with hname | ⟨huri, hlong⟩
    · exact hname
    · exact absurd hlong (hone huri repository hmem found hin)
  rw [inj_on_of_nodup_map hnodup hin hmem hname]

theorem Answerable.valid (h : Answerable unmarshal registry) (order : IterationOrder Loop)
    (assigned : Assigned) : validateScanJobTargets quote (newScanJob assigned registry
      (collectRescanRequests order unmarshal registry).targets) registry = .ok ⟨⟩ := by
  rw [validateScanJobTargets, Fallible.forM_eq_ok]
  intro target htarget
  obtain ⟨⟨repo, hrequested, hname⟩, hconditions⟩ := requested_of_mem_targets htarget
  have hpending := requested_iff_pending.mp hrequested
  -- the repository is there, since one of its match conditions is
  obtain ⟨cond, hcond⟩ := exists_mem_of_ne_nil _ (h.nonempty repo hpending)
  obtain ⟨_, _, ⟨repository, hmem, _, _, rfl, _⟩, hkey, -⟩ := h.declared repo hpending cond hcond
  have hrepository : repository.name = target.name := hkey.trans hname
  have hfound := getRepository_eq_some h.tidy.names h.oneName hmem
  rw [hrepository] at hfound
  refine validateTarget_eq_ok hfound fun cond hcond => ?_
  obtain ⟨repo', hrequested', hname', hcond'⟩ := hconditions cond hcond
  obtain ⟨key', labels', ⟨repository', hmem', condition, hcondition, rfl, -⟩, hkey', hname''⟩ :=
    h.declared repo' (requested_iff_pending.mp hrequested') cond hcond'
  have hsame : repository' = repository :=
    inj_on_of_nodup_map h.tidy.names hmem' hmem ((hkey'.trans hname').trans hrepository.symm)
  exact ⟨condition, hsame ▸ hcondition, hname''⟩

/-! ## A call of the workload scan -/

variable {choices : WorkloadScan.Choices} {config : Configuration} {ns : String} {pods : List Pod}
  {other : Registry}

/-- The call leaves alone what is asked for: each match condition of a pending request is needed by
the pods, or carries the label of another namespace. -/
def LeavesPending (lib : Libraries) (unmarshal : Unmarshal) (ns : String) (pods : List Pod)
    (registry : Registry) : Prop :=
  ∀ repo, Pending unmarshal registry repo → ∀ cond ∈ repo.matchConditions,
    ∃ key labels, Has registry.spec.repositories key labels ∧ key.repository = repo.name ∧
      key.name = cond ∧
      (Needs lib pods registry.spec.uri key ∨ ∃ label ∈ labels, label ≠ nsLabel ns)

/-- A Docker Hub repository that the registry declares or the pods use. -/
def OnHub (lib : Libraries) (pods : List Pod) (repositories : List Repository) (name : String) :
    Prop :=
  (∃ repository ∈ repositories, repository.name = name) ∨
    ∃ tag, Uses lib pods ⟨defaultRegistry, name, tag⟩

/-- No Docker Hub repository goes by both of its names. -/
def OneNameOnHub (lib : Libraries) (pods : List Pod) (repositories : List Repository) : Prop :=
  ∀ name, ¬(OnHub lib pods repositories name ∧ OnHub lib pods repositories ("library/" ++ name))

theorem mem_buildRescanRequest {added : List MatchConditionKey}
    (h : repo ∈ (buildRescanRequest added).repositories) :
    repo.matchConditions ≠ [] ∧ ∀ cond ∈ repo.matchConditions,
      ∃ key ∈ added, key.repository = repo.name ∧ key.name = cond := by
  obtain ⟨name, hname, rfl⟩ := mem_map.mp h
  rw [mem_insertionSort, mem_dedup] at hname
  obtain ⟨key, hkey, rfl⟩ := mem_map.mp hname
  constructor
  · apply ne_nil_of_mem (a := key.name)
    rw [mem_insertionSort, mem_dedup]
    exact mem_map_of_mem (mem_filter.mpr ⟨hkey, by simp⟩)
  · intro cond hcond
    rw [mem_insertionSort, mem_dedup] at hcond
    obtain ⟨key', hmem, rfl⟩ := mem_map.mp hcond
    obtain ⟨hin, hrepository⟩ := mem_filter.mp hmem
    exact ⟨key', hin, by simpa using hrepository, rfl⟩

variable {old : List MatchConditionKey}

theorem extract_markForRescan :
    extractMatchConditionsFromRegistry (markForRescan lib choices config old registry) =
      extractMatchConditionsFromRegistry registry := by
  obtain ⟨annotations, heq⟩ := markForRescan_eq lib choices config old registry
  rw [heq]
  rfl

/-- The requests that are pending on the registry once it is marked: the old ones, and that for the
match conditions that have been added. -/
theorem pending_markForRescan (hjson : ∀ req, unmarshal (lib.marshal req) = some req)
    (h : Pending unmarshal (markForRescan lib choices config old registry) repo) :
    Pending unmarshal registry repo ∨ repo ∈ (buildRescanRequest
      ((extractMatchConditionsFromRegistry registry).filter (· ∉ old))).repositories := by
  simp only [markForRescan] at h
  split at h
  · obtain ⟨key, hkey, hrequested, req, hreq, hrepo⟩ := h
    by_cases hnew : key = newRescanRequestedAnnotationKey choices registry.name
    · right
      rw [requestUnder, hnew, Finmap.lookup_insert] at hreq
      unfold decodeRescanRequest at hreq
      split at hreq
      · cases hreq
        cases hrepo
      · rw [getD_some, hjson] at hreq
        cases hreq
        exact hrepo
    · left
      rw [requestUnder, Finmap.lookup_insert_of_ne _ hnew] at hreq
      exact ⟨key, (Finmap.mem_insert.mp hkey).resolve_left hnew, hrequested, req, hreq, hrepo⟩
  · exact .inl h

/-- The request for what has been added asks for what the registry declares. -/
theorem declares_of_added {cond : String}
    (h : repo ∈ (buildRescanRequest
      ((extractMatchConditionsFromRegistry registry).filter (· ∉ old))).repositories)
    (hcond : cond ∈ repo.matchConditions) :
    Declares registry.spec.repositories repo.name cond := by
  obtain ⟨key, hkey, hname, hcond⟩ := (mem_buildRescanRequest h).2 cond hcond
  have hextract := mem_of_mem_filter hkey
  rw [extractMatchConditionsFromRegistry, mem_dedup, mem_flatMap] at hextract
  obtain ⟨repository, hmem, hin⟩ := hextract
  obtain ⟨condition, hcondition, hkey⟩ := mem_map.mp hin
  exact ⟨key, condition.labels, ⟨repository, hmem, condition, hcondition, hkey, rfl⟩, hname, hcond⟩

/-- A repository that is declared after the update was declared before, or is used by the pods. -/
theorem onHub_of_mem
    (htidy : Tidy (updatedRepositories lib choices registry ns
      (contribution lib pods registry.spec.uri))) (huri : registry.spec.uri = defaultRegistry)
    (hmem : repository ∈ sortRepositories (updatedRepositories lib choices
      registry ns (contribution lib pods registry.spec.uri))) :
    OnHub lib pods registry.spec.repositories repository.name := by
  obtain ⟨condition, hcondition⟩ :=
    exists_mem_of_ne_nil _ ((tidy_sortRepositories htidy).nonempty repository hmem)
  have hhas := has_sortRepositories.mp ⟨repository, hmem, condition, hcondition, rfl, rfl⟩
  rcases exists_has_updated.mp ⟨_, hhas⟩ with ⟨tag, huses, -⟩ | ⟨_, hold, -⟩
  · exact .inr ⟨tag, huri ▸ huses⟩
  · obtain ⟨repository', hmem', _, _, hkey, _⟩ := hold
    exact .inl ⟨repository', hmem', congrArg MatchConditionKey.repository hkey⟩

theorem answerable_updated (hjson : ∀ req, unmarshal (lib.marshal req) = some req)
    (h : Answerable unmarshal registry) (hleaves : LeavesPending lib unmarshal ns pods registry)
    (hone : registry.spec.uri = defaultRegistry → OneNameOnHub lib pods registry.spec.repositories)
    (hupdated : updatedBy lib choices ns pods config registry = some other) :
    Answerable unmarshal other := by
  have hspec := (updatedRegistry_frame hupdated).2.2.2
  have htidy : Tidy (updatedRepositories lib choices registry ns
    (contribution lib pods registry.spec.uri)) := tidy_updatedRepositories h.tidy
  -- the requests that are pending afterwards
  have hpending : ∀ repo, Pending unmarshal other repo → Pending unmarshal registry repo ∨
      ∃ old : List MatchConditionKey, repo ∈ (buildRescanRequest
        ((extractMatchConditionsFromRegistry other).filter (· ∉ old))).repositories := by
    intro repo hrepo
    simp only [updatedBy, updatedRegistry] at hupdated
    split at hupdated
    · cases hupdated
    · cases hupdated
      refine (pending_markForRescan hjson hrepo).imp_right fun hnew =>
        ⟨extractMatchConditionsFromRegistry registry, ?_⟩
      rw [extract_markForRescan]
      exact hnew
  constructor
  · rw [hspec]
    exact tidy_sortRepositories htidy
  · intro huri a ha b hb hname
    rw [hspec] at huri ha hb
    have hb' := onHub_of_mem htidy huri hb
    have ha' := onHub_of_mem htidy huri ha
    rw [hname] at ha'
    exact hone huri _ ⟨hb', ha'⟩
  · intro repo hrepo
    rcases hpending repo hrepo with hold | ⟨old, hnew⟩
    · exact h.nonempty repo hold
    · exact (mem_buildRescanRequest hnew).1
  · intro repo hrepo cond hcond
    rcases hpending repo hrepo with hold | ⟨old, hnew⟩
    · obtain ⟨key, labels, hhas, hname, hkey, hkept⟩ := hleaves repo hold cond hcond
      obtain ⟨labels', hhas'⟩ := exists_has_updated.mpr
        (hkept.imp_right fun hlabel => ⟨labels, hhas, hlabel⟩)
      rw [hspec]
      exact ⟨key, labels', has_sortRepositories.mpr hhas', hname, hkey⟩
    · exact declares_of_added hnew hcond

variable {uri : String} {tags : RepositoryTags}

theorem uses_of_mem_new (htags : (grouped lib pods).lookup uri = some tags)
    (htidy : Tidy (newRepositories lib choices uri ns tags))
    (hmem : repository ∈ sortRepositories (newRepositories lib choices uri ns tags)) :
    ∃ tag, Uses lib pods ⟨uri, repository.name, tag⟩ := by
  obtain ⟨condition, hcondition⟩ :=
    exists_mem_of_ne_nil _ ((tidy_sortRepositories htidy).nonempty repository hmem)
  have hhas := has_sortRepositories.mp ⟨repository, hmem, condition, hcondition, rfl, rfl⟩
  have hcontribution : tags = contribution lib pods uri := by rw [contribution, htags]; rfl
  have hneeded := (has_newRepositories.mp hhas).1
  rw [hcontribution, mem_needed] at hneeded
  obtain ⟨tag, huses, -⟩ := hneeded
  exact ⟨tag, huses⟩

/-- A new registry asks for a scan of all of it. -/
theorem not_pending_new (hjson : ∀ req, unmarshal (lib.marshal req) = some req) {target : String} :
    ¬Pending unmarshal (newRegistry lib choices uri ns target tags config) repo := by
  rintro ⟨key, hkey, -, req, hreq, hrepo⟩
  simp only [newRegistry] at hkey hreq
  split at hkey
  · next hscan =>
      rw [Finmap.mem_singleton] at hkey
      rw [if_pos hscan, requestUnder, hkey, Finmap.lookup_singleton_eq, getD_some,
        decodeRescanRequest, hjson, ite_self] at hreq
      cases hreq
      cases hrepo
  · exact Finmap.notMem_empty hkey

theorem answerable_new (hjson : ∀ req, unmarshal (lib.marshal req) = some req) {target : String}
    (htags : (grouped lib pods).lookup uri = some tags) (hone : OneNameOnHub lib pods []) :
    Answerable unmarshal (newRegistry lib choices uri ns target tags config) := by
  have htidy : Tidy (newRepositories lib choices uri ns tags) :=
    tidy_newRepositories ((filled_groupImagesByRegistry _).tags htags)
  constructor
  · exact tidy_sortRepositories htidy
  · intro huri a ha b hb hname
    subst huri
    have ha' : OnHub lib pods [] a.name := .inr (uses_of_mem_new htags htidy ha)
    rw [hname] at ha'
    exact hone b.name ⟨.inr (uses_of_mem_new htags htidy hb), ha'⟩
  · exact fun repo hrepo => absurd hrepo (not_pending_new hjson)
  · exact fun repo hrepo => absurd hrepo (not_pending_new hjson)

/-! ## A tick of the runner -/

variable {keys : List String}

theorem answerable_withoutAnnotations (h : Answerable unmarshal registry) :
    Answerable unmarshal (withoutAnnotations keys registry) := by
  have hpending : ∀ repo, Pending unmarshal (withoutAnnotations keys registry) repo →
      Pending unmarshal registry repo := by
    rintro repo ⟨key, hkey, hrequested, req, hreq, hrepo⟩
    have hwell : WellFormed unmarshal (withoutAnnotations keys registry) req :=
      ⟨key, hkey, hrequested, hreq⟩
    obtain ⟨key, hkey, hrequested, hreq⟩ := hwell.of_withoutAnnotations
    exact ⟨key, hkey, hrequested, req, hreq, hrepo⟩
  exact ⟨h.tidy, h.oneName, fun repo hrepo => h.nonempty repo (hpending repo hrepo),
    fun repo hrepo => h.declared repo (hpending repo hrepo)⟩

variable {P : Registry → Prop} {tickChoices : Choices} {now : Nat}

theorem keeps_removeAttempt {attempt : Nat}
    (hP : ∀ keys registry, P registry → P (withoutAnnotations keys registry)) :
    (removeAttempt tickChoices registry keys attempt).Keeps
      (fun world => AllManaged P world.registries) fun _ => True := by
  refine keeps_bind (Q := fun current : Registry =>
    current.isManagedByWorkloadScan = true → P current) (keeps_request ?_)
    fun current hcurrent => ?_
  · intro world a world' hworld hget
    cases hfind : world.registries.registries.find? (·.key = registry.key) with
    | none => simp [hfind] at hget
    | some found =>
      rw [hfind] at hget
      cases hget
      exact ⟨hworld, hworld _ (mem_of_find?_eq_some hfind)⟩
  · split
    · refine keeps_request fun world a world' hworld hupdate => ⟨?_, trivial⟩
      obtain ⟨registries, hok, heq⟩ := Fallible.map_eq_ok.mp hupdate
      cases heq
      intro other hother hmanaged
      rcases (Cluster.mem_update hok).mp hother with rfl | ⟨hold, -⟩
      · exact hP keys current (hcurrent hmanaged)
      · exact hworld other hold hmanaged
    · exact keeps_pure trivial

/-- The requests that only read, or create a ScanJob. -/
theorem keeps_request_scanJobs {α : Type} {req : Request} {message : String}
    {perform : World → Except ApiError (α × World)}
    (h : ∀ world a world', perform world = .ok (a, world') → world'.registries = world.registries) :
    (request tickChoices req message perform).Keeps (fun world => AllManaged P world.registries)
      fun _ => True :=
  keeps_request fun world a world' hworld hok => ⟨h world a world' hok ▸ hworld, trivial⟩

theorem keeps_previousScanJob :
    (previousScanJob tickChoices registry).Keeps (fun world => AllManaged P world.registries)
      fun _ => True := by
  refine keeps_tryCatch (keeps_map (keeps_request_scanJobs ?_)) fun e => ?_
  · intro world a world' hlist
    split at hlist <;> cases hlist
    rfl
  · split
    · exact keeps_pure trivial
    · exact keeps_throw

section

variable (hP : ∀ keys registry, P registry → P (withoutAnnotations keys registry))
include hP

theorem keeps_checkRegistryForScan :
    (checkRegistryForScan tickChoices unmarshal now registry).Keeps
      (fun world => AllManaged P world.registries) fun _ => True := by
  refine keeps_bind keeps_previousScanJob fun lastScanJob _ => ?_
  split
  · refine keeps_bind (Q := fun _ => True) (keeps_request_scanJobs ?_) fun _ _ => ?_
    · intro world a world' hcreate
      cases hcreate
      rfl
    · split
      · unfold removeRescanAnnotations
        split
        · exact keeps_pure trivial
        · exact keeps_retryOnConflict (fun _ => keeps_removeAttempt hP) 4
      · exact keeps_pure trivial
  · exact keeps_pure trivial

/-- A tick does nothing to a registry but remove annotations. -/
theorem keeps_scanRegistries :
    (scanRegistries tickChoices unmarshal now).Keeps (fun world => AllManaged P world.registries)
      fun _ => True := by
  refine keeps_bind (Q := fun _ => True) (keeps_request_scanJobs ?_) fun registries _ => ?_
  · intro world a world' hlist
    cases hlist
    rfl
  · refine keeps_forM fun registry _ => ?_
    exact keeps_tryCatch (keeps_checkRegistryForScan hP) fun _ =>
      keeps_pure trivial

end

/-! ## Calls and ticks -/

inductive Event where
  | reconcile (config : Configuration) (call : Call)
  | tick (choices : Choices) (now : Nat)

/-- Calls and ticks come one after the other. Each of them may fail, and the next one goes on from
the state it has left. -/
def advance (lib : Libraries) (unmarshal : Unmarshal) (world : World) : Event → Option World
  | .reconcile config call => some { world with
      registries := ((reconcileRegistries lib call.choices call.workloadNamespace call.pods
        config).run.run world.registries).2 }
  | .tick choices now => some ((scanRegistries choices unmarshal now).run.run world).2

/-- A call takes back no match condition that is asked for, and no Docker Hub repository goes by
both of its names. -/
def Undisturbed (lib : Libraries) (unmarshal : Unmarshal) (world : World) : Event → Prop
  | .reconcile config call =>
    OneNameOnHub lib call.pods [] ∧
    ∀ registry ∈ world.registries.managed (registryNamespace config call.workloadNamespace),
      LeavesPending lib unmarshal call.workloadNamespace call.pods registry ∧
        (registry.spec.uri = defaultRegistry →
          OneNameOnHub lib call.pods registry.spec.repositories)
  | .tick _ _ => True

theorem answerable_advance {world world' : World} {event : Event}
    (hjson : ∀ req, unmarshal (lib.marshal req) = some req)
    (h : AllManaged (Answerable unmarshal) world.registries)
    (hguard : Undisturbed lib unmarshal world event)
    (hstep : advance lib unmarshal world event = some world') :
    AllManaged (Answerable unmarshal) world'.registries := by
  cases event with
  | reconcile config call =>
    cases hstep
    obtain ⟨hone, hmanaged⟩ := hguard
    apply allManaged_reconcileRegistries h
    · intro registry hmem other hupdated
      obtain ⟨hin, -, hlabels⟩ := Cluster.mem_managed.mp hmem
      obtain ⟨hleaves, hhub⟩ := hmanaged registry hmem
      exact answerable_updated hjson (h registry hin hlabels) hleaves hhub hupdated
    · intro uri tags htags
      exact answerable_new hjson htags hone
  | tick choices now =>
    cases hstep
    exact (keeps_scanRegistries (fun _ _ => answerable_withoutAnnotations) world h).1

/-- **Pending requests stay valid.** Start without managed registries, and let calls and ticks come
in any order. As long as no call takes back a match condition that is asked for, the ScanJob that
the runner would create for a managed registry has valid targets. -/
theorem merged_targets_valid {world world' : World} {events : List Event}
    (hjson : ∀ req, unmarshal (lib.marshal req) = some req)
    (hstart : ∀ registry ∈ world.registries.registries, registry.isManagedByWorkloadScan = false)
    (hguard : Along (Undisturbed lib unmarshal) (advance lib unmarshal) world events)
    (hrun : exec (advance lib unmarshal) world events = some world') :
    ∀ registry ∈ world'.registries.registries, registry.isManagedByWorkloadScan = true →
      ∀ order assigned, validateScanJobTargets lib.quote (newScanJob assigned registry
        (collectRescanRequests order unmarshal registry).targets) registry = .ok ⟨⟩ := by
  have hinit : AllManaged (Answerable unmarshal) world.registries := by
    intro registry hmem hmanaged
    rw [hstart registry hmem] at hmanaged
    cases hmanaged
  have hfinal : AllManaged (Answerable unmarshal) world'.registries :=
    exec_invariant_along (fun _ _ _ h hguard hstep => answerable_advance hjson h hguard hstep)
      hinit hguard hrun
  intro registry hmem hmanaged order assigned
  exact (hfinal registry hmem hmanaged).valid order assigned

/-! ## A request that is lost -/

/-- A text form of rescan requests: a `c` before every character, a comma after every name, and a
semicolon after every repository. -/
def writeNames (names : List (List Char)) : List Char :=
  names.flatMap fun name => name.flatMap (fun c => ['c', c]) ++ [',']

def writeRequest (req : RescanRequest) : String :=
  String.ofList (req.repositories.flatMap fun repo =>
    writeNames ((repo.name :: repo.matchConditions).map String.toList) ++ [';'])

def readNames : List Char → List (List (List Char))
  | [] => []
  | ';' :: rest => [] :: readNames rest
  | ',' :: rest =>
    match readNames rest with
    | names :: more => ([] :: names) :: more
    | [] => []
  | [_] => []
  | _ :: c :: rest =>
    match readNames rest with
    | (name :: names) :: more => ((c :: name) :: names) :: more
    | other => other

def readRequest (text : String) : Option RescanRequest :=
  some ⟨(readNames text.toList).filterMap fun
    | [] => none
    | name :: conditions => some ⟨.ofList name, conditions.map .ofList⟩⟩

theorem readNames_chars (name : List Char) {names : List (List Char)}
    {more : List (List (List Char))} {rest : List Char} (h : readNames rest = names :: more) :
    readNames (name.flatMap (fun c => ['c', c]) ++ ',' :: rest) = (name :: names) :: more := by
  induction name with
  | nil => simp [readNames, h]
  | cons c name ih => simp [readNames, ih]

theorem readNames_names (names : List (List Char)) (rest : List Char) :
    readNames (writeNames names ++ ';' :: rest) = names :: readNames rest := by
  induction names with
  | nil => simp [writeNames, readNames]
  | cons name names ih =>
    have hsplit : writeNames (name :: names) ++ ';' :: rest =
        name.flatMap (fun c => ['c', c]) ++ ',' :: (writeNames names ++ ';' :: rest) := by
      simp [writeNames]
    rw [hsplit, readNames_chars name ih]

theorem readRequest_writeRequest (req : RescanRequest) :
    readRequest (writeRequest req) = some req := by
  have hnames : ∀ repos : List ScanJobRepository,
      readNames (repos.flatMap fun repo =>
        writeNames ((repo.name :: repo.matchConditions).map String.toList) ++ [';']) =
      repos.map fun repo => (repo.name :: repo.matchConditions).map String.toList := by
    intro repos
    induction repos with
    | nil => rfl
    | cons repo repos ih =>
      rw [flatMap_cons, append_assoc, singleton_append, readNames_names, ih]
      rfl
  rw [readRequest, writeRequest, String.toList_ofList, hnames, filterMap_map]
  simp [Function.comp_def]

def versions : Libraries where
  parseReference image :=
    if image = "app:1" then some ⟨"r.example", "app", "1"⟩
    else if image = "app:2" then some ⟨"r.example", "app", "2"⟩
    else if image = "app:3" then some ⟨"r.example", "app", "3"⟩
    else none
  parseReference_empty := rfl
  quote text := "\"" ++ text ++ "\""
  sha256 uri := uri
  marshal := writeRequest

/-- A call for the namespace `team` whose request gets this identifier. -/
def callFor (uuid : String) (images : List String) : Event :=
  .reconcile scanOnChange
    ⟨"team", images.map pod, ⟨.asStored, fun _ => uuid, fun _ => none⟩⟩

def plainTick : Event := .tick ⟨.asStored, fun _ => none, fun name => ⟨name, 0, 0, 0⟩⟩ 0

def emptyWorld : World := ⟨Cluster.empty, []⟩

/-- Version 2 is added and replaced by version 3 before the runner has seen either request. -/
def replacedVersion : List Event :=
  [callFor "a" ["app:1"], plainTick, callFor "b" ["app:1", "app:2"],
    callFor "c" ["app:1", "app:3"]]

theorem replacedVersion_refused :
    (exec (advance versions readRequest) emptyWorld replacedVersion).map (fun world =>
      world.registries.registries.map fun registry =>
        let targets := (collectRescanRequests .asStored readRequest registry).targets
        (registry.isManagedByWorkloadScan, targets, validateScanJobTargets versions.quote
          (newScanJob ⟨"job", 1, 1, 1⟩ registry targets) registry)) =
      some [(true, [⟨"app", ["tag-2", "tag-3"]⟩], .error ⟨.matchConditionNotFound,
        "match condition \"tag-2\" is not declared on repository \"app\" of registry " ++
          "\"workloadscan-r.example\""⟩)] := by
  decide +kernel

/-- The request for version 3, which is there, fails together with that for version 2. -/
theorem pending_request_outdated :
    (∀ req, readRequest (versions.marshal req) = some req) ∧
    ∃ world, exec (advance versions readRequest) emptyWorld replacedVersion = some world ∧
      ∃ registry ∈ world.registries.registries, registry.isManagedByWorkloadScan = true ∧
        (collectRescanRequests .asStored readRequest registry).targets =
          [⟨"app", ["tag-2", "tag-3"]⟩] ∧
        ∃ invalid, validateScanJobTargets versions.quote (newScanJob ⟨"job", 1, 1, 1⟩ registry
          (collectRescanRequests .asStored readRequest registry).targets) registry =
            .error invalid := by
  refine ⟨readRequest_writeRequest, ?_⟩
  obtain ⟨world, hrun, hverdicts⟩ := map_eq_some_iff.mp replacedVersion_refused
  obtain ⟨registry, hmem, hverdict⟩ := mem_map.mp (hverdicts ▸ mem_singleton_self _)
  obtain ⟨hmanaged, hrest⟩ := Prod.mk.inj hverdict
  obtain ⟨htargets, hinvalid⟩ := Prod.mk.inj hrest
  exact ⟨world, hrun, registry, hmem, hmanaged, htargets, _, hinvalid⟩

theorem not_uses_defaultRegistry {pods : List Pod} {name tag : String} :
    ¬Uses versions pods ⟨defaultRegistry, name, tag⟩ := by
  rintro ⟨_, -, image, -, hparse⟩
  have hregistry : ∀ reference ∈ versions.parseReference image,
      reference.registry ≠ defaultRegistry := by
    simp only [versions]
    grind [defaultRegistry]
  exact hregistry _ hparse rfl

theorem oneNameOnHub_versions {pods : List Pod} : OneNameOnHub versions pods [] := by
  rintro name ⟨⟨_, hmem, -⟩ | ⟨_, huses⟩, -⟩
  · cases hmem
  · exact not_uses_defaultRegistry huses

def servedFirst : List Event :=
  [callFor "a" ["app:1"], plainTick, callFor "b" ["app:1", "app:2"]]

/-- The tick has served all requests. -/
theorem quiet_after_tick :
    ∀ world ∈ exec (advance versions readRequest) emptyWorld (servedFirst.take 2),
      ∀ registry ∈ world.registries.registries,
        registry.annotations = ∅ ∧ registry.spec.uri ≠ defaultRegistry := by
  decide +kernel

theorem merged_targets_valid_servedFirst :
    ∃ world, exec (advance versions readRequest) emptyWorld servedFirst = some world ∧
      ∀ registry ∈ world.registries.registries, registry.isManagedByWorkloadScan = true →
        ∀ order assigned, validateScanJobTargets versions.quote (newScanJob assigned registry
          (collectRescanRequests order readRequest registry).targets) registry = .ok ⟨⟩ := by
  refine ⟨_, rfl, @merged_targets_valid versions readRequest _ _ servedFirst
    readRequest_writeRequest (by decide) ⟨⟨oneNameOnHub_versions, fun _ h => by cases h⟩, trivial,
      ⟨oneNameOnHub_versions, ?_⟩, trivial⟩ rfl⟩
  intro registry hmem
  obtain ⟨hempty, huri⟩ := quiet_after_tick _ rfl registry (Cluster.mem_managed.mp hmem).1
  refine ⟨?_, fun h => absurd h huri⟩
  rintro repo ⟨key, hkey, -⟩
  rw [hempty] at hkey
  cases hkey

end SbomScanner.Runner

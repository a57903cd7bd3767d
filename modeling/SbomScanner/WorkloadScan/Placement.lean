import SbomScanner.Lib.Transition
import SbomScanner.Webhook.WorkloadScanConfiguration
import SbomScanner.WorkloadScan.Reconcile

/-!
# Where the managed registries are

The registries live in the artifacts namespace of the WorkloadScanConfiguration, or next to the
workloads if there is none. A reconcile only looks where the configuration it has read points to,
except that it cleans up everywhere while scanning is disabled. The webhook lets the artifacts
namespace change only while it is, so that the registries in the former one are cleaned up.

But nothing says that a reconcile sees the configuration while it is disabled. If it is enabled
again before, the registries in the former namespace stay (`registry_orphaned`). If the clean-up has
been made, and no reconcile is still at work on the former configuration, they are where they should
be (`no_orphaned_registries`).

The WorkloadScanReports, which are always next to the workloads, are not part of this.
-/

open List

namespace SbomScanner.WorkloadScan.Placement

open Api Procedure Transition
open Webhook (WorkloadScanConfiguration)
open Webhook.WorkloadScanConfigurationCustomValidator (validateCreate validateUpdate)

/-! ## Reconcile -/

/-- What a reconcile of a namespace finds besides the configuration and the registries. -/
structure Observed where
  workloadNamespace : String
  /-- the labels of the namespace, if there is one -/
  namespaceLabels : Except String (Option (List (String × String)))
  pods : Except String (List Pod)
  choices : Choices

def checkNamespaceSelector (observed : Observed) (selector : Option Storage.LabelSelector) :
    Except String Bool :=
  match selector with
  | none => .ok true
  | some selector =>
    match observed.namespaceLabels with
    | .error reason => .error ("failed to get namespace " ++ observed.workloadNamespace ++ ": " ++
        reason)
    | .ok none => .ok false
    | .ok (some labels) => .ok (selector.matches labels)

/-- The registry is named with its namespace here. -/
def cleanupRegistry (choices : Choices) (registry : Registry) : Reconcile PUnit :=
  let name := registry.ns ++ "/" ++ registry.name
  request choices (.delete name) ("failed to delete registry " ++ name) fun c =>
    match c.delete registry with
    | .error .notFound => .ok c
    | result => result

def cleanupAllManagedResources (choices : Choices) : Reconcile PUnit := do
  if let some reason := choices.fault .list then
    throw ⟨"failed to list managed registries", .other reason⟩
  ((← get).registries.filter (·.isManagedByWorkloadScan)).forM (cleanupRegistry choices)

def wrap (message : String) (call : Reconcile PUnit) : Reconcile PUnit :=
  mapError (fun e => ⟨message ++ ": " ++ e.message, e.cause⟩) call

def reconcile (lib : Libraries) (config : Option WorkloadScanConfiguration) (observed : Observed) :
    Reconcile PUnit :=
  let cleanup := wrap "failed to cleanup managed resources" <|
    cleanupAllManagedResources observed.choices
  match config with
  | none => cleanup
  | some config =>
    if !config.enabled then
      cleanup
    else
      match checkNamespaceSelector observed config.namespaceSelector with
      -- don't requeue on bad selector
      | .error _ => pure ⟨⟩
      -- clean up by reconciling with an empty pod list
      | .ok false => wrap "failed to cleanup registries" <|
          reconcileRegistries lib observed.choices observed.workloadNamespace [] config.settings
      | .ok true =>
        match observed.pods with
        | .error reason => throw
            ⟨"failed to list pods in namespace " ++ observed.workloadNamespace, .other reason⟩
        | .ok pods => wrap "failed to reconcile registries" <|
            reconcileRegistries lib observed.choices observed.workloadNamespace pods config.settings

def reconcileEvery (lib : Libraries) (config : Option WorkloadScanConfiguration)
    (every : List Observed) : Reconcile PUnit :=
  every.forM (reconcile lib config)

/-! ## The system -/

structure State where
  configuration : Option WorkloadScanConfiguration
  cluster : Cluster
  /-- what the reconciles that are under way have read -/
  inFlight : List (Option WorkloadScanConfiguration)
  /-- the artifacts namespace of the last configuration that was enabled -/
  former : Option String

inductive Action where
  | create (config : WorkloadScanConfiguration)
  | update (config : WorkloadScanConfiguration)
  | delete
  | begin
  | finish (i : Nat) (observed : Observed)
  | abandon (i : Nat)

def State.init : State := ⟨none, .empty, [], none⟩

def State.configure (s : State) (config : WorkloadScanConfiguration) : State :=
  { s with
    configuration := some config
    former := if config.enabled then some config.settings.artifactsNamespace else s.former }

/-- The steps. A reconcile reads the configuration when it begins, and does the rest at any time
later; if it fails, what it has done by then remains. -/
def step (lib : Libraries) (s : State) : Action → Option State
  | .create config =>
    match s.configuration, validateCreate config with
    | none, .ok _ => some (s.configure config)
    | _, _ => none
  | .update config =>
    match s.configuration with
    | none => none
    | some old =>
      match validateUpdate old config with
      | .ok _ => some (s.configure config)
      | .error _ => none
  | .delete =>
    match s.configuration with
    | none => none
    | some _ => some { s with configuration := none }
  | .begin => some { s with inFlight := s.inFlight ++ [s.configuration] }
  | .finish i observed =>
    match s.inFlight[i]? with
    | none => none
    | some config => some { s with
        cluster := ((reconcile lib config observed).run.run s.cluster).2
        inFlight := s.inFlight.eraseIdx i }
  | .abandon i => some { s with inFlight := s.inFlight.eraseIdx i }

/-- There is nothing left that belongs to the former configuration. -/
def CleanedUp (s : State) : Prop :=
  (∀ registry ∈ s.cluster.registries, registry.isManagedByWorkloadScan = false) ∧
    ∀ read ∈ s.inFlight, ∀ config ∈ read, config.enabled = false

/-- When scanning is turned on with another artifacts namespace than before, the clean-up has been
made. -/
def Settled (s : State) (a : Action) : Prop :=
  match a with
  | .create config | .update config =>
    (∀ old ∈ s.configuration, old.enabled = false) → config.enabled = true →
      s.former ≠ some config.settings.artifactsNamespace → CleanedUp s
  | _ => True

instance (s : State) (a : Action) : Decidable (Settled s a) := by
  unfold Settled CleanedUp
  cases a <;> infer_instance

/-! ## The place of a registry -/

variable {lib : Libraries} {choices : Choices} {settings : Configuration} {c c' : Cluster}
  {ns : String} {pods : List Pod} {registry other : Registry} {s s' : State} {a : Action}

/-- The registry is where this artifacts namespace puts it. Next to the workloads, a registry is
needed by its own namespace alone. -/
structure Placed (artifactsNamespace : String) (registry : Registry) : Prop where
  artifacts : artifactsNamespace ≠ "" → registry.ns = artifactsNamespace
  own : artifactsNamespace = "" → ∀ {key labels}, Has registry.spec.repositories key labels →
    ∀ label ∈ labels, label = nsLabel registry.ns

theorem placed_updated (h : Placed settings.artifactsNamespace registry)
    (hns : registry.ns = registryNamespace settings ns)
    (hupdated : updatedBy lib choices ns pods settings registry = some other) :
    Placed settings.artifactsNamespace other := by
  obtain ⟨hkey, -, -, hspec⟩ := updatedRegistry_frame hupdated
  have hsame : other.ns = registry.ns := congrArg Prod.fst hkey
  refine ⟨fun hne => hsame.trans (h.artifacts hne), fun hempty key labels hhas label hlabel => ?_⟩
  rw [registryNamespace, if_pos hempty] at hns
  rw [hspec] at hhas
  obtain ⟨-, old, hbefore, rfl⟩ :=
    claims_updatedRepositories.mp (has_sortRepositories.mp hhas)
  obtain ⟨value, hvalue⟩ := Finmap.mem_iff.mp hlabel
  rw [hsame, hns]
  rcases lookup_claimLabels.mp hvalue with ⟨hclaimed, -, -⟩ | ⟨-, hold⟩
  · exact hclaimed
  · rcases hbefore with hhad | ⟨rfl, -⟩
    · rw [← hns]
      exact h.own hempty hhad label (Finmap.mem_of_lookup_eq_some hold)
    · cases hold

theorem placed_new {uri : String} {tags : RepositoryTags} :
    Placed settings.artifactsNamespace
      (newRegistry lib choices uri ns (registryNamespace settings ns) tags settings) := by
  refine ⟨fun hne => if_neg hne, fun hempty key labels hhas label hlabel => ?_⟩
  obtain ⟨-, rfl⟩ := has_newRepositories.mp (has_sortRepositories.mp hhas)
  rw [Finmap.mem_singleton] at hlabel
  rw [hlabel]
  exact congrArg nsLabel (if_pos hempty).symm

/-- What keeps every managed registry in its place, also when the call stops half way. -/
theorem placed_reconcileRegistries (hc : AllManaged (Placed settings.artifactsNamespace) c) :
    AllManaged (Placed settings.artifactsNamespace)
      ((reconcileRegistries lib choices ns pods settings).run.run c).2 := by
  refine allManaged_reconcileRegistries hc (fun registry hmem other hupdated => ?_) ?_
  · obtain ⟨hregistry, hns, hmanaged⟩ := Cluster.mem_managed.mp hmem
    exact placed_updated (hc registry hregistry hmanaged) hns hupdated
  · intro uri tags _
    exact placed_new

/-! ## Clean-up -/

theorem keeps_cleanupAllManagedResources {P : Registry → Prop} :
    (cleanupAllManagedResources choices).Keeps (AllManaged P) fun _ => True := by
  unfold cleanupAllManagedResources
  cases choices.fault .list with
  | some reason => exact keeps_throw
  | none =>
    refine keeps_bind keeps_get fun listed _ => ?_
    refine keeps_forM fun registry _ => ?_
    refine keeps_request fun c c' hc hdelete other hother => ?_
    exact hc other ((mem_of_deleted hdelete).mp hother).1

variable {u : PUnit}

theorem not_managed_cleanup (h : (cleanupAllManagedResources choices).Returns c u c') :
    ∀ registry ∈ c'.registries, registry.isManagedByWorkloadScan = false := by
  unfold cleanupAllManagedResources at h
  cases hfault : choices.fault .list with
  | some reason => simp [hfault] at h
  | none =>
    rw [hfault] at h
    obtain ⟨listed, t, hget, hloop⟩ := returns_bind.mp h
    obtain ⟨hlisted, ht⟩ := returns_get.mp hget
    rw [hlisted, ht] at hloop
    -- what has been visited is gone, and nothing else has come
    have hgone := returns_forM
      (I := fun visited state => ∀ registry ∈ state.registries,
        registry ∈ c.registries ∧ registry ∉ visited)
      (fun {visited registry state state'} hprefix hstate hstep other hother => ?_) hloop
      (fun registry hmem => ⟨hmem, not_mem_nil⟩)
    · intro registry hmem
      obtain ⟨hold, hnot⟩ := hgone registry hmem
      rw [Bool.eq_false_iff]
      exact fun hmanaged => hnot (mem_filter.mpr ⟨hold, hmanaged⟩)
    · obtain ⟨hold, hkey⟩ := (mem_of_deleted (request_returns hstep)).mp hother
      obtain ⟨hmem, hnot⟩ := hstate other hold
      refine ⟨hmem, fun hvisited => ?_⟩
      rcases mem_append.mp hvisited with hbefore | hlast
      · exact hnot hbefore
      · rw [mem_singleton.mp hlast] at hkey
        exact hkey rfl

/-! ## Next to the workloads -/

/-- A managed registry that is there after a call for its own namespace is used by its pods. -/
theorem uses_of_managed (hempty : settings.artifactsNamespace = "")
    (hc : AllManaged (Placed settings.artifactsNamespace) c)
    (h : (reconcileRegistries lib choices ns pods settings).Returns c u c')
    (hmem : other ∈ c'.managed ns) : ∃ reference, Uses lib pods reference := by
  have hns : registryNamespace settings ns = ns := if_pos hempty
  have hcases : other ∈ c'.managed (registryNamespace settings ns) ↔ _ :=
    mem_managed_reconcileRegistries h
  rw [hns] at hcases
  rcases hcases.mp hmem with ⟨registry, hregistry, hupdated⟩ | ⟨uri, tags, hlookup, -, -⟩
  · obtain ⟨hold, hplace, hmanaged⟩ := Cluster.mem_managed.mp hregistry
    obtain ⟨key, labels, hhas⟩ := exists_has_of_ne_nil (updatedRegistry_frame hupdated).2.2.1
    rcases exists_has_updated.mp ⟨labels, hhas⟩ with
      ⟨tag, huses, -⟩ | ⟨labels, hhas, label, hlabel, hne⟩
    · exact ⟨_, huses⟩
    · -- no other namespace needs it
      have hown := (hc registry hold hmanaged).own hempty hhas label hlabel
      rw [hplace] at hown
      exact absurd hown hne
  · obtain ⟨repository, tag, huses⟩ := uses_of_lookup hlookup
    exact ⟨_, huses⟩

/-- A call changes the registries of one namespace only. -/
theorem mem_of_other_namespace (hns : other.ns ≠ registryNamespace settings ns)
    (hmanaged : other.isManagedByWorkloadScan = true)
    (hmem : other ∈ ((reconcileRegistries lib choices ns pods settings).run.run c).2.registries) :
    other ∈ c.registries := by
  have hall : AllManaged
      (fun registry => registry.ns = registryNamespace settings ns ∨ registry ∈ c.registries)
      ((reconcileRegistries lib choices ns pods settings).run.run c).2 := by
    refine allManaged_reconcileRegistries (fun registry hold _ => .inr hold) ?_
      (fun uri tags _ => .inl rfl)
    intro registry hold updated hupdated
    obtain ⟨-, hplace, -⟩ := Cluster.mem_managed.mp hold
    exact .inl ((congrArg Prod.fst (updatedRegistry_frame hupdated).1).trans hplace)
  exact (hall other hmem hmanaged).resolve_left hns

/-! ## One reconcile -/

/-- The pods that a reconcile under an enabled configuration works with, when it gets that far. -/
inductive Works (config : WorkloadScanConfiguration) (observed : Observed) : List Pod → Prop where
  | selected {pods : List Pod}
      (h : checkNamespaceSelector observed config.namespaceSelector = .ok true)
      (hpods : observed.pods = .ok pods) : Works config observed pods
  | notSelected (h : checkNamespaceSelector observed config.namespaceSelector = .ok false) :
      Works config observed []

variable {config : WorkloadScanConfiguration} {observed : Observed} {message : String}
  {call : Reconcile PUnit}

@[simp]
theorem run_wrap_snd : ((wrap message call).run.run c).2 = (call.run.run c).2 :=
  run_mapError_snd

@[simp]
theorem returns_wrap : (wrap message call).Returns c u c' ↔ call.Returns c u c' :=
  returns_mapError

theorem disabled_or_enabled (configuration : Option WorkloadScanConfiguration) :
    (∀ config ∈ configuration, config.enabled = false) ∨
      ∃ config, configuration = some config ∧ config.enabled = true := by
  cases configuration with
  | none => exact .inl (fun _ hnone => nomatch hnone)
  | some config =>
    cases henabled : config.enabled with
    | true => exact .inr ⟨config, rfl, henabled⟩
    | false =>
      refine .inl fun config' hconfig => ?_
      cases hconfig
      exact henabled

variable {configuration : Option WorkloadScanConfiguration}

theorem reconcile_disabled (h : ∀ config ∈ configuration, config.enabled = false) :
    reconcile lib configuration observed = wrap "failed to cleanup managed resources"
      (cleanupAllManagedResources observed.choices) := by
  cases configuration with
  | none => rfl
  | some config => simp [reconcile, h config rfl]

/-- A reconcile that is not a clean-up does nothing, stops at once, or works with some pods. -/
theorem reconcile_enabled (lib : Libraries) (observed : Observed) (h : config.enabled = true) :
    (reconcile lib (some config) observed = pure ⟨⟩ ∧
      ∃ reason, checkNamespaceSelector observed config.namespaceSelector = .error reason) ∨
    (∃ e, reconcile lib (some config) observed = throw e) ∨
    ∃ pods message, Works config observed pods ∧ reconcile lib (some config) observed =
      wrap message (reconcileRegistries lib observed.choices observed.workloadNamespace pods
        config.settings) := by
  unfold reconcile
  simp only [h, Bool.not_true, Bool.false_eq_true, if_false]
  rcases hcheck : checkNamespaceSelector observed config.namespaceSelector with reason | matching
  · exact .inl ⟨rfl, reason, rfl⟩
  · cases matching with
    | false => exact .inr (.inr ⟨[], _, .notSelected hcheck, rfl⟩)
    | true =>
      rcases hpods : observed.pods with reason | pods
      · exact .inr (.inl ⟨_, rfl⟩)
      · exact .inr (.inr ⟨pods, _, .selected hcheck hpods, rfl⟩)

variable {artifactsNamespace : String}

theorem placed_reconcile
    (h : ∀ config ∈ configuration, config.enabled = true →
      config.settings.artifactsNamespace = artifactsNamespace)
    (hc : AllManaged (Placed artifactsNamespace) c) :
    AllManaged (Placed artifactsNamespace)
      ((reconcile lib configuration observed).run.run c).2 := by
  rcases disabled_or_enabled configuration with hdisabled | ⟨config, rfl, henabled⟩
  · rw [reconcile_disabled hdisabled, run_wrap_snd]
    exact (keeps_cleanupAllManagedResources c hc).1
  · have hsame := h config rfl henabled
    subst hsame
    rcases reconcile_enabled lib observed henabled with
      ⟨heq, -⟩ | ⟨e, heq⟩ | ⟨pods, message, -, heq⟩
    · rw [heq]
      exact hc
    · rw [heq]
      exact hc
    · rw [heq, run_wrap_snd]
      exact placed_reconcileRegistries hc

/-! ## Every run -/

/-- Everything enabled, now or in a reconcile under way, has the artifacts namespace of the last
configuration that was, and the managed registries are where that one puts them. -/
structure Inv (s : State) : Prop where
  current : ∀ config ∈ s.configuration, config.enabled = true →
    s.former = some config.settings.artifactsNamespace
  inFlight : ∀ read ∈ s.inFlight, ∀ config ∈ read, config.enabled = true →
    s.former = some config.settings.artifactsNamespace
  placed : AllManaged (fun registry => ∃ ns ∈ s.former, Placed ns registry) s.cluster

theorem Inv.init : Inv .init where
  current _ h := by cases h
  inFlight _ h := by cases h
  placed _ h := by cases h

theorem Inv.placed_former (h : Inv s) (hformer : s.former = some artifactsNamespace) :
    AllManaged (Placed artifactsNamespace) s.cluster := by
  intro registry hmem hmanaged
  obtain ⟨ns, hns, hregistry⟩ := h.placed registry hmem hmanaged
  rw [hformer] at hns
  cases hns
  exact hregistry

theorem Inv.configure (h : Inv s)
    (hsettled : config.enabled = true → s.former ≠ some config.settings.artifactsNamespace →
      CleanedUp s) : Inv (s.configure config) := by
  by_cases henabled : config.enabled = true
  · have hformer : (s.configure config).former = some config.settings.artifactsNamespace :=
      if_pos henabled
    refine ⟨?_, fun read hread config' hconfig' henabled' => ?_, fun registry hmem hmanaged => ?_⟩
    · rintro _ ⟨⟩ -
      exact hformer
    · by_cases hsame : s.former = some config.settings.artifactsNamespace
      · rw [hformer, ← hsame]
        exact h.inFlight read hread config' hconfig' henabled'
      · have hdisabled := (hsettled henabled hsame).2 read hread config' hconfig'
        rw [henabled'] at hdisabled
        cases hdisabled
    · by_cases hsame : s.former = some config.settings.artifactsNamespace
      · rw [hformer, ← hsame]
        exact h.placed registry hmem hmanaged
      · have hnone := (hsettled henabled hsame).1 registry hmem
        rw [hmanaged] at hnone
        cases hnone
  · have hformer : (s.configure config).former = s.former := if_neg henabled
    refine ⟨?_, ?_, ?_⟩
    · rintro _ ⟨⟩ henabled'
      exact absurd henabled' henabled
    · rw [hformer]
      exact h.inFlight
    · rw [hformer]
      exact h.placed

/-- A reconcile under way works on the artifacts namespace of the last enabled configuration. -/
theorem Inv.reconcile (h : Inv s) {read : Option WorkloadScanConfiguration}
    (hread : ∀ config ∈ read, config.enabled = true →
      s.former = some config.settings.artifactsNamespace) :
    AllManaged (fun registry => ∃ ns ∈ s.former, Placed ns registry)
      ((reconcile lib read observed).run.run s.cluster).2 := by
  cases hformer : s.former with
  | none =>
    have hdisabled : ∀ config ∈ read, config.enabled = false := by
      intro config hconfig
      rw [Bool.eq_false_iff]
      intro henabled
      have hsome := hread config hconfig henabled
      rw [hformer] at hsome
      cases hsome
    have hplaced := h.placed
    rw [hformer] at hplaced
    rw [reconcile_disabled hdisabled, run_wrap_snd]
    exact (keeps_cleanupAllManagedResources s.cluster hplaced).1
  | some artifactsNamespace =>
    intro registry hmem hmanaged
    refine ⟨artifactsNamespace, rfl, ?_⟩
    refine placed_reconcile (fun config hconfig henabled => ?_) (h.placed_former hformer) registry
      hmem hmanaged
    have hsome := hread config hconfig henabled
    rw [hformer] at hsome
    exact (Option.some.inj hsome).symm

theorem inv_step (h : Inv s) (hg : Settled s a) (hstep : step lib s a = some s') : Inv s' := by
  cases a with
  | create config =>
    simp only [step] at hstep
    split at hstep
    · next warnings hnone hvalid =>
      cases hstep
      refine h.configure (hg fun old hold => ?_)
      rw [hnone] at hold
      cases hold
    · cases hstep
  | update config =>
    simp only [step] at hstep
    split at hstep
    · cases hstep
    · next old hold =>
      split at hstep
      · next warnings hvalid =>
        cases hstep
        refine h.configure fun henabled hchanged => ?_
        refine hg (fun old' hold' => ?_) henabled hchanged
        rw [hold] at hold'
        cases hold'
        -- the webhook has not let the namespace of an enabled configuration change
        rw [Bool.eq_false_iff]
        intro hon
        have hformer := h.current old hold hon
        rw [Webhook.artifactsNamespace_of_validateUpdate hvalid hon] at hformer
        exact hchanged hformer
      · cases hstep
  | delete =>
    simp only [step] at hstep
    split at hstep
    · cases hstep
    · cases hstep
      refine ⟨fun _ hnone => ?_, h.inFlight, h.placed⟩
      cases hnone
  | begin =>
    cases hstep
    refine ⟨h.current, fun read hread => ?_, h.placed⟩
    rcases mem_append.mp hread with hold | hnew
    · exact h.inFlight read hold
    · rw [mem_singleton.mp hnew]
      exact h.current
  | finish i observed =>
    simp only [step] at hstep
    split at hstep
    · cases hstep
    · next read hread =>
      cases hstep
      refine ⟨h.current, fun read' hread' => ?_, ?_⟩
      · exact h.inFlight read' (mem_of_mem_eraseIdx hread')
      · exact h.reconcile (h.inFlight read (mem_of_getElem? hread))
  | abandon i =>
    cases hstep
    exact ⟨h.current, fun read hread => h.inFlight read (mem_of_mem_eraseIdx hread), h.placed⟩

/-! ## After a reconcile of every namespace -/

/-- The selector picks the namespace, and its pods run images. -/
def RunsWorkloads (lib : Libraries) (config : WorkloadScanConfiguration) (ns : String)
    (observed : Observed) : Prop :=
  observed.workloadNamespace = ns ∧
    checkNamespaceSelector observed config.namespaceSelector = .ok true ∧
    ∃ pods, observed.pods = .ok pods ∧ ∃ reference, Uses lib pods reference

/-- The namespaces where the configuration wants registries. -/
def Dictated (lib : Libraries) (configuration : Option WorkloadScanConfiguration)
    (every : List Observed) (ns : String) : Prop :=
  ∃ config ∈ configuration, config.enabled = true ∧
    (config.settings.artifactsNamespace ≠ "" → ns = config.settings.artifactsNamespace) ∧
    (config.settings.artifactsNamespace = "" → ∃ observed ∈ every,
      RunsWorkloads lib config ns observed)

variable {every : List Observed} {configuration : Option WorkloadScanConfiguration} {u : PUnit}

theorem not_managed_reconcileEvery (hdisabled : ∀ config ∈ configuration, config.enabled = false)
    (hevery : ∀ registry ∈ c.registries, registry.isManagedByWorkloadScan = true →
      ∃ observed ∈ every, observed.workloadNamespace = registry.ns)
    (h : (reconcileEvery lib configuration every).Returns c u c') :
    ∀ registry ∈ c'.registries, registry.isManagedByWorkloadScan = false := by
  have hcases := returns_forM
    (I := fun visited state => (visited = [] ∧ state = c) ∨
      ∀ registry ∈ state.registries, registry.isManagedByWorkloadScan = false)
    (fun _ _ hstep => ?_) h (.inl ⟨rfl, rfl⟩)
  · rcases hcases with ⟨rfl, rfl⟩ | hnone
    · intro registry hmem
      rw [Bool.eq_false_iff]
      intro hmanaged
      obtain ⟨observed, hobserved, -⟩ := hevery registry hmem hmanaged
      cases hobserved
    · exact hnone
  · -- any one of the reconciles leaves nothing
    rw [reconcile_disabled hdisabled, returns_wrap] at hstep
    exact .inr (not_managed_cleanup hstep)

section

variable (hc : AllManaged (Placed config.settings.artifactsNamespace) c)
include hc

theorem placed_of_returns (h : (reconcile lib (some config) observed).Returns c u c') :
    AllManaged (Placed config.settings.artifactsNamespace) c' := by
  have hplaced : AllManaged (Placed config.settings.artifactsNamespace)
      ((reconcile lib (some config) observed).run.run c).2 := by
    refine placed_reconcile (fun config' hconfig _ => ?_) hc
    cases hconfig
    rfl
  rw [h] at hplaced
  exact hplaced

theorem placed_reconcileEvery (h : (reconcileEvery lib (some config) every).Returns c u c') :
    AllManaged (Placed config.settings.artifactsNamespace) c' :=
  returns_forM (I := fun _ => AllManaged (Placed config.settings.artifactsNamespace))
    (fun _ hstate hstep => placed_of_returns hstate hstep) h hc

end

/-- Without an artifacts namespace, a namespace that has been reconciled is left with registries
only if it runs workloads, and no other one is touched. -/
theorem runsWorkloads_reconcile (henabled : config.enabled = true)
    (hempty : config.settings.artifactsNamespace = "")
    (hc : AllManaged (Placed config.settings.artifactsNamespace) c)
    (hselector : ∀ reason, checkNamespaceSelector observed config.namespaceSelector ≠ .error reason)
    (h : (reconcile lib (some config) observed).Returns c u c') (hmem : registry ∈ c'.registries)
    (hmanaged : registry.isManagedByWorkloadScan = true) :
    RunsWorkloads lib config registry.ns observed ∨
      registry ∈ c.registries ∧ observed.workloadNamespace ≠ registry.ns := by
  have hns : registryNamespace config.settings observed.workloadNamespace =
      observed.workloadNamespace := if_pos hempty
  rcases reconcile_enabled lib observed henabled with
    ⟨-, reason, herror⟩ | ⟨e, heq⟩ | ⟨pods, message, hworks, heq⟩
  · exact absurd herror (hselector reason)
  · rw [heq] at h
    exact absurd h not_returns_throw
  · rw [heq, returns_wrap] at h
    by_cases hhere : registry.ns = observed.workloadNamespace
    · -- the pods of this namespace use what is left here
      have huses := uses_of_managed hempty hc h (Cluster.mem_managed.mpr ⟨hmem, hhere, hmanaged⟩)
      refine .inl ⟨hhere.symm, ?_⟩
      cases hworks with
      | selected hcheck hpods => exact ⟨hcheck, pods, hpods, huses⟩
      | notSelected hcheck =>
        obtain ⟨_, _, hpod, -⟩ := huses
        cases hpod
    · have hother : registry ∈ ((reconcileRegistries lib observed.choices
          observed.workloadNamespace pods config.settings).run.run c).2.registries := by
        rw [h]
        exact hmem
      refine .inr ⟨mem_of_other_namespace ?_ hmanaged hother, Ne.symm hhere⟩
      rw [hns]
      exact hhere

theorem runsWorkloads_reconcileEvery (henabled : config.enabled = true)
    (hempty : config.settings.artifactsNamespace = "")
    (hc : AllManaged (Placed config.settings.artifactsNamespace) c)
    (hevery : ∀ registry ∈ c.registries, registry.isManagedByWorkloadScan = true →
      ∃ observed ∈ every, observed.workloadNamespace = registry.ns)
    (hselector : ∀ observed ∈ every, ∀ reason,
      checkNamespaceSelector observed config.namespaceSelector ≠ .error reason)
    (h : (reconcileEvery lib (some config) every).Returns c u c') :
    ∀ registry ∈ c'.registries, registry.isManagedByWorkloadScan = true →
      ∃ observed ∈ every, RunsWorkloads lib config registry.ns observed := by
  -- what is not next to its workloads has been there from the start, and is still to be visited
  have hinv := returns_forM
    (I := fun visited state => AllManaged (Placed config.settings.artifactsNamespace) state ∧
      ∀ registry ∈ state.registries, registry.isManagedByWorkloadScan = true →
        (∃ observed ∈ visited, RunsWorkloads lib config registry.ns observed) ∨
          registry ∈ c.registries ∧ ∀ observed ∈ visited, observed.workloadNamespace ≠ registry.ns)
    (fun {visited observed state state'} hprefix hstate hstep => ?_) h
    ⟨hc, fun registry hmem _ => .inr ⟨hmem, fun _ hnil => absurd hnil not_mem_nil⟩⟩
  · intro registry hmem hmanaged
    rcases hinv.2 registry hmem hmanaged with hruns | ⟨hold, hnot⟩
    · exact hruns
    · obtain ⟨observed, hobserved, hns⟩ := hevery registry hold hmanaged
      exact absurd hns (hnot observed hobserved)
  · have hmember : observed ∈ every := hprefix.subset (by simp)
    refine ⟨placed_of_returns hstate.1 hstep, fun registry hmem hmanaged => ?_⟩
    rcases runsWorkloads_reconcile henabled hempty hstate.1 (hselector observed hmember) hstep hmem
      hmanaged with hruns | ⟨hold, hne⟩
    · exact .inl ⟨observed, by simp, hruns⟩
    · rcases hstate.2 registry hold hmanaged with ⟨before, hbefore, hruns⟩ | ⟨hfirst, hnot⟩
      · exact .inl ⟨before, mem_append_left _ hbefore, hruns⟩
      · refine .inr ⟨hfirst, fun visitor hvisitor => ?_⟩
        rcases mem_append.mp hvisitor with hbefore | hlast
        · exact hnot visitor hbefore
        · rw [mem_singleton.mp hlast]
          exact hne

/-- **No registry is orphaned.** When scanning is never turned on with another artifacts namespace
before everything of the former one is cleaned up, and then every namespace with a managed registry
is reconciled successfully, the managed registries are where the configuration wants them. A
reconcile that gives up on the namespace selector is successful too, but it has not done anything
for registries that are next to the workloads. -/
theorem no_orphaned_registries {as : List Action}
    (hg : Transition.Along Settled (step lib) .init as)
    (hs : exec (step lib) .init as = some s)
    (hevery : ∀ registry ∈ s.cluster.registries, registry.isManagedByWorkloadScan = true →
      ∃ observed ∈ every, observed.workloadNamespace = registry.ns)
    (hselector : ∀ config ∈ s.configuration, config.settings.artifactsNamespace = "" →
      ∀ observed ∈ every, ∀ reason,
        checkNamespaceSelector observed config.namespaceSelector ≠ .error reason)
    (h : (reconcileEvery lib s.configuration every).Returns s.cluster ⟨⟩ c') :
    ∀ registry ∈ c'.registries, registry.isManagedByWorkloadScan = true →
      Dictated lib s.configuration every registry.ns := by
  have hinv : Inv s := exec_invariant_along
    (fun _ _ _ hinv hgb hb => inv_step hinv hgb hb) .init hg hs
  intro registry hmem hmanaged
  rcases disabled_or_enabled s.configuration with hdisabled | ⟨config, hconfig, henabled⟩
  · have hnone := not_managed_reconcileEvery hdisabled hevery h registry hmem
    rw [hmanaged] at hnone
    cases hnone
  · have hplaced := hinv.placed_former (hinv.current config hconfig henabled)
    have hselected := hselector config hconfig
    rw [hconfig] at h ⊢
    refine ⟨config, rfl, henabled, fun hne => ?_, fun hempty => ?_⟩
    · exact (placed_reconcileEvery hplaced h registry hmem hmanaged).artifacts hne
    · exact runsWorkloads_reconcileEvery henabled hempty hplaced hevery (hselected hempty) h
        registry hmem hmanaged

/-- A configuration that puts the registries into this namespace. -/
def settingsFor (enabled : Bool) (artifactsNamespace : String) : WorkloadScanConfiguration :=
  ⟨enabled, none, { scanOnChange with artifactsNamespace }⟩

def running (ns : String) (images : List String) : Observed :=
  ⟨ns, .ok (some []), .ok (images.map pod), noFault⟩

def everyNamespace : List Observed :=
  [running "apps" ["nginx"], running "artifacts" [], running "other" []]

theorem selector_everyNamespace {enabled : Bool} :
    ∀ config ∈ some (settingsFor enabled ns), ∀ observed ∈ everyNamespace, ∀ reason,
      checkNamespaceSelector observed config.namespaceSelector ≠ .error reason := by
  rintro _ ⟨⟩ observed - reason h
  cases h

/-- Scanning is turned off, cleaned up, moved to another namespace and turned on again. -/
def movedAfterCleanup : List Action :=
  [.create (settingsFor true "artifacts"), .begin, .finish 0 (running "apps" ["nginx"]),
    .update (settingsFor false "artifacts"), .begin, .finish 0 (running "apps" ["nginx"]),
    .update (settingsFor false "other"), .update (settingsFor true "other"), .begin,
    .finish 0 (running "apps" ["nginx"])]

theorem no_orphaned_registries_movedAfterCleanup :
    ∃ s c', exec (step twoImages) .init movedAfterCleanup = some s ∧
      (reconcileEvery twoImages s.configuration everyNamespace).Returns s.cluster ⟨⟩ c' ∧
      c'.registries ≠ [] ∧ ∀ registry ∈ c'.registries, registry.isManagedByWorkloadScan = true →
        Dictated twoImages s.configuration everyNamespace registry.ns := by
  refine ⟨_, _, rfl, rfl, ?_, ?_⟩
  · decide +kernel
  · have hsettled : Transition.Along Settled (step twoImages) .init movedAfterCleanup := by
      decide +kernel
    exact no_orphaned_registries hsettled rfl (by decide +kernel)
      (fun config hconfig _ => selector_everyNamespace config hconfig) rfl

/-- The same, but no reconcile begins while scanning is off. -/
def movedAtOnce : List Action :=
  [.create (settingsFor true "artifacts"), .begin, .finish 0 (running "apps" ["nginx"]),
    .update (settingsFor false "artifacts"), .update (settingsFor false "other"),
    .update (settingsFor true "other")]

/-- The webhook has admitted all of it, and every namespace is reconciled in the end, but the
registry of the former artifacts namespace is still there. -/
theorem registry_orphaned :
    ∃ s c', exec (step twoImages) .init movedAtOnce = some s ∧
      (reconcileEvery twoImages s.configuration everyNamespace).Returns s.cluster ⟨⟩ c' ∧
      (∀ registry ∈ s.cluster.registries, registry.isManagedByWorkloadScan = true →
        ∃ observed ∈ everyNamespace, observed.workloadNamespace = registry.ns) ∧
      (∀ config ∈ s.configuration, ∀ observed ∈ everyNamespace, ∀ reason,
        checkNamespaceSelector observed config.namespaceSelector ≠ .error reason) ∧
      ∃ registry ∈ c'.registries, registry.isManagedByWorkloadScan = true ∧
        ¬Dictated twoImages s.configuration everyNamespace registry.ns := by
  refine ⟨_, _, rfl, rfl, by decide +kernel, selector_everyNamespace, ?_⟩
  refine ⟨_, mem_cons_of_mem _ mem_cons_self, by decide +kernel, ?_⟩
  rintro ⟨config, hconfig, -, hartifacts, -⟩
  cases hconfig
  exact absurd (hartifacts (by decide)) (by decide)

end SbomScanner.WorkloadScan.Placement

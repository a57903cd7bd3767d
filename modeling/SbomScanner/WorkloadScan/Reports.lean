import SbomScanner.Lib.Grouping
import SbomScanner.Lib.Keyed
import SbomScanner.Lib.ShortCircuit
import SbomScanner.WorkloadScan.Report

/-!
# The reports of the workloads in a namespace

`reconcileWorkloadScanReports` keeps one WorkloadScanReport for each workload. A workload is what
owns the pods, several steps up; the name of the report is computed from it. The pods of a workload
share the report, and the first of them in the list stands for all: its containers are what the
report is about.

What is left after a call is therefore a function of the pods in their order (`managed_after`). It
does not depend on the order iff the pods that share a report agree on what goes into it
(`reports_orderFree_iff`).
-/

namespace SbomScanner.WorkloadScan.Reports

open Api Fallible Procedure Grouping List Function Option Keyed.Store ShortCircuit

/-! ## Owners -/

structure OwnerReference where
  apiVersion : String
  kind : String
  name : String
  uid : String
  controller : Option Bool
  blockOwnerDeletion : Option Bool
  deriving DecidableEq

structure PodObject extends Pod where
  name : String
  ns : String
  uid : String
  ownerReferences : List OwnerReference
  deriving DecidableEq

/-- The reference that is marked as the controller. -/
def getControllerOf (ownerReferences : List OwnerReference) : Option OwnerReference :=
  ownerReferences.find? (·.controller = some true)

/-- What the API server answers to a `Get` of an owner, by namespace and name: its own owners. -/
structure OwnerReads where
  replicaSet : String → String → Except ApiError (List OwnerReference)
  job : String → String → Except ApiError (List OwnerReference)

/-- The look-up of the owner of a ReplicaSet or Job. There is no result if that owner is not of the
kind that is looked for. -/
def ownerAbove (kind above : String)
    (read : String → String → Except ApiError (List OwnerReference)) (pod : PodObject)
    (ownerReference : OwnerReference) : Except Error (Option OwnerReference) :=
  match read pod.ns ownerReference.name with
  | .error .notFound => .ok (some ownerReference)
  | .error cause =>
    .error ⟨"failed to get " ++ kind ++ " " ++ pod.ns ++ "/" ++ ownerReference.name, cause⟩
  | .ok ownerReferences => .ok ((getControllerOf ownerReferences).filter (·.kind = above))

/-- Walks up the owner reference chain to find the top-level workload. A pod without an owner is a
workload itself. -/
def resolveWorkloadOwner (reads : OwnerReads) (pod : PodObject) : Except Error OwnerReference :=
  match getControllerOf pod.ownerReferences with
  | none => .ok
      { apiVersion := "v1"
        kind := "Pod"
        name := pod.name
        uid := pod.uid
        controller := none
        blockOwnerDeletion := none }
  | some ownerReference => do
    let resolved ←
      if ownerReference.kind = "ReplicaSet" then
        ownerAbove "ReplicaSet" "Deployment" reads.replicaSet pod ownerReference
      else if ownerReference.kind = "Job" then
        ownerAbove "Job" "CronJob" reads.job pod ownerReference
      else
        .ok none
    return resolved.getD ownerReference

/-! ## Reports -/

/-- The stored reports; the metadata of each has its owner references. -/
abbrev Store := Keyed.Store (WorkloadScanReport.key (α := List OwnerReference))

/-- `toLower` is `strings.ToLower`. -/
structure ReportLibraries extends Libraries where
  toLower : String → String

def computeWorkloadScanReportName (lib : ReportLibraries) (kind uid : String) : String :=
  lib.toLower kind ++ "-" ++ uid

/-- The loop whose order can be observed. -/
inductive Loop where
  | podsByReport

inductive Request where
  | list
  | delete (name : String)
  | get (name : String)
  | create (name : String)
  | patch (name : String)

/-- What a call does not determine itself: the order of the loop over a map, and the requests the
API server refuses or fails to answer. -/
structure Choices where
  order : IterationOrder Loop
  fault : Request → Option String

/-- Finds the owner of a pod, by whatever means, and says for which pod this has failed. -/
def resolveFor (resolve : PodObject → Except Error OwnerReference) (pod : PodObject) :
    Except Error OwnerReference :=
  (resolve pod).mapError fun e => { e with
    message := "failed to resolve workload owner for pod " ++ pod.name ++ ": " ++ e.message }

/-- One pass of the loop of `buildPodsByReport`: the name of the report of a pod. -/
def nameReport (lib : ReportLibraries) (resolve : PodObject → Except Error OwnerReference)
    (pod : PodObject) : Except Error (String × PodObject) := do
  let ownerReference ← resolveFor resolve pod
  return (computeWorkloadScanReportName lib ownerReference.kind ownerReference.uid, pod)

/-- Builds a map of report names to pods. Of the pods of a workload the first one is kept. -/
def buildPodsByReport (lib : ReportLibraries) (resolve : PodObject → Except Error OwnerReference)
    (pods : List PodObject) : Except Error (List (String × PodObject)) :=
  (pods.mapM (nameReport lib resolve)).map (firsts Prod.fst)

/-- The changes that `CreateOrPatch` is called with. -/
def mutate (lib : ReportLibraries) (ns : String) (config : Configuration)
    (ownerReference : OwnerReference) (pod : PodObject)
    (report : WorkloadScanReport (List OwnerReference)) :
    WorkloadScanReport (List OwnerReference) :=
  let imageRefNamespace := if config.artifactsNamespace ≠ "" then config.artifactsNamespace else ns
  { report with
    labels := report.labels.insert labelManagedByKey labelManagedByValue
    metadata := [ownerReference]
    containers := buildContainerRefs lib.toLibraries imageRefNamespace pod.spec }

/-- A request that the API server may fail to answer. -/
def answered (choices : Choices) (req : Request) (message : String) :
    Procedure Error Store PUnit :=
  match choices.fault req with
  | some reason => throw ⟨message, .other reason⟩
  | none => pure ⟨⟩

/-- What `controllerutil.CreateOrPatch` does with what it has read. A patch that changes nothing is
not sent. -/
def write (choices : Choices) (message : String)
    (report : WorkloadScanReport (List OwnerReference))
    (f : WorkloadScanReport (List OwnerReference) → WorkloadScanReport (List OwnerReference))
    (reports : Store) : Procedure Error Store PUnit :=
  match reports.get report.key with
  | none => do
    answered choices (.create report.name) message
    match reports.create (f report) with
    | none => throw ⟨message, .alreadyExists⟩
    | some reports' => set reports'
  | some existing =>
    if f existing = existing then
      pure ⟨⟩
    else do
      answered choices (.patch report.name) message
      match reports.update (f existing) with
      | none => throw ⟨message, .notFound⟩
      | some reports' => set reports'

/-- `controllerutil.CreateOrPatch`, for an object of which only the key is set. -/
def createOrPatch (choices : Choices) (message : String)
    (report : WorkloadScanReport (List OwnerReference))
    (f : WorkloadScanReport (List OwnerReference) → WorkloadScanReport (List OwnerReference)) :
    Procedure Error Store PUnit := do
  answered choices (.get report.name) message
  write choices message report f (← get)

def createOrPatchWorkloadScanReport (lib : ReportLibraries)
    (resolve : PodObject → Except Error OwnerReference) (choices : Choices) (ns reportName : String)
    (pod : PodObject) (config : Configuration) : Procedure Error Store PUnit := do
  let ownerReference ← MonadExcept.ofExcept (resolveFor resolve pod)
  createOrPatch choices ("failed to create or update workload scan report " ++ reportName)
    ⟨reportName, ns, ∅, [], []⟩ (mutate lib ns config ownerReference pod)

/-- The label that the reports are listed by. -/
def isManaged (report : WorkloadScanReport (List OwnerReference)) : Bool :=
  report.labels.lookup labelManagedByKey = some labelManagedByValue

/-- One pass of the loop over the existing reports. One that is gone already counts as deleted. -/
def deleteStale (choices : Choices) (podsByReport : List (String × PodObject))
    (report : WorkloadScanReport (List OwnerReference)) : Procedure Error Store PUnit :=
  if report.name ∈ podsByReport.map Prod.fst then
    pure ⟨⟩
  else do
    answered choices (.delete report.name)
      ("failed to delete stale WorkloadScanReport " ++ report.name)
    modify (·.delete report.key)

/-- Creates or updates the reports of the workloads, and deletes those whose workloads are gone. -/
def reconcileWorkloadScanReports (lib : ReportLibraries)
    (resolve : PodObject → Except Error OwnerReference) (choices : Choices) (ns : String)
    (pods : List PodObject) (config : Configuration) : Procedure Error Store PUnit := do
  let podsByReport ← MonadExcept.ofExcept (buildPodsByReport lib resolve pods)
  answered choices .list "failed to list WorkloadScanReports"
  let existingReports := (← get).items.filter fun report => report.ns = ns && isManaged report
  existingReports.forM (deleteStale choices podsByReport)
  (choices.order.range .podsByReport podsByReport).forM fun entry =>
    createOrPatchWorkloadScanReport lib resolve choices ns entry.1 entry.2 config

/-! ## What a request does to the managed reports -/

structure Content where
  ownerReferences : List OwnerReference
  containers : List ContainerRef
  deriving DecidableEq

def managedReports (ns : String) (s : Store) (name : String) : Option Content :=
  (s.get (ns, name)).bind fun report =>
    if isManaged report then some ⟨report.metadata, report.containers⟩ else none

def contentOf (lib : ReportLibraries) (ns : String) (config : Configuration)
    (ownerReference : OwnerReference) (pod : PodObject) : Content where
  ownerReferences := [ownerReference]
  containers := buildContainerRefs lib.toLibraries
    (if config.artifactsNamespace ≠ "" then config.artifactsNamespace else ns) pod.spec

variable {lib : ReportLibraries} {resolve : PodObject → Except Error OwnerReference}
  {choices : Choices} {ns name reportName : String} {config : Configuration} {s s' : Store}
  {pod : PodObject} {ownerReference : OwnerReference} {req : Request} {message : String}
  {report : WorkloadScanReport (List OwnerReference)} {podsByReport : List (String × PodObject)}

variable {u : PUnit}

theorem answered_returns (h : (answered choices req message).Returns s u s') : s' = s := by
  unfold answered at h
  cases hfault : choices.fault req with
  | some reason =>
    rw [hfault] at h
    exact absurd h not_returns_throw
  | none =>
    rw [hfault] at h
    exact (returns_pure.mp h).2

theorem returns_answered (h : choices.fault req = none) :
    (answered choices req message).Returns s ⟨⟩ s := by
  rw [answered, h]
  exact returns_pure.mpr ⟨rfl, rfl⟩

theorem isManaged_mutate : isManaged (mutate lib ns config ownerReference pod report) = true := by
  simp [isManaged, mutate]

theorem key_mutate : (mutate lib ns config ownerReference pod report).key = report.key := rfl

section CreateOrPatch

variable {f : WorkloadScanReport (List OwnerReference) → WorkloadScanReport (List OwnerReference)}

section

variable (hf : ∀ r, (f r).key = r.key)
include hf

/-- One report is written, and it is what the function makes of some report. -/
theorem get_write (h : (write choices message report f s).Returns s u s') :
    ∃ existing, ∀ k, s'.get k = if k = report.key then some (f existing) else s.get k := by
  unfold write at h
  cases hstored : s.get report.key with
  | none =>
    rw [hstored] at h
    obtain ⟨_, t, hanswered, hset⟩ := returns_bind.mp h
    cases hcreated : s.create (f report) with
    | none =>
      rw [hcreated] at hset
      exact absurd hset not_returns_throw
    | some created =>
      rw [hcreated] at hset
      obtain rfl := returns_set.mp hset
      refine ⟨report, fun k => ?_⟩
      rw [get_create hcreated, hf]
  | some existing =>
    have hkey : existing.key = report.key := (get_eq_some.mp hstored).2
    refine ⟨existing, fun k => ?_⟩
    rw [hstored] at h
    dsimp only at h
    split at h
    case isTrue hsame =>
      obtain ⟨-, rfl⟩ := returns_pure.mp h
      split
      case isTrue hk => rw [hk, hstored, hsame]
      case isFalse => rfl
    case isFalse =>
      obtain ⟨_, t, hanswered, hset⟩ := returns_bind.mp h
      cases hupdated : s.update (f existing) with
      | none =>
        rw [hupdated] at hset
        exact absurd hset not_returns_throw
      | some updated =>
        rw [hupdated] at hset
        obtain rfl := returns_set.mp hset
        rw [get_update hupdated, hf, hkey]

theorem get_createOrPatch (h : (createOrPatch choices message report f).Returns s u s') :
    ∃ existing, ∀ k, s'.get k = if k = report.key then some (f existing) else s.get k := by
  obtain ⟨_, t, hanswered, hrest⟩ := returns_bind.mp h
  obtain rfl := answered_returns hanswered
  obtain ⟨_, t', hget, hwrite⟩ := returns_bind.mp hrest
  obtain ⟨rfl, rfl⟩ := returns_get.mp hget
  exact get_write hf hwrite

theorem exists_returns_write (hfault : ∀ req, choices.fault req = none) (s : Store) :
    ∃ s', (write choices message report f s).Returns s ⟨⟩ s' := by
  unfold write
  cases hstored : s.get report.key with
  | none =>
    obtain ⟨created, hcreated⟩ := exists_create ((hf report).symm ▸ hstored)
    rw [hcreated]
    exact ⟨created, returns_bind.mpr ⟨⟨⟩, s, returns_answered (hfault _), returns_set.mpr rfl⟩⟩
  | some existing =>
    have hne : s.get (f existing).key ≠ none := by
      rw [hf, (get_eq_some.mp hstored).2, hstored]
      exact some_ne_none existing
    obtain ⟨updated, hupdated⟩ := exists_update hne
    dsimp only
    split
    · exact ⟨s, returns_pure.mpr ⟨rfl, rfl⟩⟩
    · rw [hupdated]
      exact ⟨updated, returns_bind.mpr ⟨⟨⟩, s, returns_answered (hfault _), returns_set.mpr rfl⟩⟩

theorem exists_returns_createOrPatch (hfault : ∀ req, choices.fault req = none) (s : Store) :
    ∃ s', (createOrPatch choices message report f).Returns s ⟨⟩ s' := by
  obtain ⟨s', hwrite⟩ := exists_returns_write hf hfault s
  refine ⟨s', returns_bind.mpr ⟨⟨⟩, s, returns_answered (hfault _), ?_⟩⟩
  exact returns_bind.mpr ⟨s, s, returns_get.mpr ⟨rfl, rfl⟩, hwrite⟩

end

end CreateOrPatch

/-- A report that has been written says what it should, and the others say what they did. -/
theorem managedReports_createOrPatch (hresolve : resolve pod = .ok ownerReference)
    (h : (createOrPatchWorkloadScanReport lib resolve choices ns reportName pod config).Returns
      s u s') :
    managedReports ns s' = update (managedReports ns s) reportName
      (some (contentOf lib ns config ownerReference pod)) := by
  obtain ⟨_, t, howner, hwrite⟩ := returns_bind.mp h
  obtain ⟨hok, rfl⟩ := returns_ofExcept.mp howner
  rw [resolveFor, hresolve] at hok
  cases hok
  obtain ⟨existing, hget⟩ := get_createOrPatch (fun _ => key_mutate) hwrite
  funext name
  unfold managedReports
  rw [hget, WorkloadScanReport.key]
  by_cases hname : name = reportName
  · subst hname
    rw [if_pos rfl, update_self, bind_some, if_pos isManaged_mutate]
    rfl
  · rw [if_neg (by simpa using hname), update_of_ne hname]

theorem exists_returns_createOrPatchWorkloadScanReport (hresolve : resolve pod = .ok ownerReference)
    (hfault : ∀ req, choices.fault req = none) (s : Store) :
    ∃ s', (createOrPatchWorkloadScanReport lib resolve choices ns reportName pod config).Returns
      s ⟨⟩ s' := by
  obtain ⟨s', hwrite⟩ := exists_returns_createOrPatch
    (f := mutate lib ns config ownerReference pod) (fun _ => key_mutate) hfault s
  refine ⟨s', returns_bind.mpr ⟨ownerReference, s, ?_, hwrite⟩⟩
  rw [returns_ofExcept, resolveFor, hresolve]
  exact ⟨rfl, rfl⟩

/-- A pass of the first loop deletes at most the one report. -/
theorem managedReports_deleteStale (hns : report.ns = ns)
    (h : (deleteStale choices podsByReport report).Returns s u s')
    (hname : name ∉ podsByReport.map Prod.fst) :
    managedReports ns s' name = if name = report.name then none else managedReports ns s name := by
  unfold deleteStale at h
  split at h
  case isTrue hmem =>
    obtain ⟨-, rfl⟩ := returns_pure.mp h
    have hne : name ≠ report.name := fun heq => hname (heq ▸ hmem)
    rw [if_neg hne]
  case isFalse =>
    obtain ⟨_, t, hanswered, hdelete⟩ := returns_bind.mp h
    obtain rfl := answered_returns hanswered
    cases hdelete
    unfold managedReports
    rw [get_delete, WorkloadScanReport.key, hns]
    by_cases heq : name = report.name
    · rw [if_pos heq, heq, if_pos rfl]
      rfl
    · rw [if_neg heq, if_neg (by simpa using heq)]

theorem exists_returns_deleteStale (hfault : ∀ req, choices.fault req = none) (s : Store) :
    ∃ s', (deleteStale choices podsByReport report).Returns s ⟨⟩ s' := by
  unfold deleteStale
  split
  · exact ⟨s, returns_pure.mpr ⟨rfl, rfl⟩⟩
  · exact ⟨_, returns_bind.mpr ⟨⟨⟩, s, returns_answered (hfault _), rfl⟩⟩

/-- The first loop leaves no managed report without pods. -/
theorem managedReports_deleteLoop
    (h : ((s.items.filter fun report => report.ns = ns && isManaged report).forM
      (deleteStale choices podsByReport)).Returns s u s')
    (hname : name ∉ podsByReport.map Prod.fst) :
    managedReports ns s' name = none := by
  have hloop : managedReports ns s' name ≠ none →
      name ∉ (s.items.filter fun report => report.ns = ns && isManaged report).map (·.name) ∧
        managedReports ns s name ≠ none := by
    refine returns_forM (I := fun visited t => managedReports ns t name ≠ none →
      name ∉ visited.map (·.name) ∧ managedReports ns s name ≠ none) ?_ h
        (fun hne => ⟨not_mem_nil, hne⟩)
    intro visited report t t' hvisited ht hstep hne
    have hreport := (mem_filter.mp (hvisited.subset (mem_append_right _ mem_cons_self))).2
    rw [managedReports_deleteStale (by simp_all) hstep hname] at hne
    have heq : name ≠ report.name := by
      intro heq
      rw [if_pos heq] at hne
      exact hne rfl
    rw [if_neg heq] at hne
    rw [map_append, mem_append, not_or]
    exact ⟨⟨(ht hne).1, by simpa using heq⟩, (ht hne).2⟩
  by_contra hne
  obtain ⟨hnot, hmanaged⟩ := hloop hne
  obtain ⟨content, hcontent⟩ := ne_none_iff_exists'.mp hmanaged
  obtain ⟨report, hget, hsome⟩ := bind_eq_some_iff.mp hcontent
  obtain ⟨hmem, hkey⟩ := get_eq_some.mp hget
  obtain ⟨hns, hname'⟩ := Prod.mk.inj hkey
  refine hnot (mem_map.mpr ⟨report, mem_filter.mpr ⟨hmem, ?_⟩, hname'⟩)
  split at hsome
  case isTrue hmanaged => simp [hns, hmanaged]
  case isFalse => cases hsome

/-! ## What a call leaves -/

variable (lib resolve ns config) in
/-- The report that a pod asks for, if its owner can be found. -/
def reportFor (pod : PodObject) : Option (String × Content) :=
  (resolve pod).toOption.map fun ownerReference =>
    (computeWorkloadScanReportName lib ownerReference.kind ownerReference.uid,
      contentOf lib ns config ownerReference pod)

variable (lib resolve ns config) in
/-- The first pod that asks for a report decides what it says. -/
def firstReport (pods : List PodObject) (name : String) : Option Content :=
  firstOutcome
    (fun pod => (reportFor lib resolve ns config pod).map Prod.fst = some name)
    (fun pod => (reportFor lib resolve ns config pod).map Prod.snd) none pods

variable {pods : List PodObject}

theorem reportFor_of_resolve (h : resolve pod = .ok ownerReference) :
    reportFor lib resolve ns config pod = some
      (computeWorkloadScanReportName lib ownerReference.kind ownerReference.uid,
        contentOf lib ns config ownerReference pod) := by
  rw [reportFor, h]
  rfl

variable {entry : String × PodObject}

theorem nameReport_eq_ok :
    nameReport lib resolve pod = .ok entry ↔ ∃ ownerReference, resolve pod = .ok ownerReference ∧
      entry = (computeWorkloadScanReportName lib ownerReference.kind ownerReference.uid, pod) := by
  unfold nameReport resolveFor
  rw [bind_eq_ok]
  apply exists_congr
  intro ownerReference
  rw [mapError_eq_ok]
  apply and_congr_right
  intro _
  constructor
  · rintro ⟨⟩
    rfl
  · rintro rfl
    rfl

theorem firstReport_eq {named : List (String × PodObject)}
    (h : pods.mapM (nameReport lib resolve) = .ok named) (name : String) :
    ((named.find? (·.1 = name)).bind fun entry =>
      (reportFor lib resolve ns config entry.2).map Prod.snd) =
        firstReport lib resolve ns config pods name := by
  unfold firstReport
  replace h := mapM_eq_ok.mp h
  induction h with
  | nil => rfl
  | @cons pod entry pods named hname _ ih =>
    obtain ⟨ownerReference, hresolve, rfl⟩ := nameReport_eq_ok.mp hname
    rw [firstOutcome, reportFor_of_resolve hresolve]
    by_cases heq : computeWorkloadScanReportName lib ownerReference.kind ownerReference.uid = name
    · rw [List.find?_cons_of_pos (by simpa using heq), if_pos (by simpa using heq),
        bind_some, reportFor_of_resolve hresolve]
    · rw [List.find?_cons_of_neg (by simpa using heq), if_neg (by simpa using heq), ih]

theorem buildPodsByReport_eq_ok :
    buildPodsByReport lib resolve pods = .ok podsByReport ↔ ∃ named,
      pods.mapM (nameReport lib resolve) = .ok named ∧
        firsts Prod.fst named = podsByReport := map_eq_ok

/-- The entry under a name asks for the report with that name. -/
theorem find?_podsByReport (hnodup : (podsByReport.map Prod.fst).Nodup)
    (hentry : entry ∈ podsByReport) :
    podsByReport.find? (·.1 = entry.1) = some entry :=
  get_eq_some (s := ⟨podsByReport, hnodup⟩).mpr ⟨hentry, rfl⟩

/-- The second loop writes the report of each entry, and no other. -/
theorem managedReports_createLoop (hnodup : (podsByReport.map Prod.fst).Nodup)
    (hresolve : ∀ entry ∈ podsByReport, ∃ ownerReference, resolve entry.2 = .ok ownerReference)
    {entries : List (String × PodObject)} (hentries : entries.Perm podsByReport)
    (h : (entries.forM fun entry => createOrPatchWorkloadScanReport lib resolve choices ns entry.1
      entry.2 config).Returns s u s') (name : String) :
    (name ∈ entries.map Prod.fst → managedReports ns s' name =
      (podsByReport.find? (·.1 = name)).bind fun entry =>
        (reportFor lib resolve ns config entry.2).map Prod.snd) ∧
    (name ∉ entries.map Prod.fst → managedReports ns s' name = managedReports ns s name) := by
  refine returns_forM (I := fun visited t => ∀ name,
    (name ∈ visited.map Prod.fst → managedReports ns t name =
      (podsByReport.find? (·.1 = name)).bind fun entry =>
        (reportFor lib resolve ns config entry.2).map Prod.snd) ∧
    (name ∉ visited.map Prod.fst → managedReports ns t name = managedReports ns s name)) ?_ h
      (fun _ => ⟨fun hmem => absurd hmem not_mem_nil, fun _ => rfl⟩) name
  intro visited entry t t' hvisited ht hstep name
  have hentry : entry ∈ podsByReport := hentries.mem_iff.mp (hvisited.subset (by simp))
  obtain ⟨ownerReference, howner⟩ := hresolve entry hentry
  rw [managedReports_createOrPatch howner hstep, map_append, mem_append,
    map_singleton, mem_singleton]
  by_cases hname : name = entry.1
  · subst hname
    refine ⟨fun _ => ?_, fun hnot => absurd (.inr rfl) hnot⟩
    rw [update_self, find?_podsByReport hnodup hentry, bind_some, reportFor_of_resolve howner]
    rfl
  · rw [update_of_ne hname]
    exact ⟨fun hmem => (ht name).1 (hmem.resolve_right hname),
      fun hnot => (ht name).2 fun hmem => hnot (.inl hmem)⟩

section

variable (h : buildPodsByReport lib resolve pods = .ok podsByReport)
include h

theorem nodup_podsByReport :
    (podsByReport.map Prod.fst).Nodup := by
  obtain ⟨named, -, rfl⟩ := buildPodsByReport_eq_ok.mp h
  exact nodup_map_firsts named

theorem resolved_podsByReport (hentry : entry ∈ podsByReport) :
    ∃ ownerReference, resolve entry.2 = .ok ownerReference := by
  obtain ⟨named, hnamed, rfl⟩ := buildPodsByReport_eq_ok.mp h
  obtain ⟨pod, -, hname⟩ := exists_of_mem_mapM hnamed (mem_of_mem_firsts hentry)
  obtain ⟨ownerReference, howner, rfl⟩ := nameReport_eq_ok.mp hname
  exact ⟨ownerReference, howner⟩

theorem find?_podsByReport_eq (name : String) :
    ((podsByReport.find? (·.1 = name)).bind fun entry =>
      (reportFor lib resolve ns config entry.2).map Prod.snd) =
        firstReport lib resolve ns config pods name := by
  obtain ⟨named, hnamed, rfl⟩ := buildPodsByReport_eq_ok.mp h
  rw [find?_firsts]
  exact firstReport_eq hnamed name

end

/-- **What a call leaves.** The managed reports of the namespace are those the pods ask for, each
decided by the first of its pods. -/
theorem managed_after
    (h : (reconcileWorkloadScanReports lib resolve choices ns pods config).Returns s u s') :
    managedReports ns s' = firstReport lib resolve ns config pods := by
  obtain ⟨podsByReport, t, hbuild, hrest⟩ := returns_bind.mp h
  obtain ⟨hok, rfl⟩ := returns_ofExcept.mp hbuild
  obtain ⟨_, t', hanswered, hloops⟩ := returns_bind.mp hrest
  obtain ⟨_, t'', hget, hdeleted⟩ := returns_bind.mp hloops
  obtain ⟨rfl, rfl⟩ := returns_get.mp hget
  obtain ⟨_, deleted, hdelete, hcreate⟩ := returns_bind.mp hdeleted
  funext name
  have hcreated := managedReports_createLoop (nodup_podsByReport hok)
    (fun _ => resolved_podsByReport hok) (choices.order.perm _ _) hcreate name
  rw [← find?_podsByReport_eq hok]
  by_cases hname : name ∈ podsByReport.map Prod.fst
  · exact hcreated.1 (((choices.order.perm _ podsByReport).map _).mem_iff.mpr hname)
  · have hnone : podsByReport.find? (·.1 = name) = none := by
      rw [List.find?_eq_none]
      intro entry hentry heq
      exact hname (mem_map.mpr ⟨entry, hentry, of_decide_eq_true heq⟩)
    rw [hcreated.2 fun hmem => hname (((choices.order.perm _ podsByReport).map _).mem_iff.mp hmem),
      managedReports_deleteLoop hdelete hname, hnone]
    rfl

theorem exists_returns_reconcile (hfault : ∀ req, choices.fault req = none)
    (hresolve : ∀ pod ∈ pods, ∃ ownerReference, resolve pod = .ok ownerReference) (s : Store) :
    ∃ s', (reconcileWorkloadScanReports lib resolve choices ns pods config).Returns s ⟨⟩ s' := by
  have hnames : ∀ pod ∈ pods, ∃ entry, nameReport lib resolve pod = .ok entry := by
    intro pod hpod
    obtain ⟨ownerReference, howner⟩ := hresolve pod hpod
    exact ⟨_, nameReport_eq_ok.mpr ⟨ownerReference, howner, rfl⟩⟩
  obtain ⟨podsByReport, hok⟩ : ∃ podsByReport,
      buildPodsByReport lib resolve pods = .ok podsByReport := by
    obtain ⟨named, hnamed⟩ := exists_mapM_eq_ok hnames
    exact ⟨_, buildPodsByReport_eq_ok.mpr ⟨named, hnamed, rfl⟩⟩
  obtain ⟨t, hdelete⟩ : ∃ t, ((s.items.filter fun report =>
      report.ns = ns && isManaged report).forM (deleteStale choices podsByReport)).Returns s ⟨⟩ t :=
    exists_returns_forM (fun _ _ => exists_returns_deleteStale hfault) s
  obtain ⟨s', hcreate⟩ : ∃ s', ((choices.order.range .podsByReport podsByReport).forM fun entry =>
      createOrPatchWorkloadScanReport lib resolve choices ns entry.1 entry.2 config).Returns
        t ⟨⟩ s' := by
    refine exists_returns_forM (fun entry hentry => ?_) t
    obtain ⟨ownerReference, howner⟩ := resolved_podsByReport hok (choices.order.mem_range.mp hentry)
    exact exists_returns_createOrPatchWorkloadScanReport howner hfault
  refine ⟨s', returns_bind.mpr ⟨_, s, returns_ofExcept.mpr ⟨hok, rfl⟩, ?_⟩⟩
  refine returns_bind.mpr ⟨⟨⟩, s, returns_answered (hfault _), ?_⟩
  refine returns_bind.mpr ⟨s, s, returns_get.mpr ⟨rfl, rfl⟩, ?_⟩
  exact returns_bind.mpr ⟨⟨⟩, t, hdelete, hcreate⟩

/-! ## The order of the pods -/

/-- The state after a call that the API server answers, however the call ends. -/
def after (lib : ReportLibraries) (resolve : PodObject → Except Error OwnerReference)
    (order : IterationOrder Loop) (ns : String) (pods : List PodObject) (config : Configuration)
    (s : Store) : Store :=
  ((reconcileWorkloadScanReports lib resolve ⟨order, fun _ => none⟩ ns pods config).run.run s).2

variable {order order' : IterationOrder Loop}

theorem managedReports_after
    (hresolve : ∀ pod ∈ pods, ∃ ownerReference, resolve pod = .ok ownerReference) (s : Store) :
    managedReports ns (after lib resolve order ns pods config s) =
      firstReport lib resolve ns config pods := by
  obtain ⟨s', hreturns⟩ : ∃ s', (reconcileWorkloadScanReports lib resolve ⟨order, fun _ => none⟩ ns
      pods config).Returns s ⟨⟩ s' := exists_returns_reconcile (fun _ => rfl) hresolve s
  rw [after, show _ = _ from hreturns]
  exact managed_after hreturns

theorem after_of_unresolved {e : Error} (hpod : pod ∈ pods) (hresolve : resolve pod = .error e)
    (s : Store) : after lib resolve order ns pods config s = s := by
  cases hbuild : buildPodsByReport lib resolve pods with
  | ok podsByReport =>
    obtain ⟨named, hnamed, -⟩ := buildPodsByReport_eq_ok.mp hbuild
    obtain ⟨entry, -, hname⟩ := exists_mem_of_mapM hnamed hpod
    obtain ⟨ownerReference, howner, -⟩ := nameReport_eq_ok.mp hname
    cases hresolve.symm.trans howner
  | error e =>
    unfold after reconcileWorkloadScanReports
    rw [hbuild]
    rfl

/-- Pods that share a report agree on what goes into it. -/
def Uniform (lib : ReportLibraries) (resolve : PodObject → Except Error OwnerReference)
    (ns : String) (pods : List PodObject) (config : Configuration) : Prop :=
  ∀ u ∈ pods, ∀ v ∈ pods, ∀ owner owner', resolve u = .ok owner → resolve v = .ok owner' →
    computeWorkloadScanReportName lib owner.kind owner.uid =
      computeWorkloadScanReportName lib owner'.kind owner'.uid →
    owner = owner' ∧
      buildContainerRefs lib.toLibraries
          (if config.artifactsNamespace ≠ "" then config.artifactsNamespace else ns) u.spec =
        buildContainerRefs lib.toLibraries
          (if config.artifactsNamespace ≠ "" then config.artifactsNamespace else ns) v.spec

theorem uniform_iff (hresolve : ∀ pod ∈ pods, ∃ owner, resolve pod = .ok owner) :
    Uniform lib resolve ns pods config ↔ ∀ name, ∀ u ∈ pods, ∀ v ∈ pods,
      (reportFor lib resolve ns config u).map Prod.fst = some name →
      (reportFor lib resolve ns config v).map Prod.fst = some name →
      (reportFor lib resolve ns config u).map Prod.snd =
        (reportFor lib resolve ns config v).map Prod.snd := by
  constructor
  · intro h name u hu v hv huname hvname
    obtain ⟨owner, howner⟩ := hresolve u hu
    obtain ⟨owner', howner'⟩ := hresolve v hv
    rw [reportFor_of_resolve howner, map_some, Option.some.injEq] at huname
    rw [reportFor_of_resolve howner', map_some, Option.some.injEq] at hvname
    obtain ⟨rfl, hcontainers⟩ := h u hu v hv owner owner' howner howner' (huname.trans hvname.symm)
    rw [reportFor_of_resolve howner, reportFor_of_resolve howner', map_some, map_some,
      contentOf, contentOf, hcontainers]
  · intro h u hu v hv owner owner' howner howner' hname
    have hsame := h (computeWorkloadScanReportName lib owner.kind owner.uid) u hu v hv
    rw [reportFor_of_resolve howner, reportFor_of_resolve howner'] at hsame
    obtain ⟨howners, hcontainers⟩ :=
      Content.mk.inj (Option.some.inj (hsame rfl (congrArg some hname.symm)))
    exact ⟨singleton_inj.mp howners, hcontainers⟩

/-- **The reports and the order of the pods.** The managed reports that a call leaves are the same
for every order of the pods iff the pods that share a report agree on its owner and its containers,
or the owner of some pod cannot be found. -/
theorem reports_orderFree_iff (lib : ReportLibraries)
    (resolve : PodObject → Except Error OwnerReference) (ns : String) (pods : List PodObject)
    (config : Configuration) :
    (∀ pods', pods.Perm pods' → ∀ order order' s,
      managedReports ns (after lib resolve order ns pods config s) =
        managedReports ns (after lib resolve order' ns pods' config s)) ↔
    (∃ pod ∈ pods, ∃ e, resolve pod = .error e) ∨ Uniform lib resolve ns pods config := by
  by_cases hresolve : ∀ pod ∈ pods, ∃ owner, resolve pod = .ok owner
  · have hresolved : ¬∃ pod ∈ pods, ∃ e, resolve pod = .error e := by
      rintro ⟨pod, hpod, e, he⟩
      obtain ⟨owner, howner⟩ := hresolve pod hpod
      cases he.symm.trans howner
    rw [or_iff_right hresolved, uniform_iff hresolve]
    have hperm : ∀ {pods' : List PodObject}, pods.Perm pods' →
        ∀ pod ∈ pods', ∃ owner, resolve pod = .ok owner :=
      fun h pod hpod => hresolve pod (h.mem_iff.mpr hpod)
    have hfirst : ∀ name, (∀ pods', pods.Perm pods' → firstReport lib resolve ns config pods' name =
        firstReport lib resolve ns config pods name) ↔ _ :=
      fun name => firstOutcome_perm_iff _ _ none pods
    simp only [decide_eq_true_eq] at hfirst
    constructor
    · intro h name
      refine (hfirst name).mp fun pods' hpods' => ?_
      have hsame := h pods' hpods' .asStored .asStored .empty
      rw [managedReports_after hresolve, managedReports_after (hperm hpods')] at hsame
      exact (congrFun hsame name).symm
    · intro h pods' hpods' order order' s
      rw [managedReports_after hresolve, managedReports_after (hperm hpods')]
      funext name
      exact ((hfirst name).mpr (h name) pods' hpods').symm
  · push Not at hresolve
    obtain ⟨pod, hpod, hnot⟩ := hresolve
    cases hpodowner : resolve pod with
    | ok owner => exact absurd hpodowner (hnot owner)
    | error e =>
      refine iff_of_true (fun pods' hperm order order' s => ?_) (.inl ⟨pod, hpod, e, hpodowner⟩)
      rw [after_of_unresolved hpod hpodowner, after_of_unresolved (hperm.mem_iff.mp hpod) hpodowner]

/-! ## A rollout

A Deployment goes from one image to the next. While it does, it has pods of both ReplicaSets. -/

def appImages : ReportLibraries where
  parseReference image :=
    if image = "app:1" then some ⟨"index.docker.io", "library/app", "1"⟩
    else if image = "app:2" then some ⟨"index.docker.io", "library/app", "2"⟩
    else none
  parseReference_empty := rfl
  quote tag := "\"" ++ tag ++ "\""
  sha256 uri := uri
  marshal _ := "\x7b\x7d"
  toLower kind :=
    if kind = "Deployment" then "deployment"
    else if kind = "Pod" then "pod"
    else kind

def controlledBy (kind name uid : String) : OwnerReference :=
  ⟨"apps/v1", kind, name, uid, some true, some true⟩

/-- Every ReplicaSet belongs to the Deployment. -/
def appDeployment : OwnerReads where
  replicaSet _ _ := .ok [controlledBy "Deployment" "app" "d1"]
  job _ _ := .error .notFound

def appPod (name replicaSet image : String) : PodObject :=
  { spec := ⟨[], [⟨"app", image⟩]⟩
    name := name
    ns := "a"
    uid := name
    ownerReferences := [controlledBy "ReplicaSet" replicaSet replicaSet] }

/-- What a report says after a call with these pods. -/
def appReport (pods : List PodObject) (name : String) : Option Content :=
  managedReports "a" (after appImages (resolveWorkloadOwner appDeployment) .asStored "a" pods
    scanOnChange .empty) name

/-- The containers of the report are those of the pod that is listed first. -/
theorem report_depends_on_pod_order :
    appReport [appPod "app-5d-x" "app-5d" "app:1", appPod "app-7c-y" "app-7c" "app:2"]
        "deployment-d1" =
      some ⟨[controlledBy "Deployment" "app" "d1"],
        [⟨"app", ⟨"workloadscan-index.docker.io", "artifacts", "library/app", "1"⟩⟩]⟩ ∧
    appReport [appPod "app-7c-y" "app-7c" "app:2", appPod "app-5d-x" "app-5d" "app:1"]
        "deployment-d1" =
      some ⟨[controlledBy "Deployment" "app" "d1"],
        [⟨"app", ⟨"workloadscan-index.docker.io", "artifacts", "library/app", "2"⟩⟩]⟩ := by
  decide +kernel

end SbomScanner.WorkloadScan.Reports

import SbomScanner.Lib.Informer
import SbomScanner.WorkloadScan.Placement
import SbomScanner.WorkloadScan.Watch

/-!
# The workload scan at rest

The controller reads the pods and the labels of a namespace from caches. An event that reaches a
cache puts the namespace into the queue, unless the predicate drops it. A namespace that is not in
the queue is up to date once the reconcile under way is done (`Inv`), so all are when there is
nothing left to do (`registries_converge`). The configuration does not change here, and a reconcile
fails before its first write or not at all.
-/

namespace SbomScanner.WorkloadScan.Convergence

open Api Procedure Transition Keyed Function Informer
open Placement (Observed checkNamespaceSelector reconcile)
open Reports (PodObject)
open Webhook (WorkloadScanConfiguration)

def podKey (pod : PodObject) : String × String := (pod.ns, pod.name)

structure Namespace where
  name : String
  labels : List (String × String)

/-- A reconcile with the caches as it has read them. -/
structure Reconciling where
  ns : String
  namespaces : Store Namespace.name
  pods : Store podKey
  choices : Choices

def Reconciling.observed (r : Reconciling) : Observed where
  workloadNamespace := r.ns
  namespaceLabels := .ok ((r.namespaces.get r.ns).map (·.labels))
  pods := .ok ((r.pods.items.filter (·.ns = r.ns)).map (·.toPod))
  choices := r.choices

structure State where
  pods : Informer podKey
  namespaces : Informer Namespace.name
  cluster : Cluster
  queue : List String
  reconciling : Option Reconciling

def init : State := ⟨.empty, .empty, .empty, [], none⟩

inductive Action where
  | writePod (e : Informer.Event podKey)
  | writeNamespace (e : Informer.Event Namespace.name)
  | deliverPod
  | deliverNamespace
  | enqueue (ns : String)
  | start (ns : String) (choices : Choices)
  | finish
  | fail

/-- The event that a change of the cache is. -/
def podEvent : Option PodObject → Option PodObject → Option Event
  | none, none => none
  | none, some pod => some (.create pod.toPod)
  | some oldPod, some newPod => some (.update oldPod.toPod newPod.toPod)
  | some pod, none => some (.delete pod.toPod)

def step (lib : Libraries) (config : WorkloadScanConfiguration) (s : State) : Action → Option State
  | .writePod e => some { s with pods := s.pods.write e }
  | .writeNamespace e => some { s with namespaces := s.namespaces.write e }
  | .deliverPod => s.pods.deliver.map fun (e, pods) =>
    let event := podEvent (s.pods.cached.get e.subject) e.object
    { s with
      pods
      queue := if event.any podImagesChangedPredicate then e.subject.1 :: s.queue else s.queue }
  | .deliverNamespace => s.namespaces.deliver.map fun (e, namespaces) =>
    { s with namespaces, queue := e.subject :: s.queue }
  -- the configuration is written, or all pods are listed again
  | .enqueue ns => some { s with queue := ns :: s.queue }
  | .start ns choices =>
    if ns ∈ s.queue ∧ s.reconciling.isNone then
      some { s with
        queue := s.queue.filter (· ≠ ns)
        reconciling := some ⟨ns, s.namespaces.cached, s.pods.cached, choices⟩ }
    else
      none
  | .finish => s.reconciling.bind fun r =>
    match (reconcile lib (some config) r.observed).run.run s.cluster with
    | (.ok _, cluster) => some { s with cluster, reconciling := none }
    | (.error _, _) => none
  | .fail => s.reconciling.map fun r => { s with queue := r.ns :: s.queue, reconciling := none }

/-- The pods of the namespace, if it is selected. -/
def workloads (config : WorkloadScanConfiguration) (namespaces : Store Namespace.name)
    (pods : Store podKey) (ns : String) : List Pod :=
  if config.namespaceSelector.all fun selector =>
      (namespaces.get ns).any (selector.matches ·.labels) then
    (pods.items.filter (·.ns = ns)).map (·.toPod)
  else
    []

/-- The last pods of each namespace once the reconcile under way is done. -/
def expected (config : WorkloadScanConfiguration) (latest : String → List Pod) :
    Option Reconciling → String → List Pod
  | none => latest
  | some r => update latest r.ns (workloads config r.namespaces r.pods r.ns)

def SameUses (lib : Libraries) (pods pods' : List Pod) : Prop :=
  ∀ reference, Uses lib pods reference ↔ Uses lib pods' reference

structure Inv (lib : Libraries) (config : WorkloadScanConfiguration) (latest : String → List Pod)
    (s : State) : Prop where
  pods : s.pods.Synced
  namespaces : s.namespaces.Synced
  reconciled : Reconciled lib config.settings latest s.cluster
  current : ∀ ns ∉ s.queue, SameUses lib (expected config latest s.reconciling ns)
    (workloads config s.namespaces.cached s.pods.cached ns)

variable {lib : Libraries} {config : WorkloadScanConfiguration} {s s' : State} {a : Action}
  {latest latest' : String → List Pod} {namespaces : Store Namespace.name} {pods : Store podKey}
  {ns : String}

theorem returns_reconcile {r : Reconciling} {c c' : Cluster} {u : PUnit}
    (henabled : config.enabled = true)
    (h : (reconcile lib (some config) r.observed).Returns c u c') :
    (reconcileRegistries lib r.choices r.ns (workloads config r.namespaces r.pods r.ns)
      config.settings).Returns c u c' := by
  simp only [reconcile, henabled, Bool.not_true, Bool.false_eq_true, if_false] at h
  unfold workloads
  cases hselector : config.namespaceSelector with
  | none =>
    simp only [hselector, checkNamespaceSelector] at h
    exact returns_mapError.mp h
  | some selector =>
    simp only [hselector, checkNamespaceSelector, Reconciling.observed] at h
    cases hget : r.namespaces.get r.ns with
    | none =>
      simp only [hget, Option.map_none] at h
      exact returns_mapError.mp h
    | some found =>
      simp only [hget, Option.map_some] at h
      cases hmatches : selector.matches found.labels <;> rw [hmatches] at h
      all_goals simpa [hmatches] using returns_mapError.mp h

theorem reconciled_congr {settings : Configuration} {c : Cluster}
    (h : Reconciled lib settings latest c) (hsame : ∀ ns, SameUses lib (latest ns) (latest' ns)) :
    Reconciled lib settings latest' c where
  unique := h.unique
  faithful hmem :=
    have hf := h.faithful hmem
    ⟨hf.nonempty, hf.tidy, hf.sorted, hf.owned.congr fun ns => needs_iff (hsame ns) _⟩
  settings := h.settings
  covers huses := h.covers ((hsame _ _).mpr huses)

theorem uses_workloads {reference : Reference} :
    Uses lib (workloads config namespaces pods ns) reference ↔
      config.namespaceSelector.all (fun selector =>
        (namespaces.get ns).any (selector.matches ·.labels)) ∧
      ∃ name, ∃ pod ∈ pods.get (ns, name), ∃ image ∈ extractImagesFromPodSpec pod.spec,
        lib.parseReference image = some reference := by
  unfold workloads Uses
  split
  case isFalse h => simp [h]
  case isTrue h =>
    simp only [h, Option.mem_def, Store.get_eq_some, podKey, Prod.mk.injEq, List.mem_map,
      List.mem_filter, decide_eq_true_eq]
    grind

/-- Only the images count, and those of a dropped update are the same. -/
theorem sameUses_set {e : Informer.Event podKey} (h : e.subject.1 = ns →
      (podEvent (pods.get e.subject) e.object).any podImagesChangedPredicate = false) :
    SameUses lib (workloads config namespaces pods ns)
      (workloads config namespaces (set pods e) ns) := by
  intro reference
  rw [uses_workloads, uses_workloads, get_set]
  refine and_congr_right fun _ => exists_congr fun name => ?_
  by_cases hsubject : e.about = some (ns, name)
  · rw [Changelog.apply_self hsubject]
    have hdropped := h (congrArg Prod.fst (Option.some.inj hsubject))
    rw [Option.some.inj hsubject] at hdropped
    revert hdropped
    cases pods.get (ns, name) <;> cases e.object <;> intro hdropped
    case none.none => rfl
    case some.some => simp [(perm_of_dropped hdropped).mem_iff]
    all_goals cases hdropped
  · rw [Changelog.apply_ne hsubject]

theorem workloads_set_of_ne {e : Informer.Event Namespace.name} (h : ns ≠ e.subject) :
    workloads config (set namespaces e) pods ns = workloads config namespaces pods ns := by
  have habout : e.about ≠ some ns := fun heq => h (Option.some.inj heq).symm
  unfold workloads
  rw [get_set, Changelog.apply_ne habout]

/-- **A namespace that is not in the queue stays up to date.** -/
theorem inv_step (hns : config.settings.artifactsNamespace ≠ "") (henabled : config.enabled = true)
    (h : Inv lib config latest s) (hstep : step lib config s a = some s') :
    ∃ latest, Inv lib config latest s' := by
  cases a with
  | writePod e =>
    cases hstep
    exact ⟨latest, { h with pods := h.pods.write e }⟩
  | writeNamespace e =>
    cases hstep
    exact ⟨latest, { h with namespaces := h.namespaces.write e }⟩
  | deliverPod =>
    obtain ⟨⟨e, pods⟩, hd, rfl⟩ := Option.map_eq_some_iff.mp hstep
    obtain ⟨-, hcached, -⟩ := deliver_eq_some hd
    refine ⟨latest, h.pods.deliver hd, h.namespaces, h.reconciled, fun ns hq reference => ?_⟩
    refine (h.current ns (by grind) reference).trans ?_
    simp only [hcached]
    exact sameUses_set (by grind) reference
  | deliverNamespace =>
    obtain ⟨⟨e, namespaces⟩, hd, rfl⟩ := Option.map_eq_some_iff.mp hstep
    obtain ⟨-, hcached, -⟩ := deliver_eq_some hd
    refine ⟨latest, h.pods, h.namespaces.deliver hd, h.reconciled, fun ns hq => ?_⟩
    obtain ⟨hne, hq⟩ := not_or.mp (mt List.mem_cons.mpr hq)
    simp only [hcached, workloads_set_of_ne hne]
    exact h.current ns hq
  | enqueue ns =>
    cases hstep
    refine ⟨latest, { h with current := fun ns hq => h.current ns ?_ }⟩
    exact List.not_mem_of_not_mem_cons hq
  | start ns choices =>
    simp only [step] at hstep
    split at hstep
    case isFalse => cases hstep
    case isTrue hready =>
      cases hstep
      refine ⟨latest, h.pods, h.namespaces, h.reconciled, fun ns' hq reference => ?_⟩
      by_cases heq : ns' = ns
      · simp [expected, heq]
      · have hcurrent := h.current ns' (by simp_all)
        simpa [expected, heq, Option.isNone_iff_eq_none.mp hready.2] using hcurrent reference
  | finish =>
    obtain ⟨r, hr, hstep⟩ := Option.bind_eq_some_iff.mp hstep
    split at hstep
    case h_2 => cases hstep
    case h_1 hreturns =>
      cases hstep
      have hnext := reconciled_step hns h.reconciled (returns_reconcile henabled hreturns)
      exact ⟨_, h.pods, h.namespaces, hnext, by simpa [expected, hr] using h.current⟩
  | fail =>
    obtain ⟨r, hr, rfl⟩ := Option.map_eq_some_iff.mp hstep
    refine ⟨latest, h.pods, h.namespaces, h.reconciled, fun ns hq => ?_⟩
    obtain ⟨hne, hq⟩ := not_or.mp (mt List.mem_cons.mpr hq)
    simpa [expected, hr, hne] using h.current ns hq

theorem inv_init : Inv lib config (fun _ => []) init := by
  refine ⟨rfl, rfl, ⟨nofun, nofun, nofun, ?_⟩, ?_⟩
  · rintro ns reference ⟨pod, hpod, -⟩
    cases hpod
  · intro ns _ reference
    rw [uses_workloads]
    simp [init, expected, Uses, Informer.empty, Store.get, Store.empty]

def webPod : PodObject where
  toPod := pod "nginx"
  name := "web"
  ns := "a"
  uid := "1"
  ownerReferences := []

def webRun : List Action :=
  [.writePod (.of webPod), .deliverPod, .start "a" noFault, .finish]

end SbomScanner.WorkloadScan.Convergence

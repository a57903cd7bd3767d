import Mathlib.Data.List.Sort
import SbomScanner.Catalog.Filters
import SbomScanner.Lib.Transition
import SbomScanner.Lib.Versioned
import SbomScanner.NodeScan.NodeScanJob
import SbomScanner.Storage.Selector

/-!
# Rescan requests for nodes

`NodeScanRunner` looks at every node once a tick. An annotation on the NodeScanConfiguration
requests a rescan of all of them at once; at the end of a tick that has seen it, it is removed.

The tick is taken apart at its calls to the API server, and everything else happens in between:
administrators edit the configuration and request again, nodes and jobs come and go, other ticks
run, and any call may fail.

One annotation stands for a request per node, and neither a node that is skipped because its last
job is still running nor one for which a call fails keeps the annotation from being removed
(`unserved_request_removed`). Where neither happens, and nobody requests again in the meantime, a
request that is removed has been served on every node (`removed_request_served`).
-/

namespace SbomScanner.NodeScan.Runner

open Api Versioned Transition List Function

/-! ## The functions of the runner -/

def annotationNodeRescanRequested := "sbomscanner.kubewarden.io/node-rescan-requested"

structure NodeScanConfiguration where
  annotations : Labels
  enabled : Bool
  nodeSelector : Option Storage.LabelSelector
  scanInterval : Option Int
  platforms : List Platform

structure Node where
  name : String
  labels : List (String × String)
  operatingSystem : String
  architecture : String
deriving DecidableEq

structure Item where
  creationTimestamp : Nat
  job : NodeScanJob

def hasForceNodeScanAnnotation (config : NodeScanConfiguration) : Bool :=
  config.annotations.lookup annotationNodeRescanRequested = some "true"

def matchesSelector (config : NodeScanConfiguration) (node : Node) : Bool :=
  match config.nodeSelector with
  | none => true
  | some selector => selector.matches node.labels

def getMatchingNodes (config : NodeScanConfiguration) (nodes : List Node) : List Node :=
  nodes.filter (matchesSelector config)

def platformAllowed (config : NodeScanConfiguration) (node : Node) : Bool :=
  Catalog.isPlatformAllowed node.operatingSystem node.architecture "" config.platforms

/-- Sorted by creation time, the most recent first. -/
def getLastNodeScanJob (items : List Item) (nodeName : String) : Option NodeScanJob :=
  let items := items.filter fun item => item.job.nodeName = nodeName
  (items.insertionSort fun a b => b.creationTimestamp ≤ a.creationTimestamp).head?.map Item.job

def isRunning (lastScanJob : Option NodeScanJob) : Bool :=
  match lastScanJob with
  | some job => !job.isComplete && !job.isFailed
  | none => false

/-- Times and durations are in the unit of the clock. -/
def shouldCreateNodeScanJob (now : Nat) (config : NodeScanConfiguration)
    (lastScanJob : Option NodeScanJob) (rescanRequested : Bool) : Bool :=
  if rescanRequested then true
  else
    match config.scanInterval with
    | none => false
    | some interval =>
      if interval = 0 then false
      else
        match lastScanJob with
        | none => true
        | some job =>
          match job.status.completionTime with
          | some completion => !((now : Int) - completion < interval)
          | none => true

def wantsNodeScanJob (now : Nat) (config : NodeScanConfiguration) (items : List Item)
    (node : Node) : Bool :=
  let rescanRequested := hasForceNodeScanAnnotation config
  let lastScanJob := getLastNodeScanJob items node.name
  platformAllowed config node && !isRunning lastScanJob &&
    shouldCreateNodeScanJob now config lastScanJob rescanRequested

def newNodeScanJob (timestamp : Nat) (nodeName : String) : Item :=
  ⟨timestamp, ⟨nodeName, 1, false, {}⟩⟩

def withoutRequest (config : NodeScanConfiguration) : NodeScanConfiguration :=
  { config with annotations := config.annotations.erase annotationNodeRescanRequested }

def withRequest (config : NodeScanConfiguration) : NodeScanConfiguration :=
  { config with annotations := config.annotations.insert annotationNodeRescanRequested "true" }

/-! ## The system -/

/-- What a tick has read, with the nodes there were when it listed them, and how many requests had
been posted and how many jobs created when it read the configuration. -/
structure Tick where
  config : NodeScanConfiguration
  nodes : List Node
  seen : Nat
  start : Nat

inductive Phase where
  | idle
  | listing (config : NodeScanConfiguration) (seen start : Nat)
  | checking (tick : Tick) (todo : List Node)
  | creating (tick : Tick) (node : Node) (todo : List Node)
  | removing (tick : Tick) (retries : Nat)
  | updating (tick : Tick) (copy : Entry NodeScanConfiguration) (retries : Nat)

/-- A job the runner has created, and whether it did so because of a request. -/
structure Created where
  nodeName : String
  rescanRequested : Bool
deriving DecidableEq

structure State where
  configuration : Store NodeScanConfiguration
  nodes : List Node
  items : List Item
  /-- for each request how many jobs the runner had created when it was posted -/
  posted : List Nat
  created : List Created
  ticks : Nat → Phase

inductive Action where
  | createConfiguration (config : NodeScanConfiguration)
  | editConfiguration (config : NodeScanConfiguration)
  | deleteConfiguration
  | request
  | setNodes (nodes : List Node)
  | setItems (items : List Item)
  | get (t version : Nat)
  | list (t : Nat)
  | check (t now : Nat)
  | checkError (t : Nat)
  | create (t timestamp : Nat)
  | createError (t : Nat)
  | finish (t : Nat)
  | getCurrent (t version : Nat)
  | update (t : Nat)
  | stop (t : Nat)

namespace State

def init : State := ⟨.empty, [], [], [], [], fun _ => .idle⟩

def setTick (s : State) (t : Nat) (phase : Phase) : State :=
  { s with ticks := update s.ticks t phase }

def addJob (s : State) (item : Item) (created : Created) : State :=
  { s with items := s.items ++ [item], created := s.created ++ [created] }

/-- The configuration is written. The request on it is a new one if there was none before. -/
def write (s : State) (store : Store NodeScanConfiguration) (requested : Bool)
    (config : NodeScanConfiguration) : State :=
  { s with
    configuration := store
    posted := if hasForceNodeScanAnnotation config && !requested then
      s.posted ++ [s.created.length] else s.posted }

end State

/-- The steps. The configuration is read from a cache, which may give any version of it. Nodes and
jobs change at any time and in any way, so it does no harm to read what there is. -/
def step (s : State) : Action → Option State
  | .createConfiguration config =>
    (s.configuration.create config).map fun store => s.write store false config
  | .editConfiguration config =>
    match s.configuration.current, s.configuration.modify fun _ => config with
    | some old, some (_, store) =>
      let requested := hasForceNodeScanAnnotation old.object
      some (s.write store requested config)
    | _, _ => none
  | .deleteConfiguration => some { s with configuration := s.configuration.delete }
  -- to set an annotation to the value it has is a request as well, but changes no object
  | .request =>
    match s.configuration.current with
    | none => none
    | some old =>
      if hasForceNodeScanAnnotation old.object then
        some { s with posted := s.posted ++ [s.created.length] }
      else
        (s.configuration.modify withRequest).map fun written =>
          s.write written.2 false (withRequest old.object)
  | .setNodes nodes => some { s with nodes := nodes }
  | .setItems items => some { s with items := items }
  | .get t version =>
    match s.ticks t, s.configuration.history[version]? with
    | .idle, some entry =>
      if entry.object.enabled then
        some (s.setTick t (.listing entry.object s.posted.length s.created.length))
      else none
    | _, _ => none
  | .list t =>
    match s.ticks t with
    | .listing config seen start =>
      some (s.setTick t
        (.checking ⟨config, s.nodes, seen, start⟩ (getMatchingNodes config s.nodes)))
    | _ => none
  | .check t now =>
    match s.ticks t with
    | .checking tick (node :: todo) =>
      if wantsNodeScanJob now tick.config s.items node then
        some (s.setTick t (.creating tick node todo))
      else
        some (s.setTick t (.checking tick todo))
    | _ => none
  -- the jobs of the node cannot be listed; the error is logged
  | .checkError t =>
    match s.ticks t with
    | .checking tick (node :: todo) =>
      if platformAllowed tick.config node then some (s.setTick t (.checking tick todo))
      else none
    | _ => none
  | .create t timestamp =>
    match s.ticks t with
    | .creating tick node todo =>
      some ((s.addJob (newNodeScanJob timestamp node.name)
        ⟨node.name, hasForceNodeScanAnnotation tick.config⟩).setTick t (.checking tick todo))
    | _ => none
  -- the job cannot be created; the error is logged
  | .createError t =>
    match s.ticks t with
    | .creating tick _ todo => some (s.setTick t (.checking tick todo))
    | _ => none
  | .finish t =>
    match s.ticks t with
    | .checking tick [] =>
      if hasForceNodeScanAnnotation tick.config then some (s.setTick t (.removing tick 4))
      else some (s.setTick t .idle)
    | _ => none
  | .getCurrent t version =>
    match s.ticks t, s.configuration.history[version]? with
    | .removing tick retries, some copy =>
      if annotationNodeRescanRequested ∈ copy.object.annotations then
        some (s.setTick t (.updating tick copy retries))
      else
        some (s.setTick t .idle)
    | _, _ => none
  | .update t =>
    match s.ticks t with
    | .updating tick copy retries =>
      match s.configuration.update copy (withoutRequest copy.object) with
      | some store => some ({ s with configuration := store }.setTick t .idle)
      -- a conflict: try again with a new copy
      | none =>
        match retries with
        | 0 => some (s.setTick t .idle)
        | retries + 1 => some (s.setTick t (.removing tick retries))
    | _ => none
  -- a call has failed, or the runner has crashed
  | .stop t => some (s.setTick t .idle)

/-! ## The guard -/

namespace Phase

def tick : Phase → Option Tick
  | .checking tick _ | .creating tick _ _ | .removing tick _ | .updating tick _ _ => some tick
  | _ => none

def next : Phase → Option Node
  | .checking _ todo => todo.head?
  | _ => none

def copy : Phase → Option (Entry NodeScanConfiguration)
  | .updating _ copy _ => some copy
  | _ => none

end Phase

/-- A tick that serves a request finds no job running on a node it has to scan. -/
def NoneRunning (s : State) (a : Action) : Prop :=
  match a with
  | .check t _ => ∀ tick ∈ (s.ticks t).tick, ∀ node ∈ (s.ticks t).next,
      hasForceNodeScanAnnotation tick.config = true → platformAllowed tick.config node = true →
        isRunning (getLastNodeScanJob s.items node.name) = false
  | _ => True

/-- No call it makes for a node fails. -/
def NoneFailing (s : State) (a : Action) : Prop :=
  match a with
  | .checkError t | .createError t =>
    ∀ tick ∈ (s.ticks t).tick, hasForceNodeScanAnnotation tick.config = false
  | _ => True

/-- When its update is accepted, nobody has requested again since it read the configuration. -/
def NoneRequested (s : State) (a : Action) : Prop :=
  match a with
  | .update t => ∀ tick ∈ (s.ticks t).tick, ∀ copy ∈ (s.ticks t).copy,
      ∀ current ∈ s.configuration.current, current.version = copy.version →
        s.posted.length = tick.seen
  | _ => True

def Undisturbed (s : State) (a : Action) : Prop :=
  NoneRunning s a ∧ NoneFailing s a ∧ NoneRequested s a

instance (s : State) (a : Action) : Decidable (Undisturbed s a) := by
  unfold Undisturbed NoneRunning NoneFailing NoneRequested
  cases a <;> infer_instance

/-! ## The invariant -/

variable {s s' : State} {a : Action}

/-- The runner has created a job for the node because of a request, not among the first `start`. -/
def Served (s : State) (start : Nat) (node : Node) : Prop :=
  ∃ job ∈ s.created.drop start, job.nodeName = node.name ∧ job.rescanRequested = true

/-- The requests the tick has seen were posted before it created anything. -/
structure Started (s : State) (seen start : Nat) : Prop where
  seen_le : seen ≤ s.posted.length
  start_le : start ≤ s.created.length
  before : ∀ n ∈ s.posted.take seen, n ≤ start

/-- Of the nodes a request is for, those that are not served are still to be checked. -/
def Covered (s : State) (tick : Tick) (todo : List Node) : Prop :=
  hasForceNodeScanAnnotation tick.config = true → ∀ node ∈ tick.nodes,
    matchesSelector tick.config node = true → platformAllowed tick.config node = true →
      node ∈ todo ∨ Served s tick.start node

def PhaseInv (s : State) : Phase → Prop
  | .idle => True
  | .listing _ seen start => Started s seen start
  | .checking tick todo => Started s tick.seen tick.start ∧ Covered s tick todo
  | .creating tick node todo => Started s tick.seen tick.start ∧ Covered s tick (node :: todo)
  | .removing tick _ =>
    Started s tick.seen tick.start ∧ Covered s tick [] ∧
      hasForceNodeScanAnnotation tick.config = true
  | .updating tick copy _ =>
    (Started s tick.seen tick.start ∧ Covered s tick [] ∧
      hasForceNodeScanAnnotation tick.config = true) ∧ copy ∈ s.configuration.history

structure Inv (s : State) : Prop where
  before : ∀ n ∈ s.posted, n ≤ s.created.length
  ticks : ∀ t, PhaseInv s (s.ticks t)

/-- Nothing is forgotten: the versions, the requests and the jobs only become more. -/
structure Extends (s s' : State) : Prop where
  history : s.configuration.history <+: s'.configuration.history
  posted : s.posted <+: s'.posted
  created : s.created <+: s'.created

variable {node : Node}

theorem Served.extends {start : Nat} (h : Served s start node) (hext : Extends s s') :
    Served s' start node := by
  obtain ⟨job, hmem, hjob⟩ := h
  exact ⟨job, (hext.created.drop start).subset hmem, hjob⟩

theorem Started.extends {seen start : Nat} (h : Started s seen start) (hext : Extends s s') :
    Started s' seen start := by
  obtain ⟨later, hposted⟩ := hext.posted
  refine ⟨h.seen_le.trans ?_, h.start_le.trans hext.created.length_le, ?_⟩
  · rw [← hposted, length_append]
    exact Nat.le_add_right ..
  · rw [← hposted, take_append_of_le_length h.seen_le]
    exact h.before

variable {tick : Tick} {todo : List Node}

theorem Covered.extends (h : Covered s tick todo) (hext : Extends s s') : Covered s' tick todo := by
  intro hforce node hnode hmatches hallowed
  exact (h hforce node hnode hmatches hallowed).imp_right fun hserved => hserved.extends hext

theorem PhaseInv.extends {phase : Phase} (h : PhaseInv s phase) (hext : Extends s s') :
    PhaseInv s' phase := by
  cases phase with
  | idle => trivial
  | listing config seen start => exact Started.extends h hext
  | checking tick todo | creating tick node todo => exact ⟨h.1.extends hext, h.2.extends hext⟩
  | removing tick retries => exact ⟨h.1.extends hext, h.2.1.extends hext, h.2.2⟩
  | updating tick copy retries =>
    exact ⟨⟨h.1.1.extends hext, h.1.2.1.extends hext, h.1.2.2⟩, hext.history.subset h.2⟩

/-! ## One step -/

namespace Inv

theorem init : Inv .init where
  before _ h := by cases h
  ticks _ := trivial

theorem setTick (h : Inv s) {t : Nat} {phase : Phase} (hphase : PhaseInv s phase) :
    Inv (s.setTick t phase) := by
  have hext : Extends s (s.setTick t phase) :=
    ⟨prefix_rfl, prefix_rfl, prefix_rfl⟩
  refine ⟨h.before, fun t' => ?_⟩
  show PhaseInv _ (update s.ticks t phase t')
  by_cases ht : t' = t
  · subst ht
    rw [update_self]
    exact hphase.extends hext
  · rw [update_of_ne ht]
    exact (h.ticks t').extends hext

theorem outside (h : Inv s) (hext : Extends s s') (hticks : s'.ticks = s.ticks)
    (hbefore : ∀ n ∈ s'.posted, n ≤ s'.created.length) : Inv s' := by
  refine ⟨hbefore, fun t => ?_⟩
  rw [hticks]
  exact (h.ticks t).extends hext

theorem posted (h : Inv s) : ∀ n ∈ s.posted ++ [s.created.length], n ≤ s.created.length := by
  intro n hn
  rcases mem_append.mp hn with hold | hnew
  · exact h.before n hold
  · exact (mem_singleton.mp hnew).le

theorem write (h : Inv s) {store : Store NodeScanConfiguration} {requested : Bool}
    {config : NodeScanConfiguration} (hhistory : s.configuration.history <+: store.history) :
    Inv (s.write store requested config) := by
  have hposted : s.posted <+: (s.write store requested config).posted := by
    unfold State.write
    split
    · exact prefix_append ..
    · exact prefix_rfl
  refine h.outside ⟨hhistory, hposted, prefix_rfl⟩ rfl ?_
  unfold State.write
  split
  · exact h.posted
  · exact h.before

theorem phase {t : Nat} {phase : Phase} (h : Inv s) (ht : s.ticks t = phase) :
    PhaseInv s phase := ht ▸ h.ticks t

end Inv

/-- A node that the tick passes by is not one that a request is for, if none is running. -/
theorem Covered.skip {now : Nat} (h : Covered s tick (node :: todo))
    (hrunning : hasForceNodeScanAnnotation tick.config = true →
      platformAllowed tick.config node = true →
        isRunning (getLastNodeScanJob s.items node.name) = false)
    (hwants : ¬ wantsNodeScanJob now tick.config s.items node = true) : Covered s tick todo := by
  intro hforce node' hnode hmatches hallowed
  rcases h hforce node' hnode hmatches hallowed with htodo | hserved
  · rcases mem_cons.mp htodo with rfl | hrest
    · refine absurd ?_ hwants
      simp [wantsNodeScanJob, shouldCreateNodeScanJob, hforce, hallowed, hrunning hforce hallowed]
    · exact .inl hrest
  · exact .inr hserved

theorem Covered.serve {item : Item} (hstart : tick.start ≤ s.created.length)
    (h : Covered s tick (node :: todo)) :
    Covered (s.addJob item ⟨node.name, hasForceNodeScanAnnotation tick.config⟩) tick todo := by
  have hdrop : ∀ created : Created, (s.created ++ [created]).drop tick.start =
      s.created.drop tick.start ++ [created] := fun _ => drop_append_of_le_length hstart
  intro hforce node' hnode hmatches hallowed
  rcases h hforce node' hnode hmatches hallowed with htodo | ⟨job, hmem, hjob⟩
  · rcases mem_cons.mp htodo with rfl | hrest
    · refine .inr ⟨⟨node'.name, hasForceNodeScanAnnotation tick.config⟩, ?_, rfl, hforce⟩
      show _ ∈ (s.created ++ [_]).drop tick.start
      rw [hdrop]
      exact mem_append_right _ mem_cons_self
    · exact .inl hrest
  · refine .inr ⟨job, ?_, hjob⟩
    show _ ∈ (s.created ++ [_]).drop tick.start
    rw [hdrop]
    exact mem_append_left _ hmem

theorem Covered.of_notForced (h : hasForceNodeScanAnnotation tick.config = false) :
    Covered s tick todo := by
  intro hforce
  rw [h] at hforce
  cases hforce

section Steps

variable {t : Nat}

section

variable (h : Inv s)
include h

theorem inv_editConfiguration {config : NodeScanConfiguration}
    (hstep : step s (.editConfiguration config) = some s') : Inv s' := by
  simp only [step] at hstep
  split at hstep
  · next old entry store hold hstore =>
    cases hstep
    exact h.write (Store.history_modify hstore)
  · cases hstep

theorem inv_request (hstep : step s .request = some s') : Inv s' := by
  simp only [step] at hstep
  split at hstep
  · cases hstep
  · split at hstep
    · cases hstep
      exact h.outside ⟨prefix_rfl, prefix_append .., prefix_rfl⟩ rfl h.posted
    · obtain ⟨⟨entry, store⟩, hstore, rfl⟩ := Option.map_eq_some_iff.mp hstep
      exact h.write (Store.history_modify hstore)

theorem inv_get {version : Nat} (hstep : step s (.get t version) = some s') :
    Inv s' := by
  simp only [step] at hstep
  split at hstep
  · split at hstep
    · cases hstep
      refine h.setTick ⟨Nat.le_refl _, Nat.le_refl _, ?_⟩
      rw [take_length]
      exact h.before
    · cases hstep
  · cases hstep

theorem inv_list (hstep : step s (.list t) = some s') : Inv s' := by
  simp only [step] at hstep
  split at hstep
  · next config seen start ht =>
    cases hstep
    refine h.setTick ⟨h.phase ht, fun _ node hnode hmatches _ => .inl ?_⟩
    exact mem_filter.mpr ⟨hnode, hmatches⟩
  · cases hstep

theorem inv_check {now : Nat} (hrunning : NoneRunning s (.check t now))
    (hstep : step s (.check t now) = some s') : Inv s' := by
  simp only [step] at hstep
  split at hstep
  · next tick node todo ht =>
    have hphase := h.phase ht
    split at hstep
    · cases hstep
      exact h.setTick hphase
    · next hwants =>
      cases hstep
      refine h.setTick ⟨hphase.1, hphase.2.skip ?_ hwants⟩
      exact hrunning tick (by rw [ht]; rfl) node (by rw [ht]; rfl)
  · cases hstep

theorem inv_checkError (hfailing : NoneFailing s (.checkError t))
    (hstep : step s (.checkError t) = some s') : Inv s' := by
  simp only [step] at hstep
  split at hstep
  · next tick node todo ht =>
    split at hstep
    · cases hstep
      exact h.setTick ⟨(h.phase ht).1, .of_notForced (hfailing tick (by rw [ht]; rfl))⟩
    · cases hstep
  · cases hstep

theorem inv_create {timestamp : Nat} (hstep : step s (.create t timestamp) = some s') :
    Inv s' := by
  simp only [step] at hstep
  split at hstep
  · next tick node todo ht =>
    have hphase := h.phase ht
    cases hstep
    have hext : Extends s (s.addJob (newNodeScanJob timestamp node.name)
        ⟨node.name, hasForceNodeScanAnnotation tick.config⟩) :=
      ⟨prefix_rfl, prefix_rfl, prefix_append ..⟩
    have hadded := h.outside hext rfl fun n hn => (h.before n hn).trans hext.created.length_le
    exact hadded.setTick ⟨hphase.1.extends hext, hphase.2.serve hphase.1.start_le⟩
  · cases hstep

theorem inv_createError (hfailing : NoneFailing s (.createError t))
    (hstep : step s (.createError t) = some s') : Inv s' := by
  simp only [step] at hstep
  split at hstep
  · next tick node todo ht =>
    cases hstep
    exact h.setTick ⟨(h.phase ht).1, .of_notForced (hfailing tick (by rw [ht]; rfl))⟩
  · cases hstep

theorem inv_finish (hstep : step s (.finish t) = some s') : Inv s' := by
  simp only [step] at hstep
  split at hstep
  · next tick ht =>
    have hphase := h.phase ht
    split at hstep
    · next hforce =>
      cases hstep
      exact h.setTick ⟨hphase.1, hphase.2, hforce⟩
    · cases hstep
      exact h.setTick trivial
  · cases hstep

theorem inv_getCurrent {version : Nat} (hstep : step s (.getCurrent t version) = some s') :
    Inv s' := by
  simp only [step] at hstep
  split at hstep
  · next tick retries copy ht hcopy =>
    split at hstep
    · cases hstep
      exact h.setTick ⟨h.phase ht, mem_of_getElem? hcopy⟩
    · cases hstep
      exact h.setTick trivial
  · cases hstep

theorem inv_update (hstep : step s (.update t) = some s') : Inv s' := by
  simp only [step] at hstep
  split at hstep
  · next tick copy retries ht =>
    have hphase := h.phase ht
    split at hstep
    · next store hstore =>
      cases hstep
      have hwritten : Inv { s with configuration := store } :=
        h.outside ⟨Store.history_update hphase.2 hstore, prefix_rfl, prefix_rfl⟩ rfl h.before
      exact hwritten.setTick trivial
    · split at hstep
      · cases hstep
        exact h.setTick trivial
      · cases hstep
        exact h.setTick hphase.1
  · cases hstep

end

end Steps

theorem inv_step (h : Inv s) (hg : Undisturbed s a) (hstep : step s a = some s') : Inv s' := by
  obtain ⟨hrunning, hfailing, -⟩ := hg
  cases a with
  | createConfiguration config =>
    obtain ⟨store, hstore, rfl⟩ := Option.map_eq_some_iff.mp hstep
    exact h.write (Store.history_create hstore)
  | editConfiguration config => exact inv_editConfiguration h hstep
  | request => exact inv_request h hstep
  | deleteConfiguration | setNodes nodes | setItems items =>
    cases hstep
    exact h.outside ⟨prefix_rfl, prefix_rfl, prefix_rfl⟩ rfl h.before
  | get t version => exact inv_get h hstep
  | list t => exact inv_list h hstep
  | check t now => exact inv_check h hrunning hstep
  | checkError t => exact inv_checkError h hfailing hstep
  | create t timestamp => exact inv_create h hstep
  | createError t => exact inv_createError h hfailing hstep
  | finish t => exact inv_finish h hstep
  | getCurrent t version => exact inv_getCurrent h hstep
  | update t => exact inv_update h hstep
  | stop t =>
    cases hstep
    exact h.setTick trivial

/-! ## Every run -/

/-- **A request that is removed has been served.** When no tick that serves a request finds a job
running, fails on a node, or is overtaken by another request, then an update that takes a request
off the configuration is made by a tick that has seen every request so far, and since each of them a
job has been created, because of a request, for every node the tick's configuration applies to. -/
theorem removed_request_served {as : List Action} {t : Nat}
    {before after : Entry NodeScanConfiguration}
    (hg : Transition.Along Undisturbed step .init (as ++ [.update t]))
    (hs : exec step .init as = some s) (h : step s (.update t) = some s')
    (hbefore : s.configuration.current = some before)
    (hrequested : hasForceNodeScanAnnotation before.object = true)
    (hafter : s'.configuration.current = some after)
    (hremoved : hasForceNodeScanAnnotation after.object = false) :
    ∃ tick ∈ (s.ticks t).tick, s.posted.length = tick.seen ∧
      ∀ posted ∈ s.posted, ∀ node ∈ tick.nodes, matchesSelector tick.config node = true →
        platformAllowed tick.config node = true →
          ∃ job ∈ s.created.drop posted, job.nodeName = node.name ∧ job.rescanRequested = true := by
  obtain ⟨hg₁, hg₂⟩ := along_append hg hs
  have hinv : Inv s := exec_invariant_along
    (fun _ _ _ hinv hgb hb => inv_step hinv hgb hb) .init hg₁ hs
  have hquiet : NoneRequested s (.update t) := (along_cons hg₂ h).1.2.2
  -- an update that is not accepted leaves the configuration, and with it the request
  have hkept : s'.configuration.current ≠ s.configuration.current := by
    intro hsame
    rw [hafter, hbefore] at hsame
    cases hsame
    rw [hrequested] at hremoved
    cases hremoved
  simp only [step] at h
  split at h
  · next tick copy retries ht =>
    obtain ⟨⟨hstarted, hcovered, hforce⟩, hcopy⟩ := hinv.phase ht
    split at h
    · next store hstore =>
      obtain ⟨hcurrent, -⟩ := Store.update_eq_some hcopy hstore
      have hseen : s.posted.length = tick.seen :=
        hquiet tick (by rw [ht]; rfl) copy (by rw [ht]; rfl) copy hcurrent rfl
      refine ⟨tick, by rw [ht]; rfl, hseen, ?_⟩
      intro posted hposted node hnode hmatches hallowed
      rcases hcovered hforce node hnode hmatches hallowed with htodo | ⟨job, hmem, hjob⟩
      · cases htodo
      · have hle : posted ≤ tick.start := by
          apply hstarted.before
          rwa [← hseen, take_length]
        exact ⟨job, drop_subset_drop_left _ hle hmem, hjob⟩
    · split at h
      · cases h
        exact absurd rfl hkept
      · cases h
        exact absurd rfl hkept
  · cases h

/-- Node scanning is on, without an interval, and a rescan is requested. -/
def requestedConfiguration : NodeScanConfiguration where
  annotations := .singleton annotationNodeRescanRequested "true"
  enabled := true
  nodeSelector := none
  scanInterval := none
  platforms := []

def linuxNode (name : String) : Node := ⟨name, [], "linux", "amd64"⟩

/-- The only node gets its job, and the annotation is about to be removed. -/
def rescanOne : List Action :=
  [.createConfiguration requestedConfiguration, .setNodes [linuxNode "node-1"], .get 0 0, .list 0,
    .check 0 0, .create 0 0, .finish 0, .getCurrent 0 0]

theorem removed_request_served_rescanOne :
    ∃ s s' before after, exec step .init rescanOne = some s ∧
      step s (.update 0) = some s' ∧ s.configuration.current = some before ∧
      hasForceNodeScanAnnotation before.object = true ∧ s'.configuration.current = some after ∧
      hasForceNodeScanAnnotation after.object = false ∧
      ∃ tick ∈ (s.ticks 0).tick, s.posted.length = tick.seen ∧
        ∀ posted ∈ s.posted, ∀ node ∈ tick.nodes, matchesSelector tick.config node = true →
          platformAllowed tick.config node = true →
            ∃ job ∈ s.created.drop posted, job.nodeName = node.name ∧ job.rescanRequested = true :=
  ⟨_, _, _, _, rfl, rfl, rfl, by decide, rfl, by decide,
    @removed_request_served _ _ rescanOne 0 _ _ (by decide) rfl rfl rfl (by decide) rfl (by decide)⟩

/-- One node still has a job running, and the job for the other cannot be created. -/
def rescanNone : List Action :=
  [.createConfiguration requestedConfiguration,
    .setNodes [linuxNode "node-1", linuxNode "node-2"], .setItems [newNodeScanJob 0 "node-1"],
    .get 0 0, .list 0, .check 0 0, .check 0 0, .createError 0, .finish 0, .getCurrent 0 0]

/-- While the tick is at work, the request is taken back and made again. -/
def requestedAgain : List Action :=
  [.createConfiguration requestedConfiguration, .setNodes [linuxNode "node-1"], .get 0 0, .list 0,
    .check 0 0, .create 0 0, .editConfiguration (withoutRequest requestedConfiguration), .request,
    .finish 0, .getCurrent 0 2]

/-- In both runs the update goes through and the request is gone. In the first there is no job for
either node, in the second none that is as recent as the second request. -/
theorem unserved_request_removed :
    (∃ s s' before after, exec step .init rescanNone = some s ∧
      step s (.update 0) = some s' ∧ s.configuration.current = some before ∧
      hasForceNodeScanAnnotation before.object = true ∧ s'.configuration.current = some after ∧
      hasForceNodeScanAnnotation after.object = false ∧ s'.created = []) ∧
    ∃ s s' before after, exec step .init requestedAgain = some s ∧
      step s (.update 0) = some s' ∧ s.configuration.current = some before ∧
      hasForceNodeScanAnnotation before.object = true ∧ s'.configuration.current = some after ∧
      hasForceNodeScanAnnotation after.object = false ∧ s'.posted = [0, 1] ∧
      s'.created.drop 1 = [] :=
  ⟨⟨_, _, _, _, rfl, rfl, rfl, by decide, rfl, by decide, rfl⟩,
    ⟨_, _, _, _, rfl, rfl, rfl, by decide, rfl, by decide, rfl, rfl⟩⟩

end SbomScanner.NodeScan.Runner

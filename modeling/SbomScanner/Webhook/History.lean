import SbomScanner.Lib.Keyed
import SbomScanner.Lib.Retention
import SbomScanner.Webhook.Uniqueness

/-!
# The jobs that are kept of a registry

Before the controller takes on a ScanJob it cuts the jobs of the registry back to the last ten. How
old a job is it takes from an annotation, since the API server keeps the time of creation in whole
seconds only. The annotation is written by the mutating webhook, with the time at which it is
called, and it is called on updates as well: it says when a job was last written, and a job that is
annotated, labelled or patched counts as a new one.

So it is not always the oldest jobs that go. `cleanup_keeps_newest_iff` says when it is.
-/

namespace SbomScanner.Webhook.History

open Api Transition Procedure List Keyed.Store
open Runner (Assigned Error)
open Uniqueness (key assign)

/-! ## The cleanup -/

/-- `time.Format` and `time.Parse` with `time.RFC3339Nano`. -/
structure TimeFormat where
  format : Nat → String
  parse : String → Option Nat
  parse_format : ∀ t, parse (format t) = some t

/-- The creation timestamp of the ScanJob. If the annotation is missing or malformed, this is the
one of the API server. -/
def getCreationTimestampFromAnnotation (time : TimeFormat) (scanJob : ScanJob) : Nat :=
  match scanJob.annotations.lookup annotationScanJobCreationTimestampKey with
  | some timestampStr => (time.parse timestampStr).getD scanJob.creationTimestamp
  | none => scanJob.creationTimestamp

def scanJobsHistoryLimit : Nat := 10

abbrev Store := Keyed.Store key

/-- The order in which the jobs are listed, and that of jobs with the same timestamp after they have
been sorted. -/
inductive Loop where
  | scanJobs

inductive Request where
  | list
  | delete (name : String)

structure Choices where
  order : IterationOrder Loop
  fault : Request → Option ApiError

abbrev Cleanup := Procedure Error Store

/-- A request that the API server may fail to answer. -/
def answered (choices : Choices) (req : Request) (message : String) : Cleanup PUnit :=
  match choices.fault req with
  | some cause => throw ⟨message, cause⟩
  | none => pure ⟨⟩

/-- One pass of the loop. That the job is gone already is an error. -/
def deleteOld (choices : Choices) (scanJob : ScanJob) : Cleanup PUnit := do
  let message := "failed to delete old ScanJob " ++ scanJob.name
  answered choices (.delete scanJob.name) message
  let scanJobs ← get
  if (scanJobs.get (key scanJob)).isSome then
    set (scanJobs.delete (key scanJob))
  else
    throw ⟨message, .notFound⟩

def jobsOf (registry : String × String) (scanJobs : Store) : List ScanJob :=
  scanJobs.items.filter (registryKey · = registry)

/-- Ensures that there are no more than `scanJobsHistoryLimit` jobs for any registry. The jobs are
listed from a cache, which is taken to be up to date. -/
def cleanupOldScanJobs (time : TimeFormat) (choices : Choices) (currentScanJob : ScanJob) :
    Cleanup PUnit := do
  answered choices .list
    ("failed to list ScanJobs for registry " ++ currentScanJob.spec.registry)
  let items := jobsOf (registryKey currentScanJob) (← get)
  if items.length ≤ scanJobsHistoryLimit then
    return
  -- `sort.Slice` is not stable
  let sorted := Retention.sorted ( getCreationTimestampFromAnnotation time) choices.order
    .scanJobs items
  let scanJobsToDelete := items.length - scanJobsHistoryLimit
  (sorted.take scanJobsToDelete).forM (deleteOld choices)

/-! ## Histories -/

structure State where
  scanJobs : Store
  /-- when the job was created -/
  created : String × String → Nat
  /-- when the webhook last saw the job -/
  written : String × String → Nat

def State.init : State := ⟨.empty, fun _ => 0, fun _ => 0⟩

/-- The requests that come through. The status is not part of the object that the webhook sees. -/
inductive Action where
  | create (now : Nat) (assigned : Assigned) (scanJob : ScanJob)
  | update (now : Nat) (k : String × String) (labels annotations : Labels)
  | updateStatus (k : String × String) (status : Jobs.Status)
  | delete (k : String × String)

def Action.creation : Action → Option Nat
  | .create now _ _ => some now
  | _ => none

/-- A name that is taken and a job that is gone are errors, and change nothing. -/
def step (time : TimeFormat) (s : State) : Action → Option State
  | .create now assigned scanJob =>
    let scanJob := assign assigned
      (ScanJobCustomDefaulter.default (time.format now) scanJob)
    match s.scanJobs.create scanJob with
    | none => some s
    | some scanJobs => some
        { scanJobs
          created := Function.update s.created (key scanJob) now
          written := Function.update s.written (key scanJob) now }
  | .update now k labels annotations =>
    match s.scanJobs.get k with
    | none => some s
    | some old =>
      -- whatever the request says about the annotation, it is set anew
      let scanJob := ScanJobCustomDefaulter.default (time.format now)
        { old with labels, annotations, resourceVersion := old.resourceVersion + 1 }
      match s.scanJobs.update scanJob with
      | none => some s
      | some scanJobs =>
        some { s with scanJobs, written := Function.update s.written k now }
  | .updateStatus k status =>
    match s.scanJobs.get k with
    | none => some s
    | some old =>
      match s.scanJobs.update
        { old with status, resourceVersion := old.resourceVersion + 1 } with
      | none => some s
      | some scanJobs => some { s with scanJobs }
  | .delete k => some { s with scanJobs := s.scanJobs.delete k }

/-! ## What is asked of the cleanup -/

/-- No more jobs of the registry are left than the limit, and those that are gone were created
before those that are left. -/
structure KeepsNewest (s : State) (registry : String × String) (after : Store) : Prop where
  sublist : after.items.Sublist s.scanJobs.items
  length : (jobsOf registry after).length =
    min (jobsOf registry s.scanJobs).length scanJobsHistoryLimit
  oldest : ∀ gone ∈ s.scanJobs.items, gone ∉ after.items → registryKey gone = registry ∧
    ∀ kept ∈ jobsOf registry after, s.created (key gone) < s.created (key kept)

instance (s : State) (registry : String × String) (after : Store) :
    Decidable (KeepsNewest s registry after) :=
  decidable_of_iff (_ ∧ _ ∧ _)
    ⟨fun ⟨hsublist, hlength, holdest⟩ => ⟨hsublist, hlength, holdest⟩,
      fun ⟨hsublist, hlength, holdest⟩ => ⟨hsublist, hlength, holdest⟩⟩

/-- A job is due if at least as many jobs of the registry as the limit were created after it. -/
def Due (s : State) (registry : String × String) : ScanJob → Prop :=
  Retention.Due (fun scanJob => s.created (key scanJob)) scanJobsHistoryLimit
    (jobsOf registry s.scanJobs)

instance (s : State) (registry : String × String) : DecidablePred (Due s registry) :=
  fun _ => inferInstanceAs (Decidable (Retention.Due _ _ _ _))

/-- No job that is due has been written since one that is not. -/
def WrittenInOrder (s : State) (registry : String × String) : Prop :=
  ∀ a ∈ jobsOf registry s.scanJobs, ∀ b ∈ jobsOf registry s.scanJobs,
    Due s registry a → ¬ Due s registry b → s.written (key a) < s.written (key b)

instance (s : State) (registry : String × String) : Decidable (WrittenInOrder s registry) :=
  inferInstanceAs (Decidable (∀ a ∈ _, ∀ b ∈ _, _))

/-! ## What a step does -/

variable {time : TimeFormat} {choices : Choices} {s s' : State} {a : Action}
  {actions : List Action} {registry : String × String}

def Stamped (time : TimeFormat) (t : Nat) (scanJob : ScanJob) : Prop :=
  scanJob.annotations.lookup annotationScanJobCreationTimestampKey = some (time.format t)

theorem stamped_default (t : Nat) (scanJob : ScanJob) :
    Stamped time t (ScanJobCustomDefaulter.default (time.format t) scanJob) :=
  Finmap.lookup_insert _

variable {scanJob : ScanJob}

theorem getCreationTimestampFromAnnotation_eq {t : Nat} (h : Stamped time t scanJob) :
    getCreationTimestampFromAnnotation time scanJob = t := by
  rw [ getCreationTimestampFromAnnotation, h]
  simp [time.parse_format]

/-- What can become of the jobs when an action is taken. -/
inductive Change (time : TimeFormat) (s : State) : Action → State → Prop where
  | refused (a : Action) : Change time s a s
  | added {now : Nat} {new : ScanJob} {scanJobs : Store} (assigned : Assigned) (scanJob : ScanJob)
      (create : s.scanJobs.create new = some scanJobs) (stamped : Stamped time now new) :
      Change time s (.create now assigned scanJob)
        ⟨scanJobs, Function.update s.created (key new) now, Function.update s.written (key new) now⟩
  | rewritten {now : Nat} {old new : ScanJob} {scanJobs : Store} (labels annotations : Labels)
      (update : s.scanJobs.update new = some scanJobs) (mem : old ∈ s.scanJobs.items)
      (sameKey : key new = key old) (sameRegistry : registryKey new = registryKey old)
      (stamped : Stamped time now new) :
      Change time s (.update now (key old) labels annotations)
        { s with scanJobs, written := Function.update s.written (key old) now }
  | statusWritten {old new : ScanJob} {scanJobs : Store} (status : Jobs.Status)
      (update : s.scanJobs.update new = some scanJobs) (mem : old ∈ s.scanJobs.items)
      (sameKey : key new = key old) (sameRegistry : registryKey new = registryKey old)
      (sameAnnotations : new.annotations = old.annotations) :
      Change time s (.updateStatus (key old) status) { s with scanJobs }
  | removed (k : String × String) :
      Change time s (.delete k) { s with scanJobs := s.scanJobs.delete k }

theorem change_of_step (h : step time s a = some s') : Change time s a s' := by
  cases a with
  | create now assigned scanJob =>
    simp only [step] at h
    split at h
    case h_1 =>
      cases h
      exact .refused _
    case h_2 scanJobs hcreate =>
      cases h
      exact .added assigned scanJob hcreate (stamped_default now scanJob)
  | update now k labels annotations =>
    simp only [step] at h
    split at h
    case h_1 =>
      cases h
      exact .refused _
    case h_2 old hget =>
      obtain ⟨hmem, rfl⟩ := get_eq_some.mp hget
      split at h
      case h_1 =>
        cases h
        exact .refused _
      case h_2 scanJobs hupdate =>
        cases h
        exact .rewritten labels annotations hupdate hmem rfl rfl (stamped_default now _)
  | updateStatus k status =>
    simp only [step] at h
    split at h
    case h_1 =>
      cases h
      exact .refused _
    case h_2 old hget =>
      obtain ⟨hmem, rfl⟩ := get_eq_some.mp hget
      split at h
      case h_1 =>
        cases h
        exact .refused _
      case h_2 scanJobs hupdate =>
        cases h
        exact .statusWritten status hupdate hmem rfl rfl rfl
  | delete k =>
    cases h
    exact .removed k

/-! ## What a history leaves behind -/

variable {scanJobs : Store} {new : ScanJob}

theorem key_ne_of_create {scanJobs' : Store} (h : scanJobs.create new = some scanJobs')
    (hmem : scanJob ∈ scanJobs.items) :
    key scanJob ≠ key new := by
  have hunique := scanJobs'.unique
  rw [items_create h, map_append, map_singleton] at hunique
  exact (nodup_append.mp hunique).2.2 _ (mem_map_of_mem hmem) _ mem_cons_self

/-- The annotation of each job says when it was last written. -/
def Recorded (time : TimeFormat) (s : State) : Prop :=
  ∀ scanJob ∈ s.scanJobs.items, Stamped time (s.written (key scanJob)) scanJob

theorem recorded_step (s : State) (a : Action) (s' : State) (h : Recorded time s)
    (hstep : step time s a = some s') : Recorded time s' := by
  intro scanJob hmem
  cases change_of_step hstep with
  | refused => exact h scanJob hmem
  | added _ _ hcreate hstamped =>
    rw [items_create hcreate, mem_append, mem_singleton] at hmem
    rcases hmem with hmem | rfl
    · simp only [Function.update_of_ne (key_ne_of_create hcreate hmem)]
      exact h scanJob hmem
    · simp only [Function.update_self]
      exact hstamped
  | rewritten _ _ hupdate hold hkey _ hstamped =>
    rcases (mem_update hupdate).mp hmem with rfl | ⟨hmem, hne⟩
    · simp only [hkey, Function.update_self]
      exact hstamped
    · simp only [Function.update_of_ne (hkey ▸ hne)]
      exact h scanJob hmem
  | statusWritten _ hupdate hold hkey _ hannotations =>
    rcases (mem_update hupdate).mp hmem with rfl | ⟨hmem, -⟩
    · rw [Stamped, hannotations, hkey]
      exact h _ hold
    · exact h scanJob hmem
  | removed k => exact h scanJob (mem_of_mem_filter hmem)

theorem recorded_run (h : exec (step time) .init actions = some s) : Recorded time s :=
  exec_invariant recorded_step (fun _ hmem => absurd hmem not_mem_nil) h

def instants (s : State) : List Nat := (s.scanJobs.items.map key).map s.created

theorem instants_step (h : step time s a = some s') :
    (instants s').Sublist (instants s ++ a.creation.toList) := by
  cases change_of_step h with
  | refused => exact sublist_append_left _ _
  | @added now new _ _ _ hcreate _ =>
    have hothers : (s.scanJobs.items.map key).map (Function.update s.created (key new) now) =
        (s.scanJobs.items.map key).map s.created := by
      apply map_congr_left
      intro k hk
      obtain ⟨scanJob, hmem, rfl⟩ := mem_map.mp hk
      exact Function.update_of_ne (key_ne_of_create hcreate hmem) _ _
    simp only [instants]
    rw [items_create hcreate, map_append, map_append, hothers]
    simp [Action.creation]
  | rewritten _ _ hupdate | statusWritten _ hupdate =>
    simp only [instants]
    rw [map_key_update hupdate]
    exact sublist_append_left _ _
  | removed k =>
    exact ((filter_sublist.map key).map s.created).trans (sublist_append_left _ _)

/-- The jobs that are left were created at different instants if all jobs were. -/
theorem nodup_instants_of_run (h : exec (step time) s actions = some s')
    (hdistinct : (instants s ++ actions.filterMap Action.creation).Nodup) :
    (instants s').Nodup := by
  induction actions generalizing s with
  | nil =>
    cases h
    simpa using hdistinct
  | cons a actions ih =>
    obtain ⟨t, hstep, hrest⟩ := exec_cons_eq_some.mp h
    -- what the step creates moves from the actions that are to come to the jobs that are there
    refine ih hrest (List.Nodup.sublist ((instants_step hstep).append_right _) ?_)
    cases ha : a.creation with
    | none | some now => simpa [filterMap_cons, ha] using hdistinct

/-! ## What the cleanup does -/

theorem returns_answered {req : Request} {message : String} (h : choices.fault req = none) :
    (answered choices req message).Returns scanJobs ⟨⟩ scanJobs := by
  rw [answered, h]
  exact returns_pure.mpr ⟨rfl, rfl⟩

theorem returns_deleteOld (hfault : ∀ req, choices.fault req = none)
    (hmem : scanJob ∈ scanJobs.items) :
    (deleteOld choices scanJob).Returns scanJobs ⟨⟩ (scanJobs.delete (key scanJob)) := by
  have hget := get_eq_some.mpr ⟨hmem, rfl⟩
  refine returns_bind.mpr ⟨⟨⟩, scanJobs, returns_answered (hfault _), ?_⟩
  refine returns_bind.mpr ⟨scanJobs, scanJobs, returns_get.mpr ⟨rfl, rfl⟩, ?_⟩
  rw [if_pos (by rw [hget]; rfl)]
  exact returns_set.mpr rfl

theorem returns_deleteOlds (hfault : ∀ req, choices.fault req = none) {gone : List ScanJob}
    (hnodup : gone.Nodup) (hgone : gone ⊆ scanJobs.items) :
    ∃ after, (gone.forM (deleteOld choices)).Returns scanJobs ⟨⟩ after ∧
      after.items = scanJobs.items.filter (· ∉ gone) := by
  induction gone generalizing scanJobs with
  | nil => exact ⟨scanJobs, rfl, by simp⟩
  | cons scanJob gone ih =>
    obtain ⟨hnotin, hnodup⟩ := nodup_cons.mp hnodup
    obtain ⟨hmem, hgone⟩ := cons_subset.mp hgone
    have hitems := items_delete_of_mem hmem
    have hrest : gone ⊆ (scanJobs.delete (key scanJob)).items := by
      intro other hother
      rw [hitems, mem_filter, decide_eq_true_eq]
      exact ⟨hgone hother, fun h => hnotin (h ▸ hother)⟩
    obtain ⟨after, hreturns, hafter⟩ := ih hnodup hrest
    refine ⟨after, ?_, ?_⟩
    · exact returns_bind.mpr ⟨⟨⟩, _, returns_deleteOld hfault hmem, hreturns⟩
    · rw [hafter, hitems, filter_filter]
      apply filter_congr
      intro other _
      rw [← Bool.decide_and, decide_eq_decide, mem_cons, not_or]
      exact And.comm

/-- The jobs of the registry by their timestamps. -/
def byTimestamp (time : TimeFormat) (order : IterationOrder Loop) (registry : String × String)
    (scanJobs : Store) : List ScanJob :=
  Retention.sorted ( getCreationTimestampFromAnnotation time) order .scanJobs
    (jobsOf registry scanJobs)

def excess (registry : String × String) (scanJobs : Store) : Nat :=
  (jobsOf registry scanJobs).length - scanJobsHistoryLimit

theorem nodup_jobsOf (registry : String × String) (scanJobs : Store) :
    (jobsOf registry scanJobs).Nodup :=
  (List.Nodup.of_map _ scanJobs.unique).filter _

theorem byTimestamp_perm (order : IterationOrder Loop) (scanJobs : Store) :
    (byTimestamp time order registry scanJobs).Perm (jobsOf registry scanJobs) :=
  Retention.sorted_perm order .scanJobs

/-- Of the jobs of the registry, the first ones go. -/
theorem returns_cleanupOldScanJobs (time : TimeFormat) (hfault : ∀ req, choices.fault req = none)
    (currentScanJob : ScanJob) (scanJobs : Store) :
    ∃ after, (cleanupOldScanJobs time choices currentScanJob).Returns scanJobs ⟨⟩ after ∧
      after.items = scanJobs.items.filter (· ∉
        (byTimestamp time choices.order (registryKey currentScanJob) scanJobs).take
          (excess (registryKey currentScanJob) scanJobs)) := by
  generalize hregistry : registryKey currentScanJob = registry
  have hperm : (byTimestamp time choices.order registry scanJobs).Perm (jobsOf registry scanJobs) :=
    byTimestamp_perm choices.order scanJobs
  have hgone : (byTimestamp time choices.order registry scanJobs).take (excess registry scanJobs) ⊆
      scanJobs.items := fun scanJob hmem =>
    mem_of_mem_filter (hperm.mem_iff.mp (mem_of_mem_take hmem))
  obtain ⟨after, hreturns, hafter⟩ := returns_deleteOlds hfault
    ((hperm.nodup_iff.mpr (nodup_jobsOf registry scanJobs)).sublist (take_sublist _ _)) hgone
  refine ⟨after, ?_, hafter⟩
  refine returns_bind.mpr ⟨⟨⟩, scanJobs, returns_answered (hfault _), ?_⟩
  refine returns_bind.mpr ⟨scanJobs, scanJobs, returns_get.mpr ⟨rfl, rfl⟩, ?_⟩
  rw [hregistry]
  dsimp only
  split
  case isTrue hle =>
    -- the early return is the same as a loop over nothing
    rw [excess, Nat.sub_eq_zero_of_le hle, take_zero] at hreturns
    exact hreturns
  case isFalse => exact hreturns

variable {order : IterationOrder Loop}

/-- Of the jobs of the registry, the others stay. -/
theorem jobsOf_perm_drop {after : Store} {k : Nat}
    (h : after.items = scanJobs.items.filter (· ∉ (byTimestamp time order registry scanJobs).take
      k)) :
    (jobsOf registry after).Perm ((byTimestamp time order registry scanJobs).drop k) := by
  have hperm : (byTimestamp time order registry scanJobs).Perm (jobsOf registry scanJobs) :=
    byTimestamp_perm order scanJobs
  have hnodup := hperm.nodup_iff.mpr (nodup_jobsOf registry scanJobs)
  rw [jobsOf, h, filter_comm, ← Retention.filter_notMem_take hnodup k]
  exact hperm.symm.filter _

/-- Whether the newest jobs are kept is a matter of where the sorted list is cut. -/
theorem keepsNewest_iff {after : Store}
    (h : after.items = s.scanJobs.items.filter (· ∉ (byTimestamp time order registry
      s.scanJobs).take (excess registry s.scanJobs))) :
    KeepsNewest s registry after ↔
      ∀ a ∈ (byTimestamp time order registry s.scanJobs).take (excess registry s.scanJobs),
        ∀ b ∈ (byTimestamp time order registry s.scanJobs).drop (excess registry s.scanJobs),
          s.created (key a) < s.created (key b) := by
  have hperm : (byTimestamp time order registry s.scanJobs).Perm (jobsOf registry s.scanJobs) :=
    byTimestamp_perm order s.scanJobs
  have hkept := jobsOf_perm_drop h
  have hgone : ∀ gone ∈ s.scanJobs.items, gone ∉ after.items ↔
      gone ∈ (byTimestamp time order registry s.scanJobs).take (excess registry s.scanJobs) := by
    intro gone hmem
    rw [h, mem_filter, decide_eq_true_eq, not_and_not_right]
    exact ⟨fun himp => himp hmem, fun hin _ => hin⟩
  have hjob : ∀ gone ∈ (byTimestamp time order registry s.scanJobs).take
      (excess registry s.scanJobs), gone ∈ s.scanJobs.items ∧ registryKey gone = registry := by
    intro gone hin
    simpa [jobsOf] using hperm.mem_iff.mp (mem_of_mem_take hin)
  constructor
  · intro hright a ha b hb
    obtain ⟨hmem, -⟩ := hjob a ha
    exact (hright.oldest a hmem ((hgone a hmem).mpr ha)).2 b (hkept.mem_iff.mpr hb)
  · intro hcut
    refine ⟨h ▸ filter_sublist, ?_, ?_⟩
    · rw [hkept.length_eq, length_drop, hperm.length_eq, excess]
      omega
    · intro gone hmem hnot
      have hin := (hgone gone hmem).mp hnot
      exact ⟨(hjob gone hin).2, fun kept hkeep => hcut gone hin kept (hkept.mem_iff.mp hkeep)⟩

/-! ## When the newest jobs are kept -/

theorem timestamp_of_recorded (h : Recorded time s) (hmem : scanJob ∈ jobsOf registry s.scanJobs) :
    getCreationTimestampFromAnnotation time scanJob = s.written (key scanJob) :=
  getCreationTimestampFromAnnotation_eq (h scanJob (mem_of_mem_filter hmem))

/-- The timestamps stand for the last writes, so the cut can be judged by these. -/
theorem cut_iff_writtenInOrder (hrecorded : Recorded time s) (hdistinct : (instants s).Nodup)
    (registry : String × String) :
    (∀ order : IterationOrder Loop,
      ∀ a ∈ (byTimestamp time order registry s.scanJobs).take (excess registry s.scanJobs),
        ∀ b ∈ (byTimestamp time order registry s.scanJobs).drop (excess registry s.scanJobs),
          s.created (key a) < s.created (key b)) ↔
      WrittenInOrder s registry := by
  have hcreated :
      ((jobsOf registry s.scanJobs).map fun scanJob => s.created (key scanJob)).Nodup := by
    rw [instants, map_map] at hdistinct
    exact hdistinct.sublist (filter_sublist.map _)
  refine (Retention.cut_iff Loop.scanJobs hcreated).trans ?_
  unfold WrittenInOrder Due
  refine forall₂_congr fun a ha => forall₂_congr fun b hb => ?_
  rw [timestamp_of_recorded hrecorded ha, timestamp_of_recorded hrecorded hb]

/-- In every history in which the jobs are created at different instants, the cleanup keeps the
newest jobs, in whatever order it meets them, iff no job that is due has been written since one that
is not. -/
theorem cleanup_keeps_newest_iff (time : TimeFormat) (actions : List Action) (s : State)
    (currentScanJob : ScanJob) (hrun : exec (step time) .init actions = some s)
    (hdistinct : (actions.filterMap Action.creation).Nodup) :
    (∀ choices : Choices, (∀ req, choices.fault req = none) →
      ∃ after, (cleanupOldScanJobs time choices currentScanJob).Returns s.scanJobs ⟨⟩ after ∧
        KeepsNewest s (registryKey currentScanJob) after) ↔
      WrittenInOrder s (registryKey currentScanJob) := by
  rw [← cut_iff_writtenInOrder (recorded_run hrun) (nodup_instants_of_run hrun hdistinct)]
  constructor
  · intro hright order
    have hfault : ∀ req, (⟨order, fun _ => none⟩ : Choices).fault req = none := fun _ => rfl
    obtain ⟨after, hreturns, hkeeps⟩ := hright ⟨order, fun _ => none⟩ hfault
    obtain ⟨after', hreturns', hafter⟩ :=
      returns_cleanupOldScanJobs time hfault currentScanJob s.scanJobs
    obtain ⟨-, rfl⟩ := hreturns.unique hreturns'
    exact (keepsNewest_iff hafter).mp hkeeps
  · intro hcut choices hfault
    obtain ⟨after, hreturns, hafter⟩ :=
      returns_cleanupOldScanJobs time hfault currentScanJob s.scanJobs
    exact ⟨after, hreturns, (keepsNewest_iff hafter).mpr (hcut choices.order)⟩

/-- As many strokes as the clock has ticked. -/
def strokes : TimeFormat where
  format t := String.ofList (List.replicate t '|')
  parse text := some text.length
  parse_format t := by simp

def named (n : Nat) : String := "harbor-" ++ toString n

/-- The jobs of a registry, each created when the one before it is done. -/
def scans (n : Nat) : List Action :=
  (List.range n).flatMap fun i =>
    [.create (i + 1) ⟨named (i + 1), i + 1, i + 1, 0⟩ Uniqueness.scanHarbor,
     .updateStatus ("team-a", named (i + 1)) (Runner.completedScan 0 1 []).status]

def labelled (now n : Nat) : Action :=
  .update now ("team-a", named n) (Finmap.singleton "team" "a") ∅

def inOrder : Choices := ⟨.asStored, fun _ => none⟩

theorem exec_scans_newest :
    (exec (step strokes) .init (scans 11 ++ [labelled 12 11])).isSome = true := by
  decide +kernel

/-- The newest of eleven jobs is labelled. -/
theorem cleanup_keeps_newest_iff_newestLabelled :
    ∃ s, exec (step strokes) .init (scans 11 ++ [labelled 12 11]) = some s ∧
      (jobsOf ("team-a", "harbor") s.scanJobs).length = 11 ∧
      ∀ choices : Choices, (∀ req, choices.fault req = none) →
        ∃ after, (cleanupOldScanJobs strokes choices Uniqueness.scanHarbor).Returns s.scanJobs ⟨⟩
            after ∧
          KeepsNewest s (registryKey Uniqueness.scanHarbor) after :=
  ⟨Option.get _ exec_scans_newest, (Option.some_get _).symm, by decide +kernel,
    (cleanup_keeps_newest_iff strokes (scans 11 ++ [labelled 12 11]) _ Uniqueness.scanHarbor
      (Option.some_get exec_scans_newest).symm (by decide)).mpr (by decide +kernel)⟩

/-- The oldest of eleven jobs is labelled, and the second oldest is deleted in its place. -/
theorem labelled_job_outlives_newer :
    ((scans 11 ++ [labelled 12 1]).filterMap Action.creation).Nodup ∧
      (exec (step strokes) .init (scans 11 ++ [labelled 12 1])).map (fun s =>
        let (result, after) :=
          (cleanupOldScanJobs strokes inOrder Uniqueness.scanHarbor).run.run s.scanJobs
        (result.isOk, after.items.map ScanJob.name,
          decide (KeepsNewest s (registryKey Uniqueness.scanHarbor) after))) =
        some (true, named 1 :: (List.range' 3 9).map named, false) :=
  ⟨by decide, by decide +kernel⟩

end SbomScanner.Webhook.History

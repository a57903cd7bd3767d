import SbomScanner.Api.WorkloadScanReport
import SbomScanner.Lib.Keyed
import SbomScanner.Lib.Transition
import SbomScanner.Webhook.Registry

/-!
# The admission plugin for workload scan reports

The storage API server asks this plugin before it stores a report. A report that carries the
managed-by label may be created, changed or deleted by the service account of the controller only;
the garbage collector may delete it.

On update the plugin looks at the old object, and not at the new one as the Registry webhook does.
So a managed report is protected, but another user can put the label on a report that did not have
it, and the reports that carry it stay as they are iff nobody does that
(`managed_unchanged_iff`).
-/

namespace SbomScanner.Admission

open Api Webhook Transition List

variable {α : Type}

/-! ## The plugin -/

inductive Operation where
  | create
  | update
  | delete
  | connect
  deriving DecidableEq

/-- An object of the request, which may be of another type. -/
inductive Object (α : Type) where
  | report (report : WorkloadScanReport α)
  | other

structure GroupKind where
  group : String
  kind : String
  deriving DecidableEq

/-- `admission.Attributes`: what is known about a request. -/
structure Attributes (α : Type) where
  kind : GroupKind
  resource : String
  operation : Operation
  object : Option (Object α)
  oldObject : Option (Object α)
  username : String

def workloadScanReportKind : GroupKind :=
  ⟨"storage.sbomscanner.kubewarden.io", "WorkloadScanReport"⟩

def gcServiceAccount := "system:serviceaccount:kube-system:generic-garbage-collector"

/-- Ensures that only the designated service account can modify managed WorkloadScanReport
resources. The Kubernetes garbage collector is also allowed to delete managed resources. -/
def validateManagedWorkloadScanReport (account : ServiceAccount) (attrs : Attributes α)
    (report : WorkloadScanReport α) : Except Denial Unit :=
  if !carriesManagedBy report.labels then
    .ok ()
  else if attrs.username = account.allowedUsername then
    .ok ()
  else if attrs.operation = .delete ∧ attrs.username = gcServiceAccount then
    .ok ()
  else
    .error (.forbidden attrs.resource report.name
      "modifying managed resources of type WorkloadScanReport is forbidden")

def validate (account : ServiceAccount) (attrs : Attributes α) : Except Denial Unit :=
  if attrs.kind ≠ workloadScanReportKind then
    .ok ()
  else
    match attrs.operation with
    | .create =>
      match attrs.object with
      | some (.report report) => validateManagedWorkloadScanReport account attrs report
      | _ => .ok ()
    | .update | .delete =>
      match attrs.oldObject with
      | some (.report report) => validateManagedWorkloadScanReport account attrs report
      | _ => .ok ()
    | .connect => .ok ()

/-! ## The server -/

abbrev Reports (α : Type) := Keyed.Store (WorkloadScanReport.key (α := α))

inductive Action (α : Type) where
  | create (username : String) (report : WorkloadScanReport α)
  | update (username : String) (report : WorkloadScanReport α)
  | delete (username : String) (key : String × String)

def attributes (operation : Operation) (object oldObject : Option (WorkloadScanReport α))
    (username : String) : Attributes α where
  kind := workloadScanReportKind
  resource := "workloadscanreports"
  operation := operation
  object := object.map .report
  oldObject := oldObject.map .report
  username := username

variable (account : ServiceAccount)

def step (s : Reports α) : Action α → Option (Reports α)
  | .create username report =>
    match validate account (attributes .create (some report) none username) with
    | .ok _ => s.create report
    | .error _ => none
  | .update username report =>
    match s.get report.key with
    | none => none
    | some old =>
      match validate account (attributes .update (some report) (some old) username) with
      | .ok _ => s.update report
      | .error _ => none
  | .delete username key =>
    match s.get key with
    | none => none
    | some old =>
      match validate account (attributes .delete none (some old) username) with
      | .ok _ => some (s.delete key)
      | .error _ => none

/-- The request is made by somebody else than the controller, and it is not a deletion by the
garbage collector. -/
def ByOthers : Action α → Prop
  | .create username _ | .update username _ => username ≠ account.allowedUsername
  | .delete username _ => username ≠ account.allowedUsername ∧ username ≠ gcServiceAccount

instance (a : Action α) : Decidable (ByOthers account a) := by
  unfold ByOthers
  cases a <;> infer_instance

/-- The reports that carry the managed-by label. -/
def managed (s : Reports α) : List (WorkloadScanReport α) :=
  s.items.filter (carriesManagedBy ·.labels)

/-- A report without the label is left without it. -/
def KeepsUnmanaged (s : Reports α) : Action α → Prop
  | .update _ report => ∀ old ∈ s.get report.key, carriesManagedBy old.labels = false →
      carriesManagedBy report.labels = false
  | _ => True

instance (s : Reports α) (a : Action α) : Decidable (KeepsUnmanaged s a) := by
  unfold KeepsUnmanaged
  cases a <;> infer_instance

/-! ## What an admitted request does -/

variable {account} {s s' : Reports α} {username : String}
  {report : WorkloadScanReport α}

theorem validateManaged_eq_ok (attrs : Attributes α)
    (h : validateManagedWorkloadScanReport account attrs report = .ok ())
    (huser : attrs.username ≠ account.allowedUsername)
    (hgc : ¬(attrs.operation = .delete ∧ attrs.username = gcServiceAccount)) :
    carriesManagedBy report.labels = false := by
  unfold validateManagedWorkloadScanReport at h
  by_contra hmanaged
  rw [Bool.not_eq_false] at hmanaged
  simp [hmanaged, huser, hgc] at h

theorem unmanaged_of_create
    (h : validate account (attributes .create (some report) none username) = .ok ())
    (huser : username ≠ account.allowedUsername) : carriesManagedBy report.labels = false :=
  validateManaged_eq_ok (attributes .create (some report) none username) h huser
    fun hgc => by cases hgc.1

variable {old : WorkloadScanReport α}

/-- The old object is the one that counts. -/
theorem unmanaged_of_update
    (h : validate account (attributes .update (some report) (some old) username) = .ok ())
    (huser : username ≠ account.allowedUsername) : carriesManagedBy old.labels = false :=
  validateManaged_eq_ok (attributes .update (some report) (some old) username) h huser
    fun hgc => by cases hgc.1

theorem unmanaged_of_delete
    (h : validate account (attributes .delete none (some old) username) = .ok ())
    (huser : username ≠ account.allowedUsername) (hgc : username ≠ gcServiceAccount) :
    carriesManagedBy old.labels = false :=
  validateManaged_eq_ok (attributes .delete none (some old) username) h huser
    fun hdelete => hgc hdelete.2

/-- One request: nothing happens to the managed reports, or one more comes to them. -/
theorem managed_step {a : Action α} (hothers : ByOthers account a)
    (h : step account s a = some s') :
    if KeepsUnmanaged s a then managed s' = managed s
    else (managed s').length = (managed s).length + 1 := by
  cases a with
  | create username report =>
    rw [if_pos (by trivial)]
    simp only [step] at h
    split at h
    case h_1 hok =>
      have hreport := unmanaged_of_create hok hothers
      rw [managed, Keyed.Store.items_create h]
      simp [managed, hreport]
    case h_2 => cases h
  | update username report =>
    simp only [step] at h
    split at h
    case h_1 => cases h
    case h_2 old hget =>
      split at h
      case h_1 hok =>
        have hold := unmanaged_of_update hok hothers
        obtain ⟨l₁, l₂, hitems, hitems'⟩ := Keyed.Store.items_update hget h
        have hkeeps : KeepsUnmanaged s (.update username report) ↔
            carriesManagedBy report.labels = false := by
          simp [KeepsUnmanaged, hget, hold]
        simp only [hkeeps, managed, hitems, hitems', filter_append, filter_cons, hold]
        cases carriesManagedBy report.labels with
        | false => simp
        | true =>
          simp
          omega
      case h_2 => cases h
  | delete username key =>
    rw [if_pos (by trivial)]
    simp only [step] at h
    split at h
    case h_1 => cases h
    case h_2 old hget =>
      split at h
      case h_1 hok =>
        cases h
        have hold := unmanaged_of_delete hok hothers.1 hothers.2
        obtain ⟨l₁, l₂, hitems, hitems'⟩ := Keyed.Store.items_delete hget
        simp [managed, hitems, hitems', hold]
      case h_2 => cases h

/-- In a run the managed reports only become more. -/
theorem length_managed_le {actions : List (Action α)}
    (hothers : ∀ a ∈ actions, ByOthers account a)
    (hrun : exec (step account) s actions = some s') :
    (managed s).length ≤ (managed s').length := by
  induction actions generalizing s with
  | nil =>
    cases hrun
    exact Nat.le_refl _
  | cons a actions ih =>
    obtain ⟨hfirst, hrest⟩ := forall_mem_cons.mp hothers
    obtain ⟨mid, hstep, hrun⟩ := exec_cons_eq_some.mp hrun
    have hmid := managed_step hfirst hstep
    have hle := ih hrest hrun
    split at hmid
    · exact hmid ▸ hle
    · omega

/-- **The managed reports stay as they are** under the admitted requests of others, iff each of
their updates leaves a report without the label without it. -/
theorem managed_unchanged_iff {actions : List (Action α)}
    (hothers : ∀ a ∈ actions, ByOthers account a)
    (hrun : exec (step account) s actions = some s') :
    managed s' = managed s ↔ Along KeepsUnmanaged (step account) s actions := by
  induction actions generalizing s with
  | nil =>
    cases hrun
    exact iff_of_true rfl trivial
  | cons a actions ih =>
    obtain ⟨hfirst, hrest⟩ := forall_mem_cons.mp hothers
    obtain ⟨mid, hstep, hrun⟩ := exec_cons_eq_some.mp hrun
    have hmid := managed_step hfirst hstep
    simp only [Along, hstep]
    split at hmid
    case isTrue hkeeps => rw [← hmid, ih hrest hrun, and_iff_right hkeeps]
    case isFalse hlabels =>
      refine iff_of_false ?_ fun h => hlabels h.1
      intro hsame
      have hle := length_managed_le hrest hrun
      rw [hsame] at hle
      omega

/-! ## Two runs -/

def controller : ServiceAccount := ⟨"sbomscanner", "controller"⟩

def reportOf (name : String) (labels : Labels) : WorkloadScanReport Unit :=
  ⟨name, "team-a", labels, [], ()⟩

def managedByLabel : Labels := .singleton labelManagedByKey labelManagedByValue

/-- A cluster with one managed report. -/
def reports : Reports Unit := ⟨[reportOf "web" managedByLabel], nodup_singleton _⟩

/-- A user writes a report of their own. -/
def ownReport : List (Action Unit) :=
  [.create "alice" (reportOf "mine" ∅),
   .update "alice" (reportOf "mine" (.singleton "team" "a")),
   .delete "alice" ("team-a", "mine")]

theorem managed_unchanged_iff_ownReport :
    ∃ s, exec (step controller) reports ownReport = some s ∧ managed s = managed reports :=
  ⟨_, rfl, (@managed_unchanged_iff Unit controller reports _ ownReport (by decide) rfl).mpr
    (by decide)⟩

/-- Another user turns a report of their own into a managed one. -/
theorem label_added_by_update :
    ∃ s, exec (step controller) reports [.create "alice" (reportOf "mine" ∅),
        .update "alice" (reportOf "mine" managedByLabel)] = some s ∧
      (managed s).map (·.name) = ["web", "mine"] ∧ managed s ≠ managed reports := by
  refine ⟨_, rfl, by decide, ?_⟩
  intro h
  have hlength := congrArg List.length h
  revert hlength
  decide

end SbomScanner.Admission

import SbomScanner.Lib.Transition
import SbomScanner.Runner.Schedule
import SbomScanner.Webhook.ScanJob

/-!
# One running ScanJob for a registry

The webhook admits a ScanJob if it finds no running job of the registry. The job is not there yet
when the webhook answers: the API server persists it later, and in between it answers others. Two
requests that are admitted before either of them is persisted both go through, so it takes more than
the webhook to keep a registry from being scanned twice at a time (`exclusive_of_undisturbed`).

The runner looks for a running job of its own before it asks for a new one, but only at the job it
takes for the last one, and in a cache.
-/

namespace SbomScanner.Webhook.Uniqueness

open Api Runner Transition

/-- A create request that the webhook has admitted and the API server has yet to persist. -/
structure Admitted where
  scanJob : ScanJob
  /-- the jobs of the registry that the webhook has seen -/
  listed : List ScanJob

structure State where
  scanJobs : List ScanJob
  admitted : List Admitted

/-- What the validator is told when it asks for the Registry. -/
abbrev GetRegistry := String × String → Except ReadError Registry

inductive Action where
  | create (username timestamp : String) (scanJob : ScanJob) (get : GetRegistry)
  | check (username timestamp : String) (now : Nat) (order : IterationOrder Loop)
      (registry : Registry) (cached : List ScanJob) (get : GetRegistry)
  | persist (i : Nat) (assigned : Assigned)
  | updateStatus (key : String × String) (status : Jobs.Status)
  | delete (key : String × String)

def key (scanJob : ScanJob) : String × String := (scanJob.ns, scanJob.name)

/-- The object as it is stored. A name is generated if the request has none, and a status in the
request is dropped. -/
def assign (assigned : Assigned) (scanJob : ScanJob) : ScanJob :=
  { scanJob with
    name := if scanJob.name = "" then assigned.name else scanJob.name
    uid := assigned.uid
    resourceVersion := assigned.resourceVersion
    generation := 1
    creationTimestamp := assigned.creationTimestamp
    status := {} }

def setStatus (k : String × String) (status : Jobs.Status) (scanJob : ScanJob) : ScanJob :=
  if key scanJob = k then { scanJob with status } else scanJob

namespace State

def init : State := ⟨[], []⟩

/-- A create request goes through both webhooks. -/
def review (s : State) (v : ScanJobCustomValidator) (username timestamp : String)
    (scanJob : ScanJob) (get : GetRegistry) : State :=
  let scanJob := ScanJobCustomDefaulter.default timestamp scanJob
  match v.validateCreate (some username) (.answering s.scanJobs get) scanJob with
  | .ok _ =>
    let listed := s.scanJobs.filter (registryKey · = registryKey scanJob)
    { s with admitted := s.admitted ++ [⟨scanJob, listed⟩] }
  | .error _ => s

end State

variable (v : ScanJobCustomValidator) (unmarshal : Unmarshal)

/-- The steps. The runner decides on the jobs it has cached, which may be any. -/
def step (s : State) : Action → Option State
  | .create username timestamp scanJob get => some (s.review v username timestamp scanJob get)
  | .check username timestamp now order registry cached get =>
    let collected := collectRescanRequests order unmarshal registry
    if wantsScanJob now registry (lastScanJob order cached registry)
        (collected.rescanRequests ≠ []) then
      some (s.review v username timestamp
        (newScanJob ⟨"", 0, 0, 0⟩ registry collected.targets) get)
    else
      some s
  | .persist i assigned =>
    match s.admitted[i]? with
    | none => none
    | some p =>
      let scanJob := assign assigned p.scanJob
      if key scanJob ∈ s.scanJobs.map key then
        -- the name is taken
        some { s with admitted := s.admitted.eraseIdx i }
      else
        some ⟨s.scanJobs ++ [scanJob], s.admitted.eraseIdx i⟩
  | .updateStatus k status =>
    some { s with scanJobs := s.scanJobs.map (setStatus k status) }
  | .delete k => some { s with scanJobs := s.scanJobs.filter (key · ≠ k) }

/-! ## The property and what it takes -/

/-- No two running jobs are of the same namespace and registry. -/
def Exclusive (scanJobs : List ScanJob) : Prop :=
  scanJobs.Pairwise fun a b =>
    a.isRunning = true → b.isRunning = true → registryKey a ≠ registryKey b

instance (scanJobs : List ScanJob) : Decidable (Exclusive scanJobs) :=
  inferInstanceAs (Decidable (List.Pairwise _ scanJobs))

/-- Between the answer of the webhook and the write, no job of the registry has been persisted or
reopened: whatever is running now was running, under the same uid, when the webhook looked. And a
job that has come to its end stays there. -/
def Undisturbed (s : State) : Action → Prop
  | .persist i _ => ∀ p ∈ s.admitted[i]?, ∀ scanJob ∈ s.scanJobs,
      registryKey scanJob = registryKey p.scanJob → scanJob.isRunning = true →
        ∃ seen ∈ p.listed, seen.uid = scanJob.uid ∧ seen.isRunning = true
  | .updateStatus k status => ∀ scanJob ∈ s.scanJobs, key scanJob = k →
      scanJob.isRunning = false → { scanJob with status }.isRunning = false
  | _ => True

instance (s : State) (a : Action) : Decidable (Undisturbed s a) := by
  unfold Undisturbed
  cases a <;> infer_instance

/-! ## Proof -/

variable {v unmarshal} {s s' : State}

structure Inv (s : State) : Prop where
  exclusive : Exclusive s.scanJobs
  /-- the webhook has seen no running job -/
  idle : ∀ p ∈ s.admitted, ∀ seen ∈ p.listed, seen.isRunning = false

theorem inv_review (h : Inv s) (username timestamp : String) (scanJob : ScanJob)
    (get : GetRegistry) : Inv (s.review v username timestamp scanJob get) := by
  simp only [State.review]
  split
  case h_1 warnings hok =>
    refine ⟨h.exclusive, ?_⟩
    intro p hp seen hseen
    rw [List.mem_append, List.mem_singleton] at hp
    rcases hp with hp | rfl
    · exact h.idle p hp seen hseen
    · obtain ⟨hmem, hkey⟩ := List.mem_filter.mp hseen
      exact isRunning_of_validateCreate hok hmem (of_decide_eq_true hkey)
  case h_2 => exact h

variable {scanJobs : List ScanJob}

/-- A job whose registry has no running job may come in. -/
theorem exclusive_append (h : Exclusive scanJobs) {new : ScanJob}
    (hidle : ∀ scanJob ∈ scanJobs, registryKey scanJob = registryKey new →
      scanJob.isRunning = false) :
    Exclusive (scanJobs ++ [new]) := by
  refine List.pairwise_append.mpr ⟨h, List.pairwise_singleton _ _, ?_⟩
  intro scanJob hmem _ hnew hrunning _ hkey
  rw [List.mem_singleton.mp hnew] at hkey
  rw [hidle scanJob hmem hkey] at hrunning
  cases hrunning

/-- Jobs may be rewritten if none is moved to another registry and none is reopened. -/
theorem exclusive_map (h : Exclusive scanJobs) {f : ScanJob → ScanJob}
    (hkey : ∀ scanJob, registryKey (f scanJob) = registryKey scanJob)
    (hclosed : ∀ scanJob ∈ scanJobs, scanJob.isRunning = false → (f scanJob).isRunning = false) :
    Exclusive (scanJobs.map f) := by
  have hrunning : ∀ scanJob ∈ scanJobs,
      (f scanJob).isRunning = true → scanJob.isRunning = true := by
    intro scanJob hmem hopen
    by_contra hdone
    rw [hclosed scanJob hmem (Bool.eq_false_of_not_eq_true hdone)] at hopen
    cases hopen
  refine List.pairwise_map.mpr (List.Pairwise.imp_of_mem ?_ h)
  intro a b ha hb hab hopen hopen'
  rw [hkey, hkey]
  exact hab (hrunning a ha hopen) (hrunning b hb hopen')

theorem inv_step (s : State) (a : Action) (s' : State) (h : Inv s) (hguard : Undisturbed s a)
    (hstep : step v unmarshal s a = some s') : Inv s' := by
  cases a with
  | create username timestamp scanJob get =>
    cases hstep
    exact inv_review h username timestamp scanJob get
  | check username timestamp now order registry cached get =>
    simp only [step] at hstep
    split at hstep
    · cases hstep
      exact inv_review h username timestamp _ get
    · cases hstep
      exact h
  | persist i assigned =>
    simp only [step] at hstep
    split at hstep
    case h_1 => cases hstep
    case h_2 p hp =>
      have hadmitted : ∀ q ∈ s.admitted.eraseIdx i, ∀ seen ∈ q.listed, seen.isRunning = false :=
        fun q hq => h.idle q (List.mem_of_mem_eraseIdx hq)
      split at hstep
      · cases hstep
        exact ⟨h.exclusive, hadmitted⟩
      · cases hstep
        refine ⟨exclusive_append h.exclusive ?_, hadmitted⟩
        intro scanJob hmem hkey
        by_contra hrunning
        obtain ⟨seen, hseen, -, hopen⟩ := hguard p hp scanJob hmem hkey
          (Bool.eq_true_of_not_eq_false hrunning)
        rw [h.idle p (List.mem_of_getElem? hp) seen hseen] at hopen
        cases hopen
  | updateStatus k status =>
    cases hstep
    refine ⟨exclusive_map h.exclusive ?_ ?_, h.idle⟩
    · intro scanJob
      unfold setStatus
      split <;> rfl
    · intro scanJob hmem hdone
      unfold setStatus
      split
      case isTrue hk => exact hguard scanJob hmem hk hdone
      case isFalse => exact hdone
  | delete k =>
    cases hstep
    exact ⟨List.Pairwise.filter _ h.exclusive, h.idle⟩

/-- **One running job for a registry**, in every run that is not disturbed. -/
theorem exclusive_of_undisturbed {actions : List Action}
    (hguard : Along Undisturbed (step v unmarshal) .init actions)
    (hrun : exec (step v unmarshal) .init actions = some s) : Exclusive s.scanJobs := by
  have hinit : Inv .init := ⟨List.Pairwise.nil, by simp [State.init]⟩
  exact (exec_invariant_along inv_step hinit hguard hrun).exclusive

def scanHarbor : ScanJob := newScanJob ⟨"", 0, 0, 0⟩ harbor []

def controller : ScanJobCustomValidator := ⟨⟨"sbomscanner", "controller"⟩⟩

def askedBy (username : String) : Action := .create username "now" scanHarbor fun _ => .ok harbor

def stored (name : String) (uid : Nat) : Action := .persist 0 ⟨name, uid, uid, uid⟩

/-- The second request comes when the first job is done. -/
def oneAfterTheOther : List Action :=
  [askedBy "alice", stored "harbor-1" 1,
   .updateStatus ("team-a", "harbor-1") (completedScan 0 1 []).status,
   askedBy "bob", stored "harbor-2" 2]

theorem exclusive_of_undisturbed_oneAfterTheOther :
    ∃ s, exec (step controller fun _ => none) .init oneAfterTheOther = some s ∧
      s.scanJobs.map (·.isRunning) = [false, true] ∧ Exclusive s.scanJobs :=
  ⟨_, rfl, by decide, @exclusive_of_undisturbed controller (fun _ => none) _ oneAfterTheOther
    (by decide) rfl⟩

/-- Both requests are admitted before either of the jobs is there. -/
theorem admitted_together :
    ∃ s, exec (step controller fun _ => none) .init
        [askedBy "alice", askedBy "bob", stored "harbor-1" 1, stored "harbor-2" 2] = some s ∧
      ¬Exclusive s.scanJobs :=
  ⟨_, rfl, by decide⟩

end SbomScanner.Webhook.Uniqueness

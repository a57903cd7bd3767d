import SbomScanner.Jobs.Parties

/-!
# Finished jobs

Four parties write the status of a job, each with its own idea of when not to. Two of them respect
a finished job by construction: the ScanJob reconciler only updates jobs that were pending, and the
report reconciler keeps the conditions of a failed job and leaves a complete one alone. The other
two do not look: the final update of `CreateCatalogHandler`, which remembers whether the job was
finished only for the metric, and the update of `ScanJobFailureHandler`.

So the conditions of a finished job stay as they are in every run in which those two updates find
the job unfinished (`finished_conditions_frozen`), and a catalog that is still being created when
its message is given up on takes the failed job back into progress (`failed_job_reopened`).
-/

namespace SbomScanner.Jobs.Pipeline

open Transition

variable {s s' : State} {a : Action} {job : ScanJob}

/-- The worker whose update does not ask whether the job is finished. -/
def Action.overwriter : Action → Option Nat
  | .catalogUpdate w | .failureUpdate w => some w
  | _ => none

/-- Such an update is made on a job that was not finished when it was read. -/
def OnUnfinished (s : State) (a : Action) : Prop :=
  ∀ w ∈ a.overwriter, ∀ job ∈ (s.workers w).copy, job.jobFinished = false

instance (s : State) (a : Action) : Decidable (OnUnfinished s a) :=
  inferInstanceAs (Decidable (∀ w ∈ a.overwriter, ∀ job ∈ (s.workers w).copy,
    job.jobFinished = false))

/-! ## One job -/

/-- Every stored job with this UID has these conditions. -/
structure Frozen (uid : Nat) (conditions : List Condition) (s : State) : Prop where
  known : uid < s.nextUid
  conditions_eq : ∀ {name job}, s.jobs name = some job → job.uid = uid →
    job.status.conditions = conditions

theorem frozen_step {uid : Nat} {conditions : List Condition} (hs : Consistent s)
    (hfin : ∀ {job : ScanJob}, job.status.conditions = conditions → job.jobFinished = true)
    (hg : OnUnfinished s a) (hf : Frozen uid conditions s) (h : step s a = some s') :
    Frozen uid conditions s' := by
  refine ⟨lt_of_lt_of_le hf.known (nextUid_le hs.versioned h), ?_⟩
  intro name job hj huid
  cases origin hs.versioned h hj with
  | kept hold => exact hf.conditions_eq hold huid
  | created hnew hstatus =>
    have hlt := hf.known
    omega
  | patched hold hsame hstatus =>
    rw [hstatus]
    exact hf.conditions_eq hold (hsame.symm.trans huid)
  | @written old hold hsame hw =>
    have hc := hf.conditions_eq hold (hsame.symm.trans huid)
    rcases hw.conditions_of_finished hs.sound (hfin hc) with heq | ⟨w, d, err, rfl, hworker⟩
    · exact heq.trans hc
    · -- the guard says that the failure handler does not get here
      have hunfinished := hg w rfl old (by rw [hworker]; rfl)
      rw [hfin hc] at hunfinished
      cases hunfinished
  | @catalogued old w d discovered ha hold hsame hw hstatus =>
    subst ha
    have hc := hf.conditions_eq hold (hsame.symm.trans huid)
    have hunfinished := hg w rfl old (by rw [hw]; rfl)
    rw [hfin hc] at hunfinished
    cases hunfinished

theorem frozen_of_stored (hv : Versioned s) {name : String} (hj : s.jobs name = some job) :
    Frozen job.uid job.status.conditions s := by
  refine ⟨hv.uid_lt (hv.mem_history hj), ?_⟩
  intro name' job' hj' huid
  rw [hv.eq_of_uid hj hj' huid]

/-! ## Every run -/

/-- **Finished jobs stay as they are.** When every overwriting update of a run finds its job
unfinished, a job that is finished at some point keeps its conditions to the end. -/
theorem finished_conditions_frozen {before after : List Action} {name name' : String}
    {job job' : ScanJob}
    (hg : Transition.Along OnUnfinished step init (before ++ after))
    (hs : exec step init before = some s) (hs' : exec step s after = some s')
    (hj : s.jobs name = some job) (hfin : job.jobFinished = true)
    (hj' : s'.jobs name' = some job') (huid : job'.uid = job.uid) :
    job'.condition .complete = job.condition .complete ∧
      job'.condition .failed = job.condition .failed ∧ job'.isInProgress = false := by
  obtain ⟨hg₁, hg₂⟩ := along_append hg hs
  have hstart := consistent_exec hs
  have hend : Consistent s' ∧ Frozen job.uid job.status.conditions s' := by
    refine exec_invariant_along
      (I := fun t => Consistent t ∧ Frozen job.uid job.status.conditions t)
      (fun t b t' ht hgb hb => ?_) ⟨hstart, frozen_of_stored hstart.versioned hj⟩ hg₂ hs'
    obtain ⟨htc, htf⟩ := ht
    refine ⟨consistent_step htc hb, frozen_step htc ?_ hgb htf hb⟩
    intro j hc
    rw [ScanJob.jobFinished_congr hc]
    exact hfin
  obtain ⟨hend, hfrozen⟩ := hend
  have hc := hfrozen.conditions_eq hj' huid
  refine ⟨?_, ?_, ?_⟩
  · unfold ScanJob.condition
    rw [hc]
  · unfold ScanJob.condition
    rw [hc]
  · have hfin' : job'.jobFinished = true := (ScanJob.jobFinished_congr hc).trans hfin
    exact (hend.sound.exclusive (hend.versioned.mem_history hj') hfin').2

/-- The registry turns out to be empty, so the job is complete. -/
def emptyCatalog : List Action := scheduleJob ++ createCatalog 0 1 []

/-- The worker dies before it acknowledges, and the message is delivered again. -/
def redelivery : List Action := [.crash 0, .deliver 0 1, .catalogGet 0, .ack 0]

theorem finished_conditions_frozen_redelivery :
    ∃ s s' job job', exec step init emptyCatalog = some s ∧
      exec step s redelivery = some s' ∧
      s.jobs "nightly" = some job ∧ job.jobFinished = true ∧ s'.jobs "nightly" = some job' ∧
      job'.condition .complete = job.condition .complete ∧
      job'.condition .failed = job.condition .failed ∧ job'.isInProgress = false :=
  ⟨_, _, _, _, rfl, rfl, rfl, rfl, rfl,
    @finished_conditions_frozen _ _ emptyCatalog redelivery "nightly" "nightly" _ _ (by decide)
      rfl rfl rfl rfl rfl rfl⟩

/-- One worker is still at the catalog when another has failed on the same message for the fifth
time. -/
def failedWhileDiscovering : List Action :=
  scheduleJob ++ [Action.deliver 0 1, .catalogGet 0, .catalogMark 0, .catalogList 0,
    .deliver 1 1, .handlerError 1 "cannot discover repositories", .nak 1,
    .deliver 1 1, .handlerError 1 "cannot discover repositories", .nak 1,
    .deliver 1 1, .handlerError 1 "cannot discover repositories", .nak 1,
    .deliver 1 1, .handlerError 1 "cannot discover repositories", .failureGet 1, .failureUpdate 1,
    .ack 1]

def closeCatalog : List Action :=
  [.catalogImage 0 "alpine", .catalogDiscovered 0, .catalogGetFinal 0, .catalogUpdate 0]

theorem failed_job_reopened :
    ∃ s s' job job', exec step init failedWhileDiscovering = some s ∧
      exec step s closeCatalog = some s' ∧
      s.jobs "nightly" = some job ∧ job.jobFinished = true ∧ job.isFailed = true ∧
      s'.jobs "nightly" = some job' ∧ job'.uid = job.uid ∧
      job'.isFailed = false ∧ job'.isInProgress = true :=
  ⟨_, _, _, _, rfl, rfl, rfl, rfl, rfl, rfl, rfl, rfl, rfl⟩

end SbomScanner.Jobs.Pipeline

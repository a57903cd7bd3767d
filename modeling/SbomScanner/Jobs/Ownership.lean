import SbomScanner.Jobs.Messages

/-!
# Whose status a handler writes

A message names its job by name and by UID, and a job may be deleted and created again under its
name at any point of a run. `CreateCatalogHandler` compares the UID at every `Get`, and the version
it submits makes sure that nothing happens between that `Get` and the update. `GenerateSBOMHandler`
and `ScanSBOMHandler` write no status at all. `ScanJobFailureHandler` reads by name alone.

So every handler writes the job of its own message, in every run in which the failure handler
happens to find that job under the name (`handlers_write_own_job`). Where it finds the successor, it
marks a job as failed that the message is not about (`recreated_job_marked_failed`).
-/

namespace SbomScanner.Jobs.Pipeline

open Transition Function

variable {s s' : State} {a : Action} {job : ScanJob}

def Action.handler : Action → Option Nat
  | .failureGet w | .failureUpdate w | .failureGiveUp w
  | .catalogGet w | .catalogMark w | .catalogList w | .catalogImage w _ | .catalogDiscovered w
  | .catalogGetFinal w | .catalogUpdate w | .catalogPublish w _
  | .generateGet w | .generateImage w | .generateCreate w | .generatePublish w _
  | .scanGet w | .scanSBOM w | .scanReport w => some w
  | _ => none

/-- The worker that is about to read a job without looking at its UID. -/
def Action.readerByName : Action → Option Nat
  | .failureGet w => some w
  | _ => none

/-- When it does, the name is free or taken by the job of the message. -/
def FindsOwnJob (s : State) (a : Action) : Prop :=
  ∀ w ∈ a.readerByName, ∀ d ∈ (s.workers w).delivery, ∀ job ∈ s.jobs d.message.scanJob.name,
    job.uid = d.message.scanJob.uid

instance (s : State) (a : Action) : Decidable (FindsOwnJob s a) :=
  inferInstanceAs (Decidable (∀ w ∈ a.readerByName, ∀ d ∈ (s.workers w).delivery,
    ∀ job ∈ s.jobs d.message.scanJob.name, job.uid = d.message.scanJob.uid))

/-! ## The copy of the failure handler -/

/-- The job a failure handler is about to update is the one its message names. -/
def Worker.OwnFailure : Worker → Prop
  | .failureUpdating d _ job => job.uid = d.message.scanJob.uid
  | _ => True

theorem Move.ownFailure {w : Nat} {p q : Worker} (h : Move s w a p q) (hw : s.workers w = p)
    (hg : FindsOwnJob s a) : q.OwnFailure := by
  cases h with
  | @failureFetched d err job hf =>
    have hd : (s.workers w).delivery = some d := by rw [hw]; rfl
    exact hg w rfl d hd job hf
  | _ => trivial

theorem ownFailure_step (hv : Versioned s) (hg : FindsOwnJob s a)
    (hown : ∀ w, (s.workers w).OwnFailure) (h : step s a = some s') (w : Nat) :
    (s'.workers w).OwnFailure := by
  rcases worker_step hv h w with hsame | hstep
  · rw [hsame]
    exact hown w
  · generalize hp : s.workers w = p at hstep
    generalize s'.workers w = q at hstep
    cases hstep with
    | moved hm => exact hm.ownFailure hp hg
    | _ => trivial

/-! ## Every run -/

/-- Storing a job changes what its own name stands for, and nothing else. -/
theorem store_ne {new : ScanJob} {name : String} (h : (s.store new).jobs name ≠ s.jobs name) :
    name = new.name ∧
      (s.store new).jobs name = some { new with resourceVersion := s.nextVersion } := by
  by_cases hn : name = new.name
  · subst hn
    exact ⟨rfl, update_self ..⟩
  · exact absurd (update_of_ne hn ..) h

/-- A status that a handler writes belongs to the job in the hands of its worker. -/
theorem StatusWrite.own (hs : Consistent s) (hown : ∀ w, (s.workers w).OwnFailure) {w : Nat}
    {status : Status} (hw : StatusWrite s job a status) (ha : a.handler = some w) :
    ∃ d, (s.workers w).delivery = some d ∧ job.uid = d.message.scanJob.uid := by
  cases hw with
  | @catalogMarked w' d hworker =>
    cases ha
    have hsound := hs.sound.workers w
    rw [hworker] at hsound
    refine ⟨d, by rw [hworker]; rfl, ?_⟩
    rw [hsound.1]
    rfl
  | @failed w' d err hworker =>
    cases ha
    have hfailure := hown w
    rw [hworker] at hfailure
    exact ⟨d, by rw [hworker]; rfl, hfailure⟩
  | reconciled hp => cases ha
  | counted hp => cases ha

/-- **A handler writes its own job.** When the failure handler never finds a successor of its job, a
handler that changes the job stored under some name has a message with the UID of that job. -/
theorem handlers_write_own_job {as : List Action} {w : Nat} {name : String}
    (hg : Transition.Along FindsOwnJob step init as)
    (hs : exec step init as = some s) (h : step s a = some s')
    (ha : a.handler = some w) (hne : s'.jobs name ≠ s.jobs name) :
    ∃ d job job', (s.workers w).delivery = some d ∧ s.jobs name = some job ∧
      s'.jobs name = some job' ∧ job'.uid = job.uid ∧ job.uid = d.message.scanJob.uid := by
  have hinv : Consistent s ∧ ∀ w, (s.workers w).OwnFailure := by
    refine exec_invariant_along
      (I := fun t => Consistent t ∧ ∀ w, (t.workers w).OwnFailure)
      (fun t b t' ht hgb hb => ?_) ⟨consistent_init, fun _ => trivial⟩ hg hs
    exact ⟨consistent_step ht.1 hb, ownFailure_step ht.1.versioned hgb ht.2 hb⟩
  obtain ⟨hcons, hown⟩ := hinv
  -- a handler's step stores a job only by writing a status
  cases cluster_step hcons.versioned h with
  | same hc hcat =>
    rw [hc] at hne
    exact absurd rfl hne
  | created hn hc hcat => cases ha
  | deleted hc hcat => cases ha
  | patched hj hc hcat => cases ha
  | @written _ job status hj hw hc hcat =>
    rw [hc] at hne ⊢
    obtain ⟨rfl, hstored⟩ := store_ne hne
    obtain ⟨d, hd, huid⟩ := hw.own hcons hown ha
    exact ⟨d, job, _, hd, hj, hstored, rfl, huid⟩
  | @catalogued w' d discovered job hj hw hc hcat =>
    cases ha
    rw [hc] at hne ⊢
    obtain ⟨rfl, hstored⟩ := store_ne hne
    have hsound := hcons.sound.workers w
    rw [hw] at hsound
    refine ⟨d, job, _, by rw [hw]; rfl, hj, hstored, rfl, ?_⟩
    rw [hsound]
    rfl

/-- The catalog of a scheduled job is about to be created. -/
def catalogFetched : List Action := scheduleJob ++ [Action.deliver 0 1, .catalogGet 0]

theorem handlers_write_own_job_catalogMark :
    ∃ s s', exec step init catalogFetched = some s ∧
      step s (.catalogMark 0) = some s' ∧ s'.jobs "nightly" ≠ s.jobs "nightly" ∧
      ∃ d job job', (s.workers 0).delivery = some d ∧ s.jobs "nightly" = some job ∧
        s'.jobs "nightly" = some job' ∧ job'.uid = job.uid ∧ job.uid = d.message.scanJob.uid :=
  ⟨_, _, rfl, rfl, by decide,
    @handlers_write_own_job _ _ (.catalogMark 0) catalogFetched 0 "nightly" (by decide) rfl rfl rfl
      (by decide)⟩

/-! ## A job that is created again -/

/-- The message of the first job fails for the fifth time after the job has been replaced. -/
def failedAfterRecreation : List Action :=
  scheduleJob ++ [Action.deliver 0 1, .handlerError 0 "cannot discover repositories", .nak 0,
    .deliver 0 1, .handlerError 0 "cannot discover repositories", .nak 0,
    .deliver 0 1, .handlerError 0 "cannot discover repositories", .nak 0,
    .deliver 0 1, .handlerError 0 "cannot discover repositories", .nak 0,
    .deleteScanJob "nightly", .createScanJob "nightly",
    .deliver 0 1, .handlerError 0 "cannot discover repositories", .failureGet 0]

theorem recreated_job_marked_failed :
    ∃ s s' d job job', exec step init failedAfterRecreation = some s ∧
      step s (.failureUpdate 0) = some s' ∧ (s.workers 0).delivery = some d ∧
      s.jobs "nightly" = some job ∧ s'.jobs "nightly" = some job' ∧ job'.uid = job.uid ∧
      job.uid ≠ d.message.scanJob.uid ∧ job.isFailed = false ∧ job'.isFailed = true :=
  ⟨_, _, _, _, _, rfl, rfl, rfl, rfl, rfl, rfl, by decide, rfl, rfl⟩

end SbomScanner.Jobs.Pipeline

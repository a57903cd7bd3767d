import SbomScanner.NodeScan.Parties

/-!
# Whose status a node handler writes

A message names its NodeScanJob by name and by UID, and the job may be deleted and created again
under its name at any point of a run. The version that is submitted makes sure that nothing happens
between a `Get` and the update based on it, so everything depends on those `Get`s, and none of them
looks at the UID: `NodeScanSBOMHandler` compares it once, at the start, `GenerateNodeSBOMHandler`
compares the name instead, which it has just used to find the job, and the failure handler compares
nothing.

So a handler writes the job of its message in every run in which each of these `Get`s happens to
find it (`nodeHandlers_write_own_job`); otherwise it writes its successor (`recreated_job_marked`).
-/

namespace SbomScanner.NodeScan

open Transition

open Versioned (Entry)

variable {s s' : State} {a : Action} {name : String}

def Action.handler : Action → Option Nat
  | .failureGet w | .failureUpdate w | .failureGiveUp w
  | .generateGet w | .generateNode w | .generateMarkGet w | .generateMark w
  | .generateConfiguration w | .generateCreate w | .generateGetFinal w | .generatePublish w _
  | .scanGet w | .scanMarkGet w | .scanMark w | .scanSBOM w | .scanReport w | .scanCompleteGet w
  | .scanComplete w => some w
  | _ => none

theorem Mark.handler {clock w : Nat} {p : Worker} {d : Delivery} {copy : Entry NodeScanJob}
    {status : Status} {next : Entry NodeScanJob → Worker}
    (h : Mark clock w a p d copy status next) : a.handler = some w := by
  cases h <;> rfl

/-- Where a job is read to be updated, the name is free or taken by the job of the message. -/
def FindsOwnJob (s : State) (a : Action) : Prop :=
  ∀ w ∈ a.reader, ∀ d ∈ (s.workers w).delivery, ∀ job ∈ s.get d.job.name, job.uid = d.job.uid

instance (s : State) (a : Action) : Decidable (FindsOwnJob s a) :=
  inferInstanceAs (Decidable (∀ w ∈ a.reader, ∀ d ∈ (s.workers w).delivery,
    ∀ job ∈ s.get d.job.name, job.uid = d.job.uid))

/-- The job a worker is about to update is the one its message names. -/
def OwnCopies (s : State) : Prop :=
  ∀ {w d copy}, (s.workers w).delivery = some d → (s.workers w).copy = some copy →
    copy.uid = d.job.uid

theorem ownCopies_step (hg : FindsOwnJob s a) (hown : OwnCopies s) (h : step s a = some s') :
    OwnCopies s' := by
  intro w d copy hd hc
  rcases worker_step h w with hsame | hstep
  · rw [hsame] at hd hc
    exact hown hd hc
  · obtain ⟨hreader, hd', hget⟩ := hstep.copy hd hc
    exact hg w hreader d hd' copy hget

/-- **A handler writes its own job.** When every `Get` before an update finds the job of the message
or none, a handler that changes the job of some name has a message with the UID of that job. -/
theorem nodeHandlers_write_own_job {as : List Action} {w : Nat}
    (hg : Transition.Along FindsOwnJob step init as)
    (hs : exec step init as = some s) (h : step s a = some s')
    (ha : a.handler = some w) (hne : s'.get name ≠ s.get name) :
    ∃ d job job', (s.workers w).delivery = some d ∧ d.job.name = name ∧ s.get name = some job ∧
      s'.get name = some job' ∧ job'.uid = job.uid ∧ job.uid = d.job.uid := by
  have hinv : Held s ∧ OwnCopies s := by
    refine exec_invariant_along (I := fun t => Held t ∧ OwnCopies t)
      (fun t b t' ht hgb hb => ?_) ⟨held_init, fun hd _ => by cases hd⟩ hg hs
    exact ⟨held_step ht.1 hb, ownCopies_step hgb ht.2 hb⟩
  obtain ⟨hheld, hown⟩ := hinv
  have hstep := store_step hheld h name
  unfold State.get at hne ⊢
  generalize s'.stores name = store at hstep hne
  cases hstep with
  | same => exact absurd rfl hne
  | created hnone => cases ha
  | deleted => cases ha
  | patched hentry hle => cases ha
  | @written _ _ copy status hcopy hw hle =>
    cases hw with
    | reconciled hp => cases ha
    | @marked _ w' d _ _ next hm =>
      -- the worker that writes is the one that runs the handler
      have hsame : w' = w := Option.some.inj (hm.handler.symm.trans ha)
      subst hsame
      obtain ⟨hd, hc⟩ := hm.copy_eq
      exact ⟨d, copy, _, hd, rfl, hcopy, rfl, rfl, hown hd hc⟩

/-- The handler has read the scheduled job and is about to mark it. -/
def generateFetched : List Action :=
  scheduleJob ++ [Action.deliver 0 1, .generateGet 0, .generateNode 0, .generateMarkGet 0]

theorem nodeHandlers_write_own_job_generateMark :
    ∃ s s', exec step init generateFetched = some s ∧
      step s (.generateMark 0) = some s' ∧ s'.get "scan" ≠ s.get "scan" ∧
      ∃ d job job', (s.workers 0).delivery = some d ∧ d.job.name = "scan" ∧
        s.get "scan" = some job ∧ s'.get "scan" = some job' ∧ job'.uid = job.uid ∧
        job.uid = d.job.uid :=
  ⟨_, _, rfl, rfl, by decide,
    @nodeHandlers_write_own_job _ _ (.generateMark 0) "scan" generateFetched 0 (by decide) rfl rfl
      rfl (by decide)⟩

/-! ## A job that is created again -/

/-- The job is replaced before its first message is delivered. -/
def recreatedBeforeDelivery : List Action :=
  scheduleJob ++ [Action.deleteNodeScanJob "scan", .createNodeScanJob "scan" "node-1",
    .deliver 0 1, .generateGet 0, .generateNode 0, .generateMarkGet 0]

theorem recreated_job_marked :
    ∃ s s' d job job', exec step init recreatedBeforeDelivery = some s ∧
      step s (.generateMark 0) = some s' ∧ (s.workers 0).delivery = some d ∧
      s.get "scan" = some job ∧ s'.get "scan" = some job' ∧ job'.uid = job.uid ∧
      job.uid ≠ d.job.uid ∧ job.object.isInProgress = false ∧ job'.object.isInProgress = true :=
  ⟨_, _, _, _, _, rfl, rfl, rfl, rfl, rfl, rfl, by decide, rfl, rfl⟩

end SbomScanner.NodeScan

import SbomScanner.Jobs.Versions

/-!
# What each party knows

A handler goes through its phases in order, so the phase it is in tells which checks it has passed
and which message it is on. `Worker.Sound` and its two companions state this for every phase; none
of them depends on what the others do, so they hold throughout every run.

Of the stored jobs it follows that the four conditions never contradict each other: a finished job
is neither scheduled nor in progress (`Sound.exclusive`).
-/

open Function Transition

namespace SbomScanner.Jobs.Pipeline

variable {s s' : State} {a : Action} {job : ScanJob}

/-! ## Phases -/

def Worker.Sound : Worker → Prop
  | .catalogMarking d job =>
    d.message = .createCatalog ⟨job.name, job.uid⟩ ∧ job.jobFinished = false
  | .catalogUpdating d _ job => d.message = .createCatalog ⟨job.name, job.uid⟩
  | .catalogListing d | .catalogDiscovering d _ _ | .catalogClosing d _ | .catalogPublishing d _ =>
    ∃ ref, d.message = .createCatalog ref
  | .generateFetching d image | .generateCreating d image | .generatePublishing d image =>
    ∃ ref, d.message = .generateSBOM ref image
  | .scanFetching d sbom | .scanReporting d sbom => ∃ ref, d.message = .scanSBOM ref sbom
  | .failureUpdating d _ job => job.name = d.message.scanJob.name
  | .idle | .received _ | .handled _ | .failed _ _ => True

/-- A finished job is neither scheduled nor in progress. -/
def Exclusive (job : ScanJob) : Prop :=
  job.jobFinished = true → job.isScheduled = false ∧ job.isInProgress = false

def JobReconcile.Sound : JobReconcile → Prop
  | .idle => True
  | .initialized job status =>
    job.isPending = true ∧ (∀ type, ScanJob.is { job with status := status } type = false) ∧
      status.imagesCount = job.status.imagesCount
  | .updating job status =>
    (job.jobFinished = true → status.conditions = job.status.conditions) ∧
      Exclusive { job with status := status } ∧ status.imagesCount = job.status.imagesCount

def ReportReconcile.Sound : ReportReconcile → Prop
  | .idle => True
  | .fetched _ job | .listed _ job _ => job.isComplete = false

structure Sound (s : State) : Prop where
  workers : ∀ w, (s.workers w).Sound
  jobReconcilers : ∀ i, (s.jobReconcilers i).Sound
  reportReconcilers : ∀ r, (s.reportReconcilers r).Sound
  exclusive : ∀ {job}, job ∈ s.history → Exclusive job

/-! ## Conditions -/

section
variable {j : ScanJob} {now : Nat} {reason : Reason} {message : String}

theorem exclusive_mark {active : ConditionType} {others : Reason} {othersMessage : String} :
    Exclusive (j.mark now active reason message others othersMessage) := by
  unfold Exclusive ScanJob.jobFinished ScanJob.isComplete ScanJob.isFailed ScanJob.isScheduled
    ScanJob.isInProgress
  cases active <;> simp

theorem exclusive_markScheduled : Exclusive (j.markScheduled now reason message) := exclusive_mark

theorem exclusive_markInProgress : Exclusive (j.markInProgress now reason message) := exclusive_mark

theorem exclusive_markComplete : Exclusive (j.markComplete now reason message) := exclusive_mark

theorem exclusive_markFailed : Exclusive (j.markFailed now reason message) := exclusive_mark

end

theorem exclusive_congr {job job' : ScanJob} (h : job'.status.conditions = job.status.conditions)
    (hj : Exclusive job) : Exclusive job' := by
  intro hfin
  rw [ScanJob.jobFinished_congr h] at hfin
  obtain ⟨hs, hp⟩ := hj hfin
  exact ⟨(ScanJob.is_congr h _).trans hs, (ScanJob.is_congr h _).trans hp⟩

theorem exclusive_status (current : ScanJob) (h : Exclusive job) :
    Exclusive { current with status := job.status } :=
  exclusive_congr rfl h

theorem exclusive_of_initial (h : ∀ type, job.is type = false) : Exclusive job :=
  fun _ => ⟨h _, h _⟩

theorem jobFinished_of_conditions_nil (h : job.status.conditions = []) :
    job.jobFinished = false := by
  simp [ScanJob.jobFinished, ScanJob.isComplete, ScanJob.isFailed, ScanJob.is, ScanJob.condition,
    h, findStatusCondition]

theorem exclusive_catalogStatus (now : Nat) (discovered : List String) (job current : ScanJob) :
    Exclusive { current with status := catalogStatus now discovered job } := by
  unfold catalogStatus
  split
  · exact exclusive_status current exclusive_markComplete
  · have hmark : Exclusive (job.markInProgress now .sbomGenerationInProgress
        "SBOM generation in progress") := exclusive_markInProgress
    exact exclusive_congr rfl hmark

theorem exclusive_reportStatus (now count : Nat) (hj : Exclusive job) (current : ScanJob) :
    Exclusive { current with status := reportStatus now count job } := by
  unfold reportStatus
  simp only
  split
  · exact exclusive_congr rfl hj
  · split
    · exact exclusive_status current exclusive_markComplete
    · exact exclusive_status current exclusive_markInProgress

theorem exclusive_registryStatus (now : Nat) {status : Status}
    (hinit : ∀ type, ScanJob.is { job with status := status } type = false) (r : RegistryLookup) :
    Exclusive { job with status := r.status now { job with status := status } } := by
  cases r with
  | error => exact exclusive_of_initial hinit
  | notFound registry | repositoryNotFound message | matchConditionNotFound message =>
    exact exclusive_status job exclusive_markFailed

/-! ## Moves -/

theorem createCatalog_of_fetch (hv : Versioned s) {ref : ScanJobRef} (h : s.fetch ref = some job) :
    (⟨job.name, job.uid⟩ : ScanJobRef) = ref := by
  obtain ⟨hjob, huid⟩ := fetch_eq_some h
  rw [hv.name_eq hjob, huid]

theorem Move.sound (hv : Versioned s) {w : Nat} {p q : Worker} (h : Move s w a p q)
    (hp : p.Sound) : q.Sound := by
  cases h with
  | catalogFetched hm hf hfin =>
    refine ⟨?_, hfin⟩
    rw [hm, createCatalog_of_fetch hv hf]
  | catalogListed | catalogFound | catalogDiscovered | generateFound | generateCreated
  | scanFound => exact hp
  | catalogFetchedFinal hf =>
    obtain ⟨ref, hm⟩ := hp
    rw [hm] at hf
    show _ = _
    rw [hm, createCatalog_of_fetch hv hf]
    rfl
  | catalogRefused => exact ⟨_, hp⟩
  | generateFetched hm => exact ⟨_, hm⟩
  | scanFetched hm => exact ⟨_, hm⟩
  | failureFetched hf => exact hv.name_eq hf
  | _ => trivial

theorem JobMove.sound {p q : JobReconcile} (h : JobMove s p q) (hp : p.Sound) : q.Sound := by
  cases h with
  | @fetched job hj hpending =>
    refine ⟨hpending, ?_, rfl⟩
    intro type
    exact job.is_initializeConditions s.clock type
  | @decided job status r =>
    obtain ⟨hpending, hinit, hcount⟩ := hp
    have hunfinished := ScanJob.jobFinished_of_isPending hpending
    refine ⟨fun hfin => absurd hfin (by simp [hunfinished]), ?_, ?_⟩
    · exact exclusive_registryStatus s.clock hinit r
    · cases r <;> exact hcount
  | patchFailed =>
    obtain ⟨hpending, hinit, hcount⟩ := hp
    have hunfinished := ScanJob.jobFinished_of_isPending hpending
    exact ⟨fun hfin => absurd hfin (by simp [hunfinished]), exclusive_of_initial hinit, hcount⟩
  | refused => trivial

theorem ReportMove.sound {r : Nat} {p q : ReportReconcile} {queue : List String}
    (h : ReportMove s r a p q queue) (hp : p.Sound) : q.Sound := by
  cases h with
  | fetched hl hj hu hc => exact hc
  | listed => exact hp
  | _ => trivial

/-- The reconciler goes on with what the server answered to its patch. -/
theorem sound_patched {current : ScanJob} {status : Status} {version : Nat}
    (hcurrent : Exclusive current)
    (hinit : ∀ type, ScanJob.is { job with status := status } type = false) :
    (JobReconcile.updating
      { current with hasRegistryAnnotation := true, resourceVersion := version }
      (if current.status.conditions = [] then
        { current.status with conditions := status.conditions } else current.status)).Sound := by
  by_cases hnil : current.status.conditions = []
  · rw [if_pos hnil]
    refine ⟨fun hfin => ?_, exclusive_of_initial hinit, rfl⟩
    have hunfinished : ScanJob.jobFinished { current with
        hasRegistryAnnotation := true, resourceVersion := version } = false :=
      jobFinished_of_conditions_nil hnil
    rw [hunfinished] at hfin
    cases hfin
  · rw [if_neg hnil]
    exact ⟨fun _ => rfl, exclusive_congr rfl hcurrent, rfl⟩

/-! ## Every run -/

theorem sound_init : Sound init where
  workers _ := trivial
  jobReconcilers _ := trivial
  reportReconcilers _ := trivial
  exclusive h := by cases h

section

variable (hs : Sound s)
include hs

theorem Sound.frame (hw : s'.workers = s.workers) (hj : s'.jobReconcilers = s.jobReconcilers)
    (hr : s'.reportReconcilers = s.reportReconcilers)
    (hh : ∀ {job}, job ∈ s'.history → job ∈ s.history ∨ Exclusive job) : Sound s' := by
  constructor
  · rw [hw]
    exact hs.workers
  · rw [hj]
    exact hs.jobReconcilers
  · rw [hr]
    exact hs.reportReconcilers
  · intro job hmem
    rcases hh hmem with hold | hnew
    · exact hs.exclusive hold
    · exact hnew

theorem Sound.store (hj : Exclusive job) : Sound (s.store job) := by
  refine hs.frame rfl rfl rfl fun hmem => ?_
  rcases List.mem_cons.mp hmem with rfl | hold
  · exact .inr (exclusive_congr rfl hj)
  · exact .inl hold

theorem Sound.setWorker {w : Nat} {p : Worker} (hp : p.Sound) :
    Sound (s.setWorker w p) where
  workers := (forall_update_iff s.workers fun _ => Worker.Sound).mpr ⟨hp, fun w' _ => hs.workers w'⟩
  jobReconcilers := hs.jobReconcilers
  reportReconcilers := hs.reportReconcilers
  exclusive := hs.exclusive

theorem Sound.setJobReconciler {i : Nat} {p : JobReconcile} (hp : p.Sound) :
    Sound (s.setJobReconciler i p) where
  workers := hs.workers
  jobReconcilers := (forall_update_iff s.jobReconcilers fun _ => JobReconcile.Sound).mpr
    ⟨hp, fun i' _ => hs.jobReconcilers i'⟩
  reportReconcilers := hs.reportReconcilers
  exclusive := hs.exclusive

theorem Sound.setReportReconciler {r : Nat} {p : ReportReconcile} (hp : p.Sound) :
    Sound (s.setReportReconciler r p) where
  workers := hs.workers
  jobReconcilers := hs.jobReconcilers
  reportReconcilers :=
    (forall_update_iff s.reportReconcilers fun _ => ReportReconcile.Sound).mpr
      ⟨hp, fun r' _ => hs.reportReconcilers r'⟩
  exclusive := hs.exclusive

/-- The phase that a party is in. -/
theorem Sound.of_worker {w : Nat} {p : Worker} (hw : s.workers w = p) : p.Sound :=
  hw ▸ hs.workers w

theorem Sound.of_jobReconciler {i : Nat} {p : JobReconcile} (hp : s.jobReconcilers i = p) :
    p.Sound :=
  hp ▸ hs.jobReconcilers i

end

theorem sound_step (hv : Versioned s) (hs : Sound s) (h : step s a = some s') : Sound s' := by
  cases step_effect h with
  | environment | deleted | reportDeleted => exact hs.frame rfl rfl rfl .inl
  | restarted => exact ⟨hs.workers, fun _ => trivial, fun _ => trivial, hs.exclusive⟩
  | @created name hn =>
    have hnew : Exclusive ⟨name, s.nextUid, 0, 1, false, {}⟩ := exclusive_of_initial fun _ => rfl
    exact (hs.store hnew).frame rfl rfl rfl .inl
  | @moved _ w p _ _ hm =>
    apply Sound.setWorker
    · exact hs.frame rfl rfl rfl .inl
    · exact hm.sound hv (hs.workers w)
  | delivered | acked | reported =>
    apply Sound.setWorker
    · exact hs.frame rfl rfl rfl .inl
    · trivial
  | catalogSent hw hp =>
    obtain ⟨bus, rfl⟩ := publish_frame hp
    have hphase := hs.of_worker hw
    apply Sound.setWorker
    · exact hs.frame rfl rfl rfl .inl
    · exact hphase
  | generateSent hw hp =>
    obtain ⟨bus, rfl⟩ := publish_frame hp
    apply Sound.setWorker
    · exact hs.frame rfl rfl rfl .inl
    · trivial
  | @catalogMarked w d job current hw hc =>
    apply Sound.setWorker
    · exact hs.store (exclusive_status current exclusive_markInProgress)
    · exact ⟨_, (hs.of_worker hw).1⟩
  | @catalogWritten w d discovered job current hw hc recorded =>
    have hphase := hs.of_worker hw
    have hstore := hs.store (exclusive_catalogStatus s.clock discovered job current)
    apply Sound.setWorker
    · exact hstore.frame rfl rfl rfl .inl
    · exact ⟨_, hphase⟩
  | @failureWritten w d err job current hw hc recorded =>
    have hmark : Exclusive (job.markFailed s.clock .internalError err) := exclusive_markFailed
    have hstore := hs.store (exclusive_status current hmark)
    apply Sound.setWorker
    · exact hstore.frame rfl rfl rfl .inl
    · trivial
  | @jobMoved _ i p hm => exact hs.setJobReconciler (hm.sound (hs.jobReconcilers i))
  | jobPatched hp hc =>
    have hphase := hs.of_jobReconciler hp
    have hcurrent := hs.exclusive (hv.mem_history hc)
    apply Sound.setJobReconciler
    · exact hs.store (exclusive_congr rfl hcurrent)
    · exact sound_patched hcurrent hphase.2.1
  | @jobSent i _ job status sent hp hpub =>
    obtain ⟨bus, rfl⟩ := publish_frame hpub
    have hphase := hs.of_jobReconciler hp
    have hunfinished := ScanJob.jobFinished_of_isPending hphase.1
    apply Sound.setJobReconciler
    · exact hs.frame rfl rfl rfl .inl
    · refine ⟨fun hfin => absurd hfin (by simp [hunfinished]), ?_, hphase.2.2⟩
      exact exclusive_status job exclusive_markScheduled
  | @jobWritten i job current status hp hc recorded =>
    have hphase := hs.of_jobReconciler hp
    have hstore := hs.store (exclusive_status current hphase.2.1)
    apply Sound.setJobReconciler
    · exact hstore.frame rfl rfl rfl .inl
    · trivial
  | @reportMoved _ r p queue hm =>
    apply Sound.setReportReconciler
    · exact hs.frame rfl rfl rfl .inl
    · exact hm.sound (hs.reportReconcilers r)
  | @reportWritten r report job current reports hp hc recorded =>
    have hjob := hs.exclusive (hv.held (.inr (.inr ⟨r, by rw [hp]; rfl⟩)))
    have hstore := hs.store (exclusive_reportStatus s.clock reports.length hjob current)
    apply Sound.setReportReconciler
    · exact hstore.frame rfl rfl rfl .inl
    · trivial

/-- What holds in every run, whatever is done in which order. -/
structure Consistent (s : State) : Prop where
  versioned : Versioned s
  sound : Sound s

theorem consistent_init : Consistent init := ⟨versioned_init, sound_init⟩

theorem consistent_step (hc : Consistent s) (h : step s a = some s') : Consistent s' :=
  ⟨versioned_step hc.versioned h, sound_step hc.versioned hc.sound h⟩

theorem consistent_exec {as : List Action} (h : exec step init as = some s) :
    Consistent s :=
  exec_invariant (fun _ _ _ => consistent_step) consistent_init h

/-! ## What the writers of a status keep -/

theorem isFailed_of_finished (hfin : job.jobFinished = true) (hc : job.isComplete = false) :
    job.isFailed = true := by
  simpa [ScanJob.jobFinished, hc] using hfin

theorem conditions_reportStatus {now count : Nat} (h : job.isFailed = true) :
    (reportStatus now count job).conditions = job.status.conditions := by
  have hfailed : ScanJob.isFailed { job with status.scannedImagesCount := count } = true := h
  simp only [reportStatus, hfailed, if_true]

/-- Only the failure handler changes the conditions of a finished job. -/
theorem StatusWrite.conditions_of_finished (hs : Sound s) {status : Status}
    (hw : StatusWrite s job a status) (hfin : job.jobFinished = true) :
    status.conditions = job.status.conditions ∨
      ∃ w d err, a = .failureUpdate w ∧ s.workers w = .failureUpdating d err job := by
  cases hw with
  | @reconciled i _ hp =>
    have hphase := hs.of_jobReconciler hp
    exact .inl (hphase.1 hfin)
  | @catalogMarked w d hw =>
    have hunfinished := (hs.of_worker hw).2
    rw [hfin] at hunfinished
    cases hunfinished
  | failed hw => exact .inr ⟨_, _, _, rfl, hw⟩
  | @counted r report reports hp =>
    have hphase := hs.reportReconcilers r
    rw [hp] at hphase
    exact .inl (conditions_reportStatus (isFailed_of_finished hfin hphase))

/-- A finished job stays finished, unless a catalog is closed. -/
theorem StatusWrite.jobFinished (hs : Sound s) {status : Status} (hw : StatusWrite s job a status)
    (hfin : job.jobFinished = true) :
    ScanJob.jobFinished { job with status := status } = true := by
  rcases hw.conditions_of_finished hs hfin with hc | ⟨w, d, err, rfl, -⟩
  · exact (ScanJob.jobFinished_congr hc).trans hfin
  · cases hw with
    | failed hw => exact ScanJob.jobFinished_mark ..

theorem imagesCount_reportStatus {now count : Nat} :
    (reportStatus now count job).imagesCount = job.status.imagesCount := by
  unfold reportStatus
  simp only
  split
  · rfl
  · split
    · exact ScanJob.imagesCount_mark ..
    · exact ScanJob.imagesCount_mark ..

theorem StatusWrite.imagesCount (hs : Sound s) {status : Status} (hw : StatusWrite s job a status) :
    status.imagesCount = job.status.imagesCount := by
  cases hw with
  | @reconciled i _ hp =>
    have hphase := hs.of_jobReconciler hp
    exact hphase.2.2
  | catalogMarked hw | failed hw => exact ScanJob.imagesCount_mark ..
  | counted hp => exact imagesCount_reportStatus

end SbomScanner.Jobs.Pipeline

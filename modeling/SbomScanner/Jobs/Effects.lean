import SbomScanner.Jobs.Pipeline

/-!
# What a step of the pipeline does

The step function is taken apart here, once. `step_effect` lists what each action changes; the
moves of a party that touch nobody else are collected in `Move`, `JobMove` and `ReportMove`.
-/

open Option

namespace SbomScanner.Jobs.Pipeline

variable {s s' : State} {a : Action}

/-! ## Inversion of a step -/

inductive Move (s : State) (w : Nat) : Action → Worker → Worker → Prop where
  | crash {p : Worker} : Move s w (.crash w) p .idle
  | nak {d : Delivery} {err : String} : Move s w (.nak w) (.failed d err) .idle
  | error {err : String} {p : Worker} {d : Delivery} (hd : p.delivery = some d) :
      Move s w (.handlerError w err) p (.failed d err)
  | catalogSkipped {d : Delivery} {ref : ScanJobRef}
      (hm : d.message = .createCatalog ref)
      (h : ∀ job, s.fetch ref = some job → job.jobFinished = true) :
      Move s w (.catalogGet w) (.received d) (.handled d)
  | catalogFetched {d : Delivery} {ref : ScanJobRef} {job : ScanJob}
      (hm : d.message = .createCatalog ref) (hf : s.fetch ref = some job)
      (h : job.jobFinished = false) :
      Move s w (.catalogGet w) (.received d) (.catalogMarking d job)
  | catalogMarkRefused {d : Delivery} {job : ScanJob} :
      Move s w (.catalogMark w) (.catalogMarking d job) (.received d)
  | catalogListed {d : Delivery} :
      Move s w (.catalogList w) (.catalogListing d) (.catalogDiscovering d s.images [])
  | catalogFound {image : String} {d : Delivery} {existing discovered : List String} :
      Move s w (.catalogImage w image) (.catalogDiscovering d existing discovered)
        (.catalogDiscovering d existing (discovered ++ [image]))
  | catalogStopped {image : String} {d : Delivery} {existing discovered : List String}
      (h : s.fetch d.message.scanJob = none) :
      Move s w (.catalogImage w image) (.catalogDiscovering d existing discovered) (.handled d)
  | catalogDiscovered {d : Delivery} {existing discovered : List String} :
      Move s w (.catalogDiscovered w) (.catalogDiscovering d existing discovered)
        (.catalogClosing d discovered)
  | catalogFetchedFinal {d : Delivery} {discovered : List String} {job : ScanJob}
      (hf : s.fetch d.message.scanJob = some job) :
      Move s w (.catalogGetFinal w) (.catalogClosing d discovered)
        (.catalogUpdating d discovered job)
  | catalogGone {d : Delivery} {discovered : List String}
      (h : s.fetch d.message.scanJob = none) :
      Move s w (.catalogGetFinal w) (.catalogClosing d discovered) (.handled d)
  | catalogRefused {d : Delivery} {discovered : List String} {job : ScanJob} :
      Move s w (.catalogUpdate w) (.catalogUpdating d discovered job) (.catalogClosing d discovered)
  | catalogPublished {dropped : Bool} {d : Delivery} :
      Move s w (.catalogPublish w dropped) (.catalogPublishing d []) (.handled d)
  | generateSkipped {d : Delivery} {ref : ScanJobRef} {image : String}
      (hm : d.message = .generateSBOM ref image)
      (h : ∀ job, s.fetch ref = some job → job.isFailed = true) :
      Move s w (.generateGet w) (.received d) (.handled d)
  | generateFetched {d : Delivery} {ref : ScanJobRef} {image : String}
      (hm : d.message = .generateSBOM ref image) :
      Move s w (.generateGet w) (.received d) (.generateFetching d image)
  | generateFound {d : Delivery} {image : String} :
      Move s w (.generateImage w) (.generateFetching d image) (.generateCreating d image)
  | generateMissing {d : Delivery} {image : String} (h : image ∉ s.images) :
      Move s w (.generateImage w) (.generateFetching d image) (.handled d)
  | generateCreated {d : Delivery} {image : String} :
      Move s w (.generateCreate w) (.generateCreating d image) (.generatePublishing d image)
  | scanSkipped {d : Delivery} {ref : ScanJobRef} {sbom : String}
      (hm : d.message = .scanSBOM ref sbom)
      (h : ∀ job, s.fetch ref = some job → job.isFailed = true) :
      Move s w (.scanGet w) (.received d) (.handled d)
  | scanFetched {d : Delivery} {ref : ScanJobRef} {sbom : String}
      (hm : d.message = .scanSBOM ref sbom) :
      Move s w (.scanGet w) (.received d) (.scanFetching d sbom)
  | scanFound {d : Delivery} {sbom : String} :
      Move s w (.scanSBOM w) (.scanFetching d sbom) (.scanReporting d sbom)
  | scanMissing {d : Delivery} {sbom : String} (h : sbom ∉ s.sboms) :
      Move s w (.scanSBOM w) (.scanFetching d sbom) (.handled d)
  | failureFetched {d : Delivery} {err : String} {job : ScanJob}
      (hf : s.jobs d.message.scanJob.name = some job) :
      Move s w (.failureGet w) (.failed d err) (.failureUpdating d err job)
  | failureGone {d : Delivery} {err : String}
      (h : s.jobs d.message.scanJob.name = none) :
      Move s w (.failureGet w) (.failed d err) (.handled d)
  | failureRefused {d : Delivery} {err : String} {job : ScanJob} :
      Move s w (.failureUpdate w) (.failureUpdating d err job) (.failed d err)
  | gaveUp {p : Worker} {d : Delivery} (hd : p.delivery = some d) :
      Move s w (.failureGiveUp w) p (.handled d)

inductive JobMove (s : State) : JobReconcile → JobReconcile → Prop where
  | fetched {job : ScanJob} (hj : job ∈ s.history) (hp : job.isPending = true) :
      JobMove s .idle (.initialized job (job.initializeConditions s.clock).status)
  | decided {job : ScanJob} {status : Status} (r : RegistryLookup) :
      JobMove s (.initialized job status)
        (.updating job (r.status s.clock { job with status := status }))
  | patchFailed {job : ScanJob} {status : Status} :
      JobMove s (.initialized job status) (.updating job status)
  | refused {job : ScanJob} {status : Status} : JobMove s (.updating job status) .idle

/-- The moves of a report reconciler, with the queue they leave. -/
inductive ReportMove (s : State) (r : Nat) :
    Action → ReportReconcile → ReportReconcile → List String → Prop where
  | fetched {report : String} {version uid : Nat} {job : ScanJob}
      (hl : s.reports.lookup report = some uid) (hj : job ∈ s.history) (hu : job.uid = uid)
      (hc : job.isComplete = false) :
      ReportMove s r (.reportGet r report version) .idle (.fetched report job)
        (s.queue.filter (· ≠ report))
  | dropped {report : String} {version : Nat}
      (h : ∀ uid, s.reports.lookup report = some uid →
        s.gone uid = true ∨ ∃ job ∈ s.history, job.uid = uid ∧ job.isComplete = true) :
      ReportMove s r (.reportGet r report version) .idle .idle (s.queue.filter (· ≠ report))
  | listed {report : String} {job : ScanJob} :
      ReportMove s r (.reportList r) (.fetched report job)
        (.listed report job (s.labelled job.uid)) s.queue
  | refused {report : String} {job : ScanJob} {reports : List String} :
      ReportMove s r (.reportUpdate r) (.listed report job reports) .idle (report :: s.queue)
  | fetchedError {report : String} {job : ScanJob} :
      ReportMove s r (.reportError r) (.fetched report job) .idle (report :: s.queue)
  | listedError {report : String} {job : ScanJob} {reports : List String} :
      ReportMove s r (.reportError r) (.listed report job reports) .idle (report :: s.queue)

/-- A status update that was accepted: the stored job has the version submitted. -/
def Accepted (s : State) (job current : ScanJob) : Prop :=
  s.jobs job.name = some current ∧ current.resourceVersion = job.resourceVersion

/-- What an update makes of the metric: a job that it finishes is counted, unless the writer has
found the job finished. -/
inductive Tallied (recorded : List Nat) (found : Bool) (job : ScanJob) : List Nat → Prop where
  | unchanged : Tallied recorded found job recorded
  | counted (hfound : found = false) (hfin : job.jobFinished = true) :
      Tallied recorded found job (job.uid :: recorded)

inductive Effect (s : State) : Action → State → Prop where
  | environment {a : Action} (clock : Nat) (images sboms : List String) :
      Effect s a { s with clock := clock, images := images, sboms := sboms }
  | restarted : Effect s .restartController (restartController s)
  | created {name : String} (h : s.jobs name = none) :
      Effect s (.createScanJob name)
        { s.store ⟨name, s.nextUid, 0, 1, false, {}⟩ with nextUid := s.nextUid + 1 }
  | deleted {name : String} : Effect s (.deleteScanJob name) (deleteScanJob s name)
  | reportDeleted {report : String} : Effect s (.deleteReport report) (deleteReport s report)
  | moved {a : Action} {w : Nat} {p : Worker} (images sboms : List String)
      (h : Move s w a (s.workers w) p) :
      Effect s a ({ s with images := images, sboms := sboms }.setWorker w p)
  | delivered {w seq : Nat} {e : Delivery} (hw : s.workers w = .idle)
      (he : s.stream.find? (·.seq = seq) = some e) :
      Effect s (.deliver w seq)
        ({ s with stream := s.stream.map fun (e' : Delivery) =>
            if e'.seq = seq then { e with numDelivered := e.numDelivered + 1 } else e' }.setWorker w
          (.received { e with numDelivered := e.numDelivered + 1 }))
  | acked {w : Nat} {d : Delivery} (hw : s.workers w = .handled d) :
      Effect s (.ack w)
        ({ s with stream := s.stream.filter fun (e : Delivery) => e.seq ≠ d.seq }.setWorker w .idle)
  | catalogSent {w : Nat} {dropped : Bool} {d : Delivery} {image : String}
      {remaining : List String} {sent : State}
      (hw : s.workers w = .catalogPublishing d (image :: remaining))
      (hs : s.publish (.generateSBOM d.message.scanJob image) dropped = some sent) :
      Effect s (.catalogPublish w dropped) (sent.setWorker w (.catalogPublishing d remaining))
  | generateSent {w : Nat} {dropped : Bool} {d : Delivery} {image : String} {sent : State}
      (hw : s.workers w = .generatePublishing d image)
      (hs : s.publish (.scanSBOM d.message.scanJob image) dropped = some sent) :
      Effect s (.generatePublish w dropped) (sent.setWorker w (.handled d))
  | reported {w : Nat} {d : Delivery} {sbom : String} (hw : s.workers w = .scanReporting d sbom) :
      Effect s (.scanReport w)
        ({ s with
          reports := s.reports.insert sbom d.message.scanJob.uid
          queue := sbom :: s.queue }.setWorker w (.handled d))
  | catalogMarked {w : Nat} {d : Delivery} {job current : ScanJob}
      (hw : s.workers w = .catalogMarking d job) (hc : Accepted s job current) :
      Effect s (.catalogMark w)
        ((s.store { current with status := (job.markInProgress s.clock .catalogCreationInProgress
          "Catalog creation in progress").status }).setWorker w (.catalogListing d))
  | catalogWritten {w : Nat} {d : Delivery} {discovered : List String} {job current : ScanJob}
      (hw : s.workers w = .catalogUpdating d discovered job) (hc : Accepted s job current)
      (recorded : List Nat) (hr : Tallied s.recorded job.jobFinished
        { job with status := catalogStatus s.clock discovered job } recorded) :
      Effect s (.catalogUpdate w)
        ({ s.store { current with status := catalogStatus s.clock discovered job } with
          recorded := recorded
          catalog := Function.update s.catalog job.uid (some discovered) }.setWorker w
          (.catalogPublishing d discovered))
  | failureWritten {w : Nat} {d : Delivery} {err : String} {job current : ScanJob}
      (hw : s.workers w = .failureUpdating d err job) (hc : Accepted s job current)
      (recorded : List Nat) (hr : Tallied s.recorded job.jobFinished
        { job with status := (job.markFailed s.clock .internalError err).status } recorded) :
      Effect s (.failureUpdate w)
        ({ s.store { current with
            status := (job.markFailed s.clock .internalError err).status } with
          recorded := recorded }.setWorker w (.handled d))
  | jobMoved {a : Action} {i : Nat} {p : JobReconcile} (h : JobMove s (s.jobReconcilers i) p) :
      Effect s a (s.setJobReconciler i p)
  | jobPatched {i : Nat} {job current : ScanJob} {status : Status}
      (hp : s.jobReconcilers i = .initialized job status) (hc : s.jobs job.name = some current) :
      Effect s (.jobPatch i)
        ((s.store { current with
            hasRegistryAnnotation := true, resourceVersion := s.nextVersion }).setJobReconciler i
          (.updating { current with
              hasRegistryAnnotation := true, resourceVersion := s.nextVersion }
            (if current.status.conditions = [] then
              { current.status with conditions := status.conditions } else current.status)))
  | jobSent {i : Nat} {dropped : Bool} {job : ScanJob} {status : Status} {sent : State}
      (hp : s.jobReconcilers i = .initialized job status)
      (hs : s.publish (.createCatalog ⟨job.name, job.uid⟩) dropped = some sent) :
      Effect s (.jobPublish i dropped)
        (sent.setJobReconciler i (.updating job
          (ScanJob.markScheduled { job with status := status } s.clock .scheduled
            "ScanJob has been scheduled for processing by the controller").status))
  | jobWritten {i : Nat} {job current : ScanJob} {status : Status}
      (hp : s.jobReconcilers i = .updating job status) (hc : Accepted s job current)
      (recorded : List Nat)
      (hr : Tallied s.recorded false { job with status := status } recorded) :
      Effect s (.jobUpdate i)
        ({ s.store { current with status := status } with
          recorded := recorded }.setJobReconciler i .idle)
  | reportMoved {a : Action} {r : Nat} {p : ReportReconcile} {queue : List String}
      (h : ReportMove s r a (s.reportReconcilers r) p queue) :
      Effect s a ({ s with queue := queue }.setReportReconciler r p)
  | reportWritten {r : Nat} {report : String} {job current : ScanJob} {reports : List String}
      (hp : s.reportReconcilers r = .listed report job reports) (hc : Accepted s job current)
      (recorded : List Nat) (hr : Tallied s.recorded job.isFailed
        { job with status := reportStatus s.clock reports.length job } recorded) :
      Effect s (.reportUpdate r)
        ({ s.store { current with status := reportStatus s.clock reports.length job } with
          recorded := recorded }.setReportReconciler r .idle)

theorem updateStatus_eq_some {job : ScanJob} {status : Status}
    (h : s.updateStatus job status = some s') :
    ∃ current, Accepted s job current ∧ s' = s.store { current with status := status } := by
  unfold State.updateStatus at h
  split at h
  · next current hc =>
    split at h
    · next hv => exact ⟨current, ⟨hc, hv⟩, (Option.some.inj h).symm⟩
    · cases h
  · cases h

/-- The metric is the only thing recording touches. -/
theorem recordScanJobFinished_eq (s : State) (b : Bool) (job : ScanJob) :
    ∃ recorded, (if b then s else s.recordScanJobFinished job) =
      { s with recorded := recorded } ∧ Tallied s.recorded b job recorded := by
  unfold State.recordScanJobFinished
  split
  · exact ⟨s.recorded, rfl, .unchanged⟩
  · next hfound =>
    split
    · next hfin => exact ⟨_, rfl, .counted (Bool.eq_false_iff.mpr hfound) hfin⟩
    · exact ⟨s.recorded, rfl, .unchanged⟩

variable {w : Nat}

theorem moved_of_setWorker {p q : Worker} (hw : s.workers w = p)
    (h : some (s.setWorker w q) = some s') (hm : Move s w a p q) : Effect s a s' := by
  cases h
  subst hw
  exact .moved s.images s.sboms hm

variable {i : Nat}

theorem jobMoved_of_set {p q : JobReconcile} (hi : s.jobReconcilers i = p)
    (h : some (s.setJobReconciler i q) = some s') (hm : JobMove s p q) : Effect s a s' := by
  cases h
  subst hi
  exact .jobMoved hm

variable {r : Nat}

theorem reportMoved_of_set {p q : ReportReconcile} {queue : List String}
    (hr : s.reportReconcilers r = p)
    (h : some ({ s with queue := queue }.setReportReconciler r q) = some s')
    (hm : ReportMove s r a p q queue) : Effect s a s' := by
  cases h
  subst hr
  exact .reportMoved hm

variable {version : Nat}

theorem mem_of_cached {uid : Nat} {job : ScanJob} (h : s.cached uid version = some job) :
    job ∈ s.history ∧ job.uid = uid := by
  have hp := List.find?_some h
  simp only [decide_eq_true_eq] at hp
  exact ⟨List.mem_of_find?_eq_some h, hp.1⟩

theorem jobGet_effect {uid : Nat} (h : jobGet s i uid version = some s') :
    Effect s (.jobGet i uid version) s' := by
  unfold jobGet at h
  split at h
  · next job hi hc =>
    split at h
    · next hp => exact jobMoved_of_set hi h (.fetched (mem_of_cached hc).1 hp)
    · cases h
  · cases h

theorem jobRegistry_effect {r : RegistryLookup} (h : jobRegistry s i r = some s') :
    Effect s (.jobRegistry i r) s' := by
  unfold jobRegistry at h
  split at h
  · next job status hi => exact jobMoved_of_set hi h (.decided r)
  · cases h

theorem jobPatch_effect (h : jobPatch s i = some s') : Effect s (.jobPatch i) s' := by
  unfold jobPatch at h
  split at h
  · next job status hi =>
    split at h
    · cases h
    · split at h
      · next current hc =>
        cases h
        exact .jobPatched hi hc
      · exact jobMoved_of_set hi h .patchFailed
  · cases h

variable {dropped : Bool}

theorem jobPublish_effect (h : jobPublish s i dropped = some s') :
    Effect s (.jobPublish i dropped) s' := by
  unfold jobPublish at h
  split at h
  · next job status hi =>
    split at h
    · obtain ⟨sent, hs, rfl⟩ := map_eq_some_iff.mp h
      exact .jobSent hi hs
    · cases h
  · cases h

theorem jobUpdate_effect (h : jobUpdate s i = some s') : Effect s (.jobUpdate i) s' := by
  unfold jobUpdate at h
  split at h
  · next job status hi =>
    split at h
    · next written hu =>
      obtain ⟨current, hc, rfl⟩ := updateStatus_eq_some hu
      obtain ⟨recorded, hr, htallied⟩ := recordScanJobFinished_eq
        (s.store { current with status := status }) false { job with status := status }
      simp only [Bool.false_eq_true, if_false] at hr
      rw [hr] at h
      cases h
      exact .jobWritten hi hc recorded htallied
    · exact jobMoved_of_set hi h .refused
  · cases h

theorem catalogGet_effect (h : catalogGet s w = some s') : Effect s (.catalogGet w) s' := by
  unfold catalogGet at h
  split at h
  · next seq n ref hw =>
    split at h
    · next job hf =>
      split at h
      · next hfin =>
        refine moved_of_setWorker hw h (.catalogSkipped rfl fun job' hf' => ?_)
        rw [hf] at hf'
        cases hf'
        exact hfin
      · next hfin =>
        exact moved_of_setWorker hw h (.catalogFetched rfl hf (Bool.eq_false_iff.mpr hfin))
    · next hf =>
      refine moved_of_setWorker hw h (.catalogSkipped rfl fun job' hf' => ?_)
      rw [hf] at hf'
      cases hf'
  · cases h

theorem catalogMark_effect (h : catalogMark s w = some s') : Effect s (.catalogMark w) s' := by
  unfold catalogMark at h
  split at h
  · next d job hw =>
    split at h
    · next written hu =>
      obtain ⟨current, hc, rfl⟩ := updateStatus_eq_some hu
      cases h
      exact .catalogMarked hw hc
    · exact moved_of_setWorker hw h .catalogMarkRefused
  · cases h

theorem catalogList_effect (h : catalogList s w = some s') : Effect s (.catalogList w) s' := by
  unfold catalogList at h
  split at h
  · next d hw => exact moved_of_setWorker hw h .catalogListed
  · cases h

theorem catalogImage_effect {image : String} (h : catalogImage s w image = some s') :
    Effect s (.catalogImage w image) s' := by
  unfold catalogImage at h
  split at h
  · next d existing discovered hw =>
    split at h
    · next job hf =>
      have hm : Move s w (.catalogImage w image) (s.workers w)
          (.catalogDiscovering d existing (discovered ++ [image])) := by
        rw [hw]
        exact .catalogFound
      cases h
      split
      · exact .moved s.images s.sboms hm
      · exact .moved (image :: s.images) s.sboms hm
    · next hf => exact moved_of_setWorker hw h (.catalogStopped hf)
  · cases h

theorem catalogDiscovered_effect (h : catalogDiscovered s w = some s') :
    Effect s (.catalogDiscovered w) s' := by
  unfold catalogDiscovered at h
  split at h
  · next d existing discovered hw => exact moved_of_setWorker hw h .catalogDiscovered
  · cases h

theorem catalogGetFinal_effect (h : catalogGetFinal s w = some s') :
    Effect s (.catalogGetFinal w) s' := by
  unfold catalogGetFinal at h
  split at h
  · next d discovered hw =>
    split at h
    · next job hf => exact moved_of_setWorker hw h (.catalogFetchedFinal hf)
    · next hf => exact moved_of_setWorker hw h (.catalogGone hf)
  · cases h

theorem catalogUpdate_effect (h : catalogUpdate s w = some s') :
    Effect s (.catalogUpdate w) s' := by
  unfold catalogUpdate at h
  split at h
  · next d discovered job hw =>
    simp only at h
    split at h
    · next written hu =>
      obtain ⟨current, hc, rfl⟩ := updateStatus_eq_some hu
      obtain ⟨recorded, hr, htallied⟩ := recordScanJobFinished_eq
        (s.store { current with status := catalogStatus s.clock discovered job })
        job.jobFinished { job with status := catalogStatus s.clock discovered job }
      rw [hr] at h
      cases h
      exact .catalogWritten hw hc recorded htallied
    · exact moved_of_setWorker hw h .catalogRefused
  · cases h

theorem catalogPublish_effect (h : catalogPublish s w dropped = some s') :
    Effect s (.catalogPublish w dropped) s' := by
  unfold catalogPublish at h
  split at h
  · next d image remaining hw =>
    obtain ⟨sent, hs, rfl⟩ := map_eq_some_iff.mp h
    exact .catalogSent hw hs
  · next d hw => exact moved_of_setWorker hw h .catalogPublished
  · cases h

theorem generateGet_effect (h : generateGet s w = some s') : Effect s (.generateGet w) s' := by
  unfold generateGet at h
  split at h
  · next seq n ref image hw =>
    split at h
    · next job hf =>
      split at h
      · next hfail =>
        refine moved_of_setWorker hw h (.generateSkipped rfl fun job' hf' => ?_)
        rw [hf] at hf'
        cases hf'
        exact hfail
      · exact moved_of_setWorker hw h (.generateFetched rfl)
    · next hf =>
      refine moved_of_setWorker hw h (.generateSkipped rfl fun job' hf' => ?_)
      rw [hf] at hf'
      cases hf'
  · cases h

theorem generateImage_effect (h : generateImage s w = some s') :
    Effect s (.generateImage w) s' := by
  unfold generateImage at h
  split at h
  · next d image hw =>
    split at h
    · exact moved_of_setWorker hw h .generateFound
    · next hmem => exact moved_of_setWorker hw h (.generateMissing hmem)
  · cases h

theorem generateCreate_effect (h : generateCreate s w = some s') :
    Effect s (.generateCreate w) s' := by
  unfold generateCreate at h
  split at h
  · next d image hw =>
    have hm : Move s w (.generateCreate w) (s.workers w) (.generatePublishing d image) := by
      rw [hw]
      exact .generateCreated
    cases h
    exact .moved s.images (image :: s.sboms) hm
  · cases h

theorem generatePublish_effect (h : generatePublish s w dropped = some s') :
    Effect s (.generatePublish w dropped) s' := by
  unfold generatePublish at h
  split at h
  · next d image hw =>
    obtain ⟨sent, hs, rfl⟩ := map_eq_some_iff.mp h
    exact .generateSent hw hs
  · cases h

theorem scanGet_effect (h : scanGet s w = some s') : Effect s (.scanGet w) s' := by
  unfold scanGet at h
  split at h
  · next seq n ref sbom hw =>
    split at h
    · next job hf =>
      split at h
      · next hfail =>
        refine moved_of_setWorker hw h (.scanSkipped rfl fun job' hf' => ?_)
        rw [hf] at hf'
        cases hf'
        exact hfail
      · exact moved_of_setWorker hw h (.scanFetched rfl)
    · next hf =>
      refine moved_of_setWorker hw h (.scanSkipped rfl fun job' hf' => ?_)
      rw [hf] at hf'
      cases hf'
  · cases h

theorem scanSBOM_effect (h : scanSBOM s w = some s') : Effect s (.scanSBOM w) s' := by
  unfold scanSBOM at h
  split at h
  · next d sbom hw =>
    split at h
    · exact moved_of_setWorker hw h .scanFound
    · next hmem => exact moved_of_setWorker hw h (.scanMissing hmem)
  · cases h

theorem scanReport_effect (h : scanReport s w = some s') : Effect s (.scanReport w) s' := by
  unfold scanReport at h
  split at h
  · next d sbom hw =>
    cases h
    exact .reported hw
  · cases h

theorem deliver_effect {seq : Nat} (h : deliver s w seq = some s') :
    Effect s (.deliver w seq) s' := by
  unfold deliver at h
  split at h
  · next e hw he =>
    cases h
    exact .delivered hw he
  · cases h

theorem handlerError_effect {err : String} (h : handlerError s w err = some s') :
    Effect s (.handlerError w err) s' := by
  unfold handlerError at h
  split at h
  any_goals cases h
  obtain ⟨d, hd, rfl⟩ := map_eq_some_iff.mp h
  exact .moved s.images s.sboms (.error hd)

theorem ack_effect (h : ack s w = some s') : Effect s (.ack w) s' := by
  unfold ack at h
  split at h
  · next d hw =>
    cases h
    exact .acked hw
  · cases h

theorem nak_effect (h : nak s w = some s') : Effect s (.nak w) s' := by
  unfold nak at h
  split at h
  · next d err hw =>
    split at h
    · exact moved_of_setWorker hw h .nak
    · cases h
  · cases h

theorem failureGet_effect (h : failureGet s w = some s') : Effect s (.failureGet w) s' := by
  unfold failureGet at h
  split at h
  · next d err hw =>
    split at h
    · cases h
    · split at h
      · next job hf => exact moved_of_setWorker hw h (.failureFetched hf)
      · next hf => exact moved_of_setWorker hw h (.failureGone hf)
  · cases h

theorem failureUpdate_effect (h : failureUpdate s w = some s') :
    Effect s (.failureUpdate w) s' := by
  unfold failureUpdate at h
  split at h
  · next d err job hw =>
    simp only at h
    split at h
    · next written hu =>
      obtain ⟨current, hc, rfl⟩ := updateStatus_eq_some hu
      obtain ⟨recorded, hr, htallied⟩ := recordScanJobFinished_eq
        (s.store { current with
          status := (job.markFailed s.clock .internalError err).status })
        job.jobFinished { job with
          status := (job.markFailed s.clock .internalError err).status }
      rw [hr] at h
      cases h
      exact .failureWritten hw hc recorded htallied
    · exact moved_of_setWorker hw h .failureRefused
  · cases h

theorem failureGiveUp_effect (h : failureGiveUp s w = some s') :
    Effect s (.failureGiveUp w) s' := by
  unfold failureGiveUp at h
  split at h
  · next d err hw =>
    split at h
    · cases h
    · exact moved_of_setWorker hw h (.gaveUp rfl)
  · next d err job hw => exact moved_of_setWorker hw h (.gaveUp rfl)
  · cases h

theorem reportGet_effect {report : String} (h : reportGet s r report version = some s') :
    Effect s (.reportGet r report version) s' := by
  unfold reportGet at h
  split at h
  · next hr =>
    split at h
    · -- a dropped request leaves the reconciler idle, as it was
      have hdrop : ∀ {t : State}, some { s with queue := s.queue.filter (· ≠ report) } = some t →
          (∀ uid, s.reports.lookup report = some uid →
            s.gone uid = true ∨ ∃ job ∈ s.history, job.uid = uid ∧ job.isComplete = true) →
          Effect s (.reportGet r report version) t := by
        intro t ht hwhy
        have hidle : { s with queue := s.queue.filter (· ≠ report) } =
            { s with queue := s.queue.filter (· ≠ report) }.setReportReconciler r .idle := by
          unfold State.setReportReconciler
          rw [← hr, Function.update_eq_self]
        rw [hidle] at ht
        exact reportMoved_of_set hr ht (.dropped hwhy)
      simp only at h
      split at h
      · next uid hl =>
        split at h
        · next job hc =>
          obtain ⟨hj, hu⟩ := mem_of_cached hc
          split at h
          · next hcomplete =>
            refine hdrop h fun uid' hl' => .inr ⟨job, hj, ?_, hcomplete⟩
            rw [hl] at hl'
            cases hl'
            exact hu
          · next hcomplete =>
            exact reportMoved_of_set hr h (.fetched hl hj hu (Bool.eq_false_iff.mpr hcomplete))
        · split at h
          · next hgone =>
            refine hdrop h fun uid' hl' => .inl ?_
            rw [hl] at hl'
            cases hl'
            exact hgone
          · cases h
      · next hl =>
        refine hdrop h fun uid' hl' => ?_
        rw [hl] at hl'
        cases hl'
    · cases h
  · cases h

theorem reportList_effect (h : reportList s r = some s') : Effect s (.reportList r) s' := by
  unfold reportList at h
  split at h
  · next report job hr => exact reportMoved_of_set hr h .listed
  · cases h

theorem reportUpdate_effect (h : reportUpdate s r = some s') : Effect s (.reportUpdate r) s' := by
  unfold reportUpdate at h
  split at h
  · next report job reports hr =>
    simp only at h
    split at h
    · next written hu =>
      obtain ⟨current, hc, rfl⟩ := updateStatus_eq_some hu
      obtain ⟨recorded, hrec, htallied⟩ := recordScanJobFinished_eq
        (s.store { current with status := reportStatus s.clock reports.length job })
        job.isFailed { job with status := reportStatus s.clock reports.length job }
      rw [hrec] at h
      cases h
      exact .reportWritten hr hc recorded htallied
    · exact reportMoved_of_set hr h .refused
  · cases h

theorem reportError_effect (h : reportError s r = some s') : Effect s (.reportError r) s' := by
  unfold reportError at h
  split at h
  · next report job hr => exact reportMoved_of_set hr h .fetchedError
  · next report job reports hr => exact reportMoved_of_set hr h .listedError
  · cases h

/-- **Inversion of a step.** -/
theorem step_effect (h : step s a = some s') : Effect s a s' := by
  cases a with
  | tick =>
    cases h
    exact .environment (s.clock + 1) s.images s.sboms
  | restartController =>
    cases h
    exact .restarted
  | createScanJob name =>
    simp only [step, createScanJob] at h
    split at h
    · next hn =>
      cases h
      exact .created hn
    · cases h
  | deleteScanJob name =>
    cases h
    exact .deleted
  | deleteImage image =>
    cases h
    exact .environment s.clock _ s.sboms
  | deleteSBOM sbom =>
    cases h
    exact .environment s.clock s.images _
  | deleteReport report =>
    cases h
    exact .reportDeleted
  | jobGet i uid version => exact jobGet_effect h
  | jobRegistry i r => exact jobRegistry_effect h
  | jobPatch i => exact jobPatch_effect h
  | jobPublish i dropped => exact jobPublish_effect h
  | jobUpdate i => exact jobUpdate_effect h
  | deliver w seq => exact deliver_effect h
  | handlerError w err => exact handlerError_effect h
  | crash w =>
    cases h
    exact .moved s.images s.sboms .crash
  | ack w => exact ack_effect h
  | nak w => exact nak_effect h
  | failureGet w => exact failureGet_effect h
  | failureUpdate w => exact failureUpdate_effect h
  | failureGiveUp w => exact failureGiveUp_effect h
  | catalogGet w => exact catalogGet_effect h
  | catalogMark w => exact catalogMark_effect h
  | catalogList w => exact catalogList_effect h
  | catalogImage w image => exact catalogImage_effect h
  | catalogDiscovered w => exact catalogDiscovered_effect h
  | catalogGetFinal w => exact catalogGetFinal_effect h
  | catalogUpdate w => exact catalogUpdate_effect h
  | catalogPublish w dropped => exact catalogPublish_effect h
  | generateGet w => exact generateGet_effect h
  | generateImage w => exact generateImage_effect h
  | generateCreate w => exact generateCreate_effect h
  | generatePublish w dropped => exact generatePublish_effect h
  | scanGet w => exact scanGet_effect h
  | scanSBOM w => exact scanSBOM_effect h
  | scanReport w => exact scanReport_effect h
  | reportGet r report version => exact reportGet_effect h
  | reportList r => exact reportList_effect h
  | reportUpdate r => exact reportUpdate_effect h
  | reportError r => exact reportError_effect h

end SbomScanner.Jobs.Pipeline

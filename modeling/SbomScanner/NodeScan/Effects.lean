import SbomScanner.NodeScan.Pipeline

/-!
# What a step of the node scan pipeline does

The step function is taken apart here, once: `step_effect` says what each action changes. Calls that
only move a worker or a reconciler are collected in `Move` and `ReconcileMove`, and the four status
updates of the handlers in `Mark`.
-/

open Option

namespace SbomScanner.NodeScan

open Versioned (Entry Store)

variable {s s' : State} {a : Action}

/-! ## The shape of a step -/

inductive Move (s : State) (w : Nat) : Action → Worker → Worker → Prop where
  | crash {p : Worker} : Move s w (.crash w) p .idle
  | nak {d : Delivery} {err : String} : Move s w (.nak w) (.failed d err) .idle
  | error {p : Worker} {d : Delivery} {err : String} (hd : p.delivery = some d) :
      Move s w (.handlerError w err) p (.failed d err)
  /-- where the handler would have to write or go on, and the job is gone -/
  | jobGone {a : Action} {p : Worker} {d : Delivery} (hd : p.delivery = some d)
      (h : s.get d.job.name = none) : Move s w a p (.handled d)
  | generateFetched {d : Delivery} {job : Entry NodeScanJob} (h : s.get d.job.name = some job) :
      Move s w (.generateGet w) (.received d) (.generateNode d job)
  | generateStopped {d : Delivery} {ref : ObjectRef} {node : String} {job : Entry NodeScanJob}
      (hm : d.message = .generateNodeSBOM ref node)
      (h : node ∉ s.nodes ∨ job.object.isFailed = true) :
      Move s w (.generateNode w) (.generateNode d job) (.handled d)
  | generateFound {d : Delivery} {job : Entry NodeScanJob} (h : job.object.isFailed = false) :
      Move s w (.generateNode w) (.generateNode d job) (.generateGetting d)
  | generateMarkFetched {d : Delivery} {copy : Entry NodeScanJob}
      (h : s.get d.job.name = some copy) :
      Move s w (.generateMarkGet w) (.generateGetting d) (.generateMarking d copy)
  | generateMarkRefused {d : Delivery} {copy : Entry NodeScanJob} :
      Move s w (.generateMark w) (.generateMarking d copy) (.generateGetting d)
  | generateUnconfigured {d : Delivery} {job : Entry NodeScanJob} (h : s.configured = false) :
      Move s w (.generateConfiguration w) (.generateConfiguration d job) (.handled d)
  | generateConfigured {d : Delivery} {job : Entry NodeScanJob} :
      Move s w (.generateConfiguration w) (.generateConfiguration d job) (.generateCreating d job)
  | generateNoSnapshot {d : Delivery} {job : Entry NodeScanJob} {err : String}
      (h : job.object.hasConfiguration = false) :
      Move s w (.generateConfiguration w) (.generateConfiguration d job) (.failed d err)
  | generateCreated {d : Delivery} {job : Entry NodeScanJob} :
      Move s w (.generateCreate w) (.generateCreating d job) (.generateClosing d job)
  | generateFetchedFinal {d : Delivery} {job : Entry NodeScanJob} :
      Move s w (.generateGetFinal w) (.generateClosing d job) (.generatePublishing d job)
  | scanSkipped {d : Delivery} {job : Entry NodeScanJob} (hj : s.get d.job.name = some job)
      (h : job.uid ≠ d.job.uid ∨ job.object.jobFinished = true) :
      Move s w (.scanGet w) (.received d) (.handled d)
  | scanFetched {d : Delivery} {job : Entry NodeScanJob} (hj : s.get d.job.name = some job)
      (huid : job.uid = d.job.uid) (h : job.object.jobFinished = false) :
      Move s w (.scanGet w) (.received d) (.scanGetting d)
  | scanMarkFetched {d : Delivery} {copy : Entry NodeScanJob} (h : s.get d.job.name = some copy) :
      Move s w (.scanMarkGet w) (.scanGetting d) (.scanMarking d copy)
  | scanMarkRefused {d : Delivery} {copy : Entry NodeScanJob} :
      Move s w (.scanMark w) (.scanMarking d copy) (.scanGetting d)
  | scanFound {d : Delivery} : Move s w (.scanSBOM w) (.scanFetching d) (.scanReporting d)
  | scanMissing {d : Delivery} {ref : ObjectRef} {nodeSBOM : String}
      (hm : d.message = .scanNodeSBOM ref nodeSBOM) (h : nodeSBOM ∉ s.nodeSBOMs) :
      Move s w (.scanSBOM w) (.scanFetching d) (.handled d)
  | scanReported {d : Delivery} : Move s w (.scanReport w) (.scanReporting d) (.scanClosing d)
  | scanCompleteFetched {d : Delivery} {copy : Entry NodeScanJob}
      (h : s.get d.job.name = some copy) :
      Move s w (.scanCompleteGet w) (.scanClosing d) (.scanCompleting d copy)
  | scanCompleteRefused {d : Delivery} {copy : Entry NodeScanJob} :
      Move s w (.scanComplete w) (.scanCompleting d copy) (.scanClosing d)
  | failureFetched {d : Delivery} {err : String} {copy : Entry NodeScanJob}
      (h : s.get d.job.name = some copy) :
      Move s w (.failureGet w) (.failed d err) (.failureUpdating d err copy)
  | failureRefused {d : Delivery} {err : String} {copy : Entry NodeScanJob} :
      Move s w (.failureUpdate w) (.failureUpdating d err copy) (.failed d err)
  | gaveUp {p : Worker} {d : Delivery} (hd : p.delivery = some d) :
      Move s w (.failureGiveUp w) p (.handled d)

inductive ReconcileMove (s : State) (i : Nat) : Action → Reconcile → Reconcile → Prop where
  | fetched {name : String} {version : Nat} {copy : Entry NodeScanJob}
      (hj : copy ∈ (s.stores name).history) (hp : copy.object.isPending = true) :
      ReconcileMove s i (.reconcileGet i name version) .idle
        (.initialized name copy (copy.object.initializeConditions s.clock).status)
  | rejected {name : String} {copy : Entry NodeScanJob} {status : Status} (r : Rejection) :
      ReconcileMove s i (.reconcileReject i r) (.initialized name copy status)
        (.updating name copy (r.mark s.clock { copy.object with status := status }).status)
  | aborted {name : String} {copy : Entry NodeScanJob} {status : Status} :
      ReconcileMove s i (.reconcileAbort i) (.initialized name copy status) .idle
  | incomplete {a : Action} {name : String} {copy : Entry NodeScanJob} {status : Status} :
      ReconcileMove s i a (.initialized name copy status) (.updating name copy status)
  | refused {name : String} {copy : Entry NodeScanJob} {status : Status} :
      ReconcileMove s i (.reconcileUpdate i) (.updating name copy status) .idle

/-- A handler submits this status, based on this copy, and goes on like that when it is stored. -/
inductive Mark (clock w : Nat) : Action → Worker → Delivery → Entry NodeScanJob → Status →
    (Entry NodeScanJob → Worker) → Prop where
  | generate {d : Delivery} {copy : Entry NodeScanJob} :
      Mark clock w (.generateMark w) (.generateMarking d copy) d copy
        (copy.object.markInProgress clock .inProgress
          "Scanning node filesystem and collecting data").status (.generateConfiguration d)
  | scan {d : Delivery} {copy : Entry NodeScanJob} :
      Mark clock w (.scanMark w) (.scanMarking d copy) d copy
        (copy.object.markInProgress clock .sbomGenerationInProgress
          "NodeSBOM vulnerability scan in progress").status (fun _ => .scanFetching d)
  | complete {d : Delivery} {copy : Entry NodeScanJob} :
      Mark clock w (.scanComplete w) (.scanCompleting d copy) d copy
        (copy.object.markComplete clock .complete "NodeSBOM scanned successfully").status
        (fun _ => .handled d)
  | failure {d : Delivery} {err : String} {copy : Entry NodeScanJob} :
      Mark clock w (.failureUpdate w) (.failureUpdating d err copy) d copy
        (copy.object.markFailed clock .internalError err).status (fun _ => .handled d)

inductive Effect (s : State) : Action → State → Prop where
  | environment {a : Action} (clock : Nat) (nodes : List String) (configured : Bool)
      (nodeSBOMs : List String) (reports : String → Option Nat)
      (hnodes : ∀ node ∈ nodes, node ∈ s.nodes ∨ a = .createNode node) :
      Effect s a { s with
        clock := clock, nodes := nodes, configured := configured, nodeSBOMs := nodeSBOMs,
        reports := reports }
  | restarted : Effect s .restartController { s with reconcilers := fun _ => .idle }
  | created {name nodeName : String} {store : Store NodeScanJob}
      (h : (s.stores name).create ⟨nodeName, 1, false, {}⟩ = some store) :
      Effect s (.createNodeScanJob name nodeName) (s.setStore name store)
  | deleted {name : String} :
      Effect s (.deleteNodeScanJob name) (s.setStore name (s.stores name).delete)
  | moved {a : Action} {w : Nat} {p : Worker} (nodeSBOMs : List String)
      (reports : String → Option Nat) (h : Move s w a (s.workers w) p) :
      Effect s a ({ s with nodeSBOMs := nodeSBOMs, reports := reports }.setWorker w p)
  | delivered {w seq : Nat} {e : Delivery} (hw : s.workers w = .idle)
      (he : s.stream.find? (·.seq = seq) = some e) :
      Effect s (.deliver w seq)
        ({ s with stream := s.stream.map fun (e' : Delivery) =>
            if e'.seq = seq then { e with numDelivered := e.numDelivered + 1 } else e' }.setWorker w
          (.received { e with numDelivered := e.numDelivered + 1 }))
  | acked {w : Nat} {d : Delivery} (hw : s.workers w = .handled d) :
      Effect s (.ack w)
        ({ s with stream := s.stream.filter fun (e : Delivery) => e.seq ≠ d.seq }.setWorker w .idle)
  | generateSent {w : Nat} {dropped : Bool} {d : Delivery} {ref : ObjectRef} {node : String}
      {job : Entry NodeScanJob} {sent : State}
      (hw : s.workers w = .generatePublishing d job) (hm : d.message = .generateNodeSBOM ref node)
      (hs : s.publish (.nodeScanSBOM ⟨ref.name, job.uid⟩ node) (.scanNodeSBOM ref node) dropped =
        some sent) :
      Effect s (.generatePublish w dropped) (sent.setWorker w (.handled d))
  | marked {a : Action} {w : Nat} {d : Delivery} {copy job : Entry NodeScanJob} {status : Status}
      {next : Entry NodeScanJob → Worker} {written : State}
      (h : Mark s.clock w a (s.workers w) d copy status next)
      (hu : s.updateStatus d.job.name copy status = .stored written job) :
      Effect s a ((written.recordUnlessFinished d.job.name copy job).setWorker w (next job))
  | reconcilerMoved {a : Action} {i : Nat} {p : Reconcile}
      (h : ReconcileMove s i a (s.reconcilers i) p) : Effect s a (s.setReconciler i p)
  | patched {i : Nat} {name : String} {copy patched : Entry NodeScanJob} {status : Status}
      {store : Store NodeScanJob} (hp : s.reconcilers i = .initialized name copy status)
      (hm : (s.stores name).modify (fun job => { job with hasConfiguration := true }) =
        some (patched, store)) :
      Effect s (.reconcilePatch i) ((s.setStore name store).setReconciler i
        (.updating name patched (status.decode patched.object.status)))
  | scheduled {i : Nat} {dropped : Bool} {name : String} {copy : Entry NodeScanJob}
      {status : Status} {sent : State} (hp : s.reconcilers i = .initialized name copy status)
      (hs : s.publish (.generateNodeSBOM ⟨name, copy.uid⟩)
        (.generateNodeSBOM ⟨name, copy.uid⟩ copy.object.nodeName) dropped = some sent) :
      Effect s (.reconcilePublish i dropped) (sent.setReconciler i (.updating name copy
        (NodeScanJob.markScheduled { copy.object with status := status } s.clock .scheduled
          "NodeScanJob has been scheduled for processing by the controller").status))
  | reconciled {i : Nat} {name : String} {copy job : Entry NodeScanJob} {status : Status}
      {written : State} (hp : s.reconcilers i = .updating name copy status)
      (hu : s.updateStatus name copy status = .stored written job) :
      Effect s (.reconcileUpdate i)
        ((written.recordNodeScanJobFinished name job).setReconciler i .idle)

/-! ## Status updates -/

variable {name : String} {copy job : Entry NodeScanJob} {status : Status}

theorem updateStatus_eq_stored (h : s.updateStatus name copy status = .stored s' job) :
    ∃ store, (s.stores name).update copy { copy.object with status := status } = some store ∧
      s' = s.setStore name store ∧
      job = ⟨copy.uid, (s.stores name).history.length, { copy.object with status := status }⟩ := by
  unfold State.updateStatus at h
  split at h
  · cases h
  · split at h
    · next store hstore =>
      cases h
      exact ⟨store, hstore, rfl, rfl⟩
    · cases h

theorem updateStatus_eq_notFound (h : s.updateStatus name copy status = .notFound) :
    s.get name = none := by
  unfold State.updateStatus at h
  split at h
  · next hnone => exact hnone
  · split at h <;> cases h

/-- `MarkInProgress` finishes nothing, so there is nothing to count. -/
theorem recordUnlessFinished_of_inProgress {message : String} {read : Entry NodeScanJob} {now : Nat}
    {reason : Reason}
    (h : job.object.status = (read.object.markInProgress now reason message).status) :
    s.recordUnlessFinished name read job = s := by
  have hunfinished : job.object.jobFinished = false := by
    rw [NodeScanJob.jobFinished_congr (congrArg Status.conditions h)]
    exact NodeScanJob.jobFinished_mark ..
  simp [State.recordUnlessFinished, State.recordNodeScanJobFinished, hunfinished]

/-! ## Inversion of the calls -/

variable {w : Nat}

theorem moved_of_setWorker {p q : Worker} (hw : s.workers w = p)
    (h : some (s.setWorker w q) = some s') (hm : Move s w a p q) : Effect s a s' := by
  cases h
  subst hw
  exact .moved s.nodeSBOMs s.reports hm

theorem marked_of_stored {p : Worker} {d : Delivery} {next : Entry NodeScanJob → Worker}
    {written : State} (hw : s.workers w = p) (h : Mark s.clock w a p d copy status next)
    (hu : s.updateStatus d.job.name copy status = .stored written job) :
    Effect s a ((written.recordUnlessFinished d.job.name copy job).setWorker w (next job)) := by
  subst hw
  exact .marked h hu

variable {i : Nat}

theorem reconcilerMoved_of_set {p q : Reconcile} (hi : s.reconcilers i = p)
    (h : some (s.setReconciler i q) = some s') (hm : ReconcileMove s i a p q) : Effect s a s' := by
  cases h
  subst hi
  exact .reconcilerMoved hm

theorem reconcileGet_effect {version : Nat} (h : reconcileGet s i name version = some s') :
    Effect s (.reconcileGet i name version) s' := by
  unfold reconcileGet at h
  split at h
  · next copy hi hc =>
    split at h
    · next hp => exact reconcilerMoved_of_set hi h (.fetched (List.mem_of_getElem? hc) hp)
    · cases h
  · cases h

theorem reconcileReject_effect {r : Rejection} (h : reconcileReject s i r = some s') :
    Effect s (.reconcileReject i r) s' := by
  unfold reconcileReject at h
  split at h
  · next name copy status hi => exact reconcilerMoved_of_set hi h (.rejected r)
  · cases h

theorem reconcileAbort_effect (h : reconcileAbort s i = some s') :
    Effect s (.reconcileAbort i) s' := by
  unfold reconcileAbort at h
  split at h
  · next name copy status hi => exact reconcilerMoved_of_set hi h .aborted
  · cases h

theorem reconcileError_effect (h : reconcileError s i = some s') :
    Effect s (.reconcileError i) s' := by
  unfold reconcileError at h
  split at h
  · next name copy status hi => exact reconcilerMoved_of_set hi h .incomplete
  · cases h

theorem reconcilePatch_effect (h : reconcilePatch s i = some s') :
    Effect s (.reconcilePatch i) s' := by
  unfold reconcilePatch at h
  split at h
  · next name copy status hi =>
    split at h
    · cases h
    · split at h
      · next patched store hm =>
        cases h
        exact .patched hi hm
      · exact reconcilerMoved_of_set hi h .incomplete
  · cases h

theorem reconcilePublish_effect {dropped : Bool} (h : reconcilePublish s i dropped = some s') :
    Effect s (.reconcilePublish i dropped) s' := by
  unfold reconcilePublish at h
  split at h
  · next name copy status hi =>
    split at h
    · obtain ⟨sent, hs, rfl⟩ := map_eq_some_iff.mp h
      exact .scheduled hi hs
    · cases h
  · cases h

theorem reconcileUpdate_effect (h : reconcileUpdate s i = some s') :
    Effect s (.reconcileUpdate i) s' := by
  unfold reconcileUpdate at h
  split at h
  · next name copy status hi =>
    split at h
    · next written job hu =>
      cases h
      exact .reconciled hi hu
    · exact reconcilerMoved_of_set hi h .refused
    · exact reconcilerMoved_of_set hi h .refused
  · cases h

theorem generateGet_effect (h : generateGet s w = some s') : Effect s (.generateGet w) s' := by
  unfold generateGet at h
  split at h
  · next seq n ref node hw =>
    split at h
    · next job hj => exact moved_of_setWorker hw h (.generateFetched hj)
    · next hj => exact moved_of_setWorker hw h (.jobGone rfl hj)
  · cases h

theorem generateNode_effect (h : generateNode s w = some s') : Effect s (.generateNode w) s' := by
  unfold generateNode at h
  split at h
  · next seq n ref node job hw =>
    split at h
    · next hstop => exact moved_of_setWorker hw h (.generateStopped rfl hstop)
    · next hgo =>
      obtain ⟨-, hfailed⟩ := not_or.mp hgo
      exact moved_of_setWorker hw h (.generateFound (Bool.eq_false_iff.mpr hfailed))
  · cases h

theorem generateMarkGet_effect (h : generateMarkGet s w = some s') :
    Effect s (.generateMarkGet w) s' := by
  unfold generateMarkGet at h
  split at h
  · next d hw =>
    split at h
    · next copy hj => exact moved_of_setWorker hw h (.generateMarkFetched hj)
    · next hj => exact moved_of_setWorker hw h (.jobGone rfl hj)
  · cases h

theorem generateMark_effect (h : generateMark s w = some s') : Effect s (.generateMark w) s' := by
  unfold generateMark at h
  split at h
  · next d copy hw =>
    split at h
    · next written job hu =>
      cases h
      obtain ⟨store, -, -, hjob⟩ := updateStatus_eq_stored hu
      have heffect := marked_of_stored hw .generate hu
      rwa [recordUnlessFinished_of_inProgress (congrArg (·.object.status) hjob)] at heffect
    · exact moved_of_setWorker hw h .generateMarkRefused
    · next hu => exact moved_of_setWorker hw h (.jobGone rfl (updateStatus_eq_notFound hu))
  · cases h

theorem generateConfiguration_effect (h : generateConfiguration s w = some s') :
    Effect s (.generateConfiguration w) s' := by
  unfold generateConfiguration at h
  split at h
  · next d job hw =>
    split at h
    · split at h
      · exact moved_of_setWorker hw h .generateConfigured
      · next hsnapshot =>
        exact moved_of_setWorker hw h (.generateNoSnapshot (Bool.eq_false_iff.mpr hsnapshot))
    · next hconf =>
      exact moved_of_setWorker hw h (.generateUnconfigured (Bool.eq_false_iff.mpr hconf))
  · cases h

theorem generateCreate_effect (h : generateCreate s w = some s') :
    Effect s (.generateCreate w) s' := by
  unfold generateCreate at h
  split at h
  · next seq n ref node job hw =>
    cases h
    refine .moved (node :: s.nodeSBOMs) s.reports ?_
    rw [hw]
    exact .generateCreated
  · cases h

theorem generateGetFinal_effect (h : generateGetFinal s w = some s') :
    Effect s (.generateGetFinal w) s' := by
  unfold generateGetFinal at h
  split at h
  · next d job hw =>
    split at h
    · exact moved_of_setWorker hw h .generateFetchedFinal
    · next hj => exact moved_of_setWorker hw h (.jobGone rfl hj)
  · cases h

theorem generatePublish_effect {dropped : Bool} (h : generatePublish s w dropped = some s') :
    Effect s (.generatePublish w dropped) s' := by
  unfold generatePublish at h
  split at h
  · next seq n ref node job hw =>
    obtain ⟨sent, hs, rfl⟩ := map_eq_some_iff.mp h
    exact .generateSent hw rfl hs
  · cases h

theorem scanGet_effect (h : scanGet s w = some s') : Effect s (.scanGet w) s' := by
  unfold scanGet at h
  split at h
  · next seq n ref nodeSBOM hw =>
    split at h
    · next job hj =>
      split at h
      · next hskip => exact moved_of_setWorker hw h (.scanSkipped hj hskip)
      · next hgo =>
        obtain ⟨huid, hfin⟩ := not_or.mp hgo
        exact moved_of_setWorker hw h
          (.scanFetched hj (not_not.mp huid) (Bool.eq_false_iff.mpr hfin))
    · next hj => exact moved_of_setWorker hw h (.jobGone rfl hj)
  · cases h

theorem scanMarkGet_effect (h : scanMarkGet s w = some s') : Effect s (.scanMarkGet w) s' := by
  unfold scanMarkGet at h
  split at h
  · next d hw =>
    split at h
    · next copy hj => exact moved_of_setWorker hw h (.scanMarkFetched hj)
    · next hj => exact moved_of_setWorker hw h (.jobGone rfl hj)
  · cases h

theorem scanMark_effect (h : scanMark s w = some s') : Effect s (.scanMark w) s' := by
  unfold scanMark at h
  split at h
  · next d copy hw =>
    split at h
    · next written job hu =>
      cases h
      obtain ⟨store, -, -, hjob⟩ := updateStatus_eq_stored hu
      have heffect := marked_of_stored hw .scan hu
      rwa [recordUnlessFinished_of_inProgress (congrArg (·.object.status) hjob)] at heffect
    · exact moved_of_setWorker hw h .scanMarkRefused
    · next hu => exact moved_of_setWorker hw h (.jobGone rfl (updateStatus_eq_notFound hu))
  · cases h

theorem scanSBOM_effect (h : scanSBOM s w = some s') : Effect s (.scanSBOM w) s' := by
  unfold scanSBOM at h
  split at h
  · next seq n ref nodeSBOM hw =>
    split at h
    · exact moved_of_setWorker hw h .scanFound
    · next hmissing => exact moved_of_setWorker hw h (.scanMissing rfl hmissing)
  · cases h

theorem scanReport_effect (h : scanReport s w = some s') : Effect s (.scanReport w) s' := by
  unfold scanReport at h
  split at h
  · next seq n ref nodeSBOM hw =>
    cases h
    refine .moved s.nodeSBOMs (Function.update s.reports nodeSBOM (some ref.uid)) ?_
    rw [hw]
    exact .scanReported
  · cases h

theorem scanCompleteGet_effect (h : scanCompleteGet s w = some s') :
    Effect s (.scanCompleteGet w) s' := by
  unfold scanCompleteGet at h
  split at h
  · next d hw =>
    split at h
    · next copy hj => exact moved_of_setWorker hw h (.scanCompleteFetched hj)
    · next hj => exact moved_of_setWorker hw h (.jobGone rfl hj)
  · cases h

theorem scanComplete_effect (h : scanComplete s w = some s') : Effect s (.scanComplete w) s' := by
  unfold scanComplete at h
  split at h
  · next d copy hw =>
    split at h
    · next written job hu =>
      cases h
      exact marked_of_stored hw .complete hu
    · exact moved_of_setWorker hw h .scanCompleteRefused
    · next hu => exact moved_of_setWorker hw h (.jobGone rfl (updateStatus_eq_notFound hu))
  · cases h

theorem deliver_effect {seq : Nat} (h : deliver s w seq = some s') :
    Effect s (.deliver w seq) s' := by
  unfold deliver at h
  split at h
  · next e hw he =>
    cases h
    exact .delivered hw he
  · cases h

theorem handlerError_effect {err : String} (h : handlerError s w err = some s') :
    Effect s (.handlerError w err) s' := by
  unfold handlerError at h
  split at h
  any_goals cases h
  obtain ⟨d, hd, rfl⟩ := map_eq_some_iff.mp h
  exact .moved s.nodeSBOMs s.reports (.error hd)

theorem ack_effect (h : ack s w = some s') : Effect s (.ack w) s' := by
  unfold ack at h
  split at h
  · next d hw =>
    cases h
    exact .acked hw
  · cases h

theorem nak_effect (h : nak s w = some s') : Effect s (.nak w) s' := by
  unfold nak at h
  split at h
  · next d err hw =>
    split at h
    · exact moved_of_setWorker hw h .nak
    · cases h
  · cases h

theorem failureGet_effect (h : failureGet s w = some s') : Effect s (.failureGet w) s' := by
  unfold failureGet at h
  split at h
  · next d err hw =>
    split at h
    · cases h
    · split at h
      · next copy hj => exact moved_of_setWorker hw h (.failureFetched hj)
      · next hj => exact moved_of_setWorker hw h (.jobGone rfl hj)
  · cases h

theorem failureUpdate_effect (h : failureUpdate s w = some s') :
    Effect s (.failureUpdate w) s' := by
  unfold failureUpdate at h
  split at h
  · next d err copy hw =>
    split at h
    · next written job hu =>
      cases h
      exact marked_of_stored hw .failure hu
    · exact moved_of_setWorker hw h .failureRefused
    · next hu => exact moved_of_setWorker hw h (.jobGone rfl (updateStatus_eq_notFound hu))
  · cases h

theorem failureGiveUp_effect (h : failureGiveUp s w = some s') :
    Effect s (.failureGiveUp w) s' := by
  unfold failureGiveUp at h
  split at h
  · next d err hw =>
    split at h
    · cases h
    · exact moved_of_setWorker hw h (.gaveUp rfl)
  · next d err copy hw => exact moved_of_setWorker hw h (.gaveUp rfl)
  · cases h

/-- **Inversion of a step.** -/
theorem step_effect (h : step s a = some s') : Effect s a s' := by
  cases a with
  | tick =>
    cases h
    exact .environment (s.clock + 1) s.nodes s.configured s.nodeSBOMs s.reports
      fun _ hnode => .inl hnode
  | createNode node =>
    cases h
    refine .environment s.clock _ s.configured s.nodeSBOMs s.reports fun node' hnode => ?_
    rcases List.mem_cons.mp hnode with rfl | hold
    · exact .inr rfl
    · exact .inl hold
  | deleteNode node =>
    cases h
    exact .environment s.clock _ s.configured s.nodeSBOMs s.reports
      fun _ hnode => .inl (List.mem_of_mem_filter hnode)
  | setConfigured configured =>
    cases h
    exact .environment s.clock s.nodes configured s.nodeSBOMs s.reports fun _ hnode => .inl hnode
  | deleteNodeSBOM nodeSBOM =>
    cases h
    exact .environment s.clock s.nodes s.configured _ s.reports fun _ hnode => .inl hnode
  | deleteReport report =>
    cases h
    exact .environment s.clock s.nodes s.configured s.nodeSBOMs _ fun _ hnode => .inl hnode
  | createNodeScanJob name nodeName =>
    obtain ⟨store, hstore, rfl⟩ := map_eq_some_iff.mp h
    exact .created hstore
  | deleteNodeScanJob name =>
    cases h
    exact .deleted
  | restartController =>
    cases h
    exact .restarted
  | reconcileGet i name version => exact reconcileGet_effect h
  | reconcileReject i r => exact reconcileReject_effect h
  | reconcileAbort i => exact reconcileAbort_effect h
  | reconcileError i => exact reconcileError_effect h
  | reconcilePatch i => exact reconcilePatch_effect h
  | reconcilePublish i dropped => exact reconcilePublish_effect h
  | reconcileUpdate i => exact reconcileUpdate_effect h
  | deliver w seq => exact deliver_effect h
  | handlerError w err => exact handlerError_effect h
  | crash w =>
    cases h
    exact .moved s.nodeSBOMs s.reports .crash
  | ack w => exact ack_effect h
  | nak w => exact nak_effect h
  | failureGet w => exact failureGet_effect h
  | failureUpdate w => exact failureUpdate_effect h
  | failureGiveUp w => exact failureGiveUp_effect h
  | generateGet w => exact generateGet_effect h
  | generateNode w => exact generateNode_effect h
  | generateMarkGet w => exact generateMarkGet_effect h
  | generateMark w => exact generateMark_effect h
  | generateConfiguration w => exact generateConfiguration_effect h
  | generateCreate w => exact generateCreate_effect h
  | generateGetFinal w => exact generateGetFinal_effect h
  | generatePublish w dropped => exact generatePublish_effect h
  | scanGet w => exact scanGet_effect h
  | scanMarkGet w => exact scanMarkGet_effect h
  | scanMark w => exact scanMark_effect h
  | scanSBOM w => exact scanSBOM_effect h
  | scanReport w => exact scanReport_effect h
  | scanCompleteGet w => exact scanCompleteGet_effect h
  | scanComplete w => exact scanComplete_effect h

end SbomScanner.NodeScan

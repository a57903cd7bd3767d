import SbomScanner.NodeScan.Effects

/-!
# What a step does to each party

`step_effect` seen from one worker, one reconciler and one name: `worker_step`, `reconciler_step`
and `store_step`. The last one rests on an invariant, `Held`: a copy that someone is about to submit
is a version there has been, so if its update is accepted then it is the version being overwritten.
-/

open Function List

namespace SbomScanner.NodeScan

open Versioned (Entry Store)

variable {s s' t : State} {a : Action} {name : String}

/-! ## Frames -/

theorem recordNodeScanJobFinished_frame {job : Entry NodeScanJob} :
    ∃ recorded, s.recordNodeScanJobFinished name job = { s with recorded := recorded } := by
  unfold State.recordNodeScanJobFinished
  split
  · exact ⟨_, rfl⟩
  · exact ⟨s.recorded, rfl⟩

theorem recordUnlessFinished_frame {read job : Entry NodeScanJob} :
    ∃ recorded, s.recordUnlessFinished name read job = { s with recorded := recorded } := by
  unfold State.recordUnlessFinished
  split
  · exact ⟨s.recorded, rfl⟩
  · exact recordNodeScanJobFinished_frame

@[simp] theorem recordNodeScanJobFinished_stores {job : Entry NodeScanJob} :
    (s.recordNodeScanJobFinished name job).stores = s.stores := by
  obtain ⟨recorded, heq⟩ := @recordNodeScanJobFinished_frame s name job
  rw [heq]

@[simp] theorem recordNodeScanJobFinished_workers {job : Entry NodeScanJob} :
    (s.recordNodeScanJobFinished name job).workers = s.workers := by
  obtain ⟨recorded, heq⟩ := @recordNodeScanJobFinished_frame s name job
  rw [heq]

@[simp] theorem recordNodeScanJobFinished_reconcilers {job : Entry NodeScanJob} :
    (s.recordNodeScanJobFinished name job).reconcilers = s.reconcilers := by
  obtain ⟨recorded, heq⟩ := @recordNodeScanJobFinished_frame s name job
  rw [heq]

@[simp] theorem recordUnlessFinished_stores {read job : Entry NodeScanJob} :
    (s.recordUnlessFinished name read job).stores = s.stores := by
  obtain ⟨recorded, heq⟩ := @recordUnlessFinished_frame s name read job
  rw [heq]

@[simp] theorem recordUnlessFinished_workers {read job : Entry NodeScanJob} :
    (s.recordUnlessFinished name read job).workers = s.workers := by
  obtain ⟨recorded, heq⟩ := @recordUnlessFinished_frame s name read job
  rw [heq]

@[simp] theorem recordUnlessFinished_reconcilers {read job : Entry NodeScanJob} :
    (s.recordUnlessFinished name read job).reconcilers = s.reconcilers := by
  obtain ⟨recorded, heq⟩ := @recordUnlessFinished_frame s name read job
  rw [heq]

variable {id : MessageID} {dropped : Bool} {m : Message}

theorem publish_cases {sent : State} (h : s.publish id m dropped = some sent) :
    (sent = s ∧ id ∈ s.published) ∨
      sent = { s with
        stream := s.stream ++ [⟨s.nextSeq, 0, m⟩]
        published := id :: s.published
        nextSeq := s.nextSeq + 1 } := by
  unfold State.publish at h
  split at h
  · split at h
    · next hid => exact .inl ⟨(Option.some.inj h).symm, hid⟩
    · cases h
  · exact .inr (Option.some.inj h).symm

theorem publish_frame (h : s.publish id m dropped = some s') :
    s'.stores = s.stores ∧ s'.workers = s.workers ∧ s'.reconcilers = s.reconcilers := by
  rcases publish_cases h with ⟨rfl, -⟩ | rfl
  · exact ⟨rfl, rfl, rfl⟩
  · exact ⟨rfl, rfl, rfl⟩

theorem mem_of_publish {sent : State} (h : s.publish id m dropped = some sent) :
    id ∈ sent.published := by
  rcases publish_cases h with ⟨rfl, hid⟩ | rfl
  · exact hid
  · exact mem_cons_self

/-! ## One worker -/

inductive WorkerStep (s : State) (w : Nat) : Action → Worker → Worker → Prop where
  | moved {a : Action} {p q : Worker} (h : Move s w a p q) : WorkerStep s w a p q
  | delivered {seq : Nat} {e : Delivery} (he : s.stream.find? (·.seq = seq) = some e) :
      WorkerStep s w (.deliver w seq) .idle
        (.received { e with numDelivered := e.numDelivered + 1 })
  | acked {d : Delivery} : WorkerStep s w (.ack w) (.handled d) .idle
  | sent {dropped : Bool} {d : Delivery} {job : Entry NodeScanJob} :
      WorkerStep s w (.generatePublish w dropped) (.generatePublishing d job) (.handled d)
  | marked {a : Action} {p : Worker} {d : Delivery} {copy job : Entry NodeScanJob}
      {status : Status} {next : Entry NodeScanJob → Worker}
      (h : Mark s.clock w a p d copy status next) : WorkerStep s w a p (next job)

theorem workerStep_setWorker {w : Nat} {p q : Worker} (ht : t.workers = s.workers)
    (hp : s.workers w = p) (hq : WorkerStep s w a p q) (w' : Nat) :
    (t.setWorker w q).workers w' = s.workers w' ∨
      WorkerStep s w' a (s.workers w') ((t.setWorker w q).workers w') := by
  have hset : (t.setWorker w q).workers = update s.workers w q := by
    rw [← ht]
    rfl
  rw [hset]
  by_cases hw : w' = w
  · subst hw hp
    right
    rw [update_self]
    exact hq
  · left
    exact update_of_ne hw ..

theorem worker_step (h : step s a = some s') (w : Nat) :
    s'.workers w = s.workers w ∨ WorkerStep s w a (s.workers w) (s'.workers w) := by
  cases step_effect h with
  | environment | restarted | created | deleted | reconcilerMoved | patched => exact .inl rfl
  | moved nodeSBOMs reports hm => exact workerStep_setWorker rfl rfl (.moved hm) w
  | delivered hw he => exact workerStep_setWorker rfl hw (.delivered he) w
  | acked hw => exact workerStep_setWorker rfl hw .acked w
  | generateSent hw hm hs => exact workerStep_setWorker (publish_frame hs).2.1 hw .sent w
  | marked hm hu =>
    obtain ⟨store, -, rfl, -⟩ := updateStatus_eq_stored hu
    refine workerStep_setWorker ?_ rfl (.marked hm) w
    exact recordUnlessFinished_workers
  | scheduled hp hs =>
    left
    exact congrFun (publish_frame hs).2.1 w
  | reconciled hp hu =>
    obtain ⟨store, -, rfl, -⟩ := updateStatus_eq_stored hu
    left
    exact congrFun recordNodeScanJobFinished_workers w

def Action.reader : Action → Option Nat
  | .generateMarkGet w | .scanMarkGet w | .scanCompleteGet w | .failureGet w => some w
  | _ => none

variable {next : Entry NodeScanJob → Worker} {d : Delivery}

theorem Mark.copy_next {clock w : Nat} {p : Worker} {copy : Entry NodeScanJob} {status : Status}
    (h : Mark clock w a p d copy status next) (job : Entry NodeScanJob) :
    (next job).copy = none := by
  cases h <;> rfl

/-- A copy comes from a `Get` under the name in the message. -/
theorem WorkerStep.copy {w : Nat} {p q : Worker} {copy : Entry NodeScanJob}
    (h : WorkerStep s w a p q) (hd : q.delivery = some d) (hc : q.copy = some copy) :
    a.reader = some w ∧ p.delivery = some d ∧ s.get d.job.name = some copy := by
  cases h with
  | moved hm =>
    cases hm with
    | generateMarkFetched h | scanMarkFetched h | scanCompleteFetched h | failureFetched h =>
      cases hd
      cases hc
      exact ⟨rfl, rfl, h⟩
    | _ => cases hc
  | marked hm =>
    rw [hm.copy_next] at hc
    cases hc
  | _ => cases hc

/-! ## One reconciler -/

inductive ReconcilerStep (s s' : State) (i : Nat) : Action → Reconcile → Reconcile → Prop where
  | moved {a : Action} {p q : Reconcile} (h : ReconcileMove s i a p q) :
      ReconcilerStep s s' i a p q
  | ended {a : Action} {p : Reconcile} : ReconcilerStep s s' i a p .idle
  | patched {name : String} {copy patched : Entry NodeScanJob} {status : Status}
      (hstored : patched ∈ (s'.stores name).history) :
      ReconcilerStep s s' i (.reconcilePatch i) (.initialized name copy status)
        (.updating name patched (status.decode patched.object.status))
  | scheduled {dropped : Bool} {name message : String} {copy : Entry NodeScanJob}
      {status : Status} (hid : .generateNodeSBOM ⟨name, copy.uid⟩ ∈ s'.published) :
      ReconcilerStep s s' i (.reconcilePublish i dropped) (.initialized name copy status)
        (.updating name copy
          (NodeScanJob.markScheduled { copy.object with status := status } s.clock .scheduled
            message).status)

theorem reconcilerStep_set {i : Nat} {p q : Reconcile} (ht : t.reconcilers = s.reconcilers)
    (hp : s.reconcilers i = p) (hq : ReconcilerStep s (t.setReconciler i q) i a p q) (i' : Nat) :
    (t.setReconciler i q).reconcilers i' = s.reconcilers i' ∨
      ReconcilerStep s (t.setReconciler i q) i' a (s.reconcilers i')
        ((t.setReconciler i q).reconcilers i') := by
  have hset : (t.setReconciler i q).reconcilers = update s.reconcilers i q := by
    rw [← ht]
    rfl
  rw [hset]
  by_cases hi : i' = i
  · subst hi hp
    right
    rw [update_self]
    exact hq
  · left
    exact update_of_ne hi ..

theorem reconciler_step (h : step s a = some s') (i : Nat) :
    s'.reconcilers i = s.reconcilers i ∨
      ReconcilerStep s s' i a (s.reconcilers i) (s'.reconcilers i) := by
  cases step_effect h with
  | environment | created | deleted | moved | delivered | acked => exact .inl rfl
  | restarted => exact .inr .ended
  | generateSent hw hm hs =>
    left
    exact congrFun (publish_frame hs).2.2 i
  | marked hm hu =>
    obtain ⟨store, -, rfl, -⟩ := updateStatus_eq_stored hu
    left
    exact congrFun recordUnlessFinished_reconcilers i
  | reconcilerMoved hm => exact reconcilerStep_set rfl rfl (.moved hm) i
  | @patched i' name copy patched status store hp hm =>
    have ht : (s.setStore name store).reconcilers = s.reconcilers := rfl
    refine reconcilerStep_set ht hp (.patched ?_) i
    obtain ⟨entry, hentry, -, rfl, rfl⟩ := Store.modify_eq_some hm
    show _ ∈ (update s.stores name _ name).history
    rw [update_self]
    exact mem_append_right _ mem_cons_self
  | scheduled hp hs =>
    have hid := mem_of_publish hs
    exact reconcilerStep_set (publish_frame hs).2.2 hp (.scheduled hid) i
  | reconciled hp hu =>
    obtain ⟨store, -, rfl, -⟩ := updateStatus_eq_stored hu
    refine reconcilerStep_set ?_ hp .ended i
    exact recordNodeScanJobFinished_reconcilers

/-! ## One name -/

/-- Who may write the status of the job in a copy of theirs. -/
inductive StatusWrite (s : State) :
    Action → String → Entry NodeScanJob → Status → Prop where
  | marked {a : Action} {w : Nat} {d : Delivery} {copy : Entry NodeScanJob} {status : Status}
      {next : Entry NodeScanJob → Worker} (h : Mark s.clock w a (s.workers w) d copy status next) :
      StatusWrite s a d.job.name copy status
  | reconciled {i : Nat} {name : String} {copy : Entry NodeScanJob} {status : Status}
      (h : s.reconcilers i = .updating name copy status) :
      StatusWrite s (.reconcileUpdate i) name copy status

/-- What becomes of the jobs of a name. -/
inductive StoreStep (s : State) : Action → String → Store NodeScanJob → Prop where
  | same {a : Action} {name : String} : StoreStep s a name (s.stores name)
  | created {name nodeName : String} (hnone : s.get name = none) :
      StoreStep s (.createNodeScanJob name nodeName) name
        ((s.stores name).push (s.stores name).history.length (Nat.le_refl _)
          ⟨nodeName, 1, false, {}⟩)
  | deleted {name : String} :
      StoreStep s (.deleteNodeScanJob name) name (s.stores name).delete
  | patched {i : Nat} {name : String} {entry : Entry NodeScanJob} (hj : s.get name = some entry)
      (hle : entry.uid ≤ (s.stores name).history.length) :
      StoreStep s (.reconcilePatch i) name
        ((s.stores name).push entry.uid hle { entry.object with hasConfiguration := true })
  | written {a : Action} {name : String} {copy : Entry NodeScanJob} {status : Status}
      (hj : s.get name = some copy) (hw : StatusWrite s a name copy status)
      (hle : copy.uid ≤ (s.stores name).history.length) :
      StoreStep s a name ((s.stores name).push copy.uid hle { copy.object with status := status })

variable {store : Store NodeScanJob} {entry : Entry NodeScanJob}

theorem StoreStep.mem_history (h : StoreStep s a name store)
    (hentry : entry ∈ (s.stores name).history) :
    entry ∈ store.history := by
  cases h with
  | same => exact hentry
  | deleted => exact hentry
  | created | patched | written => exact mem_append_left _ hentry

theorem storeStep_setStore {name' : String} (ht : t.stores = update s.stores name store)
    (h : StoreStep s a name store) :
    StoreStep s a name' (t.stores name') := by
  rw [ht]
  by_cases hn : name' = name
  · subst hn
    rw [update_self]
    exact h
  · rw [update_of_ne hn]
    exact .same

/-! ## Copies -/

/-- The reconciler read a version there has been, and one that was pending; what it submits belongs
to an unfinished version, or it leaves the conditions as they are. -/
def Reconcile.Sound (stores : String → Store NodeScanJob) : Reconcile → Prop
  | .idle => True
  | .initialized name copy _ =>
    copy ∈ (stores name).history ∧ copy.object.jobFinished = false
  | .updating name copy status =>
    copy ∈ (stores name).history ∧
      (copy.object.jobFinished = false ∨ status.conditions = copy.object.status.conditions)

structure Held (s : State) : Prop where
  workers : ∀ {w d copy}, (s.workers w).delivery = some d → (s.workers w).copy = some copy →
    copy ∈ (s.stores d.job.name).history
  reconcilers : ∀ i, (s.reconcilers i).Sound s.stores

theorem held_init : Held init where
  workers _ hc := by cases hc
  reconcilers _ := trivial

theorem Mark.copy_eq {clock w : Nat} {p : Worker} {copy : Entry NodeScanJob} {status : Status}
    (h : Mark clock w a p d copy status next) :
    p.delivery = some d ∧ p.copy = some copy := by
  cases h <;> exact ⟨rfl, rfl⟩

theorem store_step (hs : Held s) (h : step s a = some s') (name : String) :
    StoreStep s a name (s'.stores name) := by
  cases step_effect h with
  | environment | restarted | moved | delivered | acked | reconcilerMoved => exact .same
  | created hc =>
    obtain ⟨hnone, rfl⟩ := Store.create_eq_some hc
    exact storeStep_setStore rfl (.created hnone)
  | deleted => exact storeStep_setStore rfl .deleted
  | generateSent hw hm hsent =>
    rw [show (State.setWorker _ _ _).stores = s.stores from (publish_frame hsent).1]
    exact .same
  | marked hm hu =>
    obtain ⟨store, hstore, rfl, -⟩ := updateStatus_eq_stored hu
    obtain ⟨hd, hc⟩ := hm.copy_eq
    obtain ⟨hcurrent, rfl⟩ := Store.update_eq_some (hs.workers hd hc) hstore
    exact storeStep_setStore recordUnlessFinished_stores (.written hcurrent (.marked hm) _)
  | patched hp hm =>
    obtain ⟨entry, hentry, hcurrent, rfl, rfl⟩ := Store.modify_eq_some hm
    exact storeStep_setStore rfl (.patched hcurrent _)
  | scheduled hp hsent =>
    rw [show (State.setReconciler _ _ _).stores = s.stores from (publish_frame hsent).1]
    exact .same
  | @reconciled i name copy job status written hp hu =>
    obtain ⟨store, hstore, rfl, -⟩ := updateStatus_eq_stored hu
    have hsound := hs.reconcilers i
    rw [hp] at hsound
    obtain ⟨hcurrent, rfl⟩ := Store.update_eq_some hsound.1 hstore
    exact storeStep_setStore recordNodeScanJobFinished_stores (.written hcurrent (.reconciled hp) _)

/-- Where a job that is stored after a step comes from. -/
inductive Origin (s : State) (a : Action) (name : String) (job : Entry NodeScanJob) : Prop where
  | kept (hold : s.get name = some job)
  | created (huid : job.uid = (s.stores name).history.length) (hstatus : job.object.status = {})
  | patched {old : Entry NodeScanJob} (hold : s.get name = some old) (huid : job.uid = old.uid)
      (hstatus : job.object.status = old.object.status)
      (hnode : job.object.nodeName = old.object.nodeName)
  | written {old : Entry NodeScanJob} (hold : s.get name = some old) (huid : job.uid = old.uid)
      (hw : StatusWrite s a name old job.object.status)
      (hnode : job.object.nodeName = old.object.nodeName)

theorem origin (hs : Held s) (h : step s a = some s') {job : Entry NodeScanJob}
    (hj : s'.get name = some job) : Origin s a name job := by
  have hstep := store_step hs h name
  unfold State.get at hj
  generalize s'.stores name = store at hstep hj
  cases hstep with
  | same => exact .kept hj
  | created hnone =>
    cases hj
    exact .created rfl rfl
  | deleted => cases hj
  | patched hold hle =>
    cases hj
    exact .patched hold rfl rfl rfl
  | written hold hw hle =>
    cases hj
    exact .written hold rfl hw rfl

/-- A version is old, or it is what is stored now. -/
theorem history_cases (hs : Held s) (h : step s a = some s')
    (hentry : entry ∈ (s'.stores name).history) :
    entry ∈ (s.stores name).history ∨ s'.get name = some entry := by
  have hstep := store_step hs h name
  unfold State.get
  generalize s'.stores name = store at hstep hentry ⊢
  cases hstep with
  | same | deleted => exact .inl hentry
  | created | patched | written =>
    rcases mem_append.mp hentry with hold | hnew
    · exact .inl hold
    · cases mem_singleton.mp hnew
      exact .inr rfl

theorem length_history_le (hs : Held s) (h : step s a = some s') (name : String) :
    (s.stores name).history.length ≤ (s'.stores name).history.length := by
  have hstep := store_step hs h name
  generalize s'.stores name = store at hstep
  cases hstep with
  | same | deleted => exact Nat.le_refl _
  | created | patched | written => simp

theorem Reconcile.Sound.mono {stores stores' : String → Store NodeScanJob}
    (hmem : ∀ name, ∀ entry ∈ (stores name).history, entry ∈ (stores' name).history)
    {p : Reconcile} (h : p.Sound stores) : p.Sound stores' := by
  cases p with
  | idle => trivial
  | initialized name copy status | updating name copy status => exact ⟨hmem name copy h.1, h.2⟩

/-- Decoding leaves the conditions of the server's job, unless it has none. -/
theorem decode_conditions {memory : Status} {job : NodeScanJob} :
    job.jobFinished = false ∨ (memory.decode job.status).conditions = job.status.conditions := by
  by_cases h : job.status.conditions = []
  · left
    simp [NodeScanJob.jobFinished, NodeScanJob.isComplete, NodeScanJob.isFailed, NodeScanJob.is, h,
      Conditions.holds, Conditions.find]
  · right
    simp [Status.decode, h]

theorem ReconcilerStep.sound {i : Nat} {p q : Reconcile} (h : ReconcilerStep s s' i a p q)
    (hmem : ∀ name, ∀ entry ∈ (s.stores name).history, entry ∈ (s'.stores name).history)
    (hp : p.Sound s.stores) : q.Sound s'.stores := by
  cases h with
  | moved hm =>
    refine Reconcile.Sound.mono hmem ?_
    cases hm with
    | fetched hj hpending => exact ⟨hj, NodeScanJob.jobFinished_of_isPending hpending⟩
    | rejected r | incomplete => exact ⟨hp.1, .inl hp.2⟩
    | aborted => trivial
    | refused => trivial
  | ended => trivial
  | patched hstored => exact ⟨hstored, decode_conditions⟩
  | scheduled => exact ⟨hmem _ _ hp.1, .inl hp.2⟩

theorem held_step (hs : Held s) (h : step s a = some s') : Held s' := by
  have hmem : ∀ name, ∀ entry ∈ (s.stores name).history, entry ∈ (s'.stores name).history :=
    fun name entry hentry => (store_step hs h name).mem_history hentry
  constructor
  · intro w d copy hd hc
    apply hmem
    rcases worker_step h w with hsame | hstep
    · rw [hsame] at hd hc
      exact hs.workers hd hc
    · obtain ⟨-, -, hget⟩ := hstep.copy hd hc
      exact (s.stores _).current_mem copy hget
  · intro i
    rcases reconciler_step h i with hsame | hstep
    · rw [hsame]
      exact (hs.reconcilers i).mono hmem
    · exact hstep.sound hmem (hs.reconcilers i)

end SbomScanner.NodeScan

import SbomScanner.NodeScan.Messages
import SbomScanner.NodeScan.Terminal

/-!
# Unfinished NodeScanJobs

Nothing but a message gets an unfinished NodeScanJob on: the reconciler leaves it alone once it is
scheduled, and the runner starts no second job for a node whose last one is not finished. So the
last message of a job must not go before the job is finished.

A handler is through with a message when it has published the next one, when it has finished the
job, or when the job is gone. It also stops, and has its message acknowledged, when it does not find
the node, the NodeScanConfiguration or the NodeSBOM, the last two after it has put the job in
progress; and the failure of a handler may be lost. The theorem of this module,
`unfinished_nodeScanJob_attended`, is about the runs in which that does not happen to an unfinished
job; each of its conditions is needed (`nodeScanJob_abandoned`).

Of a node that is gone nothing is expected, so a job may lose its message because of that. But then
the node must not come back. Since a node may also be missing at times when nobody asks for it, the
theorem is for any choice of the nodes that are found when they are asked for (`steady`); the others
are not created again before their jobs are finished.
-/

namespace SbomScanner.NodeScan

open Transition Function

open Versioned (Entry Store)

variable {s s' : State} {a : Action} {name : String} {steady : String → Bool}

/-! ## The guard -/

def State.unfinished (s : State) (ref : ObjectRef) : Bool :=
  (s.get ref.name).any fun job => job.uid = ref.uid && !job.object.jobFinished

/-- The worker whose handler is about to stop because it does not find what it needs, or whose
failure is about to be lost. -/
def stopper (steady : String → Bool) (s : State) : Action → Option Nat
  | .generateNode w =>
    match (s.workers w).delivery.map Delivery.message with
    | some (.generateNodeSBOM _ node) =>
      if node ∉ s.nodes ∧ steady node = true then some w else none
    | _ => none
  | .generateConfiguration w => if s.configured then none else some w
  | .scanSBOM w =>
    match (s.workers w).delivery.map Delivery.message with
    | some (.scanNodeSBOM _ nodeSBOM) => if nodeSBOM ∈ s.nodeSBOMs then none else some w
    | _ => none
  | .failureGiveUp w => some w
  | _ => none

def Action.createdNode : Action → Option String
  | .createNode node => some node
  | _ => none

/-- The step leaves an unfinished job what it needs. -/
structure Unbroken (steady : String → Bool) (s : State) (a : Action) : Prop where
  own : FindsOwnJob s a
  noReopening : NoReopening s a
  found : ∀ w ∈ stopper steady s a, ∀ d ∈ (s.workers w).delivery, s.unfinished d.job = false
  node : ∀ node ∈ a.createdNode, node ∈ s.nodes ∨ steady node = true ∨
    ∀ name, ∀ job ∈ s.get name, job.object.nodeName = node → job.object.jobFinished = true

variable {ref : ObjectRef}

theorem ended_of_unfinished (hknown : ref.uid < (s.stores ref.name).history.length)
    (h : s.unfinished ref = false) :
    Ended s ref := by
  refine ⟨hknown, fun {job} hj huid => ?_⟩
  simpa [State.unfinished, hj, huid] using h

/-! ## What is owed -/

/-- Nobody waits for the job: it is finished or gone, or its node is gone for good. -/
structure Excused (steady : String → Bool) (s : State) (ref : ObjectRef) : Prop where
  known : ref.uid < (s.stores ref.name).history.length
  excuse : ∀ {job}, s.get ref.name = some job → job.uid = ref.uid →
    job.object.jobFinished = true ∨
      job.object.nodeName ∉ s.nodes ∧ steady job.object.nodeName = false

theorem excused_of_ended (h : Ended s ref) : Excused steady s ref :=
  ⟨h.known, fun hj huid => .inl (h.finished hj huid)⟩

theorem excused_step (hs : Held s) (hg : Unbroken steady s a) (h : step s a = some s')
    (hex : Excused steady s ref) : Excused steady s' ref := by
  refine ⟨Nat.lt_of_lt_of_le hex.known (length_history_le hs h ref.name), ?_⟩
  intro job hj huid
  have hknown : job.uid < (s.stores ref.name).history.length := by
    rw [huid]
    exact hex.known
  obtain ⟨old, hold, hsame, hnode, hfin⟩ := predecessor hs hg.noReopening h hj hknown
  rcases hex.excuse hold (hsame.trans huid) with hfinished | ⟨hgone, hunsteady⟩
  · exact .inl (hfin hfinished)
  · rw [hnode] at hgone hunsteady
    by_cases hback : job.object.nodeName ∈ s'.nodes
    · -- it is created again, so the job is finished
      rcases nodes_cases h hback with hthere | rfl
      · exact absurd hthere hgone
      · rcases hg.node _ rfl with hthere | hsteady | hall
        · exact absurd hthere hgone
        · rw [hunsteady] at hsteady
          cases hsteady
        · exact .inl (hfin (hall ref.name old hold hnode))
    · exact .inr ⟨hback, hunsteady⟩

/-- What has to be the case before the message may leave the stream. -/
def Discharged (steady : String → Bool) (s : State) : Message → Prop
  | .generateNodeSBOM ref _ =>
    Excused steady s ref ∨ ∃ node, .nodeScanSBOM ref node ∈ s.published
  | .scanNodeSBOM ref _ => Ended s ref

theorem discharged_of_ended {m : Message} (h : Ended s m.nodeScanJob) : Discharged steady s m := by
  cases m with
  | generateNodeSBOM ref node => exact .inl (excused_of_ended h)
  | scanNodeSBOM ref nodeSBOM => exact h

theorem Discharged.step (hs : Held s) (hg : Unbroken steady s a) (h : step s a = some s')
    {m : Message} (hm : Discharged steady s m) : Discharged steady s' m := by
  cases m with
  | generateNodeSBOM ref node =>
    rcases hm with hex | ⟨node', hid⟩
    · exact .inl (excused_step hs hg h hex)
    · exact .inr ⟨node', published_mono h hid⟩
  | scanNodeSBOM ref nodeSBOM => exact ended_step hs hg.noReopening h hm

/-- What a worker has made sure of, as far as it matters at the end of its handler. -/
def Worker.Settles (steady : String → Bool) (s : State) : Worker → Prop
  | .generateNode d job => job.object.isFailed = true → Ended s d.job
  | .generateConfiguration d job | .generateCreating d job | .generateClosing d job
  | .generatePublishing d job => job.uid = d.job.uid
  | .handled d => Discharged steady s d.message
  | _ => True

/-- The id under which a handler publishes the message, if it has the job of the message. -/
def Message.messageID : Message → MessageID
  | .generateNodeSBOM ref _ => .generateNodeSBOM ref
  | .scanNodeSBOM ref node => .nodeScanSBOM ref node

structure Owed (steady : String → Bool) (s : State) : Prop where
  held : Held s
  own : OwnCopies s
  numbered : Numbered s
  traced : Traced s
  announced : Announced s
  workers : ∀ w, (s.workers w).Settles steady s
  message : ∀ {id}, id ∈ s.published → ∃ m : Message, m.messageID = id ∧
    ((∃ e ∈ s.stream, e.message = m) ∨ Discharged steady s m)

theorem owed_init : Owed steady init where
  held := held_init
  own hd _ := by cases hd
  numbered := numbered_init
  traced := traced_init
  announced := announced_init
  workers _ := trivial
  message h := by cases h

/-! ## The handlers -/

variable {w : Nat} {p : Worker} {d : Delivery}

theorem Owed.known (ho : Owed steady s) (hw : s.workers w = p) (hd : p.delivery = some d) :
    d.job.uid < (s.stores d.job.name).history.length :=
  ho.traced.known (ho.traced.first (carried_of_delivery hw hd))

/-- A handler that stops on its own leaves nothing undone. -/
theorem discharged_of_move (ho : Owed steady s) (hg : Unbroken steady s a) (hp : s.workers w = p)
    (hm : Move s w a p (.handled d)) :
    Discharged steady s d.message := by
  have hdelivery : p.delivery = some d := hm.delivery_eq rfl
  have hknown := ho.known hp hdelivery
  have hstop : stopper steady s a = some w → Ended s d.job := by
    intro hstopper
    refine ended_of_unfinished hknown (hg.found w hstopper d ?_)
    rw [hp]
    exact hdelivery
  cases hm with
  | jobGone hd hnone =>
    have hended : Ended s d.job := by
      refine ⟨hknown, fun hj _ => ?_⟩
      rw [hnone] at hj
      cases hj
    exact discharged_of_ended hended
  | @generateStopped _ ref node job hmessage hwhy =>
    rcases hwhy with hmissing | hfailed
    · cases hsteady : steady node with
      | true =>
        refine discharged_of_ended (hstop ?_)
        simp [stopper, hp, Worker.delivery, hmessage, hmissing, hsteady]
      | false =>
        -- the node of the message is the node of the job
        have hcarried := carried_of_delivery hp hdelivery
        rw [hmessage] at hcarried ⊢
        rw [Delivery.job, hmessage] at hknown
        refine .inl ⟨hknown, fun {job} hj huid => .inr ?_⟩
        rw [ho.traced.node hcarried ((s.stores _).current_mem job hj) huid]
        exact ⟨hmissing, hsteady⟩
    · have hsettled := ho.workers w
      rw [hp] at hsettled
      exact discharged_of_ended (hsettled hfailed)
  | generateUnconfigured hconf =>
    refine discharged_of_ended (hstop ?_)
    simp [stopper, hconf]
  | scanSkipped hj hskip =>
    have hended : Ended s d.job := by
      refine ⟨hknown, fun hj' huid => ?_⟩
      rw [hj] at hj'
      cases hj'
      exact hskip.resolve_left fun hne => hne huid
    exact discharged_of_ended hended
  | scanMissing hmessage hmissing =>
    refine discharged_of_ended (hstop ?_)
    simp [stopper, hp, Worker.delivery, hmessage, hmissing]
  | gaveUp hd => exact discharged_of_ended (hstop rfl)

theorem settles_of_move (ho : Owed steady s) (hg : Unbroken steady s a) {q : Worker}
    (hp : s.workers w = p) (hm : Move s w a p q) : q.Settles steady s := by
  have hsettled := ho.workers w
  rw [hp] at hsettled
  cases q with
  | handled d => exact discharged_of_move ho hg hp hm
  | generateNode d job =>
    cases hm with
    | generateFetched hj =>
      intro hfailed
      refine ⟨ho.known hp rfl, fun hj' _ => ?_⟩
      rw [hj] at hj'
      cases hj'
      simp [NodeScanJob.jobFinished, hfailed]
  | generateCreating d job | generateClosing d job | generatePublishing d job =>
    cases hm
    exact hsettled
  | generateConfiguration d job => cases hm
  | _ => trivial

theorem Worker.Settles.step (hp : p.Settles steady s) (hs : Held s) (hg : Unbroken steady s a)
    (h : step s a = some s') : p.Settles steady s' := by
  cases p with
  | generateNode d job => exact fun hfailed => ended_step hs hg.noReopening h (hp hfailed)
  | handled d => exact Discharged.step hs hg h hp
  | _ => exact hp

theorem settles_setWorker {t : State} {q : Worker} (ht : t.workers = s.workers)
    (hold : ∀ w', (s.workers w').Settles steady s') (hq : q.Settles steady s') (w' : Nat) :
    ((t.setWorker w q).workers w').Settles steady s' := by
  have hset : (t.setWorker w q).workers = update s.workers w q := by
    rw [← ht]
    rfl
  rw [hset]
  by_cases hw : w' = w
  · subst hw
    rw [update_self]
    exact hq
  · rw [update_of_ne hw]
    exact hold w'

variable {job : Entry NodeScanJob}

section

variable (ho : Owed steady s)
include ho

theorem settles_of_mark {copy : Entry NodeScanJob} {status : Status}
    {next : Entry NodeScanJob → Worker} {written : State}
    (hm : Mark s.clock w a (s.workers w) d copy status next)
    (hu : s.updateStatus d.job.name copy status = .stored written job)
    (hstores : s'.stores = written.stores) : (next job).Settles steady s' := by
  obtain ⟨hd, hc⟩ := hm.copy_eq
  have huid : copy.uid = d.job.uid := ho.own hd hc
  have hmem := ho.held.workers hd hc
  have hended : job.object.jobFinished = true → Discharged steady s' d.message := by
    intro hfin
    have h := ended_of_stored hmem hu hstores hfin
    rw [huid] at h
    exact discharged_of_ended h
  obtain ⟨store, -, -, rfl⟩ := updateStatus_eq_stored hu
  generalize s.workers w = p at hm
  cases hm with
  | generate => exact huid
  | scan => trivial
  | complete | failure =>
    exact hended ((NodeScanJob.jobFinished_congr rfl).trans (NodeScanJob.jobFinished_mark ..))

theorem owed_workers (hg : Unbroken steady s a) (h : step s a = some s') (w : Nat) :
    (s'.workers w).Settles steady s' := by
  have hold : ∀ w, (s.workers w).Settles steady s' :=
    fun w => (ho.workers w).step ho.held hg h
  have heffect := step_effect h
  cases heffect with
  | moved nodeSBOMs reports hm =>
    exact settles_setWorker rfl hold ((settles_of_move ho hg rfl hm).step ho.held hg h) w
  | delivered | acked =>
    refine settles_setWorker rfl hold ?_ w
    trivial
  | @generateSent w' dropped d ref node job sent hw hmessage hs =>
    refine settles_setWorker (publish_frame hs).2.1 hold ?_ w
    have hid := mem_of_publish hs
    have huid := ho.workers w'
    rw [hw] at huid
    show Discharged _ _ d.message
    rw [show job.uid = _ from huid, Delivery.job, hmessage] at hid
    rw [hmessage]
    exact .inr ⟨node, hid⟩
  | marked hm hu =>
    refine settles_setWorker ?_ hold (settles_of_mark ho hm hu ?_) w
    · obtain ⟨store, -, rfl, -⟩ := updateStatus_eq_stored hu
      exact recordUnlessFinished_workers
    · exact recordUnlessFinished_stores
  | scheduled hp hs =>
    rw [show (State.setReconciler _ _ _).workers = _ from (publish_frame hs).2.1]
    exact hold w
  | reconciled hp hu =>
    obtain ⟨store, -, rfl, -⟩ := updateStatus_eq_stored hu
    rw [show (State.setReconciler _ _ _).workers = _ from recordNodeScanJobFinished_workers]
    exact hold w
  | _ => exact hold w

theorem owed_message (hg : Unbroken steady s a) (h : step s a = some s') {id : MessageID}
    (hid : id ∈ s'.published) : ∃ m : Message, m.messageID = id ∧
      ((∃ e ∈ s'.stream, e.message = m) ∨ Discharged steady s' m) := by
  rcases published_cases h hid with hold | ⟨m, hsender, hnew⟩
  · obtain ⟨m, hm, hin | hdone⟩ := ho.message hold
    · refine ⟨m, hm, ?_⟩
      rcases (queue_step h).exists_message ho.numbered (fun _ => holds_of_done) hin with
        hkept | ⟨d, ⟨w, hw⟩, rfl⟩
      · exact .inl hkept
      · have hsettled := ho.workers w
        rw [hw] at hsettled
        exact .inr (Discharged.step ho.held hg h hsettled)
    · exact ⟨m, hm, .inr (hdone.step ho.held hg h)⟩
  · refine ⟨m, ?_, .inl hnew⟩
    cases hsender with
    | reconciler hp => rfl
    | @generate w d job ref node hw hmessage =>
      have huid := ho.workers w
      rw [hw] at huid
      rw [show job.uid = _ from huid, Delivery.job, hmessage]
      rfl

theorem owed_step (hg : Unbroken steady s a) (h : step s a = some s') :
    Owed steady s' where
  held := held_step ho.held h
  own := ownCopies_step hg.own ho.own h
  numbered := numbered_step ho.numbered h
  traced := traced_step ho.held ho.traced h
  announced := announced_step ho.held ho.own ho.traced ho.announced h
  workers := owed_workers ho hg h
  message := owed_message ho hg h

end

/-! ## Messages of unfinished jobs -/

/-- An unfinished job whose node is there is not excused. -/
theorem not_excused (hj : s.get ref.name = some job) (huid : job.uid = ref.uid)
    (hopen : job.object.jobFinished = false) (hnode : job.object.nodeName ∈ s.nodes) :
    ¬Excused steady s ref := by
  intro hex
  rcases hex.excuse hj huid with hfin | ⟨hgone, -⟩
  · rw [hopen] at hfin
    cases hfin
  · exact hgone hnode

/-- Once its second message is published, that message is in the stream. -/
theorem Owed.scan_mem (ho : Owed steady s) {node : String}
    (hid : .nodeScanSBOM ref node ∈ s.published) (hne : ¬Excused steady s ref) :
    ∃ e ∈ s.stream, e.message = .scanNodeSBOM ref node := by
  obtain ⟨m, hm, hin⟩ := ho.message hid
  cases m with
  | generateNodeSBOM => cases hm
  | scanNodeSBOM =>
    cases hm
    exact hin.resolve_right fun hended => hne (excused_of_ended hended)

/-- Until then it is the first one. -/
theorem Owed.message_mem (ho : Owed steady s) (hid : .generateNodeSBOM ref ∈ s.published)
    (hne : ¬Excused steady s ref) :
    ∃ e ∈ s.stream, e.job = ref := by
  obtain ⟨m, hm, hin⟩ := ho.message hid
  cases m with
  | scanNodeSBOM => cases hm
  | generateNodeSBOM ref node =>
    cases hm
    rcases hin with ⟨e, he, hmessage⟩ | hex | ⟨node', hid'⟩
    · exact ⟨e, he, congrArg Message.nodeScanJob hmessage⟩
    · exact absurd hex hne
    · obtain ⟨e, he, hmessage⟩ := ho.scan_mem hid' hne
      exact ⟨e, he, congrArg Message.nodeScanJob hmessage⟩

/-- A message that is about to be acknowledged is not the last one. -/
theorem Owed.other_mem (ho : Owed steady s) (hw : s.workers w = .handled d)
    (hne : ¬Excused steady s d.job) :
    ∃ e ∈ s.stream, e.seq ≠ d.seq ∧ e.job = d.job := by
  have hdone := ho.workers w
  rw [hw, Worker.Settles] at hdone
  cases hmessage : d.message with
  | scanNodeSBOM ref nodeSBOM =>
    rw [hmessage] at hdone
    rw [Delivery.job, hmessage] at hne
    exact absurd (excused_of_ended hdone) hne
  | generateNodeSBOM ref node =>
    rw [hmessage] at hdone
    rw [Delivery.job, hmessage] at hne ⊢
    obtain ⟨node', hid⟩ := hdone.resolve_left hne
    obtain ⟨e, he, hscanned⟩ := ho.scan_mem hid hne
    have hjob : e.job = ref := congrArg Message.nodeScanJob hscanned
    refine ⟨e, he, fun hseq => ?_, hjob⟩
    -- the same number would mean the same message
    have hsame := ho.numbered.held_eq he (holds_of_done ⟨w, hw⟩) hseq
    rw [hscanned, hmessage] at hsame
    cases hsame

/-! ## Every run -/

/-- **Unfinished jobs have a message.** In every run in which nothing that an unfinished job needs
is missed, a job that is scheduled or in progress and whose node exists has a message in the stream;
and a message whose handler is through with it is not the last one of an unfinished job. -/
theorem unfinished_nodeScanJob_attended {as : List Action}
    (hg : Transition.Along (Unbroken steady) step init as)
    (hs : exec step init as = some s) :
    (∀ name job, s.get name = some job →
      job.object.isScheduled = true ∨ job.object.isInProgress = true →
      job.object.nodeName ∈ s.nodes → ∃ e ∈ s.stream, e.job = ⟨name, job.uid⟩) ∧
    ∀ w d job, s.workers w = .handled d → s.get d.job.name = some job → job.uid = d.job.uid →
      job.object.jobFinished = false → job.object.nodeName ∈ s.nodes →
      ∃ e ∈ s.stream, e.seq ≠ d.seq ∧ e.job = d.job := by
  have ho : Owed steady s := exec_invariant_along
    (fun _ _ _ ht hgb hb => owed_step ht hgb hb) owed_init hg hs
  constructor
  · intro name job hj hway hnode
    obtain ⟨hopen, hid⟩ := ho.announced.stored ((s.stores name).current_mem job hj) hway
    exact ho.message_mem hid (not_excused hj rfl hopen hnode)
  · intro w d job hw hj huid hopen hnode
    exact ho.other_mem hw (not_excused hj huid hopen hnode)

/-- The guard when every node is steady. -/
def Undisturbed (s : State) (a : Action) : Prop :=
  FindsOwnJob s a ∧ NoReopening s a ∧
    ∀ w ∈ stopper (fun _ => true) s a, ∀ d ∈ (s.workers w).delivery, s.unfinished d.job = false

instance (s : State) (a : Action) : Decidable (Undisturbed s a) :=
  inferInstanceAs (Decidable (FindsOwnJob s a ∧ NoReopening s a ∧
    ∀ w ∈ stopper (fun _ => true) s a, ∀ d ∈ (s.workers w).delivery, s.unfinished d.job = false))

theorem unbroken_of_undisturbed (h : Undisturbed s a) : Unbroken (fun _ => true) s a :=
  ⟨h.1, h.2.1, h.2.2, fun _ _ => .inr (.inl rfl)⟩

/-- The node restarts before the worker asks for it, and the worker has just published the second
message. -/
def nodeRestarted : List Action :=
  scheduleJob ++ [Action.deleteNode "node-1", .createNode "node-1"] ++ generateNodeSBOM 0 1

theorem unfinished_nodeScanJob_attended_nodeRestarted :
    ∃ s job d, exec step init nodeRestarted = some s ∧ s.get "scan" = some job ∧
      job.object.isInProgress = true ∧ s.workers 0 = .handled d ∧
      (∃ e ∈ s.stream, e.job = ⟨"scan", job.uid⟩) ∧
      ∃ e ∈ s.stream, e.seq ≠ d.seq ∧ e.job = d.job := by
  have hg : Transition.Along (Unbroken fun _ => true) step init nodeRestarted :=
    Transition.Along.mono (fun _ _ => unbroken_of_undisturbed)
      (by decide : Transition.Along Undisturbed step init nodeRestarted)
  exact ⟨_, _, _, rfl, rfl, rfl, rfl,
    (unfinished_nodeScanJob_attended hg rfl).1 "scan" _ rfl (.inr rfl) (by decide),
    (unfinished_nodeScanJob_attended hg rfl).2 0 _ _ rfl rfl rfl rfl (by decide)⟩

/-! ## Jobs without a message -/

/-- The job is scheduled or in progress, its node exists, and no message has its UID, neither in the
stream nor with a worker. -/
def Abandoned (s : State) (name : String) : Prop :=
  ∃ job, s.get name = some job ∧ UnderWay job.object ∧ job.object.nodeName ∈ s.nodes ∧
    ¬∃ m, Carried s m ∧ m.nodeScanJob = ⟨name, job.uid⟩

theorem abandoned_of_get (hj : s.get name = some job) (hway : UnderWay job.object)
    (hnode : job.object.nodeName ∈ s.nodes) (hstream : ∀ e ∈ s.stream, e.job ≠ ⟨name, job.uid⟩)
    (hworkers : ∀ w, ∀ d ∈ (s.workers w).delivery, d.job ≠ ⟨name, job.uid⟩) :
    Abandoned s name := by
  refine ⟨job, hj, hway, hnode, ?_⟩
  rintro ⟨m, ⟨e, he, rfl⟩ | ⟨d, ⟨w, hd⟩, rfl⟩, hm⟩
  · exact hstream e he hm
  · exact hworkers w d hd hm

/-- The configuration is deleted after the job is marked in progress, and created again later. -/
def configurationDeleted : List Action :=
  scheduleJob ++ [Action.deliver 0 1, .generateGet 0, .generateNode 0, .generateMarkGet 0,
    .generateMark 0, .setConfigured false, .generateConfiguration 0, .ack 0, .setConfigured true]

def nodeSBOMDeleted : List Action :=
  scheduleJob ++ generateNodeSBOM 0 1 ++ [Action.ack 0, .deliver 0 2, .scanGet 0, .scanMarkGet 0,
    .scanMark 0, .deleteNodeSBOM "node-1", .scanSBOM 0, .ack 0]

/-- The node is not there when its message is handled. -/
def nodeRecreated : List Action :=
  scheduleJob ++ [Action.deleteNode "node-1", .deliver 0 1, .generateGet 0, .generateNode 0, .ack 0,
    .createNode "node-1"]

/-- The API server cannot be reached, in the end not by the failure handler either. -/
def failureUnrecorded : List Action :=
  let attempt : List Action := [.deliver 0 1, .handlerError 0 "connection refused"]
  scheduleJob ++ (attempt ++ [Action.nak 0]) ++ (attempt ++ [Action.nak 0]) ++
    (attempt ++ [Action.nak 0]) ++ (attempt ++ [Action.nak 0]) ++ attempt ++
    [Action.failureGiveUp 0, .ack 0]

/-- A complete job is taken back by its first message, whose second message is not published
again. -/
def reopenedInVain : List Action :=
  nodeScannedUnacknowledged ++ generateRedelivered ++ [Action.generateConfiguration 0,
    .generateCreate 0, .generateGetFinal 0, .generatePublish 0 true, .ack 0]

/-- The job is created again, and is put in progress by the message of its predecessor. -/
def markedBeforeScheduled : List Action := recreatedBeforeDelivery ++ [Action.generateMark 0]

theorem nodeScanJob_abandoned :
    (∃ s, exec step init configurationDeleted = some s ∧ Abandoned s "scan") ∧
    (∃ s, exec step init nodeSBOMDeleted = some s ∧ Abandoned s "scan") ∧
    (∃ s, exec step init nodeRecreated = some s ∧ Abandoned s "scan") ∧
    (∃ s, exec step init failureUnrecorded = some s ∧ Abandoned s "scan") ∧
    (∃ s, exec step init reopenedInVain = some s ∧ Abandoned s "scan") ∧
    ∃ s, exec step init markedBeforeScheduled = some s ∧ Abandoned s "scan" := by
  refine ⟨?_, ?_, ?_, ?_, ?_, ?_⟩
  · exact ⟨_, rfl, abandoned_of_get rfl (.inr rfl) (by decide) (by decide)
      fun w => by cases w <;> nofun⟩
  · exact ⟨_, rfl, abandoned_of_get rfl (.inr rfl) (by decide) (by decide)
      fun w => by cases w <;> nofun⟩
  · exact ⟨_, rfl, abandoned_of_get rfl (.inl rfl) (by decide) (by decide)
      fun w => by cases w <;> nofun⟩
  · exact ⟨_, rfl, abandoned_of_get rfl (.inl rfl) (by decide) (by decide)
      fun w => by cases w <;> nofun⟩
  · exact ⟨_, rfl, abandoned_of_get rfl (.inr rfl) (by decide) (by decide)
      fun w => by cases w <;> nofun⟩
  · refine ⟨_, rfl, abandoned_of_get rfl (.inr rfl) (by decide) (by decide) fun w => ?_⟩
    cases w with
    | zero => decide
    | succ w => nofun

end SbomScanner.NodeScan

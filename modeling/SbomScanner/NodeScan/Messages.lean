import SbomScanner.Lib.Queue
import SbomScanner.NodeScan.Ownership

/-!
# Node messages

What a step does to the stream, and where messages and states come from. A delivery carries the
message of the entry it will acknowledge (`Numbered`). Every message goes back to the
`GenerateNodeSBOM` message that the reconciler published for the job, and names the node of the job
(`Traced`). As long as the handlers write their own jobs, a job that is scheduled or in progress has
been announced in that way (`Announced`).
-/

namespace SbomScanner.NodeScan

open List

open Versioned (Entry Store)

variable {s s' : State} {a : Action} {name : String}

/-! ## The stream -/

/-- Who publishes a message, and under which id. -/
inductive Sender (s : State) : MessageID → Message → Prop where
  | reconciler {i : Nat} {name : String} {copy : Entry NodeScanJob} {status : Status}
      (hp : s.reconcilers i = .initialized name copy status) :
      Sender s (.generateNodeSBOM ⟨name, copy.uid⟩)
        (.generateNodeSBOM ⟨name, copy.uid⟩ copy.object.nodeName)
  | generate {w : Nat} {d : Delivery} {job : Entry NodeScanJob} {ref : ObjectRef} {node : String}
      (hw : s.workers w = .generatePublishing d job) (hm : d.message = .generateNodeSBOM ref node) :
      Sender s (.nodeScanSBOM ⟨ref.name, job.uid⟩ node) (.scanNodeSBOM ref node)

inductive BusStep (s : State) : Bus → Prop where
  | same : BusStep s s.toBus
  | sent {id : MessageID} {m : Message} (hm : Sender s id m) :
      BusStep s ⟨s.stream ++ [⟨s.nextSeq, 0, m⟩], id :: s.published, s.nextSeq + 1⟩
  | delivered {e : Delivery} (he : e ∈ s.stream) :
      BusStep s ⟨s.stream.map fun (e' : Delivery) =>
          if e'.seq = e.seq then { e with numDelivered := e.numDelivered + 1 } else e',
        s.published, s.nextSeq⟩
  | acked {w : Nat} {d : Delivery} (hw : s.workers w = .handled d) :
      BusStep s ⟨s.stream.filter fun (e : Delivery) => e.seq ≠ d.seq, s.published, s.nextSeq⟩

variable {id : MessageID} {m : Message}

theorem bus_publish {dropped : Bool} {sent : State} (h : s.publish id m dropped = some sent)
    (hm : Sender s id m) : BusStep s sent.toBus := by
  rcases publish_cases h with ⟨rfl, -⟩ | rfl
  · exact .same
  · exact .sent hm

variable {copy : Entry NodeScanJob} {status : Status}

/-- A status update touches neither the stream nor the nodes, nor does counting the job. -/
theorem stored_frame {job : Entry NodeScanJob} {written t : State}
    (hu : s.updateStatus name copy status = .stored written job)
    (ht : ∃ recorded, t = { written with recorded := recorded }) :
    t.toBus = s.toBus ∧ t.nodes = s.nodes := by
  obtain ⟨store, -, rfl, -⟩ := updateStatus_eq_stored hu
  obtain ⟨recorded, rfl⟩ := ht
  exact ⟨rfl, rfl⟩

section

variable (h : step s a = some s')
include h

theorem bus_step : BusStep s s'.toBus := by
  cases step_effect h with
  | @delivered w seq e hw he =>
    have hseq : e.seq = seq := by simpa using List.find?_some he
    subst hseq
    exact .delivered (mem_of_find?_eq_some he)
  | acked hw => exact .acked hw
  | generateSent hw hm hs =>
    have hb := bus_publish hs (.generate hw hm)
    exact hb
  | scheduled hp hs =>
    have hb := bus_publish hs (.reconciler hp)
    exact hb
  | marked hm hu =>
    show BusStep s (State.recordUnlessFinished _ _ _ _).toBus
    rw [(stored_frame hu recordUnlessFinished_frame).1]
    exact .same
  | reconciled hp hu =>
    show BusStep s (State.recordNodeScanJobFinished _ _ _).toBus
    rw [(stored_frame hu recordNodeScanJobFinished_frame).1]
    exact .same
  | _ => exact .same

theorem nodes_cases {node : String} (hnode : node ∈ s'.nodes) :
    node ∈ s.nodes ∨ a = .createNode node := by
  cases step_effect h with
  | environment clock nodes configured nodeSBOMs reports hnodes => exact hnodes node hnode
  | generateSent hw hm hs | scheduled hp hs =>
    rcases publish_cases hs with ⟨rfl, -⟩ | rfl
    · exact .inl hnode
    · exact .inl hnode
  | marked hm hu =>
    change node ∈ (State.recordUnlessFinished _ _ _ _).nodes at hnode
    rw [(stored_frame hu recordUnlessFinished_frame).2] at hnode
    exact .inl hnode
  | reconciled hp hu =>
    change node ∈ (State.recordNodeScanJobFinished _ _ _).nodes at hnode
    rw [(stored_frame hu recordNodeScanJobFinished_frame).2] at hnode
    exact .inl hnode
  | _ => exact .inl hnode

theorem published_mono (hid : id ∈ s.published) : id ∈ s'.published := by
  have hb := bus_step h
  generalize s'.toBus = bus at hb ⊢
  cases hb with
  | sent hm => exact mem_cons_of_mem _ hid
  | _ => exact hid

theorem published_cases (hid : id ∈ s'.published) :
    id ∈ s.published ∨ ∃ m, Sender s id m ∧ ∃ e ∈ s'.stream, e.message = m := by
  have hb := bus_step h
  generalize s'.toBus = bus at hb hid ⊢
  cases hb with
  | @sent _ m hm =>
    rcases mem_cons.mp hid with rfl | hold
    · exact .inr ⟨m, hm, _, mem_append_right _ mem_cons_self, rfl⟩
    · exact .inl hold
  | _ => exact .inl hid

end

/-! ## Sequence numbers -/

def Holds (s : State) (d : Delivery) : Prop := ∃ w, (s.workers w).delivery = some d

def Done (s : State) (d : Delivery) : Prop := ∃ w, s.workers w = .handled d

variable {d : Delivery}

theorem holds_of_done (h : Done s d) : Holds s d := by
  obtain ⟨w, hw⟩ := h
  refine ⟨w, ?_⟩
  rw [hw]
  rfl

def Numbered (s : State) : Prop :=
  Queue.Numbered Delivery.seq Delivery.message s.stream (Holds s) s.nextSeq

theorem numbered_init : Numbered init where
  entries_lt h := by cases h
  held_lt h := by
    obtain ⟨w, hd⟩ := h
    cases hd
  message_eq h := by cases h
  held_eq h := by cases h

theorem queue_step (h : step s a = some s') :
    Queue.Step Delivery.seq Delivery.message s.stream (Done s) s.nextSeq s'.stream s'.nextSeq := by
  have hb := bus_step h
  generalize s'.toBus = bus at hb ⊢
  cases hb with
  | same => exact .same
  | sent hm => exact .sent rfl
  | delivered he => exact .delivered he rfl rfl
  | acked hw => exact .acked ⟨_, hw⟩

theorem Move.delivery_eq {w : Nat} {p q : Worker} (h : Move s w a p q) (hd : q.delivery = some d) :
    p.delivery = some d := by
  cases h with
  | crash | nak => cases hd
  | error hp | jobGone hp | gaveUp hp =>
    cases hd
    exact hp
  | _ => exact hd

/-- A worker has a message because it has just taken it from the stream, or since before. -/
theorem holds_cases (h : step s a = some s') (hd : Holds s' d) :
    Holds s d ∨ ∃ e ∈ s.stream, e.seq = d.seq ∧ e.message = d.message := by
  obtain ⟨w, hw⟩ := hd
  rcases worker_step h w with hsame | hstep
  · rw [hsame] at hw
    exact .inl ⟨w, hw⟩
  · generalize s'.workers w = q at hstep hw
    generalize hp : s.workers w = p at hstep
    have hold : p.delivery = some d → Holds s d := by
      intro hpd
      refine ⟨w, ?_⟩
      rw [hp]
      exact hpd
    cases hstep with
    | moved hm => exact .inl (hold (hm.delivery_eq hw))
    | delivered he =>
      cases hw
      exact .inr ⟨_, mem_of_find?_eq_some he, rfl, rfl⟩
    | acked => cases hw
    | sent => exact .inl (hold hw)
    | marked hm =>
      refine .inl (hold ?_)
      cases hm <;> exact hw

theorem numbered_step (hn : Numbered s) (h : step s a = some s') : Numbered s' :=
  Queue.Numbered.step hn (queue_step h) fun _ hd => holds_cases h hd

/-! ## Where messages come from -/

def Carried (s : State) (m : Message) : Prop :=
  (∃ e ∈ s.stream, e.message = m) ∨ ∃ d, Holds s d ∧ d.message = m

theorem carried_of_delivery {w : Nat} {p : Worker} (hw : s.workers w = p)
    (hd : p.delivery = some d) : Carried s d.message := by
  subst hw
  exact .inr ⟨d, ⟨w, hd⟩, rfl⟩

/-- A message that is new in the stream has been published just now. -/
theorem carried_cases (h : step s a = some s') (hm : Carried s' m) :
    Carried s m ∨ ∃ id, Sender s id m ∧ id ∈ s'.published := by
  rcases hm with ⟨e, he, rfl⟩ | ⟨d, hd, rfl⟩
  · have hb := bus_step h
    generalize s'.toBus = bus at hb he ⊢
    cases hb with
    | same => exact .inl (.inl ⟨e, he, rfl⟩)
    | @sent id m hm =>
      rcases mem_append.mp he with hold | hnew
      · exact .inl (.inl ⟨e, hold, rfl⟩)
      · cases mem_singleton.mp hnew
        exact .inr ⟨id, hm, mem_cons_self⟩
    | @delivered e₀ he₀ =>
      obtain ⟨e', he', rfl⟩ := mem_map.mp he
      split
      · exact .inl (.inl ⟨e₀, he₀, rfl⟩)
      · exact .inl (.inl ⟨e', he', rfl⟩)
    | acked hw => exact .inl (.inl ⟨e, mem_of_mem_filter he, rfl⟩)
  · rcases holds_cases h hd with hold | ⟨e, he, -, hmessage⟩
    · exact .inl (.inr ⟨d, hold, rfl⟩)
    · exact .inl (.inl ⟨e, he, hmessage⟩)

structure Traced (s : State) : Prop where
  known : ∀ {ref}, .generateNodeSBOM ref ∈ s.published →
    ref.uid < (s.stores ref.name).history.length
  first : ∀ {m}, Carried s m → .generateNodeSBOM m.nodeScanJob ∈ s.published
  nodeName : ∀ {name entry entry'}, entry ∈ (s.stores name).history →
    entry' ∈ (s.stores name).history → entry.uid = entry'.uid →
    entry.object.nodeName = entry'.object.nodeName
  node : ∀ {ref node entry}, Carried s (.generateNodeSBOM ref node) →
    entry ∈ (s.stores ref.name).history → entry.uid = ref.uid → entry.object.nodeName = node

theorem traced_init : Traced init where
  known h := by cases h
  first h := by
    rcases h with ⟨e, he, -⟩ | ⟨d, ⟨w, hd⟩, -⟩
    · cases he
    · cases hd
  nodeName h := by cases h
  node _ h := by cases h

variable {entry : Entry NodeScanJob}

/-- A version has a predecessor with its UID and its node, or it is the first with its UID. -/
theorem ancestor (hs : Held s) (h : step s a = some s')
    (hentry : entry ∈ (s'.stores name).history) :
    (∃ old ∈ (s.stores name).history, old.uid = entry.uid ∧
      old.object.nodeName = entry.object.nodeName) ∨
      entry.uid = (s.stores name).history.length ∧ s'.get name = some entry := by
  rcases history_cases hs h hentry with hold | hstored
  · exact .inl ⟨entry, hold, rfl, rfl⟩
  · cases origin hs h hstored with
    | kept hold => exact .inl ⟨entry, (s.stores name).current_mem entry hold, rfl, rfl⟩
    | created huid hstatus => exact .inr ⟨huid, hstored⟩
    | @patched old hold huid hstatus hnode | @written old hold huid hw hnode =>
      exact .inl ⟨old, (s.stores name).current_mem old hold, huid.symm, hnode.symm⟩

/-- What the reconciler publishes, it publishes for a version it has read. -/
theorem copy_mem_history (hs : Held s) {i : Nat}
    (hp : s.reconcilers i = .initialized name copy status) : copy ∈ (s.stores name).history := by
  have hsound := hs.reconcilers i
  rw [hp] at hsound
  exact hsound.1

variable {ref : ObjectRef}

theorem known_step (hs : Held s) (ht : Traced s) (h : step s a = some s')
    (hid : .generateNodeSBOM ref ∈ s'.published) :
    ref.uid < (s.stores ref.name).history.length := by
  rcases published_cases h hid with hold | ⟨m, hsender, -⟩
  · exact ht.known hold
  · cases hsender with
    | reconciler hp => exact (s.stores _).uid_lt (copy_mem_history hs hp)

theorem first_step (ht : Traced s) (h : step s a = some s') (hm : Carried s' m) :
    .generateNodeSBOM m.nodeScanJob ∈ s'.published := by
  rcases carried_cases h hm with hold | ⟨id, hsender, hid⟩
  · exact published_mono h (ht.first hold)
  · cases hsender with
    | reconciler hp => exact hid
    | generate hw hmessage =>
      have hfirst := published_mono h (ht.first (carried_of_delivery hw rfl))
      rw [hmessage] at hfirst
      exact hfirst

theorem traced_step (hs : Held s) (ht : Traced s) (h : step s a = some s') : Traced s' := by
  constructor
  · intro ref hid
    exact Nat.lt_of_lt_of_le (known_step hs ht h hid) (length_history_le hs h ref.name)
  · intro m hm
    exact first_step ht h hm
  · intro name entry entry' hentry hentry' huid
    rcases ancestor hs h hentry with ⟨old, hold, hsame, hnode⟩ | ⟨hnew, hstored⟩ <;>
      rcases ancestor hs h hentry' with ⟨old', hold', hsame', hnode'⟩ | ⟨hnew', hstored'⟩
    · rw [← hnode, ← hnode']
      exact ht.nodeName hold hold' (by omega)
    · have hlt := (s.stores name).uid_lt hold
      omega
    · have hlt := (s.stores name).uid_lt hold'
      omega
    · rw [hstored] at hstored'
      cases hstored'
      rfl
  · intro ref node entry hm hentry huid
    have hknown : ref.uid < (s.stores ref.name).history.length :=
      known_step hs ht h (first_step ht h hm)
    rcases ancestor hs h hentry with ⟨old, hold, hsame, hnode⟩ | ⟨hnew, -⟩
    · rw [← hnode]
      rcases carried_cases h hm with hcarried | ⟨id, hsender, -⟩
      · exact ht.node hcarried hold (hsame.trans huid)
      · cases hsender with
        | reconciler hp =>
          exact ht.nodeName hold (copy_mem_history hs hp) (hsame.trans huid)
    · omega

/-! ## Where states come from -/

def UnderWay (job : NodeScanJob) : Prop := job.isScheduled = true ∨ job.isInProgress = true

variable {job job' : NodeScanJob}

theorem underWay_congr (h : job'.status.conditions = job.status.conditions) :
    UnderWay job' ↔ UnderWay job := by
  simp only [UnderWay, NodeScanJob.isScheduled, NodeScanJob.isInProgress, NodeScanJob.is_congr h]

variable {now : Nat} {active : ConditionType} {othersMessage message : String}

theorem underWay_mark {reason : Reason} {others : Reason} :
    UnderWay (job.mark now active reason message others othersMessage) ↔
      active = .scheduled ∨ active = .inProgress := by
  cases active <;> simp [UnderWay, NodeScanJob.isScheduled, NodeScanJob.isInProgress]

theorem not_underWay_initializeConditions : ¬UnderWay (job.initializeConditions now) := by
  simp [UnderWay, NodeScanJob.isScheduled, NodeScanJob.isInProgress,
    NodeScanJob.initializeConditions, NodeScanJob.is_setCondition]

/-- A job that is under way is not finished, and its first message has been published. -/
def Regular (s : State) (ref : ObjectRef) (job : NodeScanJob) : Prop :=
  UnderWay job → job.jobFinished = false ∧ .generateNodeSBOM ref ∈ s.published

theorem Regular.congr (hr : Regular s ref job)
    (h : job'.status.conditions = job.status.conditions) : Regular s ref job' := by
  intro hway
  rw [NodeScanJob.jobFinished_congr h]
  exact hr ((underWay_congr h).mp hway)

theorem Regular.mono (hr : Regular s ref job) (h : step s a = some s') :
    Regular s' ref job := fun hway =>
  ⟨(hr hway).1, published_mono h (hr hway).2⟩

theorem regular_mark {reason : Reason} {others : Reason}
    (h : active = .scheduled ∨ active = .inProgress → .generateNodeSBOM ref ∈ s.published) :
    Regular s ref (job.mark now active reason message others othersMessage) := by
  intro hway
  have hactive := underWay_mark.mp hway
  refine ⟨?_, h hactive⟩
  rw [NodeScanJob.jobFinished_mark]
  rcases hactive with rfl | rfl <;> rfl

def Reconcile.Announced (s : State) : Reconcile → Prop
  | .idle => True
  | .initialized _ copy status => ¬UnderWay { copy.object with status := status }
  | .updating name copy status =>
    Regular s ⟨name, copy.uid⟩ { copy.object with status := status }

structure Announced (s : State) : Prop where
  stored : ∀ {name entry}, entry ∈ (s.stores name).history →
    Regular s ⟨name, entry.uid⟩ entry.object
  reconcilers : ∀ i, (s.reconcilers i).Announced s

theorem announced_init : Announced init where
  stored h := by cases h
  reconcilers _ := trivial

/-- A status that is written belongs to a job whose message has been published. -/
theorem StatusWrite.regular (hw : StatusWrite s a name copy status) (hown : OwnCopies s)
    (ht : Traced s) (han : Announced s) :
    Regular s ⟨name, copy.uid⟩ { copy.object with status := status } := by
  cases hw with
  | @reconciled i _ _ _ hp =>
    have hreg := han.reconcilers i
    rw [hp] at hreg
    exact hreg
  | @marked _ w d _ _ next hm =>
    obtain ⟨hd, hc⟩ := hm.copy_eq
    have hfirst : .generateNodeSBOM ⟨d.job.name, copy.uid⟩ ∈ s.published := by
      rw [hown hd hc]
      exact ht.first (carried_of_delivery rfl hd)
    generalize s.workers w = p at hm
    cases hm with
    | generate | scan | complete | failure =>
      exact Regular.congr (regular_mark fun _ => hfirst) rfl

theorem regular_step (hs : Held s) (hown : OwnCopies s) (ht : Traced s) (han : Announced s)
    (h : step s a = some s') (hentry : entry ∈ (s'.stores name).history) :
    Regular s' ⟨name, entry.uid⟩ entry.object := by
  refine Regular.mono ?_ h
  rcases history_cases hs h hentry with hold | hstored
  · exact han.stored hold
  · cases origin hs h hstored with
    | kept hold => exact han.stored ((s.stores name).current_mem entry hold)
    | created huid hstatus =>
      intro hway
      have hnone : ¬UnderWay entry.object := by
        simp [UnderWay, NodeScanJob.isScheduled, NodeScanJob.isInProgress, NodeScanJob.is,
          hstatus, Conditions.holds, Conditions.find]
      exact absurd hway hnone
    | patched hold huid hstatus hnode =>
      rw [huid]
      exact (han.stored ((s.stores name).current_mem _ hold)).congr
        (congrArg Status.conditions hstatus)
    | written hold huid hw hnode =>
      rw [huid]
      exact (hw.regular hown ht han).congr rfl

theorem Reconcile.Announced.mono {p : Reconcile} (hp : p.Announced s) (h : step s a = some s') :
    p.Announced s' := by
  cases p with
  | idle => trivial
  | initialized name copy status => exact hp
  | updating name copy status => exact Regular.mono hp h

theorem announced_step (hs : Held s) (hown : OwnCopies s) (ht : Traced s) (han : Announced s)
    (h : step s a = some s') : Announced s' := by
  have hstored : ∀ {name entry}, entry ∈ (s'.stores name).history →
      Regular s' ⟨name, entry.uid⟩ entry.object := regular_step hs hown ht han h
  refine ⟨hstored, ?_⟩
  intro i
  have hold : (s.reconcilers i).Announced s' := (han.reconcilers i).mono h
  rcases reconciler_step h i with hsame | hstep
  · rw [hsame]
    exact hold
  · generalize s'.reconcilers i = q at hstep ⊢
    generalize s.reconcilers i = p at hstep hold
    cases hstep with
    | moved hm =>
      cases hm with
      | fetched hj hpending => exact not_underWay_initializeConditions
      | @rejected name copy status r =>
        cases r <;> exact Regular.congr (regular_mark (by rintro (h | h) <;> cases h)) rfl
      | aborted | refused => trivial
      | incomplete => exact fun hway => absurd hway hold
    | ended => trivial
    | @patched name copy patched status hmem =>
      -- the server's conditions, or those in memory if it has none
      by_cases hnone : patched.object.status.conditions = []
      · have hmemory : (status.decode patched.object.status).conditions = status.conditions := by
          simp [Status.decode, hnone]
        exact fun hway => absurd ((underWay_congr hmemory).mp hway) hold
      · refine (hstored hmem).congr ?_
        simp [Status.decode, hnone]
    | scheduled hid => exact Regular.congr (regular_mark fun _ => hid) rfl

end SbomScanner.NodeScan

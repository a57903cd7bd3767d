import SbomScanner.Jobs.Parties
import SbomScanner.Lib.Queue

/-!
# Messages

What a step does to the stream, to the phase of each worker and to the labels of the reports, and
what follows in every run: a delivery carries the message of the entry it will acknowledge
(`Numbered`), and every trace a job leaves, be it a message, a label or a state, goes back to the
`createCatalog` message that the ScanJob reconciler published for it (`Traced`).
-/

namespace SbomScanner.Jobs.Pipeline

open List Function

variable {s s' : State} {a : Action} {job : ScanJob}

/-! ## The stream -/

inductive Sender (s : State) : Message → Prop where
  | job {i : Nat} {job : ScanJob} {status : Status}
      (hp : s.jobReconcilers i = .initialized job status) :
      Sender s (.createCatalog ⟨job.name, job.uid⟩)
  | catalog {w : Nat} {d : Delivery} {image : String} {remaining : List String}
      (hw : s.workers w = .catalogPublishing d (image :: remaining)) :
      Sender s (.generateSBOM d.message.scanJob image)
  | generate {w : Nat} {d : Delivery} {image : String}
      (hw : s.workers w = .generatePublishing d image) :
      Sender s (.scanSBOM d.message.scanJob image)

inductive BusStep (s : State) : Action → Bus → Prop where
  | same {a : Action} : BusStep s a s.toBus
  | sent {a : Action} {m : Message} (hm : Sender s m) :
      BusStep s a ⟨s.stream ++ [⟨s.nextSeq, 0, m⟩], m :: s.published, s.nextSeq + 1⟩
  | delivered {w : Nat} {e : Delivery} (he : e ∈ s.stream) :
      BusStep s (.deliver w e.seq)
        ⟨s.stream.map fun (e' : Delivery) =>
          if e'.seq = e.seq then { e with numDelivered := e.numDelivered + 1 } else e',
          s.published, s.nextSeq⟩
  | acked {w : Nat} {d : Delivery} (hw : s.workers w = .handled d) :
      BusStep s (.ack w)
        ⟨s.stream.filter fun (e : Delivery) => e.seq ≠ d.seq, s.published, s.nextSeq⟩

variable {m : Message} {dropped : Bool} {sent : State}

section

variable (h : s.publish m dropped = some sent)
include h

theorem publish_cases :
    (sent = s ∧ m ∈ s.published) ∨
      sent = { s with
        stream := s.stream ++ [⟨s.nextSeq, 0, m⟩]
        published := m :: s.published
        nextSeq := s.nextSeq + 1 } := by
  unfold State.publish at h
  split at h
  · split at h
    · next hm => exact .inl ⟨(Option.some.inj h).symm, hm⟩
    · cases h
  · exact .inr (Option.some.inj h).symm

theorem bus_publish (hm : Sender s m) :
    BusStep s a sent.toBus := by
  rcases publish_cases h with ⟨rfl, -⟩ | rfl
  · exact .same
  · exact .sent hm

theorem mem_of_publish : m ∈ sent.published := by
  rcases publish_cases h with ⟨rfl, hm⟩ | rfl
  · exact hm
  · exact mem_cons_self

end

theorem bus_step (h : step s a = some s') : BusStep s a s'.toBus := by
  cases step_effect h with
  | @delivered w seq e hw he =>
    have hseq : e.seq = seq := by simpa using List.find?_some he
    subst hseq
    exact .delivered (mem_of_find?_eq_some he)
  | acked hw => exact .acked hw
  | @catalogSent w dropped _ _ _ sent hw hs =>
    have hb : BusStep s (.catalogPublish w dropped) sent.toBus := bus_publish hs (.catalog hw)
    exact hb
  | @generateSent w dropped _ _ sent hw hs =>
    have hb : BusStep s (.generatePublish w dropped) sent.toBus := bus_publish hs (.generate hw)
    exact hb
  | @jobSent i dropped _ _ sent hp hs =>
    have hb : BusStep s (.jobPublish i dropped) sent.toBus := bus_publish hs (.job hp)
    exact hb
  | _ => exact .same

theorem published_mono (h : step s a = some s') (hm : m ∈ s.published) : m ∈ s'.published := by
  have hb := bus_step h
  generalize s'.toBus = bus at hb ⊢
  cases hb with
  | sent hsender => exact mem_cons_of_mem _ hm
  | _ => exact hm

theorem published_cases (h : step s a = some s') (hm : m ∈ s'.published) :
    m ∈ s.published ∨ Sender s m ∧ ∃ e ∈ s'.stream, e.message = m := by
  have hb := bus_step h
  generalize s'.toBus = bus at hb hm ⊢
  cases hb with
  | sent hsender =>
    rcases mem_cons.mp hm with rfl | hold
    · exact .inr ⟨hsender, _, mem_append_right _ mem_cons_self, rfl⟩
    · exact .inl hold
  | _ => exact .inl hm

/-! ## The phase of a worker -/

inductive WorkerStep (s s' : State) (w : Nat) : Action → Worker → Worker → Prop where
  | moved {a : Action} {p q : Worker} (hm : Move s w a p q) : WorkerStep s s' w a p q
  | delivered {seq : Nat} {e : Delivery} (he : e ∈ s.stream) (hseq : e.seq = seq) :
      WorkerStep s s' w (.deliver w seq) .idle
        (.received { e with numDelivered := e.numDelivered + 1 })
  | acked {d : Delivery} : WorkerStep s s' w (.ack w) (.handled d) .idle
  | catalogMarked {d : Delivery} {job : ScanJob} :
      WorkerStep s s' w (.catalogMark w) (.catalogMarking d job) (.catalogListing d)
  | catalogWritten {d : Delivery} {discovered : List String} {job : ScanJob}
      (hcat : s'.catalog job.uid = some discovered) :
      WorkerStep s s' w (.catalogUpdate w) (.catalogUpdating d discovered job)
        (.catalogPublishing d discovered)
  | catalogSent {dropped : Bool} {d : Delivery} {image : String} {remaining : List String}
      (hm : .generateSBOM d.message.scanJob image ∈ s'.published) :
      WorkerStep s s' w (.catalogPublish w dropped) (.catalogPublishing d (image :: remaining))
        (.catalogPublishing d remaining)
  | generateSent {dropped : Bool} {d : Delivery} {image : String}
      (hm : .scanSBOM d.message.scanJob image ∈ s'.published) :
      WorkerStep s s' w (.generatePublish w dropped) (.generatePublishing d image) (.handled d)
  | reported {d : Delivery} {sbom : String}
      (hl : s'.reports.lookup sbom = some d.message.scanJob.uid) :
      WorkerStep s s' w (.scanReport w) (.scanReporting d sbom) (.handled d)
  | failureWritten {d : Delivery} {err : String} {job new : ScanJob}
      (hj : s'.jobs job.name = some new) (hfin : new.jobFinished = true) :
      WorkerStep s s' w (.failureUpdate w) (.failureUpdating d err job) (.handled d)

variable {w : Nat}

/-- Splits on whether the worker asked about is the one that took the step. -/
theorem worker_step_of_set {t : State} {w' : Nat} {q : Worker} (ht : t.workers = s.workers)
    (h : WorkerStep s s' w' a (s.workers w') q) :
    (t.setWorker w' q).workers w = s.workers w ∨
      WorkerStep s s' w a (s.workers w) ((t.setWorker w' q).workers w) := by
  by_cases heq : w = w'
  · subst heq
    rw [State.workers_setWorker_self]
    exact .inr h
  · rw [State.workers_setWorker_ne t heq, ht]
    exact .inl rfl

theorem worker_step (hv : Versioned s) (h : step s a = some s') (w : Nat) :
    s'.workers w = s.workers w ∨ WorkerStep s s' w a (s.workers w) (s'.workers w) := by
  cases step_effect h with
  | moved images sboms hm => exact worker_step_of_set rfl (.moved hm)
  | delivered hw he =>
    have hseq := List.find?_some he
    refine worker_step_of_set rfl ?_
    rw [hw]
    exact .delivered (mem_of_find?_eq_some he) (by simpa using hseq)
  | acked hw =>
    refine worker_step_of_set rfl ?_
    rw [hw]
    exact .acked
  | catalogSent hw hs =>
    have hm := mem_of_publish hs
    obtain ⟨bus, rfl⟩ := publish_frame hs
    refine worker_step_of_set rfl ?_
    rw [hw]
    exact .catalogSent hm
  | generateSent hw hs =>
    have hm := mem_of_publish hs
    obtain ⟨bus, rfl⟩ := publish_frame hs
    refine worker_step_of_set rfl ?_
    rw [hw]
    exact .generateSent hm
  | reported hw =>
    refine worker_step_of_set rfl ?_
    rw [hw]
    exact .reported (AList.lookup_insert _)
  | catalogMarked hw hc =>
    refine worker_step_of_set rfl ?_
    rw [hw]
    exact .catalogMarked
  | catalogWritten hw hc recorded =>
    refine worker_step_of_set rfl ?_
    rw [hw]
    exact .catalogWritten (update_self ..)
  | @failureWritten w' d err job current hw hc recorded =>
    have hname := hv.name_eq hc.1
    have hfin : (job.markFailed s.clock .internalError err).jobFinished = true :=
      ScanJob.jobFinished_mark ..
    have hstored : (s.store { current with
        status := (job.markFailed s.clock .internalError err).status }).jobs job.name =
          some { current with
            status := (job.markFailed s.clock .internalError err).status
            resourceVersion := s.nextVersion } := by
      rw [← hname]
      exact update_self ..
    refine worker_step_of_set rfl ?_
    rw [hw]
    exact .failureWritten hstored hfin
  | jobSent hp hs =>
    obtain ⟨bus, rfl⟩ := publish_frame hs
    exact .inl rfl
  | _ => exact .inl rfl

variable {d : Delivery}

theorem Move.delivery_eq {p q : Worker} (h : Move s w a p q) (hd : q.delivery = some d) :
    p.delivery = some d := by
  cases h with
  | crash => cases hd
  | nak => cases hd
  | error hp | gaveUp hp =>
    cases hd
    exact hp
  | _ => exact hd

/-- A worker has a message because it has just taken it from the stream, or since before. -/
theorem delivery_cases (hv : Versioned s) (h : step s a = some s')
    (hd : (s'.workers w).delivery = some d) :
    (s.workers w).delivery = some d ∨
      ∃ e ∈ s.stream, a = .deliver w e.seq ∧ d = { e with numDelivered := e.numDelivered + 1 } := by
  rcases worker_step hv h w with hsame | hstep
  · rw [hsame] at hd
    exact .inl hd
  · generalize s'.workers w = q at hstep hd
    generalize s.workers w = p at hstep ⊢
    cases hstep with
    | moved hm => exact .inl (hm.delivery_eq hd)
    | delivered he hseq =>
      cases hd
      exact .inr ⟨_, he, by rw [hseq], rfl⟩
    | acked => cases hd
    | _ => exact .inl hd

/-! ## Sequence numbers -/

structure Numbered (s : State) : Prop where
  stream_lt : ∀ {e}, e ∈ s.stream → e.seq < s.nextSeq
  delivery_lt : ∀ {w d}, (s.workers w).delivery = some d → d.seq < s.nextSeq
  message_eq : ∀ {e e'}, e ∈ s.stream → e' ∈ s.stream → e.seq = e'.seq → e.message = e'.message
  delivery_eq : ∀ {e w d}, e ∈ s.stream → (s.workers w).delivery = some d → e.seq = d.seq →
    e.message = d.message

theorem numbered_init : Numbered init where
  stream_lt h := by cases h
  delivery_lt h := by cases h
  message_eq h := by cases h
  delivery_eq h := by cases h

def Holds (s : State) (d : Delivery) : Prop := ∃ w, (s.workers w).delivery = some d

def Done (s : State) (d : Delivery) : Prop := ∃ w, s.workers w = .handled d

theorem holds_of_done (h : Done s d) : Holds s d := by
  obtain ⟨w, hw⟩ := h
  refine ⟨w, ?_⟩
  rw [hw]
  rfl

theorem queue_step (h : step s a = some s') :
    Queue.Step Delivery.seq Delivery.message s.stream (Done s) s.nextSeq s'.stream s'.nextSeq := by
  have hb := bus_step h
  generalize s'.toBus = bus at hb ⊢
  cases hb with
  | same => exact .same
  | sent hm => exact .sent rfl
  | delivered he => exact .delivered he rfl rfl
  | acked hw => exact .acked ⟨_, hw⟩

theorem Numbered.queue (hn : Numbered s) :
    Queue.Numbered Delivery.seq Delivery.message s.stream (Holds s) s.nextSeq where
  entries_lt := hn.stream_lt
  held_lt h := by
    obtain ⟨w, hd⟩ := h
    exact hn.delivery_lt hd
  message_eq := hn.message_eq
  held_eq he h hseq := by
    obtain ⟨w, hd⟩ := h
    exact hn.delivery_eq he hd hseq

theorem numbered_of_queue
    (hn : Queue.Numbered Delivery.seq Delivery.message s.stream (Holds s) s.nextSeq) :
    Numbered s where
  stream_lt := hn.entries_lt
  delivery_lt hd := hn.held_lt ⟨_, hd⟩
  message_eq := hn.message_eq
  delivery_eq he hd hseq := hn.held_eq he ⟨_, hd⟩ hseq

theorem numbered_step (hv : Versioned s) (hn : Numbered s) (h : step s a = some s') :
    Numbered s' := by
  refine numbered_of_queue (hn.queue.step (queue_step h) fun d hd => ?_)
  obtain ⟨w, hw⟩ := hd
  rcases delivery_cases hv h hw with hold | ⟨e, he, -, rfl⟩
  · exact .inl ⟨w, hold⟩
  · exact .inr ⟨e, he, rfl, rfl⟩

/-! ## Labels -/

theorem lookup_cases (h : step s a = some s') {image : String} {uid : Nat}
    (hl : s'.reports.lookup image = some uid) :
    s.reports.lookup image = some uid ∨
      ∃ w d, a = .scanReport w ∧ s.workers w = .scanReporting d image ∧
        uid = d.message.scanJob.uid ∧ image ∈ s'.queue := by
  cases step_effect h with
  | @reportDeleted report =>
    by_cases himage : image = report
    · subst himage
      simp [deleteReport] at hl
    · simp only [deleteReport, AList.lookup_erase_ne himage] at hl
      exact .inl hl
  | @reported w d sbom hw =>
    by_cases himage : image = sbom
    · subst himage
      simp only [State.setWorker, AList.lookup_insert, Option.some.injEq] at hl
      exact .inr ⟨w, d, rfl, hw, hl.symm, mem_cons_self⟩
    · simp only [State.setWorker, AList.lookup_insert_ne himage] at hl
      exact .inl hl
  | catalogSent hw hs | generateSent hw hs | jobSent hp hs =>
    obtain ⟨bus, rfl⟩ := publish_frame hs
    exact .inl hl
  | _ => exact .inl hl

theorem lookup_kept (h : step s a = some s') {image : String} {uid : Nat}
    (hl : s.reports.lookup image = some uid) :
    s'.reports.lookup image = some uid ∨ a = .deleteReport image ∨
      ∃ w d, a = .scanReport w ∧ s.workers w = .scanReporting d image ∧
        uid ≠ d.message.scanJob.uid := by
  cases step_effect h with
  | @reportDeleted report =>
    by_cases himage : image = report
    · subst himage
      exact .inr (.inl rfl)
    · exact .inl ((AList.lookup_erase_ne himage).trans hl)
  | @reported w d sbom hw =>
    by_cases himage : image = sbom
    · subst himage
      by_cases huid : uid = d.message.scanJob.uid
      · subst huid
        exact .inl (AList.lookup_insert _)
      · exact .inr (.inr ⟨w, d, rfl, hw, huid⟩)
    · exact .inl ((AList.lookup_insert_ne himage).trans hl)
  | catalogSent hw hs | generateSent hw hs | jobSent hp hs =>
    obtain ⟨bus, rfl⟩ := publish_frame hs
    exact .inl hl
  | _ => exact .inl hl

/-! ## Everything goes back to the first message -/

def UnderWay (job : ScanJob) : Prop := job.isScheduled = true ∨ job.isInProgress = true

structure Traced (s : State) : Prop where
  scanJob : ∀ {m}, m ∈ s.published → ∃ job ∈ s.history, m.scanJob = ⟨job.name, job.uid⟩
  first : ∀ {m}, m ∈ s.published → .createCatalog m.scanJob ∈ s.published
  stream : ∀ {e}, e ∈ s.stream → e.message ∈ s.published
  delivery : ∀ {w d}, (s.workers w).delivery = some d → d.message ∈ s.published
  label : ∀ {image uid}, s.reports.lookup image = some uid →
    ∃ ref, ref.uid = uid ∧ .scanSBOM ref image ∈ s.published
  stored : ∀ {job}, job ∈ s.history → UnderWay job →
    .createCatalog ⟨job.name, job.uid⟩ ∈ s.published
  updating : ∀ {i job status}, s.jobReconcilers i = .updating job status →
    UnderWay { job with status := status } → .createCatalog ⟨job.name, job.uid⟩ ∈ s.published
  reporting : ∀ {r job}, (s.reportReconcilers r).copy = some job →
    .createCatalog ⟨job.name, job.uid⟩ ∈ s.published

theorem traced_init : Traced init where
  scanJob h := by cases h
  first h := by cases h
  stream h := by cases h
  delivery h := by cases h
  label h := by cases h
  stored h := by cases h
  updating h := by cases h
  reporting h := by cases h

theorem Traced.ref_eq (ht : Traced s) (hv : Versioned s) (hm : m ∈ s.published)
    (hmem : job ∈ s.history) (huid : job.uid = m.scanJob.uid) :
    m.scanJob = ⟨job.name, job.uid⟩ := by
  obtain ⟨v, hvmem, hv'⟩ := ht.scanJob hm
  rw [hv'] at huid ⊢
  rw [hv.name_of_uid hvmem hmem huid.symm, huid]

theorem Traced.sender (ht : Traced s) (hv : Versioned s) (hm : Sender s m) :
    (∃ job ∈ s.history, m.scanJob = ⟨job.name, job.uid⟩) ∧
      (m = .createCatalog m.scanJob ∨ .createCatalog m.scanJob ∈ s.published) := by
  cases hm with
  | @job i job status hp =>
    have hmem : job ∈ s.history := hv.held (.inr (.inl ⟨i, by rw [hp]; rfl⟩))
    exact ⟨⟨job, hmem, rfl⟩, .inl rfl⟩
  | @catalog w d image remaining hw | @generate w d image hw =>
    have hd : d.message ∈ s.published := ht.delivery (w := w) (by rw [hw]; rfl)
    have hjob := ht.scanJob hd
    have hfirst := ht.first hd
    exact ⟨hjob, .inr hfirst⟩

theorem not_underWay_of_initial (h : ∀ type, job.is type = false) : ¬UnderWay job := by
  intro hu
  rcases hu with hu | hu
  · exact absurd ((h .scheduled).symm.trans hu) Bool.false_ne_true
  · exact absurd ((h .inProgress).symm.trans hu) Bool.false_ne_true

theorem not_underWay_of_finished (hj : Exclusive job) (hfin : job.jobFinished = true) :
    ¬UnderWay job := by
  obtain ⟨hs, hp⟩ := hj hfin
  intro hu
  rcases hu with hu | hu
  · exact absurd (hs.symm.trans hu) Bool.false_ne_true
  · exact absurd (hp.symm.trans hu) Bool.false_ne_true

theorem underWay_congr {job job' : ScanJob} (h : job'.status.conditions = job.status.conditions) :
    UnderWay job' ↔ UnderWay job := by
  unfold UnderWay ScanJob.isScheduled ScanJob.isInProgress
  rw [ScanJob.is_congr h, ScanJob.is_congr h]

/-- A failed job is not under way, whichever job its status is written to. -/
theorem not_underWay_markFailed {current : ScanJob} {now : Nat} {reason : Reason}
    {message : String} :
    ¬UnderWay { current with status := (job.markFailed now reason message).status } := by
  have hfin : (job.markFailed now reason message).jobFinished = true := ScanJob.jobFinished_mark ..
  intro hu
  exact not_underWay_of_finished exclusive_markFailed hfin ((underWay_congr rfl).mp hu)

variable {status : Status}

/-- Whoever puts a job under way has, or answers to, the first message of the job. -/
theorem Traced.statusWrite (ht : Traced s) (hs : Consistent s) (hw : StatusWrite s job a status)
    (hu : UnderWay { job with status := status }) :
    .createCatalog ⟨job.name, job.uid⟩ ∈ s.published := by
  cases hw with
  | reconciled hp => exact ht.updating hp hu
  | @catalogMarked w d hw =>
    have hphase := hs.sound.workers w
    rw [hw] at hphase
    have hd : d.message ∈ s.published := ht.delivery (w := w) (by rw [hw]; rfl)
    rw [hphase.1] at hd
    exact hd
  | failed hw => exact absurd hu not_underWay_markFailed
  | @counted r report reports hp => exact ht.reporting (r := r) (by rw [hp]; rfl)

theorem traced_stored (ht : Traced s) (hs : Consistent s) (h : step s a = some s')
    (hmem : job ∈ s'.history) (hu : UnderWay job) :
    .createCatalog ⟨job.name, job.uid⟩ ∈ s.published := by
  rcases history_cases hs.versioned h hmem with hold | hstored
  · exact ht.stored hold hu
  · -- the version is new, so look at who wrote it
    cases origin hs.versioned h hstored with
    | kept hold => exact ht.stored (hs.versioned.mem_history hold) hu
    | created huid hstatus =>
      refine absurd hu (not_underWay_of_initial fun type => ?_)
      rw [ScanJob.is, ScanJob.condition, hstatus]
      rfl
    | @patched old hold huid hstatus =>
      have hold' := hs.versioned.mem_history hold
      have hu' := (underWay_congr (congrArg Status.conditions hstatus)).mp hu
      rw [huid, ← hs.versioned.name_eq hold]
      exact ht.stored hold' hu'
    | @written old hold huid hw =>
      rw [huid, ← hs.versioned.name_eq hold]
      exact ht.statusWrite hs hw ((underWay_congr rfl).mp hu)
    | @catalogued old w d discovered ha hold huid hw hstatus =>
      have hphase := hs.sound.workers w
      rw [hw] at hphase
      have hd : d.message ∈ s.published := ht.delivery (w := w) (by rw [hw]; rfl)
      rw [huid, ← hs.versioned.name_eq hold]
      exact hphase ▸ hd

theorem JobMove.underWay {p : JobReconcile} (hp : p.Sound)
    (hm : JobMove s p (.updating job status)) : ¬UnderWay { job with status := status } := by
  cases hm with
  | @decided _ initial r =>
    obtain ⟨-, hinit, -⟩ := hp
    cases r with
    | error => exact not_underWay_of_initial hinit
    | notFound registry | repositoryNotFound message | matchConditionNotFound message =>
      exact not_underWay_markFailed
  | patchFailed => exact not_underWay_of_initial hp.2.1

theorem traced_updating (ht : Traced s) (hs : Consistent s) (h : step s a = some s') {i : Nat}
    (hi : s'.jobReconcilers i = .updating job status)
    (hu : UnderWay { job with status := status }) :
    .createCatalog ⟨job.name, job.uid⟩ ∈ s'.published := by
  have hold : s.jobReconcilers i = .updating job status →
      .createCatalog ⟨job.name, job.uid⟩ ∈ s'.published :=
    fun hi => published_mono h (ht.updating hi hu)
  cases step_effect h with
  | restarted => cases hi
  | @jobMoved _ i' p hm =>
    by_cases heq : i = i'
    · subst heq
      rw [State.jobReconcilers_set_self] at hi
      subst hi
      exact absurd hu (hm.underWay (hs.sound.jobReconcilers i))
    · rw [State.jobReconcilers_set_ne _ heq] at hi
      exact hold hi
  | @jobPatched i' job' current initial hp hc =>
    by_cases heq : i = i'
    · subst heq
      rw [State.jobReconcilers_set_self] at hi
      cases hi
      have hphase := hs.sound.jobReconcilers i
      rw [hp] at hphase
      by_cases hnil : current.status.conditions = []
      · rw [if_pos hnil] at hu
        exact absurd hu (not_underWay_of_initial hphase.2.1)
      · rw [if_neg hnil] at hu
        have hfirst := ht.stored (hs.versioned.mem_history hc) ((underWay_congr rfl).mp hu)
        exact hfirst
    · rw [State.jobReconcilers_set_ne _ heq] at hi
      exact hold hi
  | @jobSent i' dropped job' initial sent hp hpub =>
    have hm := mem_of_publish hpub
    by_cases heq : i = i'
    · subst heq
      rw [State.jobReconcilers_set_self] at hi
      cases hi
      exact hm
    · rw [State.jobReconcilers_set_ne _ heq] at hi
      obtain ⟨bus, rfl⟩ := publish_frame hpub
      exact hold hi
  | @jobWritten i' _ _ _ hp hc recorded =>
    by_cases heq : i = i'
    · subst heq
      rw [State.jobReconcilers_set_self] at hi
      cases hi
    · rw [State.jobReconcilers_set_ne _ heq] at hi
      exact hold hi
  | catalogSent hw hpub | generateSent hw hpub =>
    obtain ⟨bus, rfl⟩ := publish_frame hpub
    exact hold hi
  | _ => exact hold hi

theorem traced_reporting (ht : Traced s) (hs : Consistent s) (h : step s a = some s') {r : Nat}
    (hr : (s'.reportReconcilers r).copy = some job) :
    .createCatalog ⟨job.name, job.uid⟩ ∈ s.published := by
  cases step_effect h with
  | restarted => cases hr
  | @reportMoved _ r' p queue hm =>
    by_cases heq : r = r'
    · subst heq
      rw [State.reportReconcilers_set_self] at hr
      generalize hp : s.reportReconcilers r = p₀ at hm
      cases hm with
      | fetched hl hj huid hc =>
        cases hr
        -- the label was put there by a message of the job
        obtain ⟨ref, hrefUid, hscan⟩ := ht.label hl
        have href := ht.ref_eq hs.versioned hscan hj (huid.trans hrefUid.symm)
        exact href ▸ ht.first hscan
      | listed =>
        refine ht.reporting (r := r) ?_
        rw [hp]
        exact hr
      | _ => cases hr
    · rw [State.reportReconcilers_set_ne _ heq] at hr
      exact ht.reporting hr
  | @reportWritten r' _ _ _ _ hp hc recorded =>
    by_cases heq : r = r'
    · subst heq
      rw [State.reportReconcilers_set_self] at hr
      cases hr
    · rw [State.reportReconcilers_set_ne _ heq] at hr
      exact ht.reporting hr
  | catalogSent hw hpub | generateSent hw hpub | jobSent hp hpub =>
    obtain ⟨bus, rfl⟩ := publish_frame hpub
    exact ht.reporting hr
  | _ => exact ht.reporting hr

theorem traced_step (hs : Consistent s) (ht : Traced s) (h : step s a = some s') : Traced s' := by
  have hmono : ∀ {m}, m ∈ s.published → m ∈ s'.published := published_mono h
  constructor
  · intro m hm
    have hold : ∃ job ∈ s.history, m.scanJob = ⟨job.name, job.uid⟩ := by
      rcases published_cases h hm with hold | ⟨hsender, -⟩
      · exact ht.scanJob hold
      · exact (ht.sender hs.versioned hsender).1
    obtain ⟨job, hmem, href⟩ := hold
    exact ⟨job, history_mono hs.versioned h hmem, href⟩
  · intro m hm
    rcases published_cases h hm with hold | ⟨hsender, -⟩
    · exact hmono (ht.first hold)
    · rcases (ht.sender hs.versioned hsender).2 with hself | hfirst
      · rw [← hself]
        exact hm
      · exact hmono hfirst
  · intro e he
    have hb := bus_step h
    generalize s'.toBus = bus at hb he ⊢
    cases hb with
    | same => exact ht.stream he
    | sent hm =>
      rcases mem_append.mp he with hold | hnew
      · exact mem_cons_of_mem _ (ht.stream hold)
      · rw [mem_singleton] at hnew
        subst hnew
        exact mem_cons_self
    | @delivered w e₀ he₀ =>
      obtain ⟨e', he', rfl⟩ := mem_map.mp he
      by_cases hseq : e'.seq = e₀.seq
      · rw [if_pos hseq]
        have hold := ht.stream he₀
        exact hold
      · rw [if_neg hseq]
        exact ht.stream he'
    | acked hw => exact ht.stream (mem_of_mem_filter he)
  · intro w d hd
    rcases delivery_cases hs.versioned h hd with hold | ⟨e, he, -, rfl⟩
    · exact hmono (ht.delivery hold)
    · have hmem := ht.stream he
      exact hmono hmem
  · intro image uid hl
    rcases lookup_cases h hl with hold | ⟨w, d, -, hw, rfl, -⟩
    · obtain ⟨ref, href, hm⟩ := ht.label hold
      exact ⟨ref, href, hmono hm⟩
    · have hphase := hs.sound.workers w
      rw [hw] at hphase
      obtain ⟨ref, hm⟩ := hphase
      have hd : d.message ∈ s.published := ht.delivery (w := w) (by rw [hw]; rfl)
      rw [hm] at hd ⊢
      exact ⟨ref, rfl, hmono hd⟩
  · intro job hmem hu
    exact hmono (traced_stored ht hs h hmem hu)
  · intro i job status hi hu
    exact traced_updating ht hs h hi hu
  · intro r job hr
    exact hmono (traced_reporting ht hs h hr)

end SbomScanner.Jobs.Pipeline

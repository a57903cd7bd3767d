import SbomScanner.Jobs.Completion
import SbomScanner.Jobs.Messages

/-!
# Jobs do not get stuck

A job that is scheduled or in progress depends on others to be finished: on a message of it that is
still in the stream, or on a report whose reconciliation completes it. A new ScanJob of the same
registry is refused as long as it is unfinished, so a job that has neither blocks its registry.

The pipeline hands the job on from message to message. `Discharged` says what the handler of a
message has to have achieved before the message may go: the catalog is there and every image of it
has been asked for, the SBOM has been sent on, the report carries the label; or the job is finished.
`Owed` is the invariant that every message ever published is in the stream or discharged, and with
it `way_to_finish`: as long as nothing of the job disappears on the way, there is a way to finish.

What may not happen is listed in `undisturbed`. The handlers return no error when an Image or an
SBOM is missing, so a deletion at the wrong moment takes the last message of a job with it
(`job_without_way_to_finish`).
-/

namespace SbomScanner.Jobs.Pipeline

open Transition List Function

variable {s s' : State} {a : Action} {job : ScanJob}

/-! ## Settled jobs -/

structure Settled (uid : Nat) (s : State) : Prop where
  known : uid < s.nextUid
  finished : ∀ {name job}, s.jobs name = some job → job.uid = uid → job.jobFinished = true

/-- The test for the opposite. -/
def State.unfinished (s : State) (uid : Nat) : Bool :=
  s.history.any fun v => v.uid = uid &&
    (s.jobs v.name).any fun job => job.uid = uid && !job.jobFinished

variable {uid : Nat}

theorem settled_of_unfinished (hv : Versioned s) (hlt : uid < s.nextUid)
    (h : s.unfinished uid = false) : Settled uid s := by
  refine ⟨hlt, ?_⟩
  intro name job hj huid
  by_contra hopen
  have hany : s.unfinished uid = true := by
    refine any_eq_true.mpr ⟨job, hv.mem_history hj, ?_⟩
    rw [Bool.not_eq_true] at hopen
    simp [hv.name_eq hj, hj, huid, hopen]
  exact absurd (h.symm.trans hany) Bool.false_ne_true

theorem settled_of_stored (hv : Versioned s) {name : String} (hj : s.jobs name = some job)
    (hfin : job.jobFinished = true) : Settled job.uid s := by
  refine ⟨hv.uid_lt (hv.mem_history hj), ?_⟩
  intro name' job' hj' huid
  rw [hv.eq_of_uid hj hj' huid]
  exact hfin

variable {m : Message}

/-- The job of a message is settled when fetching it finds no unfinished job. -/
theorem settled_of_fetch (hv : Versioned s) (ht : Traced s) (hm : m ∈ s.published)
    (h : ∀ job, s.fetch m.scanJob = some job → job.jobFinished = true) :
    Settled m.scanJob.uid s := by
  obtain ⟨v, hvmem, href⟩ := ht.scanJob hm
  refine ⟨?_, ?_⟩
  · rw [href]
    exact hv.uid_lt hvmem
  · intro name job hj huid
    have hname := congrArg ScanJobRef.name (ht.ref_eq hv hm (hv.mem_history hj) huid)
    refine h job (Option.filter_eq_some_iff.mpr ⟨?_, by simpa using huid⟩)
    rw [hname, hv.name_eq hj]
    exact hj

theorem settled_of_gone (hv : Versioned s) (hlt : uid < s.nextUid) (h : s.gone uid = true) :
    Settled uid s := by
  refine ⟨hlt, ?_⟩
  intro name job hj huid
  have hnone := all_eq_true.mp h job (hv.mem_history hj)
  simp [huid, hv.name_eq hj, hj] at hnone

/-! ## The guard -/

/-- The step takes nothing away that an unfinished job still needs: the Image or SBOM of a message
is there when it is handled, a failure is recorded, a report keeps its label; and a catalog is
closed on an unfinished job, names no image twice, and repeats an earlier catalog of the job. -/
def undisturbed (s : State) : Action → Bool
  | .generateImage w =>
    match s.workers w with
    | .generateFetching d image => image ∈ s.images || !s.unfinished d.message.scanJob.uid
    | _ => true
  | .scanSBOM w =>
    match s.workers w with
    | .scanFetching d sbom => sbom ∈ s.sboms || !s.unfinished d.message.scanJob.uid
    | _ => true
  | .failureGiveUp w => (s.workers w).delivery.all fun d => !s.unfinished d.message.scanJob.uid
  | .deleteReport report => (s.reports.lookup report).all fun uid => !s.unfinished uid
  | .scanReport w =>
    match s.workers w with
    | .scanReporting d sbom =>
      (s.reports.lookup sbom).all fun uid =>
        uid = d.message.scanJob.uid || !s.unfinished uid
    | _ => true
  | .catalogUpdate w =>
    match s.workers w with
    | .catalogUpdating _ discovered job =>
      !job.jobFinished && discovered.Nodup &&
        (s.catalog job.uid).all fun earlier => discovered = [] || discovered.Perm earlier
    | _ => true
  | _ => true

def Undisturbed (s : State) (a : Action) : Prop := undisturbed s a = true

instance (s : State) (a : Action) : Decidable (Undisturbed s a) :=
  inferInstanceAs (Decidable (undisturbed s a = true))

/-! ## What a step keeps -/

structure Advance (s s' : State) : Prop where
  settled : ∀ {uid}, Settled uid s → Settled uid s'
  published : ∀ {m}, m ∈ s.published → m ∈ s'.published
  catalog : ∀ {uid discovered}, s.catalog uid = some discovered →
    Settled uid s' ∨ ∃ discovered', s'.catalog uid = some discovered' ∧ discovered'.Perm discovered
  label : ∀ {image uid}, s.reports.lookup image = some uid →
    Settled uid s' ∨ s'.reports.lookup image = some uid

theorem settled_step (hs : Consistent s) (hg : Undisturbed s a) (h : step s a = some s')
    (hset : Settled uid s) : Settled uid s' := by
  refine ⟨lt_of_lt_of_le hset.known (nextUid_le hs.versioned h), ?_⟩
  intro name job hj huid
  cases origin hs.versioned h hj with
  | kept hold => exact hset.finished hold huid
  | created hnew hstatus =>
    have hlt := hset.known
    omega
  | patched hold hsame hstatus =>
    have hfin := hset.finished hold (hsame.symm.trans huid)
    exact (ScanJob.jobFinished_congr (congrArg Status.conditions hstatus)).trans hfin
  | written hold hsame hw =>
    have hfin := hset.finished hold (hsame.symm.trans huid)
    exact (ScanJob.jobFinished_congr rfl).trans (hw.jobFinished hs.sound hfin)
  | catalogued ha hold hsame hw hstatus =>
    -- the guard keeps a catalog from being closed on a finished job
    have hfin := hset.finished hold (hsame.symm.trans huid)
    subst ha
    simp [Undisturbed, undisturbed, hw, hfin] at hg

variable {w : Nat} {d : Delivery} {discovered : List String}

theorem undisturbed_catalogUpdate (hg : Undisturbed s (.catalogUpdate w))
    (hw : s.workers w = .catalogUpdating d discovered job) :
    job.jobFinished = false ∧ discovered.Nodup ∧
      ∀ earlier, s.catalog job.uid = some earlier → discovered = [] ∨ discovered.Perm earlier := by
  simp only [Undisturbed, undisturbed, hw, Bool.and_eq_true, Bool.not_eq_true',
    decide_eq_true_eq] at hg
  obtain ⟨⟨hopen, hnodup⟩, hearlier⟩ := hg
  refine ⟨hopen, hnodup, fun earlier hcat => ?_⟩
  rw [hcat] at hearlier
  simpa using hearlier

variable {image : String}

theorem uid_lt_of_label (hv : Versioned s) (ht : Traced s)
    (hl : s.reports.lookup image = some uid) : uid < s.nextUid := by
  obtain ⟨ref, rfl, hm⟩ := ht.label hl
  obtain ⟨v, hvmem, href⟩ := ht.scanJob hm
  have hlt := hv.uid_lt hvmem
  rw [show ref = _ from href]
  exact hlt

theorem settled_of_emptyCatalog (hv : Versioned s') (hc : s'.toCluster =
    (s.store { job with status := catalogStatus s.clock [] job }).toCluster) :
    Settled job.uid s' := by
  have hstored : s'.jobs job.name = some { job with
      status := catalogStatus s.clock [] job, resourceVersion := s.nextVersion } := by
    rw [hc]
    exact update_self ..
  have hfin :
      (job.markComplete s.clock .noImagesToScan "No images to process").jobFinished = true :=
    ScanJob.jobFinished_mark ..
  have hset := settled_of_stored hv hstored hfin
  exact hset

theorem advance (hs : Consistent s) (hs' : Consistent s') (ht : Traced s) (hg : Undisturbed s a)
    (h : step s a = some s') : Advance s s' := by
  have hsettled : ∀ {uid}, Settled uid s → Settled uid s' := settled_step hs hg h
  refine ⟨hsettled, published_mono h, ?_, ?_⟩
  · intro uid discovered hcatalog
    have hsame : s'.catalog = s.catalog → Settled uid s' ∨
        ∃ discovered', s'.catalog uid = some discovered' ∧ discovered'.Perm discovered := by
      intro hcat
      exact .inr ⟨discovered, by rw [hcat]; exact hcatalog, .refl _⟩
    cases cluster_step hs.versioned h with
    | same hc hcat | created hn hc hcat | deleted hc hcat | patched hj hc hcat
    | written hj hw hc hcat => exact hsame hcat
    | @catalogued w d found old hold hw hc hcat =>
      by_cases huid : uid = old.uid
      · subst huid
        obtain ⟨-, -, hearlier⟩ := undisturbed_catalogUpdate hg hw
        rcases hearlier discovered hcatalog with rfl | hperm
        · exact .inl (settled_of_emptyCatalog hs'.versioned hc)
        · exact .inr ⟨found, by rw [hcat, update_self], hperm⟩
      · refine .inr ⟨discovered, ?_, .refl _⟩
        rw [hcat, update_of_ne huid]
        exact hcatalog
  · intro image uid hl
    have hlt := uid_lt_of_label hs.versioned ht hl
    rcases lookup_kept h hl with hkept | rfl | ⟨w, d, rfl, hw, hne⟩
    · exact .inr hkept
    · refine .inl (hsettled (settled_of_unfinished hs.versioned hlt ?_))
      simpa [Undisturbed, undisturbed, hl] using hg
    · refine .inl (hsettled (settled_of_unfinished hs.versioned hlt ?_))
      simpa [Undisturbed, undisturbed, hw, hl, hne] using hg

/-! ## What is owed -/

/-- What has to be the case before the message may leave the stream. -/
def Discharged (s : State) : Message → Prop
  | .createCatalog ref => Settled ref.uid s ∨
      ∃ discovered, s.catalog ref.uid = some discovered ∧
        ∀ image ∈ discovered, .generateSBOM ref image ∈ s.published
  | .generateSBOM ref image => Settled ref.uid s ∨ .scanSBOM ref image ∈ s.published
  | .scanSBOM ref sbom => Settled ref.uid s ∨ s.reports.lookup sbom = some ref.uid

theorem discharged_of_settled (h : Settled m.scanJob.uid s) : Discharged s m := by
  cases m with
  | createCatalog ref | generateSBOM ref image | scanSBOM ref sbom => exact .inl h

theorem Discharged.mono (hadv : Advance s s') (h : Discharged s m) : Discharged s' m := by
  cases m with
  | createCatalog ref =>
    rcases h with hset | ⟨discovered, hcat, hsent⟩
    · exact .inl (hadv.settled hset)
    · rcases hadv.catalog hcat with hset | ⟨discovered', hcat', hperm⟩
      · exact .inl hset
      · exact .inr ⟨discovered', hcat', fun image himage =>
          hadv.published (hsent image (hperm.mem_iff.mp himage))⟩
  | generateSBOM ref image =>
    rcases h with hset | hsent
    · exact .inl (hadv.settled hset)
    · exact .inr (hadv.published hsent)
  | scanSBOM ref sbom =>
    rcases h with hset | hl
    · exact .inl (hadv.settled hset)
    · exact hadv.label hl

/-- The image belongs to the catalog of the job, if that still matters. -/
def InCatalog (s : State) (uid : Nat) (image : String) : Prop :=
  Settled uid s ∨ ∃ discovered, s.catalog uid = some discovered ∧ image ∈ discovered

theorem InCatalog.mono (hadv : Advance s s') (h : InCatalog s uid image) :
    InCatalog s' uid image := by
  rcases h with hset | ⟨discovered, hcat, himage⟩
  · exact .inl (hadv.settled hset)
  · rcases hadv.catalog hcat with hset | ⟨discovered', hcat', hperm⟩
    · exact .inl hset
    · exact .inr ⟨discovered', hcat', hperm.mem_iff.mpr himage⟩

/-- The catalog has been closed, and the images still to be asked for are these. -/
def Publishing (s : State) (ref : ScanJobRef) (remaining : List String) : Prop :=
  Settled ref.uid s ∨ ∃ discovered, s.catalog ref.uid = some discovered ∧
    (∀ image ∈ remaining, image ∈ discovered) ∧
    ∀ image ∈ discovered, image ∈ remaining ∨ .generateSBOM ref image ∈ s.published

variable {ref : ScanJobRef}

theorem Publishing.mono (hadv : Advance s s') {remaining : List String}
    (h : Publishing s ref remaining) : Publishing s' ref remaining := by
  rcases h with hset | ⟨discovered, hcat, hsub, hrest⟩
  · exact .inl (hadv.settled hset)
  · rcases hadv.catalog hcat with hset | ⟨discovered', hcat', hperm⟩
    · exact .inl hset
    · refine .inr ⟨discovered', hcat', fun image himage => ?_, fun image himage => ?_⟩
      · exact hperm.mem_iff.mpr (hsub image himage)
      · rcases hrest image (hperm.mem_iff.mp himage) with hremaining | hsent
        · exact .inl hremaining
        · exact .inr (hadv.published hsent)

/-- The reconciliation of this report is still to come, or under way with this count. -/
def Pending (s : State) (uid count : Nat) (report : String) : Prop :=
  report ∈ s.queue ∨
    (∃ r job, s.reportReconcilers r = .fetched report job ∧ job.uid = uid) ∨
    ∃ r job reports, s.reportReconcilers r = .listed report job reports ∧ job.uid = uid ∧
      reports.length = count

structure Owed (s : State) : Prop where
  finished : ∀ {job}, job ∈ s.history → job.jobFinished = true → Settled job.uid s
  catalog : ∀ {uid discovered}, s.catalog uid = some discovered →
    Settled uid s ∨ discovered.Nodup ∧ discovered ≠ []
  asked : ∀ {ref image}, .generateSBOM ref image ∈ s.published ∨ .scanSBOM ref image ∈ s.published →
    InCatalog s ref.uid image
  publishing : ∀ {w d remaining}, s.workers w = .catalogPublishing d remaining →
    Publishing s d.message.scanJob remaining
  handled : ∀ {w d}, s.workers w = .handled d → Discharged s d.message
  message : ∀ {m}, m ∈ s.published → (∃ e ∈ s.stream, e.message = m) ∨ Discharged s m
  pending : ∀ {uid discovered}, s.catalog uid = some discovered →
    (∀ image ∈ discovered, s.reports.lookup image = some uid) →
    Settled uid s ∨ ∃ report ∈ discovered, Pending s uid discovered.length report

theorem owed_init : Owed init where
  finished h := by cases h
  catalog h := by cases h
  asked h := by rcases h with h | h <;> cases h
  publishing h := by cases h
  handled h := by cases h
  message h := by cases h
  pending h := by cases h

/-! ## The handlers -/

/-- A step of a run that meets the guard, with what holds before it. -/
structure Taken (s : State) (a : Action) (s' : State) : Prop where
  before : Consistent s
  after : Consistent s'
  numbered : Numbered s
  traced : Traced s
  counted : Counted s
  owed : Owed s
  guard : Undisturbed s a
  advance : Advance s s'
  step_eq : step s a = some s'

section

variable (h : Taken s a s')
include h

theorem owed_finished (hmem : job ∈ s'.history) (hfin : job.jobFinished = true) :
    Settled job.uid s' := by
  rcases history_cases h.before.versioned h.step_eq hmem with hold | hstored
  · exact h.advance.settled (h.owed.finished hold hfin)
  · exact settled_of_stored h.after.versioned hstored hfin

theorem owed_catalog (hcatalog : s'.catalog uid = some discovered) :
    Settled uid s' ∨ discovered.Nodup ∧ discovered ≠ [] := by
  have hsame : s.catalog uid = some discovered →
      Settled uid s' ∨ discovered.Nodup ∧ discovered ≠ [] :=
    fun hcat => (h.owed.catalog hcat).imp_left h.advance.settled
  cases cluster_step h.before.versioned h.step_eq with
  | same hc hcat | created hn hc hcat | deleted hc hcat | patched hj hc hcat
  | written hj hw hc hcat => exact hsame (hcat ▸ hcatalog)
  | @catalogued w d found old hold hw hc hcat =>
    rw [hcat] at hcatalog
    by_cases huid : uid = old.uid
    · subst huid
      simp only [update_self, Option.some.injEq] at hcatalog
      subst hcatalog
      obtain ⟨-, hnodup, -⟩ := undisturbed_catalogUpdate h.guard hw
      by_cases hnil : found = []
      · subst hnil
        exact .inl (settled_of_emptyCatalog h.after.versioned hc)
      · exact .inr ⟨hnodup, hnil⟩
    · rw [update_of_ne huid] at hcatalog
      exact hsame hcatalog

theorem owed_asked
    (hm : .generateSBOM ref image ∈ s'.published ∨ .scanSBOM ref image ∈ s'.published) :
    InCatalog s' ref.uid image := by
  -- a new message was sent by a worker that knew the image from the catalog
  apply InCatalog.mono h.advance
  rcases hm with hm | hm
  · rcases published_cases h.step_eq hm with hold | ⟨hsender, -⟩
    · exact h.owed.asked (.inl hold)
    · cases hsender with
      | catalog hw =>
        rcases h.owed.publishing hw with hset | ⟨discovered, hcat, hsub, -⟩
        · exact .inl hset
        · exact .inr ⟨discovered, hcat, hsub _ mem_cons_self⟩
  · rcases published_cases h.step_eq hm with hold | ⟨hsender, -⟩
    · exact h.owed.asked (.inr hold)
    · cases hsender with
      | @generate w d _ hw =>
        have hphase := h.before.sound.workers w
        rw [hw] at hphase
        obtain ⟨ref, hmessage⟩ := hphase
        have hd : d.message ∈ s.published := h.traced.delivery (w := w) (by rw [hw]; rfl)
        rw [hmessage] at hd ⊢
        exact h.owed.asked (.inl hd)

theorem owed_publishing {remaining : List String}
    (hw : s'.workers w = .catalogPublishing d remaining) :
    Publishing s' d.message.scanJob remaining := by
  rcases worker_step h.before.versioned h.step_eq w with hsame | hstep
  · rw [hsame] at hw
    exact (h.owed.publishing hw).mono h.advance
  · rw [hw] at hstep
    generalize hp : s.workers w = p at hstep
    cases hstep with
    | moved hm => cases hm
    | @catalogWritten _ _ old hcat =>
      have hphase := h.before.sound.workers w
      rw [hp] at hphase
      have hmessage : d.message = .createCatalog ⟨old.name, old.uid⟩ := hphase
      rw [hmessage]
      exact .inr ⟨remaining, hcat, fun _ hmem => hmem, fun _ hmem => .inl hmem⟩
    | @catalogSent _ _ image _ hm =>
      rcases (h.owed.publishing hp).mono h.advance with hset | ⟨discovered, hcat, hsub, hrest⟩
      · exact .inl hset
      · refine .inr ⟨discovered, hcat, fun i hi => hsub i (mem_cons_of_mem _ hi), ?_⟩
        intro i hi
        rcases hrest i hi with hremaining | hsent
        · rcases mem_cons.mp hremaining with rfl | hrem
          · exact .inr hm
          · exact .inl hrem
        · exact .inr hsent

/-- A worker that moves to the end of its handler on its own leaves nothing undone. -/
theorem discharged_of_move {p : Worker} (hp : s.workers w = p) (hm : Move s w a p (.handled d)) :
    Discharged s d.message := by
  have hv := h.before.versioned
  have hdelivery : p.delivery = some d := hm.delivery_eq rfl
  have hd : d.message ∈ s.published := h.traced.delivery (w := w) (by rw [hp]; exact hdelivery)
  have hfetch : (∀ job, s.fetch d.message.scanJob = some job → job.jobFinished = true) →
      Discharged s d.message :=
    fun hfin => discharged_of_settled (settled_of_fetch hv h.traced hd hfin)
  have hunfinished : s.unfinished d.message.scanJob.uid = false → Discharged s d.message := by
    intro hnone
    obtain ⟨v, hvmem, href⟩ := h.traced.scanJob hd
    have hlt : d.message.scanJob.uid < s.nextUid := by
      rw [href]
      exact hv.uid_lt hvmem
    exact discharged_of_settled (settled_of_unfinished hv hlt hnone)
  have hguard := h.guard
  have hfailed : ∀ {job : ScanJob}, job.isFailed = true → job.jobFinished = true := by
    intro job hfail
    simp [ScanJob.jobFinished, hfail]
  cases hm with
  | catalogSkipped hmessage hfin =>
    apply hfetch
    rw [hmessage]
    exact hfin
  | catalogStopped hnone | catalogGone hnone =>
    apply hfetch
    intro job hjob
    rw [hnone] at hjob
    cases hjob
  | catalogPublished =>
    have hphase := h.before.sound.workers w
    rw [hp] at hphase
    obtain ⟨ref, hmessage⟩ := hphase
    have hpublishing := h.owed.publishing hp
    rw [hmessage] at hpublishing ⊢
    rcases hpublishing with hset | ⟨discovered, hcat, -, hsent⟩
    · exact .inl hset
    · refine .inr ⟨discovered, hcat, fun image himage => ?_⟩
      rcases hsent image himage with hnil | hsent
      · cases hnil
      · exact hsent
  | generateSkipped hmessage hfail | scanSkipped hmessage hfail =>
    apply hfetch
    rw [hmessage]
    exact fun job hjob => hfailed (hfail job hjob)
  | generateMissing hmissing | scanMissing hmissing =>
    apply hunfinished
    simpa [Undisturbed, undisturbed, hp, hmissing] using hguard
  | failureGone hnone =>
    apply hfetch
    intro job hjob
    rw [(fetch_eq_some hjob).1] at hnone
    cases hnone
  | gaveUp hd' =>
    apply hunfinished
    simpa [Undisturbed, undisturbed, hp, hd'] using hguard

theorem owed_handled (hw : s'.workers w = .handled d) :
    Discharged s' d.message := by
  rcases worker_step h.before.versioned h.step_eq w with hsame | hstep
  · rw [hsame] at hw
    exact (h.owed.handled hw).mono h.advance
  · rw [hw] at hstep
    generalize hp : s.workers w = p at hstep
    have hphase := h.before.sound.workers w
    rw [hp] at hphase
    cases hstep with
    | moved hm => exact (discharged_of_move h hp hm).mono h.advance
    | generateSent hm =>
      obtain ⟨ref, hmessage⟩ := hphase
      rw [hmessage] at hm ⊢
      exact .inr hm
    | reported hl =>
      obtain ⟨ref, hmessage⟩ := hphase
      rw [hmessage] at hl ⊢
      exact .inr hl
    | @failureWritten _ err old new hj hfin =>
      -- whatever job has the name now is failed; no other can have the UID
      have hname : old.name = d.message.scanJob.name := hphase
      have hd : d.message ∈ s.published := h.traced.delivery (w := w) (by rw [hp]; rfl)
      obtain ⟨v, hvmem, href⟩ := h.traced.scanJob hd
      have hvmem' := history_mono h.before.versioned h.step_eq hvmem
      apply discharged_of_settled
      refine ⟨?_, ?_⟩
      · rw [href]
        exact h.after.versioned.uid_lt hvmem'
      · intro name job hjob huid
        have hsame : job.name = old.name := by
          rw [hname, href]
          rw [href] at huid
          exact h.after.versioned.name_of_uid (h.after.versioned.mem_history hjob) hvmem' huid
        rw [h.after.versioned.name_eq hjob] at hsame
        subst hsame
        rw [hj] at hjob
        cases hjob
        exact hfin

theorem owed_message (hm : m ∈ s'.published) :
    (∃ e ∈ s'.stream, e.message = m) ∨ Discharged s' m := by
  rcases published_cases h.step_eq hm with hold | ⟨-, hnew⟩
  · rcases h.owed.message hold with hin | hdone
    · have hstep := queue_step h.step_eq
      rcases hstep.exists_message h.numbered.queue (fun _ => holds_of_done) hin with
        hkept | ⟨d, ⟨w, hw⟩, rfl⟩
      · exact .inl hkept
      · -- the entry goes because its handler is through with the message
        exact .inr ((h.owed.handled hw).mono h.advance)
    · exact .inr (hdone.mono h.advance)
  · exact .inl hnew

end

/-! ## The count -/

variable {count : Nat}

theorem jobFinished_reportStatus {now : Nat} (hcount : count = job.status.imagesCount) :
    ScanJob.jobFinished { job with status := reportStatus now count job } = true := by
  subst hcount
  by_cases hfailed : job.isFailed = true
  · rw [ScanJob.jobFinished_congr (conditions_reportStatus hfailed)]
    simp [ScanJob.jobFinished, hfailed]
  · rw [Bool.not_eq_true] at hfailed
    have hfailed' : ScanJob.isFailed
        { job with status.scannedImagesCount := job.status.imagesCount } = false := hfailed
    have hstatus : reportStatus now job.status.imagesCount job = (ScanJob.markComplete
        { job with status.scannedImagesCount := job.status.imagesCount } now .allImagesScanned
        "All images scanned successfully").status := by
      simp only [reportStatus, hfailed', Bool.false_eq_true, if_false, if_true]
    rw [hstatus]
    exact ScanJob.jobFinished_mark ..

/-- A reconciler that moves keeps a report pending, or finds that its job is settled. -/
theorem pending_move (h : Taken s a s') {r : Nat} {report : String} {q : ReportReconcile}
    {queue : List String} (hm : ReportMove s r a (s.reportReconcilers r) q queue)
    (hl : s.reports.lookup report = some uid) (hcount : (s.labelled uid).length = count)
    (hp : Pending s uid count report) :
    Pending ({ s with queue := queue }.setReportReconciler r q) uid count report ∨
      Settled uid s' := by
  have hv := h.before.versioned
  have hlt := uid_lt_of_label hv h.traced hl
  generalize hr : s.reportReconcilers r = p at hm
  rcases hp with hq | ⟨r', job, hfetched, huid⟩ | ⟨r', job, reports, hlisted, huid, hlength⟩
  · cases hm with
    | @fetched x version uid' job hx hj hu hc =>
      by_cases heq : report = x
      · subst heq
        rw [hl] at hx
        cases hx
        exact .inl (.inr (.inl ⟨r, job, State.reportReconcilers_set_self .., hu⟩))
      · exact .inl (.inl (mem_filter.mpr ⟨hq, by simpa using heq⟩))
    | @dropped x version hwhy =>
      by_cases heq : report = x
      · subst heq
        -- the request is dropped only if the job is gone or complete
        rcases hwhy uid hl with hgone | ⟨job, hj, rfl, hcomplete⟩
        · exact .inr (h.advance.settled (settled_of_gone hv hlt hgone))
        · have hfin : job.jobFinished = true := by simp [ScanJob.jobFinished, hcomplete]
          exact .inr (h.advance.settled (h.owed.finished hj hfin))
      · exact .inl (.inl (mem_filter.mpr ⟨hq, by simpa using heq⟩))
    | listed => exact .inl (.inl hq)
    | refused | fetchedError | listedError => exact .inl (.inl (mem_cons_of_mem _ hq))
  · by_cases heq : r' = r
    · subst heq
      rw [hfetched] at hr
      subst hr
      cases hm with
      | listed =>
        refine .inl (.inr (.inr ⟨r', job, _, State.reportReconcilers_set_self .., huid, ?_⟩))
        rw [huid]
        exact hcount
      | fetchedError => exact .inl (.inl mem_cons_self)
    · exact .inl (.inr (.inl
        ⟨r', job, (State.reportReconcilers_set_ne _ heq q).trans hfetched, huid⟩))
  · by_cases heq : r' = r
    · subst heq
      rw [hlisted] at hr
      subst hr
      cases hm with
      | refused | listedError => exact .inl (.inl mem_cons_self)
    · exact .inl (.inr (.inr
        ⟨r', job, reports, (State.reportReconcilers_set_ne _ heq q).trans hlisted, huid, hlength⟩))

/-- A report that waits to be reconciled goes on waiting until the job is finished: when all images
have their report, each of its reconciliations counts them all. -/
theorem pending_step (h : Taken s a s') {report : String} (hl : s.reports.lookup report = some uid)
    (hcount : (s.labelled uid).length = count)
    (himages : ∀ {name job}, s.jobs name = some job → job.uid = uid → job.jobFinished = false →
      job.status.imagesCount = count) (hp : Pending s uid count report) :
    Pending s' uid count report ∨ Settled uid s' := by
  cases step_effect h.step_eq with
  | restarted => exact .inl (.inl (AList.lookup_isSome.mp (by rw [hl]; rfl)))
  | reportDeleted | reported hw => exact .inl (hp.imp_left (mem_cons_of_mem _))
  | reportMoved hm => exact pending_move h hm hl hcount hp
  | @reportWritten r x job current reports hr hc recorded =>
    rcases hp with hq | ⟨r', job', hfetched, huid⟩ | ⟨r', job', reports', hlisted, huid, hlength⟩
    · exact .inl (.inl hq)
    · have heq : r' ≠ r := by
        rintro rfl
        rw [hr] at hfetched
        cases hfetched
      exact .inl (.inr (.inl
        ⟨r', job', (State.reportReconcilers_set_ne _ heq _).trans hfetched, huid⟩))
    · by_cases heq : r' = r
      · subst heq
        rw [hr] at hlisted
        cases hlisted
        obtain rfl := h.before.versioned.eq_of_accepted (.inr (.inr ⟨r', by rw [hr]; rfl⟩)) hc
        -- the count is full, so the update completes the job unless it was finished already
        have hfin : ScanJob.jobFinished { current with
            status := reportStatus s.clock reports.length current } = true := by
          by_cases hopen : current.jobFinished = true
          · exact (StatusWrite.counted hr).jobFinished h.before.sound hopen
          · rw [Bool.not_eq_true] at hopen
            exact jobFinished_reportStatus (hlength.trans (himages hc.1 huid hopen).symm)
        have hset := settled_of_stored h.after.versioned (update_self ..) hfin
        exact .inr (huid ▸ hset)
      · exact .inl (.inr (.inr
          ⟨r', job', reports', (State.reportReconcilers_set_ne _ heq _).trans hlisted, huid,
            hlength⟩))
  | catalogSent hw hs | generateSent hw hs | jobSent hp' hs =>
    obtain ⟨bus, rfl⟩ := publish_frame hs
    exact .inl hp
  | _ => exact .inl hp

/-- The reports of an unfinished job belong to images of its catalog. -/
theorem inCatalog_of_label (ht : Traced s) (ho : Owed s) (hl : s.reports.lookup image = some uid) :
    InCatalog s uid image := by
  obtain ⟨ref, rfl, hm⟩ := ht.label hl
  exact ho.asked (.inr hm)

/-- Once every image of the catalog has its report, there are as many reports as images. -/
theorem labelled_perm (ht : Traced s) (ho : Owed s) (hopen : ¬Settled uid s)
    (hcat : s.catalog uid = some discovered)
    (hall : ∀ image ∈ discovered, s.reports.lookup image = some uid) :
    (s.labelled uid).Perm discovered := by
  have hnodup : discovered.Nodup := ((ho.catalog hcat).resolve_left hopen).1
  refine (perm_ext_iff_of_nodup (nodup_labelled s uid) hnodup).mpr fun image => ?_
  rw [mem_labelled]
  constructor
  · intro hl
    obtain ⟨discovered', hcat', himage⟩ := (inCatalog_of_label ht ho hl).resolve_left hopen
    rw [hcat] at hcat'
    cases hcat'
    exact himage
  · exact hall image

theorem owed_pending (h : Taken s a s') (hcat : s'.catalog uid = some discovered)
    (hall : ∀ image ∈ discovered, s'.reports.lookup image = some uid) :
    Settled uid s' ∨ ∃ report ∈ discovered, Pending s' uid discovered.length report := by
  by_cases hset : Settled uid s'
  · exact .inl hset
  by_cases hqueued : ∃ report ∈ discovered, report ∈ s'.queue
  · obtain ⟨report, hmem, hq⟩ := hqueued
    exact .inr ⟨report, hmem, .inl hq⟩
  have hset₀ : ¬Settled uid s := fun hold => hset (h.advance.settled hold)
  -- no label is new, since a new one would be in the queue
  have hall₀ : ∀ image ∈ discovered, s.reports.lookup image = some uid := by
    intro image himage
    rcases lookup_cases h.step_eq (hall image himage) with hold | ⟨-, -, -, -, -, hq⟩
    · exact hold
    · exact absurd ⟨image, himage, hq⟩ hqueued
  -- so the catalog is not new either, but for the order of the images
  obtain ⟨-, hne⟩ := (owed_catalog h hcat).resolve_left hset
  obtain ⟨image, himage⟩ := exists_mem_of_ne_nil discovered hne
  obtain ⟨discovered₀, hcat₀, -⟩ :=
    (inCatalog_of_label h.traced h.owed (hall₀ image himage)).resolve_left hset₀
  obtain ⟨_, hcat', hperm⟩ := (h.advance.catalog hcat₀).resolve_left hset
  rw [hcat] at hcat'
  cases hcat'
  have hall' : ∀ image ∈ discovered₀, s.reports.lookup image = some uid :=
    fun image himage => hall₀ image (hperm.mem_iff.mpr himage)
  obtain ⟨report, hmem, hp⟩ := (h.owed.pending hcat₀ hall').resolve_left hset₀
  have hcount := (labelled_perm h.traced h.owed hset₀ hcat₀ hall').length_eq
  have himages : ∀ {name job}, s.jobs name = some job → job.uid = uid → job.jobFinished = false →
      job.status.imagesCount = discovered₀.length :=
    fun hj huid hopen => h.counted.imagesCount hj hopen (huid ▸ hcat₀)
  have hpending := (pending_step h (hall' report hmem) hcount himages hp).resolve_right hset
  rw [hperm.length_eq]
  exact .inr ⟨report, hperm.mem_iff.mpr hmem, hpending⟩

/-! ## Every run -/

structure Progressing (s : State) : Prop where
  consistent : Consistent s
  numbered : Numbered s
  traced : Traced s
  counted : Counted s
  owed : Owed s

theorem progressing_init : Progressing init :=
  ⟨consistent_init, numbered_init, traced_init, counted_init, owed_init⟩

theorem progressing_step (hp : Progressing s) (hg : Undisturbed s a) (h : step s a = some s') :
    Progressing s' := by
  have hs' := consistent_step hp.consistent h
  have htaken : Taken s a s' :=
    ⟨hp.consistent, hs', hp.numbered, hp.traced, hp.counted, hp.owed, hg,
      advance hp.consistent hs' hp.traced hg h, h⟩
  exact ⟨hs', numbered_step hp.consistent.versioned hp.numbered h,
    traced_step hp.consistent hp.traced h, counted_step hp.consistent hp.counted h,
    owed_finished htaken, owed_catalog htaken, owed_asked htaken, owed_publishing htaken,
    owed_handled htaken, owed_message htaken, owed_pending htaken⟩

/-- Following the messages of an unfinished job leads to one that is in the stream, or to a full
set of reports. -/
theorem stream_or_reports (ho : Owed s) (hopen : ¬Settled ref.uid s)
    (hm : .createCatalog ref ∈ s.published) :
    (∃ e ∈ s.stream, e.message.scanJob = ref) ∨
      ∃ discovered, s.catalog ref.uid = some discovered ∧
        ∀ image ∈ discovered, s.reports.lookup image = some ref.uid := by
  by_cases hstream : ∃ e ∈ s.stream, e.message.scanJob = ref
  · exact .inl hstream
  -- a message that is not in the stream has been dealt with
  have hdone : ∀ {m : Message}, m ∈ s.published → m.scanJob = ref → Discharged s m := by
    intro m hm href
    refine (ho.message hm).resolve_left ?_
    rintro ⟨e, he, rfl⟩
    exact hstream ⟨e, he, href⟩
  obtain ⟨discovered, hcat, hgenerate⟩ := (hdone hm rfl).resolve_left hopen
  refine .inr ⟨discovered, hcat, fun image himage => ?_⟩
  have hscan := (hdone (hgenerate image himage) rfl).resolve_left hopen
  exact (hdone hscan rfl).resolve_left hopen

/-- **A way to finish.** In every undisturbed run, a job that is scheduled or in progress has a
message in the stream, or as many reports as images and one of them waiting to be reconciled. -/
theorem way_to_finish {as : List Action} {name : String}
    (hg : Transition.Along Undisturbed step init as) (hr : exec step init as = some s)
    (hj : s.jobs name = some job) (hu : job.isScheduled = true ∨ job.isInProgress = true) :
    (∃ e ∈ s.stream, e.message.scanJob.uid = job.uid) ∨
      ((s.labelled job.uid).length = job.status.imagesCount ∧
        ∃ report, s.reports.lookup report = some job.uid ∧
          Pending s job.uid job.status.imagesCount report) := by
  have hp : Progressing s :=
    exec_invariant_along (fun _ _ _ => progressing_step) progressing_init hg hr
  have hmem := hp.consistent.versioned.mem_history hj
  have hunfinished : job.jobFinished = false := by
    by_contra hfin
    rw [Bool.not_eq_false] at hfin
    exact not_underWay_of_finished (hp.consistent.sound.exclusive hmem) hfin hu
  have hopen : ¬Settled job.uid s := by
    intro hset
    exact absurd (hunfinished.symm.trans (hset.finished hj rfl)) Bool.false_ne_true
  have hfirst := hp.traced.stored hmem hu
  rcases stream_or_reports hp.owed hopen hfirst with
    ⟨e, he, href⟩ | ⟨discovered, hcat, hall⟩
  · exact .inl ⟨e, he, by rw [href]⟩
  · have hcount := hp.counted.imagesCount hj hunfinished hcat
    have hlabelled := (labelled_perm hp.traced hp.owed hopen hcat hall).length_eq
    obtain ⟨report, hreport, hpending⟩ := (hp.owed.pending hcat hall).resolve_left hopen
    rw [hcount]
    exact .inr ⟨hlabelled, report, hall report hreport, hpending⟩

theorem way_to_finish_oneImage :
    ∃ s job, exec step init scanOneImage = some s ∧ s.jobs "nightly" = some job ∧
      (job.isScheduled = true ∨ job.isInProgress = true) ∧
      ((∃ e ∈ s.stream, e.message.scanJob.uid = job.uid) ∨
        ((s.labelled job.uid).length = job.status.imagesCount ∧
          ∃ report, s.reports.lookup report = some job.uid ∧
            Pending s job.uid job.status.imagesCount report)) :=
  ⟨_, _, rfl, rfl, .inr rfl,
    @way_to_finish _ _ scanOneImage "nightly" (by decide) rfl rfl (.inr rfl)⟩

/-- The only image of the catalog is deleted before its message is handled. -/
def imageDeleted : List Action :=
  scheduleJob ++ createCatalog 0 1 ["alpine"] ++
    [.catalogPublish 0 false, .catalogPublish 0 false, .ack 0, .deleteImage "alpine",
      .deliver 0 2, .generateGet 0, .generateImage 0, .ack 0]

theorem job_without_way_to_finish :
    ∃ s job, exec step init imageDeleted = some s ∧ s.jobs "nightly" = some job ∧
      job.isInProgress = true ∧ job.status.imagesCount = 1 ∧ s.stream = [] ∧
      s.workers 0 = .idle ∧ s.queue = [] ∧ s.labelled job.uid = [] :=
  ⟨_, _, rfl, rfl, rfl, rfl, rfl, rfl, rfl, rfl⟩

end SbomScanner.Jobs.Pipeline

import SbomScanner.Jobs.Effects

/-!
# Optimistic updates

Whoever updates the status of a job submits the version it has read. No two versions of a job are
alike, so an update that is accepted was computed from the job as it is stored: `Versioned` is the
invariant behind this, and `cluster_step` and `origin` the forms in which the rest of the
development uses it. They say what a step does to the stored jobs, and name the writer of every
status.
-/

open Function List

namespace SbomScanner.Jobs.Pipeline

variable {s s' : State} {a : Action} {job : ScanJob}

/-- Some party has read this version of a job and not finished with it. -/
def State.Holds (s : State) (job : ScanJob) : Prop :=
  (∃ w, (s.workers w).copy = some job) ∨ (∃ i, (s.jobReconcilers i).copy = some job) ∨
    ∃ r, (s.reportReconcilers r).copy = some job

structure Versioned (s : State) : Prop where
  name_eq : ∀ {name job}, s.jobs name = some job → job.name = name
  mem_history : ∀ {name job}, s.jobs name = some job → job ∈ s.history
  eq_of_version : ∀ {j j'}, j ∈ s.history → j' ∈ s.history →
    j.resourceVersion = j'.resourceVersion → j = j'
  version_lt : ∀ {j}, j ∈ s.history → j.resourceVersion < s.nextVersion
  uid_lt : ∀ {j}, j ∈ s.history → j.uid < s.nextUid
  name_of_uid : ∀ {j j'}, j ∈ s.history → j' ∈ s.history → j.uid = j'.uid → j.name = j'.name
  held : ∀ {job}, s.Holds job → job ∈ s.history

theorem versioned_init : Versioned init where
  name_eq h := by cases h
  mem_history h := by cases h
  eq_of_version h := by cases h
  version_lt h := by cases h
  uid_lt h := by cases h
  name_of_uid h := by cases h
  held h := by rcases h with ⟨_, h⟩ | ⟨_, h⟩ | ⟨_, h⟩ <;> cases h

variable {current : ScanJob}

/-- An update is accepted only from the version that is stored. -/
theorem Versioned.eq_of_accepted (hv : Versioned s) (hh : s.Holds job)
    (hc : Accepted s job current) : current = job :=
  hv.eq_of_version (hv.mem_history hc.1) (hv.held hh) hc.2

variable {name : String}

theorem Versioned.eq_of_uid (hv : Versioned s) {name' : String} {job' : ScanJob}
    (hj : s.jobs name = some job) (hj' : s.jobs name' = some job') (huid : job'.uid = job.uid) :
    job' = job := by
  have hname := hv.name_of_uid (hv.mem_history hj') (hv.mem_history hj) huid
  rw [hv.name_eq hj, hv.name_eq hj'] at hname
  subst hname
  rw [hj] at hj'
  cases hj'
  rfl

theorem fetch_eq_some {ref : ScanJobRef} (h : s.fetch ref = some job) :
    s.jobs ref.name = some job ∧ job.uid = ref.uid := by
  obtain ⟨h, hu⟩ := Option.filter_eq_some_iff.mp h
  exact ⟨h, by simpa using hu⟩

/-! ## The copies a step hands out -/

/-- A worker that moves on its own reads a job that is stored, or keeps the copy it had. -/
theorem Move.copy_cases {w : Nat} {p q : Worker} (h : Move s w a p q) (hq : q.copy = some job) :
    p.copy = some job ∨ ∃ name, s.jobs name = some job := by
  cases h with
  | catalogFetched hm hf hfin | catalogFetchedFinal hf =>
    cases hq
    exact .inr ⟨_, (fetch_eq_some hf).1⟩
  | failureFetched hf =>
    cases hq
    exact .inr ⟨_, hf⟩
  | _ => cases hq

theorem JobMove.copy_cases {p q : JobReconcile} (h : JobMove s p q) (hq : q.copy = some job) :
    p.copy = some job ∨ job ∈ s.history := by
  cases h with
  | fetched hj hp =>
    cases hq
    exact .inr hj
  | refused => cases hq
  | _ => exact .inl hq

theorem ReportMove.copy_cases {r : Nat} {p q : ReportReconcile} {queue : List String}
    (h : ReportMove s r a p q queue) (hq : q.copy = some job) :
    p.copy = some job ∨ job ∈ s.history := by
  cases h with
  | fetched hl hj hu hc =>
    cases hq
    exact .inr hj
  | listed => exact .inl hq
  | _ => cases hq

/-! ## Versions stay unique -/

theorem publish_frame {m : Message} {dropped : Bool} {sent : State}
    (h : s.publish m dropped = some sent) :
    ∃ bus, sent = { s with toBus := bus } := by
  unfold State.publish at h
  split at h
  · split at h
    · cases h
      exact ⟨s.toBus, rfl⟩
    · cases h
  · cases h
    exact ⟨⟨_, _, _⟩, rfl⟩

section

variable (hv : Versioned s)
include hv

theorem Versioned.congr (hc : s'.toCluster = s.toCluster)
    (hh : ∀ {job}, s'.Holds job → job ∈ s.history) : Versioned s' := by
  have hjobs : s'.jobs = s.jobs := congrArg Cluster.jobs hc
  have hhist : s'.history = s.history := congrArg Cluster.history hc
  have hversion : s'.nextVersion = s.nextVersion := congrArg Cluster.nextVersion hc
  have huid : s'.nextUid = s.nextUid := congrArg Cluster.nextUid hc
  constructor
  · rw [hjobs]
    exact hv.name_eq
  · rw [hjobs, hhist]
    exact hv.mem_history
  · rw [hhist]
    exact hv.eq_of_version
  · rw [hhist, hversion]
    exact hv.version_lt
  · rw [hhist, huid]
    exact hv.uid_lt
  · rw [hhist]
    exact hv.name_of_uid
  · rw [hhist]
    exact hh

/-- What is neither a job nor a party does not matter. -/
theorem Versioned.frame (hc : s'.toCluster = s.toCluster) (hw : s'.workers = s.workers)
    (hj : s'.jobReconcilers = s.jobReconcilers) (hr : s'.reportReconcilers = s.reportReconcilers) :
    Versioned s' := by
  refine hv.congr hc fun hh => hv.held ?_
  rw [State.Holds, hw, hj, hr] at hh
  exact hh

theorem Versioned.publish {m : Message} {dropped : Bool} {sent : State}
    (h : s.publish m dropped = some sent) : Versioned sent := by
  obtain ⟨bus, rfl⟩ := publish_frame h
  exact hv.frame rfl rfl rfl rfl

theorem Versioned.setWorker {w : Nat} {p : Worker}
    (hp : ∀ {job}, p.copy = some job → job ∈ s.history) : Versioned (s.setWorker w p) := by
  refine hv.congr rfl fun {job} hh => ?_
  rcases hh with ⟨w', h⟩ | h
  · by_cases hw : w' = w
    · subst hw
      rw [State.workers_setWorker_self] at h
      exact hp h
    · rw [State.workers_setWorker_ne s hw] at h
      exact hv.held (.inl ⟨w', h⟩)
  · exact hv.held (.inr h)

theorem Versioned.setJobReconciler {i : Nat} {p : JobReconcile}
    (hp : ∀ {job}, p.copy = some job → job ∈ s.history) : Versioned (s.setJobReconciler i p) := by
  refine hv.congr rfl fun {job} hh => ?_
  rcases hh with h | ⟨i', h⟩ | h
  · exact hv.held (.inl h)
  · by_cases hi : i' = i
    · subst hi
      rw [State.jobReconcilers_set_self] at h
      exact hp h
    · rw [State.jobReconcilers_set_ne s hi] at h
      exact hv.held (.inr (.inl ⟨i', h⟩))
  · exact hv.held (.inr (.inr h))

theorem Versioned.setReportReconciler {r : Nat} {p : ReportReconcile}
    (hp : ∀ {job}, p.copy = some job → job ∈ s.history) :
    Versioned (s.setReportReconciler r p) := by
  refine hv.congr rfl fun {job} hh => ?_
  rcases hh with h | h | ⟨r', h⟩
  · exact hv.held (.inl h)
  · exact hv.held (.inr (.inl h))
  · by_cases hr : r' = r
    · subst hr
      rw [State.reportReconcilers_set_self] at h
      exact hp h
    · rw [State.reportReconcilers_set_ne s hr] at h
      exact hv.held (.inr (.inr ⟨r', h⟩))

/-- Storing a job under a fresh version; `uid` is the next UID afterwards. -/
theorem Versioned.store {uid : Nat} (hle : s.nextUid ≤ uid) (hlt : job.uid < uid)
    (hname : ∀ j ∈ s.history, j.uid = job.uid → j.name = job.name) :
    Versioned { s.store job with nextUid := uid } := by
  have hcases : ∀ {j}, j ∈ (s.store job).history →
      j = { job with resourceVersion := s.nextVersion } ∨ j ∈ s.history := mem_cons.mp
  constructor
  · intro name j h
    by_cases hn : name = job.name
    · subst hn
      simp only [State.store, update_self, Option.some.injEq] at h
      rw [← h]
    · simp only [State.store, update_of_ne hn] at h
      exact hv.name_eq h
  · intro name j h
    by_cases hn : name = job.name
    · subst hn
      simp only [State.store, update_self, Option.some.injEq] at h
      rw [← h]
      exact mem_cons_self
    · simp only [State.store, update_of_ne hn] at h
      exact mem_cons_of_mem _ (hv.mem_history h)
  · intro j j' h h' heq
    rcases hcases h with rfl | h <;> rcases hcases h' with rfl | h'
    · rfl
    · have hlt' := hv.version_lt h'
      exact absurd heq.symm (Nat.ne_of_lt hlt')
    · have hlt := hv.version_lt h
      exact absurd heq (Nat.ne_of_lt hlt)
    · exact hv.eq_of_version h h' heq
  · intro j h
    show j.resourceVersion < s.nextVersion + 1
    rcases hcases h with rfl | h
    · exact Nat.lt_succ_self _
    · have hlt := hv.version_lt h
      omega
  · intro j h
    show j.uid < uid
    rcases hcases h with rfl | h
    · exact hlt
    · have hlt := hv.uid_lt h
      omega
  · intro j j' h h' heq
    rcases hcases h with rfl | h <;> rcases hcases h' with rfl | h'
    · rfl
    · exact (hname j' h' heq.symm).symm
    · exact hname j h heq
    · exact hv.name_of_uid h h' heq
  · intro j h
    exact mem_cons_of_mem _ (hv.held h)

/-- Writing a new version of a stored job. -/
theorem Versioned.rewrite (hc : s.jobs job.name = some current) (hu : job.uid = current.uid) :
    Versioned (s.store job) := by
  have hmem := hv.mem_history hc
  refine hv.store le_rfl (hu ▸ hv.uid_lt hmem) fun j hj huj => ?_
  rw [hv.name_of_uid hj hmem (huj.trans hu), hv.name_eq hc]

theorem Versioned.accepted (hc : Accepted s job current) (status : Status) :
    Versioned (s.store { current with status := status }) := by
  have hstored : s.jobs current.name = some current := by
    rw [hv.name_eq hc.1]
    exact hc.1
  exact hv.rewrite hstored rfl

end

theorem jobs_store {new : ScanJob} (h : (s.store new).jobs name = some job) :
    s.jobs name = some job ∨
      name = new.name ∧ job = { new with resourceVersion := s.nextVersion } := by
  by_cases hn : name = new.name
  · subst hn
    simp only [State.store, update_self, Option.some.injEq] at h
    exact .inr ⟨rfl, h.symm⟩
  · simp only [State.store, update_of_ne hn] at h
    exact .inl h

theorem jobs_delete {name' : String} (h : update s.jobs name' none name = some job) :
    s.jobs name = some job := by
  by_cases hn : name = name'
  · subst hn
    simp at h
  · simpa only [update_of_ne hn] using h

theorem versioned_step (hv : Versioned s) (h : step s a = some s') : Versioned s' := by
  cases step_effect h with
  | environment | reportDeleted => exact hv.frame rfl rfl rfl rfl
  | restarted =>
    refine hv.congr rfl fun hh => ?_
    rcases hh with hh | ⟨i, hh⟩ | ⟨r, hh⟩
    · exact hv.held (.inl hh)
    · cases hh
    · cases hh
  | created hn =>
    apply hv.store (Nat.le_succ _) (Nat.lt_succ_self _)
    intro j hj huid
    have hlt := hv.uid_lt hj
    exact absurd huid (Nat.ne_of_lt hlt)
  | deleted =>
    exact ⟨fun hn => hv.name_eq (jobs_delete hn), fun hn => hv.mem_history (jobs_delete hn),
      hv.eq_of_version, hv.version_lt, hv.uid_lt, hv.name_of_uid, fun hh => hv.held hh⟩
  | @moved _ w p _ _ hm =>
    refine Versioned.setWorker ?_ fun hcopy => ?_
    · exact hv.frame rfl rfl rfl rfl
    rcases hm.copy_cases hcopy with hold | ⟨name, hname⟩
    · exact hv.held (.inl ⟨w, hold⟩)
    · exact hv.mem_history hname
  | delivered | acked | reported =>
    apply Versioned.setWorker
    · exact hv.frame rfl rfl rfl rfl
    · exact nofun
  | catalogSent hw hs | generateSent hw hs =>
    apply Versioned.setWorker
    · exact hv.publish hs
    · exact nofun
  | catalogMarked hw hc | catalogWritten hw hc | failureWritten hw hc =>
    apply Versioned.setWorker
    · exact (hv.accepted hc _).frame rfl rfl rfl rfl
    · exact nofun
  | @jobMoved _ i p hm =>
    refine hv.setJobReconciler fun hcopy => ?_
    rcases hm.copy_cases hcopy with hold | hmem
    · exact hv.held (.inr (.inl ⟨i, hold⟩))
    · exact hmem
  | @jobPatched i job current status hp hc =>
    have hname := hv.name_eq hc
    have hs : Versioned (s.store { current with
        hasRegistryAnnotation := true, resourceVersion := s.nextVersion }) :=
      hv.rewrite (hname.symm ▸ hc : s.jobs current.name = some current) rfl
    refine hs.setJobReconciler fun hcopy => ?_
    cases hcopy
    exact mem_cons_self
  | @jobSent i _ job status sent hp hs =>
    obtain ⟨bus, rfl⟩ := publish_frame hs
    refine (hv.publish hs).setJobReconciler fun hcopy => ?_
    cases hcopy
    exact hv.held (.inr (.inl ⟨i, by rw [hp]; rfl⟩))
  | jobWritten hp hc recorded =>
    apply Versioned.setJobReconciler
    · exact (hv.accepted hc _).frame rfl rfl rfl rfl
    · exact nofun
  | @reportMoved _ r p queue hm =>
    refine Versioned.setReportReconciler ?_ fun hcopy => ?_
    · exact hv.frame rfl rfl rfl rfl
    rcases hm.copy_cases hcopy with hold | hmem
    · exact hv.held (.inr (.inr ⟨r, hold⟩))
    · exact hmem
  | reportWritten hp hc recorded =>
    apply Versioned.setReportReconciler
    · exact (hv.accepted hc _).frame rfl rfl rfl rfl
    · exact nofun

/-! ## What a step does to the stored jobs -/

/-- The writers of a status, but for the one that closes a catalog. Each starts from the job as it
is stored. -/
inductive StatusWrite (s : State) (job : ScanJob) : Action → Status → Prop where
  | reconciled {i : Nat} {status : Status} (hp : s.jobReconcilers i = .updating job status) :
      StatusWrite s job (.jobUpdate i) status
  | catalogMarked {w : Nat} {d : Delivery} (hw : s.workers w = .catalogMarking d job) :
      StatusWrite s job (.catalogMark w) (job.markInProgress s.clock .catalogCreationInProgress
        "Catalog creation in progress").status
  | failed {w : Nat} {d : Delivery} {err : String} (hw : s.workers w = .failureUpdating d err job) :
      StatusWrite s job (.failureUpdate w) (job.markFailed s.clock .internalError err).status
  | counted {r : Nat} {report : String} {reports : List String}
      (hp : s.reportReconcilers r = .listed report job reports) :
      StatusWrite s job (.reportUpdate r) (reportStatus s.clock reports.length job)

inductive ClusterStep (s s' : State) : Action → Prop where
  | same {a : Action} (hc : s'.toCluster = s.toCluster) (hcat : s'.catalog = s.catalog) :
      ClusterStep s s' a
  | created {name : String} (h : s.jobs name = none)
      (hc : s'.toCluster =
        { (s.store ⟨name, s.nextUid, 0, 1, false, {}⟩).toCluster with nextUid := s.nextUid + 1 })
      (hcat : s'.catalog = s.catalog) : ClusterStep s s' (.createScanJob name)
  | deleted {name : String}
      (hc : s'.toCluster = { s.toCluster with jobs := update s.jobs name none })
      (hcat : s'.catalog = s.catalog) : ClusterStep s s' (.deleteScanJob name)
  | patched {i : Nat} {job : ScanJob} (hj : s.jobs job.name = some job)
      (hc : s'.toCluster = (s.store { job with hasRegistryAnnotation := true }).toCluster)
      (hcat : s'.catalog = s.catalog) : ClusterStep s s' (.jobPatch i)
  | written {a : Action} {job : ScanJob} {status : Status} (hj : s.jobs job.name = some job)
      (hw : StatusWrite s job a status)
      (hc : s'.toCluster = (s.store { job with status := status }).toCluster)
      (hcat : s'.catalog = s.catalog) : ClusterStep s s' a
  | catalogued {w : Nat} {d : Delivery} {discovered : List String} {job : ScanJob}
      (hj : s.jobs job.name = some job) (hw : s.workers w = .catalogUpdating d discovered job)
      (hc : s'.toCluster =
        (s.store { job with status := catalogStatus s.clock discovered job }).toCluster)
      (hcat : s'.catalog = update s.catalog job.uid (some discovered)) :
      ClusterStep s s' (.catalogUpdate w)

theorem cluster_step (hv : Versioned s) (h : step s a = some s') : ClusterStep s s' a := by
  cases step_effect h with
  | created hn => exact .created hn rfl rfl
  | deleted => exact .deleted rfl rfl
  | catalogSent hw hs | generateSent hw hs | jobSent hw hs =>
    obtain ⟨bus, rfl⟩ := publish_frame hs
    exact .same rfl rfl
  | @catalogMarked w d job current hw hc =>
    obtain rfl := hv.eq_of_accepted (.inl ⟨w, by rw [hw]; rfl⟩) hc
    exact .written hc.1 (.catalogMarked hw) rfl rfl
  | @catalogWritten w d discovered job current hw hc recorded =>
    obtain rfl := hv.eq_of_accepted (.inl ⟨w, by rw [hw]; rfl⟩) hc
    exact .catalogued hc.1 hw rfl rfl
  | @failureWritten w d err job current hw hc recorded =>
    obtain rfl := hv.eq_of_accepted (.inl ⟨w, by rw [hw]; rfl⟩) hc
    exact .written hc.1 (.failed hw) rfl rfl
  | @jobPatched i job current status hp hc =>
    have hname := hv.name_eq hc
    exact .patched (hname ▸ hc) rfl rfl
  | @jobWritten i job current status hp hc recorded =>
    obtain rfl := hv.eq_of_accepted (.inr (.inl ⟨i, by rw [hp]; rfl⟩)) hc
    exact .written hc.1 (.reconciled hp) rfl rfl
  | @reportWritten r report job current reports hp hc recorded =>
    obtain rfl := hv.eq_of_accepted (.inr (.inr ⟨r, by rw [hp]; rfl⟩)) hc
    exact .written hc.1 (.counted hp) rfl rfl
  | _ => exact .same rfl rfl

/-- Where a job that is stored after a step comes from. -/
inductive Origin (s : State) (a : Action) (name : String) (job : ScanJob) : Prop where
  | kept (hold : s.jobs name = some job)
  | created (huid : job.uid = s.nextUid) (hstatus : job.status = {})
  | patched {old : ScanJob} (hold : s.jobs name = some old) (huid : job.uid = old.uid)
      (hstatus : job.status = old.status)
  | written {old : ScanJob} (hold : s.jobs name = some old) (huid : job.uid = old.uid)
      (hw : StatusWrite s old a job.status)
  | catalogued {old : ScanJob} {w : Nat} {d : Delivery} {discovered : List String}
      (ha : a = .catalogUpdate w) (hold : s.jobs name = some old) (huid : job.uid = old.uid)
      (hw : s.workers w = .catalogUpdating d discovered old)
      (hstatus : job.status = catalogStatus s.clock discovered old)

section

variable (hv : Versioned s)
include hv

section

variable (h : step s a = some s')
include h

theorem origin (hj : s'.jobs name = some job) :
    Origin s a name job := by
  cases cluster_step hv h with
  | same hc hcat =>
    rw [hc] at hj
    exact .kept hj
  | created hn hc hcat =>
    rw [hc] at hj
    rcases jobs_store hj with hold | ⟨-, rfl⟩
    · exact .kept hold
    · exact .created rfl rfl
  | deleted hc hcat =>
    rw [hc] at hj
    exact .kept (jobs_delete hj)
  | patched hold hc hcat =>
    rw [hc] at hj
    rcases jobs_store hj with hkept | ⟨rfl, rfl⟩
    · exact .kept hkept
    · exact .patched hold rfl rfl
  | written hold hw hc hcat =>
    rw [hc] at hj
    rcases jobs_store hj with hkept | ⟨rfl, rfl⟩
    · exact .kept hkept
    · exact .written hold rfl hw
  | catalogued hold hw hc hcat =>
    rw [hc] at hj
    rcases jobs_store hj with hkept | ⟨rfl, rfl⟩
    · exact .kept hkept
    · exact .catalogued rfl hold rfl hw rfl

/-- Apart from a deletion, a step leaves the stored jobs alone or stores one. -/
theorem cluster_cases :
    s'.toCluster = s.toCluster ∨
      (∃ name, s'.toCluster = { s.toCluster with jobs := update s.jobs name none }) ∨
      ∃ new uid, s.nextUid ≤ uid ∧
        s'.toCluster = { (s.store new).toCluster with nextUid := uid } := by
  cases cluster_step hv h with
  | same hc => exact .inl hc
  | deleted hc => exact .inr (.inl ⟨_, hc⟩)
  | created _ hc => exact .inr (.inr ⟨_, _, Nat.le_succ _, hc⟩)
  | patched _ hc | written _ _ hc | catalogued _ _ hc => exact .inr (.inr ⟨_, _, Nat.le_refl _, hc⟩)

theorem history_mono (hmem : job ∈ s.history) :
    job ∈ s'.history := by
  rcases cluster_cases hv h with hc | ⟨name, hc⟩ | ⟨new, uid, -, hc⟩ <;> rw [hc]
  · exact hmem
  · exact hmem
  · exact mem_cons_of_mem _ hmem

/-- A version that a step adds is the one it stores. -/
theorem history_cases (hmem : job ∈ s'.history) :
    job ∈ s.history ∨ s'.jobs job.name = some job := by
  rcases cluster_cases hv h with hc | ⟨name, hc⟩ | ⟨new, uid, -, hc⟩ <;> rw [hc] at hmem ⊢
  · exact .inl hmem
  · exact .inl hmem
  · rcases mem_cons.mp hmem with rfl | hold
    · exact .inr (update_self ..)
    · exact .inl hold

theorem nextUid_le : s.nextUid ≤ s'.nextUid := by
  rcases cluster_cases hv h with hc | ⟨name, hc⟩ | ⟨new, uid, hle, hc⟩ <;> rw [hc]
  exact hle

/-- A version that was there before the step was stored before the step, and its catalog is the
same. -/
theorem kept_of_mem_history (hmem : job ∈ s.history) (hj : s'.jobs name = some job) :
    s.jobs name = some job ∧ s'.catalog job.uid = s.catalog job.uid := by
  have hlt := hv.version_lt hmem
  -- a job stored by this step has the version that was next
  have hkept : ∀ {new : ScanJob}, (s.store new).jobs name = some job → s.jobs name = some job := by
    intro new hnew
    rcases jobs_store hnew with hold | ⟨-, rfl⟩
    · exact hold
    · exact absurd hlt (Nat.lt_irrefl _)
  cases cluster_step hv h with
  | same hc hcat =>
    rw [hc] at hj
    exact ⟨hj, by rw [hcat]⟩
  | deleted hc hcat =>
    rw [hc] at hj
    exact ⟨jobs_delete hj, by rw [hcat]⟩
  | created _ hc hcat | patched _ hc hcat | written _ _ hc hcat =>
    rw [hc] at hj
    exact ⟨hkept hj, by rw [hcat]⟩
  | @catalogued w d discovered old hold hw hc hcat =>
    rw [hc] at hj
    refine ⟨hkept hj, ?_⟩
    rw [hcat, update_of_ne]
    intro hu
    have hname : name = old.name := by
      rw [← hv.name_eq (hkept hj)]
      exact hv.name_of_uid hmem (hv.mem_history hold) hu
    subst hname
    simp only [State.store, update_self, Option.some.injEq] at hj
    rw [← hj] at hlt
    exact Nat.lt_irrefl _ hlt

end

end

end SbomScanner.Jobs.Pipeline

import Mathlib.Data.List.Induction
import Mathlib.Data.List.Perm.Subperm
import SbomScanner.Jobs.Parties

/-!
# Complete jobs

`VulnerabilityReportReconciler` decides that a job is complete by comparing two numbers: the reports
that carry the UID of the job, and the `imagesCount` that the last catalog left in its status. The
second is indeed the number of images of that catalog (`Counted`), and a status update goes through
only if the job has not changed since it was read, so both numbers belong to the same catalog.

Equal numbers are equal sets as long as the reports counted belong to images of the catalog: then
every image of it had a report when the reports were listed (`complete_covers_catalog`). Reports of
an earlier catalog of the same job keep its UID until they are collected, and with them the numbers
can agree too early (`complete_without_report`).
-/

namespace SbomScanner.Jobs.Pipeline

open Transition List Function

variable {s s' : State} {a : Action} {job : ScanJob}

theorem mem_labelled {uid : Nat} {image : String} :
    image ∈ s.labelled uid ↔ s.reports.lookup image = some uid := by
  rw [← Option.mem_def, AList.mem_lookup_iff]
  simp only [State.labelled, mem_map, mem_filter, decide_eq_true_eq]
  constructor
  · rintro ⟨⟨i, u⟩, ⟨hmem, rfl⟩, rfl⟩
    exact hmem
  · intro hmem
    exact ⟨⟨image, uid⟩, ⟨hmem, rfl⟩, rfl⟩

theorem nodup_labelled (s : State) (uid : Nat) : (s.labelled uid).Nodup :=
  List.Nodup.sublist (filter_sublist.map _) s.reports.nodupKeys

/-! ## The two numbers -/

structure Counted (s : State) : Prop where
  known : ∀ {uid discovered}, s.catalog uid = some discovered → uid < s.nextUid
  imagesCount : ∀ {name job discovered}, s.jobs name = some job → job.jobFinished = false →
    s.catalog job.uid = some discovered → job.status.imagesCount = discovered.length

theorem counted_init : Counted init where
  known h := by cases h
  imagesCount h := by cases h

theorem counted_step (hs : Consistent s) (hc : Counted s) (h : step s a = some s') :
    Counted s' := by
  have hv := hs.versioned
  have hle := nextUid_le hv h
  constructor
  · intro uid discovered hcatalog
    have hold : ∀ {uid discovered}, s.catalog uid = some discovered → uid < s'.nextUid := by
      intro uid discovered hcat
      have hlt := hc.known hcat
      omega
    cases cluster_step hv h with
    | @catalogued w d _ old hstored hw hcluster hcat =>
      rw [hcat] at hcatalog
      by_cases hu : uid = old.uid
      · subst hu
        have hlt := hv.uid_lt (hv.mem_history hstored)
        omega
      · rw [update_of_ne hu] at hcatalog
        exact hold hcatalog
    | same hcluster hcat | created hn hcluster hcat | deleted hcluster hcat
    | patched hj hcluster hcat | written hj hw hcluster hcat => exact hold (hcat ▸ hcatalog)
  · intro name job discovered hj hopen hcatalog
    -- a job that the step did not write has kept its catalog
    have hkept : s.jobs name = some job → job.status.imagesCount = discovered.length := by
      intro hold
      obtain ⟨-, hcat⟩ := kept_of_mem_history hv h (hv.mem_history hold) hj
      rw [hcat] at hcatalog
      exact hc.imagesCount hold hopen hcatalog
    cases cluster_step hv h with
    | same hcluster hcat =>
      rw [hcluster] at hj
      exact hkept hj
    | created hn hcluster hcat =>
      rw [hcluster] at hj
      rcases jobs_store hj with hold | ⟨-, rfl⟩
      · exact hkept hold
      · rw [hcat] at hcatalog
        have hlt : s.nextUid < s.nextUid := hc.known hcatalog
        exact absurd hlt (Nat.lt_irrefl _)
    | deleted hcluster hcat =>
      rw [hcluster] at hj
      exact hkept (jobs_delete hj)
    | @patched i old hold hcluster hcat =>
      rw [hcluster] at hj
      rcases jobs_store hj with hold | ⟨-, rfl⟩
      · exact hkept hold
      · rw [hcat] at hcatalog
        have hcount : old.status.imagesCount = discovered.length :=
          hc.imagesCount hold hopen hcatalog
        exact hcount
    | @written _ old status hold hw hcluster hcat =>
      rw [hcluster] at hj
      rcases jobs_store hj with hold | ⟨-, rfl⟩
      · exact hkept hold
      · have hopen' : old.jobFinished = false := by
          by_contra hfin
          rw [Bool.not_eq_false] at hfin
          have hfin' : ScanJob.jobFinished { old with status := status } = true :=
            hw.jobFinished hs.sound hfin
          exact absurd (hopen.symm.trans hfin') Bool.false_ne_true
        rw [hcat] at hcatalog
        exact (hw.imagesCount hs.sound).trans (hc.imagesCount hold hopen' hcatalog)
    | @catalogued w d found old hold hw hcluster hcat =>
      rw [hcluster] at hj
      rcases jobs_store hj with hold | ⟨-, rfl⟩
      · exact hkept hold
      · rw [hcat] at hcatalog
        simp only [update_self, Option.some.injEq] at hcatalog
        subst hcatalog
        have hne : found ≠ [] := by
          rintro rfl
          have hfin : ScanJob.jobFinished (old.markComplete s.clock .noImagesToScan
              "No images to process") = true := ScanJob.jobFinished_mark ..
          exact absurd (hopen.symm.trans hfin) Bool.false_ne_true
        simp only [catalogStatus, if_neg hne]

/-! ## The reports listed -/

def Action.lister : Action → Option Nat
  | .reportList r => some r
  | _ => none

/-- When the reports of a job are listed, they belong to images of its last catalog. -/
def LabelledInCatalog (s : State) (a : Action) : Prop :=
  ∀ r ∈ a.lister, ∀ job ∈ (s.reportReconcilers r).copy, ∀ discovered ∈ s.catalog job.uid,
    ∀ image ∈ s.labelled job.uid, image ∈ discovered

instance (s : State) (a : Action) : Decidable (LabelledInCatalog s a) :=
  inferInstanceAs (Decidable (∀ r ∈ a.lister, ∀ job ∈ (s.reportReconcilers r).copy,
    ∀ discovered ∈ s.catalog job.uid, ∀ image ∈ s.labelled job.uid, image ∈ discovered))

variable {reports : List String}

theorem listed_cases (h : step s a = some s') {r : Nat} {report : String}
    (hr : s'.reportReconcilers r = .listed report job reports) :
    s.reportReconcilers r = .listed report job reports ∨
      a = .reportList r ∧ s.reportReconcilers r = .fetched report job ∧
        reports = s.labelled job.uid ∧ s'.toCluster = s.toCluster ∧ s'.catalog = s.catalog := by
  cases step_effect h with
  | restarted => cases hr
  | catalogSent hw hs | generateSent hw hs | jobSent hp hs =>
    obtain ⟨bus, rfl⟩ := publish_frame hs
    exact .inl hr
  | @reportMoved _ r' p queue hm =>
    by_cases heq : r = r'
    · subst heq
      rw [State.reportReconcilers_set_self] at hr
      subst hr
      generalize s.reportReconcilers r = p at hm ⊢
      cases hm with
      | listed => exact .inr ⟨rfl, rfl, rfl, rfl, rfl⟩
    · rw [State.reportReconcilers_set_ne _ heq] at hr
      exact .inl hr
  | @reportWritten r' _ _ _ _ hp hc recorded =>
    by_cases heq : r = r'
    · subst heq
      rw [State.reportReconcilers_set_self] at hr
      cases hr
    · rw [State.reportReconcilers_set_ne _ heq] at hr
      exact .inl hr
  | _ => exact .inl hr

/-- What was listed belongs to the catalog, for as long as the job is the one that was read. -/
structure Listing (s : State) : Prop where
  nodup : ∀ {r report job reports}, s.reportReconcilers r = .listed report job reports →
    reports.Nodup
  in_catalog : ∀ {r report job reports discovered},
    s.reportReconcilers r = .listed report job reports → s.jobs job.name = some job →
    s.catalog job.uid = some discovered → ∀ image ∈ reports, image ∈ discovered

theorem listing_init : Listing init where
  nodup h := by cases h
  in_catalog h := by cases h

theorem listing_step (hv : Versioned s) (hl : Listing s) (hg : LabelledInCatalog s a)
    (h : step s a = some s') : Listing s' := by
  constructor
  · intro r report job reports hr
    rcases listed_cases h hr with hold | ⟨-, -, rfl, -⟩
    · exact hl.nodup hold
    · exact nodup_labelled s job.uid
  · intro r report job reports discovered hr hj hcatalog
    rcases listed_cases h hr with hold | ⟨rfl, hfetched, rfl, hcluster, hcat⟩
    · have hmem : job ∈ s.history := hv.held (.inr (.inr ⟨r, by rw [hold]; rfl⟩))
      obtain ⟨hstored, hsame⟩ := kept_of_mem_history hv h hmem hj
      rw [hsame] at hcatalog
      exact hl.in_catalog hold hstored hcatalog
    · rw [hcat] at hcatalog
      exact hg r rfl job (by rw [hfetched]; rfl) discovered hcatalog

/-- The list a reconciler holds was taken at some point of the run. -/
theorem listed_earlier {as : List Action} (h : exec step init as = some s) {r : Nat}
    {report : String} (hr : s.reportReconcilers r = .listed report job reports) :
    ∃ earlier t, earlier <+: as ∧ exec step init earlier = some t ∧
      reports = t.labelled job.uid := by
  induction as using List.reverseRecOn generalizing s with
  | nil =>
    cases h
    cases hr
  | append_singleton as a ih =>
    obtain ⟨t, ht, hlast⟩ := exec_append.mp h
    obtain ⟨s', hstep, hnil⟩ := exec_cons_eq_some.mp hlast
    cases hnil
    rcases listed_cases hstep hr with hold | ⟨-, -, hreports, -⟩
    · obtain ⟨earlier, t', hearlier, ht', hreports⟩ := ih ht hold
      exact ⟨earlier, t', hearlier.trans (prefix_append as [a]), ht', hreports⟩
    · exact ⟨as, t, prefix_append as [a], ht, hreports⟩

/-! ## Completion -/

theorem isComplete_reportStatus {now count : Nat} (hopen : job.isComplete = false)
    (hdone : ScanJob.isComplete { job with status := reportStatus now count job } = true) :
    job.jobFinished = false ∧ count = job.status.imagesCount := by
  have hfailed : job.isFailed = false := by
    by_contra hfailed
    rw [Bool.not_eq_false] at hfailed
    have hsame : ScanJob.isComplete { job with status := reportStatus now count job } =
        job.isComplete := ScanJob.is_congr (conditions_reportStatus hfailed) .complete
    exact absurd (hopen.symm.trans (hsame.symm.trans hdone)) Bool.false_ne_true
  refine ⟨by simp [ScanJob.jobFinished, hopen, hfailed], ?_⟩
  by_contra hne
  have hfailed' : ScanJob.isFailed { job with status.scannedImagesCount := count } = false :=
    hfailed
  have hstatus : reportStatus now count job = (ScanJob.markInProgress
      { job with status.scannedImagesCount := count } now .imageScanInProgress
      "Image scan in progress").status := by
    simp only [reportStatus, hfailed', hne, Bool.false_eq_true, if_false]
  rw [hstatus] at hdone
  have hmark : (ScanJob.markInProgress { job with status.scannedImagesCount := count } now
      .imageScanInProgress "Image scan in progress").isComplete = false := ScanJob.is_mark ..
  exact absurd (hmark.symm.trans hdone) Bool.false_ne_true

/-- **A complete job has a report for every image.** In a run in which the reports listed for a job
belong to its last catalog, an update of the report reconciler that completes a job was decided in
a state in which every image of that catalog had a report with the label of the job. -/
theorem complete_covers_catalog {as : List Action} {r : Nat} {name : String} {old job : ScanJob}
    (hg : Transition.Along LabelledInCatalog step init as)
    (hr : exec step init as = some s) (h : step s (.reportUpdate r) = some s')
    (hold : s.jobs name = some old) (hopen : old.isComplete = false)
    (hj : s'.jobs name = some job) (hdone : job.isComplete = true) :
    ∃ earlier t, earlier <+: as ∧ exec step init earlier = some t ∧
      ∀ discovered, s.catalog job.uid = some discovered →
        ∀ image ∈ discovered, t.reports.lookup image = some job.uid := by
  have hinv : Consistent s ∧ Counted s ∧ Listing s :=
    exec_invariant_along (I := fun t => Consistent t ∧ Counted t ∧ Listing t)
      (fun t b t' ht hgb hb => ⟨consistent_step ht.1 hb, counted_step ht.1 ht.2.1 hb,
        listing_step ht.1.versioned ht.2.2 hgb hb⟩)
      ⟨consistent_init, counted_init, listing_init⟩ hg hr
  obtain ⟨hs, hcounted, hlisting⟩ := hinv
  cases origin hs.versioned h hj with
  | kept hkept =>
    rw [hold] at hkept
    cases hkept
    exact absurd (hopen.symm.trans hdone) Bool.false_ne_true
  | created huid hstatus =>
    rw [ScanJob.isComplete, ScanJob.is, ScanJob.condition, hstatus] at hdone
    cases hdone
  | patched hkept huid hstatus =>
    rw [hold] at hkept
    cases hkept
    have hsame := ScanJob.is_congr (congrArg Status.conditions hstatus) .complete
    exact absurd (hopen.symm.trans (hsame.symm.trans hdone)) Bool.false_ne_true
  | catalogued ha => cases ha
  | written hkept huid hw =>
    rw [hold] at hkept
    cases hkept
    generalize hstatus : job.status = status at hw
    cases hw with
    | @counted _ report reports hp =>
      have hsame := ScanJob.is_congr
        (j := { old with status := reportStatus s.clock reports.length old })
        (congrArg Status.conditions hstatus) .complete
      obtain ⟨hunfinished, hcount⟩ := isComplete_reportStatus hopen (hsame.symm.trans hdone)
      obtain ⟨earlier, t, hearlier, ht, hreports⟩ := listed_earlier hr hp
      refine ⟨earlier, t, hearlier, ht, ?_⟩
      intro discovered hcatalog image himage
      rw [huid] at hcatalog ⊢
      have hstored : s.jobs old.name = some old := by
        rw [hs.versioned.name_eq hold]
        exact hold
      have hlength := hcounted.imagesCount hold hunfinished hcatalog
      have hsub := hlisting.in_catalog hp hstored hcatalog
      -- distinct reports of catalog images, as many as there are images
      have hperm : reports.Perm discovered :=
        (subperm_of_subset (hlisting.nodup hp) hsub).perm_of_length_le (by omega)
      have hmem := hperm.mem_iff.mpr himage
      rw [hreports] at hmem
      exact mem_labelled.mp hmem

/-- One image, from the catalog to the list of its reports. -/
def scanOneImage : List Action :=
  scheduleJob ++ createCatalog 0 1 ["alpine"] ++
    [Action.catalogPublish 0 false, .catalogPublish 0 false, .ack 0] ++ generateSBOM 0 2 ++
    scanSBOMs 0 3 ++ [Action.reportGet 0 "alpine" 6, .reportList 0]

theorem complete_covers_catalog_oneImage :
    ∃ s s' old job, exec step init scanOneImage = some s ∧
      step s (.reportUpdate 0) = some s' ∧ s.jobs "nightly" = some old ∧
      old.isComplete = false ∧ s'.jobs "nightly" = some job ∧ job.isComplete = true ∧
      ∃ earlier t, earlier <+: scanOneImage ∧ exec step init earlier = some t ∧
        ∀ discovered, s.catalog job.uid = some discovered →
          ∀ image ∈ discovered, t.reports.lookup image = some job.uid :=
  ⟨_, _, _, _, rfl, rfl, rfl, rfl, rfl, rfl,
    @complete_covers_catalog _ _ scanOneImage 0 "nightly" _ _ (by decide) rfl rfl rfl rfl rfl rfl⟩

/-- A first catalog finds `alpine` and `busybox`, a second one `busybox` and `curl`. When `busybox`
has been scanned, the report of `alpine` is still there. -/
def twoCatalogs : List Action :=
  scheduleJob ++ createCatalog 0 1 ["alpine", "busybox"] ++
    [Action.catalogPublish 0 false, .catalogPublish 0 false, .crash 0] ++
    generateSBOM 1 2 ++ scanSBOMs 1 4 ++
    createCatalog 0 1 ["busybox", "curl"] ++ [Action.deleteImage "alpine"] ++
    [Action.catalogPublish 0 true, .catalogPublish 0 false, .catalogPublish 0 false, .ack 0] ++
    generateSBOM 1 3 ++ scanSBOMs 1 6 ++ [Action.reportGet 0 "busybox" 8, .reportList 0]

theorem complete_without_report :
    ∃ s s' old job, exec step init twoCatalogs = some s ∧
      step s (.reportUpdate 0) = some s' ∧ s.jobs "nightly" = some old ∧
      old.isComplete = false ∧ s'.jobs "nightly" = some job ∧ job.isComplete = true ∧
      (job.condition .complete).map (·.reason) = some .allImagesScanned ∧
      s.catalog job.uid = some ["busybox", "curl"] ∧ s.reports.lookup "curl" = none :=
  ⟨_, _, _, _, rfl, rfl, rfl, rfl, rfl, rfl, rfl, rfl, rfl⟩

end SbomScanner.Jobs.Pipeline

import SbomScanner.Storage.ReportReads

/-!
# The scan status of a container

A container is scanned when each Image of its reference has been: there is one Image for each
platform, and the VulnerabilityReport of an Image has its name and namespace. `computeScanStatus`
does not look at names. It compares two numbers, that of the Images and that of the
VulnerabilityReports of the reference, and so a report whose Image is gone stands in for one that is
still to come (`scanStatus_right_iff`).
-/

namespace SbomScanner.Storage.Reports

open List

open Api (ImageRef ContainerRef)
open Sql (Json)

/-! ## What the status says -/

def IsImageOf (db : Database) (ref : ImageRef) (image : Row Image) : Prop :=
  image ∈ db.images.rows ∧ Image.ref image.object = ref

def Reported (db : Database) (image : Row Image) : Prop :=
  ∃ report ∈ db.vulnerabilityReports.rows, report.key = image.key

def AllReported (db : Database) (ref : ImageRef) : Prop :=
  ∀ image, IsImageOf db ref image → Reported db image

structure RightStatus (db : Database) (ref : ImageRef) (status : ScanStatus) : Prop where
  complete : status = .scanComplete ↔ (∃ image, IsImageOf db ref image) ∧ AllReported db ref
  waiting : status = .waitingForScan ↔ ¬∃ image, IsImageOf db ref image
  inProgress : status = .scanInProgress ↔ (∃ image, IsImageOf db ref image) ∧ ¬AllReported db ref

/-! ## Counting -/

def imageKeys (db : Database) (ref : ImageRef) : Finset ObjectKey :=
  ((db.images.rows.filter fun r => Image.ref r.object = ref).map Row.key).toFinset

def reportKeys (db : Database) (ref : ImageRef) : Finset ObjectKey :=
  ((db.vulnerabilityReports.rows.filter (IsReportOn ref)).map Row.key).toFinset

/-- The Images of the reference whose own report is not one of the reference. -/
def unreported (db : Database) (ref : ImageRef) : Finset ObjectKey :=
  imageKeys db ref \ reportKeys db ref

/-- The reports of the reference that belong to no Image of it. -/
def orphaned (db : Database) (ref : ImageRef) : Finset ObjectKey :=
  reportKeys db ref \ imageKeys db ref

/-- As long as a report is missing, the orphaned ones are fewer than the Images they could stand in
for. When none is missing, they make up for those that carry another reference. -/
def OrphansDoNotCount (db : Database) (ref : ImageRef) : Prop :=
  (¬AllReported db ref → (orphaned db ref).card < (unreported db ref).card) ∧
    (AllReported db ref → (unreported db ref).card ≤ (orphaned db ref).card)

variable {db : Database} {ref : ImageRef}

theorem card_imageKeys : (imageKeys db ref).card = imageCount db ref := by
  have hnodup : ((db.images.rows.filter fun r => Image.ref r.object = ref).map Row.key).Nodup :=
    db.images.keys_nodup.sublist (filter_sublist.map _)
  rw [imageKeys, toFinset_card_of_nodup hnodup, length_map, imageCount, countP_eq_length_filter]

theorem card_reportKeys : (reportKeys db ref).card = reportCount db ref := by
  have hnodup : ((db.vulnerabilityReports.rows.filter (IsReportOn ref)).map Row.key).Nodup :=
    db.vulnerabilityReports.keys_nodup.sublist (filter_sublist.map _)
  rw [reportKeys, toFinset_card_of_nodup hnodup, length_map, reportCount, countP_eq_length_filter]

theorem imageCount_pos : imageCount db ref ≠ 0 ↔ ∃ image, IsImageOf db ref image := by
  unfold imageCount IsImageOf
  simp

/-- The reports are at least as many as the images iff the orphaned ones are at least as many as
those that are missing. -/
theorem imageCount_le_iff : imageCount db ref ≤ reportCount db ref ↔
    (unreported db ref).card ≤ (orphaned db ref).card := by
  rw [← card_imageKeys, ← card_reportKeys]
  exact Finset.card_sdiff_le_card_sdiff_iff.symm

theorem rightStatus_computeScanStatus :
    RightStatus db ref (computeScanStatus (imageCount db ref) (reportCount db ref)) ↔
      OrphansDoNotCount db ref := by
  unfold OrphansDoNotCount
  rw [← imageCount_le_iff, ← not_le, ← imageCount_le_iff]
  by_cases hsome : ∃ image, IsImageOf db ref image
  · have hpos : imageCount db ref ≠ 0 := imageCount_pos.mpr hsome
    unfold computeScanStatus
    rw [if_neg hpos]
    split
    · next hlt =>
        rw [← not_le] at hlt
        constructor
        · intro h
          have hmissing : ¬AllReported db ref := (h.inProgress.mp rfl).2
          exact ⟨fun _ => hlt, fun hall => absurd hall hmissing⟩
        · rintro ⟨-, hall⟩
          have hmissing : ¬AllReported db ref := fun h => hlt (hall h)
          constructor <;> simp [hsome, hmissing]
    · next hle =>
        rw [not_lt] at hle
        constructor
        · intro h
          have hall : AllReported db ref := (h.complete.mp rfl).2
          exact ⟨fun hmissing => absurd hall hmissing, fun _ => hle⟩
        · rintro ⟨hmissing, -⟩
          have hall : AllReported db ref := by
            by_contra h
            exact hmissing h hle
          constructor <;> simp [hsome, hall]
  · -- without Images there is nothing to report, and the status says so
    have hzero : imageCount db ref = 0 := by
      by_contra h
      exact hsome (imageCount_pos.mp h)
    have hall : AllReported db ref := fun image himage => absurd ⟨image, himage⟩ hsome
    rw [hzero]
    constructor
    · exact fun _ => ⟨fun h => absurd hall h, fun _ => Nat.zero_le _⟩
    · intro _
      constructor <;> simp [computeScanStatus, hsome]

/-! ## What is read -/

variable {reportJson : Report → Json} {plan : QueryPlan}
  {reports : List (Object WorkloadScanReport)}

theorem length_fetchVulnerabilityReports {containers : List ContainerRef}
    (h : ref ∈ containers.map ContainerRef.imageRef) :
    (fetchVulnerabilityReports reportJson plan db containers ref).length = reportCount db ref := by
  have hperm := (plan.perm (containers.map ContainerRef.imageRef) (matching
    db.vulnerabilityReports.rows (containers.map ContainerRef.imageRef))).filter (IsReportOn ref)
  rw [fetchVulnerabilityReports_eq, length_map, hperm.length_eq, filter_matching _ h,
    reportCount, countP_eq_length_filter]

theorem status_populateContainerResults {report : Object WorkloadScanReport} {i j : Nat}
    {container : ContainerRef} (hreport : reports[j]? = some report)
    (hcontainer : report.content.spec[i]? = some container) :
    ∃ populated, (populateContainerResults reportJson plan db reports)[j]? = some populated ∧
      populated.content.status[i]? = some ⟨container.name, computeScanStatus
        (imageCount db container.imageRef) (reportCount db container.imageRef)⟩ := by
  have hmem : container.imageRef ∈ (batchContainers reports).map ContainerRef.imageRef :=
    mem_batchContainers (mem_of_getElem? hreport) (mem_of_getElem? hcontainer)
  have hne : report.content.spec ≠ [] := ne_nil_of_mem (mem_of_getElem? hcontainer)
  rw [populateContainerResults_map, List.getElem?_map, hreport]
  refine ⟨_, rfl, ?_⟩
  unfold populateFrom populateReport
  rw [if_neg hne]
  show (report.content.spec.map _)[i]? = _
  rw [List.getElem?_map, hcontainer, Option.map_some, fetchImageCounts_apply db hmem,
    length_fetchVulnerabilityReports hmem]

/-- **The scan status.** When a batch of reports is read, the status of a container is right iff the
orphaned VulnerabilityReports of its reference do not count. -/
theorem scanStatus_right_iff {report : Object WorkloadScanReport} {i j : Nat}
    {container : ContainerRef} (hreport : reports[j]? = some report)
    (hcontainer : report.content.spec[i]? = some container) :
    ∃ populated, (populateContainerResults reportJson plan db reports)[j]? = some populated ∧
      ∃ status, populated.content.status[i]? = some status ∧ status.name = container.name ∧
        (RightStatus db container.imageRef status.scanStatus ↔
          OrphansDoNotCount db container.imageRef) := by
  obtain ⟨populated, hpopulated, hstatus⟩ :=
    @status_populateContainerResults db reportJson plan reports report i j container hreport
      hcontainer
  exact ⟨populated, hpopulated, _, hstatus, rfl, rightStatus_computeScanStatus⟩

/-! ## A tag that is pushed again

The Image `a/x` has been scanned. Then its tag is moved to another digest: the catalog creates the
Image `a/a` for it and deletes `a/x`. -/

def pushedAgain : Object Image :=
  ⟨⟨"a", "a", "u2", 2, [], segmentA.ne, segmentA.noSlash, segmentA.noSlash⟩,
    ⟨{ sampleImage.content.imageMetadata with digest := "sha256:2" }⟩⟩

def afterPush : Database :=
  { sampleDatabase freshReports with images := .singleton ⟨2, pushedAgain⟩ }

/-- The new Image has no report, and the container counts as scanned. -/
theorem orphaned_report_completes_scan :
    (populateContainerResults noJson .asStored afterPush [sampleWorkload 1 [appContainer]]).map
      (·.content.status) = [[⟨"app", .scanComplete⟩]] ∧
    IsImageOf afterPush appContainer.imageRef ⟨2, pushedAgain⟩ ∧
    ¬Reported afterPush ⟨2, pushedAgain⟩ ∧
    ¬RightStatus afterPush appContainer.imageRef .scanComplete := by
  have himage : IsImageOf afterPush appContainer.imageRef ⟨2, pushedAgain⟩ :=
    ⟨mem_singleton_self _, by decide⟩
  have hmissing : ¬Reported afterPush ⟨2, pushedAgain⟩ := by
    rintro ⟨report, hreport, hkey⟩
    rw [mem_singleton.mp hreport] at hkey
    exact absurd hkey (by decide)
  refine ⟨by decide +kernel, himage, hmissing, fun h => ?_⟩
  exact hmissing ((h.complete.mp rfl).2 _ himage)

theorem scanStatus_right_iff_sample :
    ∃ populated, (populateContainerResults noJson .asStored (sampleDatabase freshReports)
        [sampleWorkload 1 [appContainer]])[0]? = some populated ∧
      ∃ status, populated.content.status[0]? = some status ∧ status.name = "app" ∧
        RightStatus (sampleDatabase freshReports) appContainer.imageRef status.scanStatus := by
  obtain ⟨populated, hpopulated, status, hstatus, hname, hiff⟩ :=
    @scanStatus_right_iff (sampleDatabase freshReports) noJson .asStored
      [sampleWorkload 1 [appContainer]] (sampleWorkload 1 [appContainer]) 0 0 appContainer rfl rfl
  refine ⟨populated, hpopulated, status, hstatus, hname, hiff.mpr ?_⟩
  have hall : AllReported (sampleDatabase freshReports) appContainer.imageRef := by
    rintro image ⟨himage, -⟩
    rw [mem_singleton.mp himage]
    exact ⟨_, mem_singleton_self _, rfl⟩
  exact ⟨fun h => absurd hall h, fun _ => by decide +kernel⟩

end SbomScanner.Storage.Reports

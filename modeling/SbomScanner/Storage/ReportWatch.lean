import SbomScanner.Storage.Replication
import SbomScanner.Storage.ReportReads

/-!
# Synthetic events for workload scan reports

The view of a report changes when an Image or a VulnerabilityReport is written.
`WorkloadScanReportWatcher` listens to the events of VulnerabilityReports and publishes a MODIFIED
event for each report that refers to the image of the event's object. It does not listen to Images,
and the event of an update has the new object only.

`notifies_iff_covered` says which writes that is enough for: a write of an Image, when it leaves the
scan status of the referring reports alone, and an update of a VulnerabilityReport, when no report
refers to its old image but not to the new one.
-/

namespace SbomScanner.Storage.Reports

open List

open Api (ImageRef ContainerRef)
open Sql (Json)
open Replication (Write)

/-! ## The watcher -/

section Watcher

variable (reportJson : Report → Json) (db : Database)

/-- `object->'spec'->'containers' @> [{"imageRef": ref}]`. -/
def refersTo (ref : ImageRef) (r : Row WorkloadScanReport) : Sql.Truth :=
  Sql.contains
    (Sql.arrow (Sql.arrow (some ((workloadScanReportKind reportJson).toJson r.object)) "spec")
      "containers")
    (.arr [.obj [("imageRef", ImageRef.toJson ref)]])

/-- Finds all WorkloadScanReports that have a container referencing the given image. The results are
not populated. -/
def findByImageRef (ref : ImageRef) : List (Object WorkloadScanReport) :=
  (db.workloadScanReports.rows.filter fun r => refersTo reportJson ref r == some true).map
    Row.object

/-- Fans a VulnerabilityReport event out as synthetic MODIFIED events. -/
def processVulnerabilityReportEvent (payload : Message VulnerabilityReport) :
    List (Message WorkloadScanReport) :=
  (findByImageRef reportJson db (VulnerabilityReport.ref payload.object)).map
    (publish (workloadScanReportKind reportJson) .modified)

end Watcher

/-! ## Writes -/

/-- A write of one of the two tables that the view is computed from. -/
inductive SourceWrite where
  | image (w : Write Image)
  | vulnerabilityReport (w : Write VulnerabilityReport)

section Writes

variable {α : Type}

/-- The row that a write replaces, and the one it leaves. -/
def writeOld (t : Table α) : Write α → Option (Object α)
  | .create _ => none
  | .update o => t.lookup o.key
  | .delete key => t.lookup key

def writeNew : Write α → Option (Object α)
  | .create o => some o
  | .update o => some o
  | .delete _ => none

/-- The committed write; `none` if it fails. -/
def applyWrite (t : Table α) : Write α → Option (Table α)
  | .create o => t.insert o
  | .update o => t.update o
  | .delete key => (t.delete key).map Prod.snd

def writeEventType : Write α → EventType
  | .create _ => .added
  | .update _ => .modified
  | .delete _ => .deleted

theorem replaces_applyWrite {t t' : Table α} {w : Write α} (h : applyWrite t w = some t') :
    Table.Replaces (writeOld t w) (writeNew w) t t' := by
  cases w with
  | create o => exact Table.replaces_insert h
  | update o =>
    obtain ⟨old, hold, hreplaces⟩ := Table.replaces_update h
    show Table.Replaces (t.lookup o.key) _ t t'
    rw [hold]
    exact hreplaces
  | delete key =>
    obtain ⟨⟨o, t''⟩, hdelete, rfl⟩ := Option.map_eq_some_iff.mp h
    show Table.Replaces (t.lookup key) _ t t''
    rw [(Table.lookup_delete hdelete).1]
    exact Table.replaces_delete hdelete

end Writes

def SourceWrite.commit (db : Database) : SourceWrite → Option Database
  | .image w => (applyWrite db.images w).map fun t => { db with images := t }
  | .vulnerabilityReport w =>
    (applyWrite db.vulnerabilityReports w).map fun t => { db with vulnerabilityReports := t }

/-- The message on the subject that the watcher subscribes to, `watch.vulnerabilityreports`. The
events of Images are on another one. -/
def SourceWrite.trigger (reportJson : Report → Json) (db : Database) :
    SourceWrite → Option (Message VulnerabilityReport)
  | .image _ => none
  | .vulnerabilityReport w => (w.object db.vulnerabilityReports).map
      (publish (vulnerabilityReportKind reportJson) (writeEventType w))

/-- The messages on the subject of WorkloadScanReports, when the trigger of a write that has led
from `db` to `db'` is delivered. -/
def synthetic (reportJson : Report → Json) (db db' : Database) (w : SourceWrite) :
    List (Message WorkloadScanReport) :=
  (w.trigger reportJson db).toList.flatMap (processVulnerabilityReportEvent reportJson db')

/-- Every report whose view has changed has a MODIFIED event. -/
def Notifies (reportJson : Report → Json) (plan : QueryPlan) (db db' : Database)
    (w : SourceWrite) : Prop :=
  ∀ key, get reportJson plan db key ≠ get reportJson plan db' key →
    ∃ m ∈ synthetic reportJson db db' w, m.eventType = .modified ∧ m.key = some key

/-! ## The containment query -/

def refs (report : WorkloadScanReport) : List ImageRef := report.spec.map ContainerRef.imageRef

theorem containedIn_imageRef (ref ref' : ImageRef) :
    (ImageRef.toJson ref).containedIn (ImageRef.toJson ref') = decide (ref = ref') := by
  obtain ⟨registry, ns, repository, tag⟩ := ref
  obtain ⟨registry', ns', repository', tag'⟩ := ref'
  rw [Bool.eq_iff_iff]
  simp [ImageRef.toJson, Json.containedIn, Json.fieldsIn, Json.scalarEq, lookup_cons]

theorem containedIn_containerRef (ref : ImageRef) (c : ContainerRef) :
    (Json.obj [("imageRef", ImageRef.toJson ref)]).containedIn (ContainerRef.toJson c) =
      decide (ref = c.imageRef) := by
  rw [← containedIn_imageRef]
  simp [ContainerRef.toJson, Json.containedIn, Json.fieldsIn, lookup_cons]

theorem containedIn_containers (ref : ImageRef) (spec : List ContainerRef) :
    (Json.arr [.obj [("imageRef", ImageRef.toJson ref)]]).containedIn
      (.arr (spec.map ContainerRef.toJson)) = spec.any fun c => decide (ref = c.imageRef) := by
  rw [Json.containedIn, Json.elemsIn, Json.elemsIn, Bool.and_true, any_map]
  congr 1
  funext c
  exact containedIn_containerRef ref c

variable {ref : ImageRef}

theorem refersTo_iff {reportJson : Report → Json} {r : Row WorkloadScanReport} :
    refersTo reportJson ref r = some true ↔ ref ∈ refs r.object.content := by
  have hcolumn : Sql.arrow (Sql.arrow (some ((workloadScanReportKind reportJson).toJson r.object))
      "spec") "containers" = some (.arr (r.object.content.spec.map ContainerRef.toJson)) := rfl
  unfold refersTo refs
  rw [hcolumn, Sql.contains, Option.map_some, containedIn_containers, Option.some.injEq,
    any_eq_true, mem_map]
  apply exists_congr
  intro c
  rw [decide_eq_true_eq, eq_comm]

/-- The reports that have an event are the ones that refer to the image of the trigger. -/
theorem mem_processVulnerabilityReportEvent (reportJson : Report → Json) (db : Database)
    (payload : Message VulnerabilityReport) {key : ObjectKey} :
    (∃ m ∈ processVulnerabilityReportEvent reportJson db payload,
        m.eventType = .modified ∧ m.key = some key) ↔
      ∃ o, db.workloadScanReports.lookup key = some o ∧
        VulnerabilityReport.ref payload.object ∈ refs o.content := by
  constructor
  · rintro ⟨m, hm, -, hkey⟩
    obtain ⟨o, ho, rfl⟩ := mem_map.mp hm
    obtain ⟨r, hr, rfl⟩ := mem_map.mp ho
    obtain ⟨hmem, hrefers⟩ := mem_filter.mp hr
    refine ⟨r.object, ?_, refersTo_iff.mp (by simpa using hrefers)⟩
    exact db.workloadScanReports.lookup_eq_some.mpr ⟨Option.some.inj hkey, r, hmem, rfl⟩
  · rintro ⟨o, ho, href⟩
    obtain ⟨hkey, r, hr, rfl⟩ := db.workloadScanReports.lookup_eq_some.mp ho
    refine ⟨publish (workloadScanReportKind reportJson) .modified r.object, ?_, rfl,
      congrArg some hkey⟩
    apply mem_map_of_mem
    apply mem_map_of_mem
    rw [mem_filter]
    exact ⟨hr, by simpa using refersTo_iff.mpr href⟩

/-! ## When the view changes -/

def scanStatus (db : Database) (ref : ImageRef) : ScanStatus :=
  computeScanStatus (imageCount db ref) (reportCount db ref)

section Views

variable {plan : QueryPlan} {db db' : Database} {report : Object WorkloadScanReport}

theorem view_congr (h : ∀ ref ∈ refs report.content, scanStatus db ref = scanStatus db' ref ∧
    reportsOn plan db ref = reportsOn plan db' ref) :
    view plan db report = view plan db' report := by
  apply populateReport_congr
  intro c hc
  rw [length_reportsOn, length_reportsOn]
  exact h c.imageRef (mem_map_of_mem hc)

theorem exists_getElem_of_mem_refs (h : ref ∈ refs report.content) :
    ∃ (i : Nat) (c : ContainerRef), report.content.spec[i]? = some c ∧ c.imageRef = ref := by
  obtain ⟨c, hc, rfl⟩ := mem_map.mp h
  obtain ⟨i, hi⟩ := List.getElem?_of_mem hc
  exact ⟨i, c, hi, rfl⟩

theorem status_view (plan : QueryPlan) (db : Database) {i : Nat} {c : ContainerRef}
    (h : report.content.spec[i]? = some c) :
    (view plan db report).content.status[i]? = some ⟨c.name, scanStatus db c.imageRef⟩ := by
  have hne : report.content.spec ≠ [] := by
    intro hnil
    rw [hnil] at h
    cases h
  unfold view populateReport scanStatus
  rw [if_neg hne, ← length_reportsOn plan]
  show (report.content.spec.map _)[i]? = _
  rw [List.getElem?_map, h]
  rfl

/-- A view shows the scan status of each reference, and how many reports there are on it. -/
theorem scanStatus_eq_of_view_eq (h : view plan db report = view plan db' report)
    (href : ref ∈ refs report.content) : scanStatus db ref = scanStatus db' ref := by
  obtain ⟨i, c, hi, rfl⟩ := exists_getElem_of_mem_refs href
  have hstatus := status_view plan db hi
  rw [h, status_view plan db' hi] at hstatus
  simpa using hstatus.symm

theorem reportCount_eq_of_view_eq (h : view plan db report = view plan db' report)
    (href : ref ∈ refs report.content) : reportCount db ref = reportCount db' ref := by
  obtain ⟨i, c, hi, rfl⟩ := exists_getElem_of_mem_refs href
  have hresult := containers_view plan db hi
  rw [h, containers_view plan db' hi, Option.some.injEq] at hresult
  have hlength := congrArg (fun result => result.vulnerabilityReports.length) hresult
  simpa [buildContainerResult, length_reportsOn] using hlength.symm

end Views

/-! ## The writes that are covered -/

def Referenced (db : Database) (ref : ImageRef) : Prop :=
  ∃ r ∈ db.workloadScanReports.rows, ref ∈ refs r.object.content

/-- The events of a write reach every report that it concerns. The counts are the ones before the
write: one Image more is no change of the scan status unless there was none, or as many as reports;
and one Image less is the same from the other side. -/
def Covered (db : Database) : SourceWrite → Prop
  | .image w =>
    (writeOld db.images w).map Image.ref = (writeNew w).map Image.ref ∨
      (∀ o ∈ writeOld db.images w, Referenced db (Image.ref o) →
        imageCount db (Image.ref o) ≠ 1 ∧
          reportCount db (Image.ref o) + 1 ≠ imageCount db (Image.ref o)) ∧
      ∀ o ∈ writeNew w, Referenced db (Image.ref o) →
        imageCount db (Image.ref o) ≠ 0 ∧ reportCount db (Image.ref o) ≠ imageCount db (Image.ref o)
  | .vulnerabilityReport w =>
    ∀ old ∈ writeOld db.vulnerabilityReports w, ∀ new ∈ writeNew w,
      ∀ r ∈ db.workloadScanReports.rows,
        VulnerabilityReport.ref old ∈ refs r.object.content →
        VulnerabilityReport.ref new ∈ refs r.object.content

theorem computeScanStatus_succ (imageCount vulnReportCount : Nat) :
    computeScanStatus (imageCount + 1) vulnReportCount =
        computeScanStatus imageCount vulnReportCount ↔
      imageCount ≠ 0 ∧ vulnReportCount ≠ imageCount := by
  unfold computeScanStatus
  rw [if_neg (Nat.succ_ne_zero _)]
  by_cases hzero : imageCount = 0
  · rw [if_pos hzero]
    split_ifs <;> simp [hzero]
  · rw [if_neg hzero]
    rcases Nat.lt_trichotomy vulnReportCount imageCount with hlt | heq | hgt
    · rw [if_pos (by omega), if_pos hlt]
      simp only [true_iff]
      omega
    · rw [if_pos (by omega), if_neg (by omega)]
      simp [heq]
    · rw [if_neg (by omega), if_neg (by omega)]
      simp only [true_iff]
      omega

/-- The scan status before and after, where one Image may leave and one may come. -/
theorem computeScanStatus_eq_iff {n n' m : Nat} {leaves joins : Prop} [Decidable leaves]
    [Decidable joins]
    (h : n' + (if leaves then 1 else 0) = n + if joins then 1 else 0) :
    computeScanStatus n m = computeScanStatus n' m ↔
      (leaves → ¬ joins → n ≠ 1 ∧ m + 1 ≠ n) ∧ (joins → ¬ leaves → n ≠ 0 ∧ m ≠ n) := by
  by_cases hl : leaves <;> by_cases hj : joins <;> simp only [hl, hj, if_true, if_false] at h <;>
    simp only [hl, hj, not_true_eq_false, not_false_eq_true, false_implies, true_implies,
      implies_true, and_true, true_and, iff_true]
  · rw [show n' = n by omega]
  · rw [show n = n' + 1 by omega, computeScanStatus_succ]
    omega
  · rw [show n' = n + 1 by omega, eq_comm, computeScanStatus_succ]
  · rw [show n' = n by omega]

section Cover

variable {reportJson : Report → Json} {plan : QueryPlan} {db : Database}
  (hplan : ∀ rows rows', plan.SameOrder rows rows')

include hplan in
theorem get_eq_iff_view_eq {db' : Database}
    (htable : db'.workloadScanReports = db.workloadScanReports) :
    (∀ key, get reportJson plan db key = get reportJson plan db' key) ↔
      ∀ r ∈ db.workloadScanReports.rows, view plan db r.object = view plan db' r.object := by
  constructor
  · intro hget r hr
    have hlookup : db.workloadScanReports.lookup r.key = some r.object :=
      db.workloadScanReports.lookup_eq_some.mpr ⟨rfl, r, hr, rfl⟩
    have heq := hget r.key
    rw [get_eq (hplan _ _), get_eq (hplan _ _), htable, hlookup] at heq
    exact Option.some.inj heq
  · intro hview key
    rw [get_eq (hplan _ _), get_eq (hplan _ _), htable]
    cases hlookup : db.workloadScanReports.lookup key with
    | none => rfl
    | some o =>
      obtain ⟨-, r, hr, rfl⟩ := db.workloadScanReports.lookup_eq_some.mp hlookup
      exact congrArg some (hview r hr)

/-! ### Images -/

theorem countP_toList_ref (ref : ImageRef) (o : Option (Object Image)) :
    (o.toList.countP fun o => Image.ref o = ref) = if o.map Image.ref = some ref then 1 else 0 := by
  cases o with
  | none => rfl
  | some o => simp [countP_cons]

variable {t' : Table Image} {w : Write Image}

theorem imageCount_applyWrite (h : applyWrite db.images w = some t') (ref : ImageRef) :
    imageCount { db with images := t' } ref +
        (if (writeOld db.images w).map Image.ref = some ref then 1 else 0) =
      imageCount db ref + if (writeNew w).map Image.ref = some ref then 1 else 0 := by
  rw [← countP_toList_ref, ← countP_toList_ref]
  exact (replaces_applyWrite h).countP fun o => Image.ref o = ref

theorem scanStatus_applyWrite_iff (h : applyWrite db.images w = some t') :
    (∀ ref, Referenced db ref → scanStatus db ref = scanStatus { db with images := t' } ref) ↔
      Covered db (.image w) := by
  have hstatus : ∀ ref, scanStatus db ref = scanStatus { db with images := t' } ref ↔ _ :=
    fun ref => computeScanStatus_eq_iff (imageCount_applyWrite h ref)
  simp only [hstatus, Covered]
  by_cases hsame : (writeOld db.images w).map Image.ref = (writeNew w).map Image.ref
  · -- every reference has as many Images as before
    simp only [hsame, true_or, iff_true]
    intro ref _
    exact ⟨fun hjoins hnot => absurd hjoins hnot, fun hjoins hnot => absurd hjoins hnot⟩
  · rw [or_iff_right hsame]
    constructor
    · intro hall
      constructor
      · intro o ho href
        have hold : (writeOld db.images w).map Image.ref = some (Image.ref o) := by
          rw [Option.mem_def.mp ho]
          rfl
        exact (hall _ href).1 hold fun hnew => hsame (hold.trans hnew.symm)
      · intro o ho href
        have hnew : (writeNew w).map Image.ref = some (Image.ref o) := by
          rw [Option.mem_def.mp ho]
          rfl
        exact (hall _ href).2 hnew fun hold => hsame (hold.trans hnew.symm)
    · rintro ⟨hleaves, hjoins⟩ ref href
      constructor
      · intro hold _
        obtain ⟨o, ho, rfl⟩ := Option.map_eq_some_iff.mp hold
        exact hleaves o ho href
      · intro hnew _
        obtain ⟨o, ho, rfl⟩ := Option.map_eq_some_iff.mp hnew
        exact hjoins o ho href

include hplan in
theorem notifies_image_iff (h : applyWrite db.images w = some t') :
    Notifies reportJson plan db { db with images := t' } (.image w) ↔ Covered db (.image w) := by
  have hnone : Notifies reportJson plan db { db with images := t' } (.image w) ↔
      ∀ key, get reportJson plan db key = get reportJson plan { db with images := t' } key := by
    apply forall_congr'
    intro key
    rw [not_imp_comm]
    constructor
    · intro hevent
      apply hevent
      rintro ⟨m, hm, -⟩
      cases hm
    · exact fun heq _ => heq
  rw [hnone, ← scanStatus_applyWrite_iff h]
  refine Iff.trans (get_eq_iff_view_eq hplan ?_) ?_
  · rfl
  constructor
  · rintro hview ref ⟨r, hr, href⟩
    exact scanStatus_eq_of_view_eq (hview r hr) href
  · intro hstatus r hr
    apply view_congr
    intro ref href
    exact ⟨hstatus ref ⟨r, hr, href⟩, rfl⟩

/-! ### VulnerabilityReports -/

variable {w : Write VulnerabilityReport} {t' : Table VulnerabilityReport}

theorem reportCount_applyWrite (h : applyWrite db.vulnerabilityReports w = some t')
    (ref : ImageRef) :
    reportCount { db with vulnerabilityReports := t' } ref +
        (writeOld db.vulnerabilityReports w).toList.countP (VulnerabilityReport.ref · = ref) =
      reportCount db ref + (writeNew w).toList.countP (VulnerabilityReport.ref · = ref) :=
  (replaces_applyWrite h).countP fun o => VulnerabilityReport.ref o = ref

include hplan in
/-- The view of a report that refers to neither image of the write stays. -/
theorem view_applyWrite (h : applyWrite db.vulnerabilityReports w = some t')
    {report : Object WorkloadScanReport}
    (hold : ∀ o ∈ writeOld db.vulnerabilityReports w,
      VulnerabilityReport.ref o ∉ refs report.content)
    (hnew : ∀ o ∈ writeNew w, VulnerabilityReport.ref o ∉ refs report.content) :
    view plan db report = view plan { db with vulnerabilityReports := t' } report := by
  apply view_congr
  intro ref href
  have hrows : t'.rows.filter (IsReportOn ref) = db.vulnerabilityReports.rows.filter
      (IsReportOn ref) := by
    apply (replaces_applyWrite h).filter (p := fun o => decide (VulnerabilityReport.ref o = ref))
    · intro o ho
      exact decide_eq_false fun heq => hold o ho (heq ▸ href)
    · intro o ho
      exact decide_eq_false fun heq => hnew o ho (heq ▸ href)
  constructor
  · unfold scanStatus reportCount
    rw [countP_eq_length_filter, countP_eq_length_filter, hrows]
    rfl
  · unfold reportsOn
    rw [hplan _ _ ref [ref] [ref] mem_cons_self mem_cons_self hrows.symm]

theorem mem_synthetic {key : ObjectKey} :
    (∃ m ∈ synthetic reportJson db { db with vulnerabilityReports := t' } (.vulnerabilityReport w),
        m.eventType = .modified ∧ m.key = some key) ↔
      ∃ o ∈ w.object db.vulnerabilityReports, ∃ report,
        db.workloadScanReports.lookup key = some report ∧
          VulnerabilityReport.ref o ∈ refs report.content := by
  constructor
  · rintro ⟨m, hm, hevent⟩
    obtain ⟨payload, hpayload, hm⟩ := mem_flatMap.mp hm
    obtain ⟨o, ho, rfl⟩ := Option.map_eq_some_iff.mp (Option.mem_toList.mp hpayload)
    exact ⟨o, ho, (mem_processVulnerabilityReportEvent _ _ _).mp ⟨m, hm, hevent⟩⟩
  · rintro ⟨o, ho, report, hreport, href⟩
    obtain ⟨m, hm, hevent⟩ := (mem_processVulnerabilityReportEvent reportJson
      { db with vulnerabilityReports := t' }
      (publish (vulnerabilityReportKind reportJson) (writeEventType w) o)).mpr
        ⟨report, hreport, href⟩
    refine ⟨m, mem_flatMap.mpr ⟨_, Option.mem_toList.mpr ?_, hm⟩, hevent⟩
    exact Option.map_eq_some_iff.mpr ⟨o, ho, rfl⟩

/-- In a covered write, a report that refers to the old or the new image refers to the one of the
event. -/
theorem exists_object_of_covered (hcovered : Covered db (.vulnerabilityReport w))
    {r : Row WorkloadScanReport} (hr : r ∈ db.workloadScanReports.rows)
    (h : (∃ o ∈ writeOld db.vulnerabilityReports w,
        VulnerabilityReport.ref o ∈ refs r.object.content) ∨
      ∃ o ∈ writeNew w, VulnerabilityReport.ref o ∈ refs r.object.content) :
    ∃ o ∈ w.object db.vulnerabilityReports, VulnerabilityReport.ref o ∈ refs r.object.content := by
  cases w with
  | create new =>
    rcases h with ⟨o, ho, -⟩ | hnew
    · cases ho
    · exact hnew
  | update new =>
    rcases h with ⟨old, hold, href⟩ | hnew
    · exact ⟨new, rfl, hcovered old hold new rfl r hr href⟩
    · exact hnew
  | delete key =>
    rcases h with hold | ⟨o, ho, -⟩
    · exact hold
    · cases ho

include hplan in
theorem notifies_vulnerabilityReport_iff (h : applyWrite db.vulnerabilityReports w = some t') :
    Notifies reportJson plan db { db with vulnerabilityReports := t' } (.vulnerabilityReport w) ↔
      Covered db (.vulnerabilityReport w) := by
  constructor
  · intro hnotifies old hold new hnew r hr href
    by_contra hnot
    have hlookup : db.workloadScanReports.lookup r.key = some r.object :=
      db.workloadScanReports.lookup_eq_some.mpr ⟨rfl, r, hr, rfl⟩
    -- the view loses the old report
    have hchanged : get reportJson plan db r.key ≠
        get reportJson plan { db with vulnerabilityReports := t' } r.key := by
      intro heq
      rw [get_eq (hplan _ _), get_eq (hplan _ _), hlookup] at heq
      have hcount := reportCount_eq_of_view_eq (Option.some.inj heq) href
      have hwrite := reportCount_applyWrite h (VulnerabilityReport.ref old)
      have hne : VulnerabilityReport.ref new ≠ VulnerabilityReport.ref old :=
        fun heq' => hnot (heq' ▸ href)
      rw [Option.mem_def.mp hold, Option.mem_def.mp hnew] at hwrite
      simp only [Option.toList_some, countP_singleton, hne, decide_true, decide_false, if_true,
        Bool.false_eq_true, if_false] at hwrite
      omega
    -- and the event is for the new one
    obtain ⟨o, ho, report, hreport, href'⟩ := mem_synthetic.mp (hnotifies r.key hchanged)
    rw [hlookup] at hreport
    cases hreport
    have hobject : o = new := by
      cases w with
      | create _ => cases hold
      | update _ =>
        cases ho
        cases hnew
        rfl
      | delete _ => cases hnew
    exact hnot (hobject ▸ href')
  · intro hcovered key hchanged
    rw [get_eq (hplan _ _), get_eq (hplan _ _)] at hchanged
    cases hlookup : db.workloadScanReports.lookup key with
    | none =>
      rw [hlookup] at hchanged
      exact absurd rfl hchanged
    | some report =>
      rw [hlookup] at hchanged
      obtain ⟨-, r, hr, rfl⟩ := db.workloadScanReports.lookup_eq_some.mp hlookup
      have hrefs : (∃ o ∈ writeOld db.vulnerabilityReports w,
            VulnerabilityReport.ref o ∈ refs r.object.content) ∨
          ∃ o ∈ writeNew w, VulnerabilityReport.ref o ∈ refs r.object.content := by
        by_contra hno
        push Not at hno
        exact hchanged (congrArg some (view_applyWrite hplan h hno.1 hno.2))
      obtain ⟨o, ho, href⟩ := exists_object_of_covered hcovered hr hrefs
      exact mem_synthetic.mpr ⟨o, ho, r.object, hlookup, href⟩

end Cover

/-- **The synthetic events are complete exactly for the covered writes.** Where the rows of one
reference keep their order, every report whose view a committed write changes gets a MODIFIED event
if and only if the write is covered. -/
theorem notifies_iff_covered (reportJson : Report → Json) (plan : QueryPlan)
    (hplan : ∀ rows rows', plan.SameOrder rows rows') (db db' : Database) (w : SourceWrite)
    (h : w.commit db = some db') : Notifies reportJson plan db db' w ↔ Covered db w := by
  cases w with
  | image w =>
    obtain ⟨t', ht', rfl⟩ := Option.map_eq_some_iff.mp h
    exact notifies_image_iff hplan ht'
  | vulnerabilityReport w =>
    obtain ⟨t', ht', rfl⟩ := Option.map_eq_some_iff.mp h
    exact notifies_vulnerabilityReport_iff hplan ht'

/-! A container waits for its scan, and the Image is created: the status becomes `ScanInProgress`
without an event. Later the VulnerabilityReport is moved to another tag, and the report on the
workload loses it without an event. -/

def unscanned : Database where
  images := .empty
  vulnerabilityReports := .empty
  workloadScanReports := freshReports

def retagged : Object VulnerabilityReport :=
  { sampleVulnerabilityReport with
    content := { sampleVulnerabilityReport.content with imageMetadata.tag := "4" } }

/-- The scan statuses before and after a write, and the number of synthetic events. -/
def observed (db : Database) (w : SourceWrite) :
    Option (Option (List ContainerStatus) × Option (List ContainerStatus) × Nat) :=
  (w.commit db).map fun db' =>
    ((get noJson .asStored db (sampleAX 1).key).map (·.content.status),
      (get noJson .asStored db' (sampleAX 1).key).map (·.content.status),
      (synthetic noJson db db' w).length)

theorem writes_change_views_without_event :
    observed unscanned (.image (.create sampleImage)) =
      some (some [⟨"app", .waitingForScan⟩], some [⟨"app", .scanInProgress⟩], 0) ∧
    observed (sampleDatabase freshReports) (.vulnerabilityReport (.update retagged)) =
      some (some [⟨"app", .scanComplete⟩], some [⟨"app", .scanInProgress⟩], 0) := by
  decide +kernel

theorem notifies_iff_covered_create :
    ∃ db', (SourceWrite.vulnerabilityReport (.create sampleVulnerabilityReport)).commit unscanned =
        some db' ∧
      (Notifies noJson .asStored unscanned db'
          (.vulnerabilityReport (.create sampleVulnerabilityReport)) ↔
        Covered unscanned (.vulnerabilityReport (.create sampleVulnerabilityReport))) :=
  ⟨_, rfl, notifies_iff_covered noJson .asStored sameOrder_asStored unscanned _ _ rfl⟩

end SbomScanner.Storage.Reports

import SbomScanner.Storage.Dependence
import SbomScanner.Storage.Reports

/-!
# What a read of a workload scan report depends on

`populateContainerResults` works on a batch. The queries it runs are reduced to one reference at a
time (`fetchImageCounts_apply`, `fetchVulnerabilityReports_apply`), and then the batch is the `view`
of each of its reports (`populateContainerResults_eq`). So a list shows what `Get` shows.

A report without containers is not populated at all. It is returned as it is stored, with whatever
an earlier update wrote into the computed fields.
-/

namespace SbomScanner.Storage.Reports

open Grouping List

open Api (ImageRef ContainerRef)
open Sql (Json)

/-! ## The queries, one reference at a time -/

section Queries

variable {α : Type} {k : Kind α} {containers : List ContainerRef} {ref : ImageRef}

@[simp] theorem imageRefColumns_image (r : Row Image) :
    imageRefColumns imageKind r = some (Image.ref r.object) := rfl

@[simp] theorem imageRefColumns_vulnerabilityReport (reportJson : Report → Json)
    (r : Row VulnerabilityReport) :
    imageRefColumns (vulnerabilityReportKind reportJson) r =
      some (VulnerabilityReport.ref r.object) := rfl

/-- The four arrays are the references again, as they were taken apart. -/
theorem unnest_map (containers : List ContainerRef) :
    unnest (containers.map (·.imageRef.ns)) (containers.map (·.imageRef.registry))
      (containers.map (·.imageRef.repository)) (containers.map (·.imageRef.tag)) =
      containers.map ContainerRef.imageRef := by
  induction containers with
  | nil => rfl
  | cons c containers ih => exact congrArg (c.imageRef :: ·) ih

theorem buildImageRefConditions_eq {r : Row α} (h : imageRefColumns k r = some ref) :
    buildImageRefConditions k containers r =
      decide (ref ∈ containers.map ContainerRef.imageRef) := by
  unfold buildImageRefConditions
  rw [h, unnest_map]

def imageCount (db : Database) (ref : ImageRef) : Nat :=
  db.images.rows.countP fun r => Image.ref r.object = ref

theorem fetchImageCounts_apply (db : Database) (h : ref ∈ containers.map ContainerRef.imageRef) :
    fetchImageCounts db containers ref = imageCount db ref := by
  unfold fetchImageCounts imageCount
  rw [assign_counts, map_id, List.count, countP_filterMap, countP_filter]
  apply countP_congr
  intro r _
  rw [imageRefColumns_image, buildImageRefConditions_eq (imageRefColumns_image r)]
  simp only [Option.map_some, Option.getD_some, Bool.and_eq_true, beq_iff_eq, decide_eq_true_eq]
  constructor
  · exact fun ⟨heq, _⟩ => heq
  · intro heq
    exact ⟨heq, heq ▸ h⟩

/-- The row is a report on the image that `ref` refers to. -/
def IsReportOn (ref : ImageRef) (r : Row VulnerabilityReport) : Bool :=
  decide (VulnerabilityReport.ref r.object = ref)

/-- The rows that a query for `refs` returns. -/
def matching (rows : List (Row VulnerabilityReport)) (refs : List ImageRef) :
    List (Row VulnerabilityReport) :=
  rows.filter fun r => VulnerabilityReport.ref r.object ∈ refs

theorem filter_matching (rows : List (Row VulnerabilityReport)) {refs : List ImageRef}
    (h : ref ∈ refs) : (matching rows refs).filter (IsReportOn ref) =
      rows.filter (IsReportOn ref) := by
  unfold matching
  rw [filter_filter]
  apply filter_congr
  intro r _
  unfold IsReportOn
  by_cases heq : VulnerabilityReport.ref r.object = ref
  · rw [heq]
    simp [h]
  · simp [heq]

/-- The rows of one reference come back in an order that does not depend on the other references
of the query, nor on the other rows of the table. -/
def QueryPlan.SameOrder (plan : QueryPlan) (rows rows' : List (Row VulnerabilityReport)) : Prop :=
  ∀ ref refs refs', ref ∈ refs → ref ∈ refs' →
    rows.filter (IsReportOn ref) = rows'.filter (IsReportOn ref) →
    (plan.rows refs (matching rows refs)).filter (IsReportOn ref) =
      (plan.rows refs' (matching rows' refs')).filter (IsReportOn ref)

theorem sameOrder_asStored (rows rows' : List (Row VulnerabilityReport)) :
    QueryPlan.asStored.SameOrder rows rows' := by
  intro ref refs refs' h h' heq
  show (matching rows refs).filter _ = (matching rows' refs').filter _
  rw [filter_matching rows h, filter_matching rows' h', heq]

variable (reportJson : Report → Json) (plan : QueryPlan)

/-- The VulnerabilityReports of a reference, in the order in which a query for it returns them. -/
def reportsOn (db : Database) (ref : ImageRef) : List (Object VulnerabilityReport) :=
  ((plan.rows [ref] (matching db.vulnerabilityReports.rows [ref])).filter (IsReportOn ref)).map
    Row.object

def reportCount (db : Database) (ref : ImageRef) : Nat :=
  db.vulnerabilityReports.rows.countP (IsReportOn ref)

theorem length_reportsOn (db : Database) (ref : ImageRef) :
    (reportsOn plan db ref).length = reportCount db ref := by
  have hperm := (plan.perm [ref] (matching db.vulnerabilityReports.rows [ref])).filter
    (IsReportOn ref)
  unfold reportsOn reportCount
  rw [length_map, hperm.length_eq, filter_matching _ mem_cons_self, countP_eq_length_filter]

theorem fetchVulnerabilityReports_eq (db : Database) :
    fetchVulnerabilityReports reportJson plan db containers ref =
      ((plan.rows (containers.map ContainerRef.imageRef) (matching db.vulnerabilityReports.rows
        (containers.map ContainerRef.imageRef))).filter (IsReportOn ref)).map Row.object := by
  have hrows : db.vulnerabilityReports.rows.filter
      (buildImageRefConditions (vulnerabilityReportKind reportJson) containers) =
      matching db.vulnerabilityReports.rows (containers.map ContainerRef.imageRef) := by
    apply filter_congr
    intro r _
    exact buildImageRefConditions_eq (imageRefColumns_vulnerabilityReport reportJson r)
  unfold fetchVulnerabilityReports
  rw [group_apply, hrows, filter_map]
  rfl

theorem fetchVulnerabilityReports_apply {db : Database}
    (hplan : plan.SameOrder db.vulnerabilityReports.rows db.vulnerabilityReports.rows)
    (h : ref ∈ containers.map ContainerRef.imageRef) :
    fetchVulnerabilityReports reportJson plan db containers ref = reportsOn plan db ref := by
  rw [fetchVulnerabilityReports_eq, reportsOn, hplan ref _ _ h mem_cons_self rfl]

end Queries

/-! ## A batch is the view of each of its reports -/

section View

variable {reportJson : Report → Json} {plan : QueryPlan} {db : Database}
  {reports : List (Object WorkloadScanReport)} {report : Object WorkloadScanReport}

def view (plan : QueryPlan) (db : Database) (report : Object WorkloadScanReport) :
    Object WorkloadScanReport :=
  populateReport (imageCount db) (reportsOn plan db) report

theorem populateReport_congr {counts counts' : ImageRef → Nat}
    {vulnReports vulnReports' : ImageRef → List (Object VulnerabilityReport)}
    (h : ∀ c ∈ report.content.spec,
      computeScanStatus (counts c.imageRef) (vulnReports c.imageRef).length =
        computeScanStatus (counts' c.imageRef) (vulnReports' c.imageRef).length ∧
      vulnReports c.imageRef = vulnReports' c.imageRef) :
    populateReport counts vulnReports report = populateReport counts' vulnReports' report := by
  have hcontainers : (report.content.spec.map fun c =>
        buildContainerResult c (vulnReports c.imageRef)) =
      report.content.spec.map fun c => buildContainerResult c (vulnReports' c.imageRef) := by
    apply map_congr_left
    intro c hc
    rw [(h c hc).2]
  have hstatus : (report.content.spec.map fun c => (⟨c.name, computeScanStatus (counts c.imageRef)
        (vulnReports c.imageRef).length⟩ : ContainerStatus)) =
      report.content.spec.map fun c => ⟨c.name, computeScanStatus (counts' c.imageRef)
        (vulnReports' c.imageRef).length⟩ := by
    apply map_congr_left
    intro c hc
    rw [(h c hc).1]
  unfold populateReport results
  rw [hcontainers, hstatus]

/-- The containers that a batch looks up. -/
def batchContainers (reports : List (Object WorkloadScanReport)) : List ContainerRef :=
  firsts ContainerRef.imageRef (reports.flatMap (·.content.spec))

theorem mem_batchContainers (hreport : report ∈ reports) {c : ContainerRef}
    (hc : c ∈ report.content.spec) :
    c.imageRef ∈ (batchContainers reports).map ContainerRef.imageRef := by
  unfold batchContainers
  rw [mem_map_firsts]
  exact mem_map_of_mem (mem_flatMap.mpr ⟨report, hreport, hc⟩)

/-- The loop over a batch, with the maps it has fetched. -/
def populateFrom (reportJson : Report → Json) (plan : QueryPlan) (db : Database)
    (containers : List ContainerRef) : Object WorkloadScanReport → Object WorkloadScanReport :=
  populateReport (fetchImageCounts db containers)
    (fetchVulnerabilityReports reportJson plan db containers)

/-- The early return makes no difference: without any container, every report is one that the loop
skips. -/
theorem populateContainerResults_map (reports : List (Object WorkloadScanReport)) :
    populateContainerResults reportJson plan db reports =
      reports.map (populateFrom reportJson plan db (batchContainers reports)) := by
  show (if batchContainers reports = [] then reports else _) = _
  by_cases hnone : batchContainers reports = []
  · rw [if_pos hnone]
    have hskip : ∀ report ∈ reports,
        populateFrom reportJson plan db (batchContainers reports) report = report := by
      intro report hreport
      apply if_pos
      cases hspec : report.content.spec with
      | nil => rfl
      | cons c spec =>
        have hc : c ∈ report.content.spec := hspec ▸ mem_cons_self
        have hmem := mem_batchContainers hreport hc
        rw [hnone] at hmem
        cases hmem
    rw [map_congr_left hskip, map_id']
  · exact if_neg hnone

section

variable (hplan : plan.SameOrder db.vulnerabilityReports.rows db.vulnerabilityReports.rows)
include hplan

theorem populateContainerResults_eq (reports : List (Object WorkloadScanReport)) :
    populateContainerResults reportJson plan db reports = reports.map (view plan db) := by
  rw [populateContainerResults_map]
  apply map_congr_left
  intro report hreport
  apply populateReport_congr
  intro c hc
  have hmem := mem_batchContainers hreport hc
  rw [fetchImageCounts_apply db hmem, fetchVulnerabilityReports_apply _ plan hplan hmem]
  exact ⟨rfl, rfl⟩

theorem get_eq (key : ObjectKey) :
    get reportJson plan db key = (db.workloadScanReports.lookup key).map (view plan db) := by
  unfold get
  cases db.workloadScanReports.lookup key with
  | none => rfl
  | some report =>
    rw [Option.bind_some, populateContainerResults_eq hplan]
    rfl

end

end View

/-! ## A list shows what `Get` shows -/

variable {opts : ListOptions} {ns token : String}

theorem lookup_of_mem_list {α : Type} {k : Kind α} {t : Table α} {items : List (Object α)}
    (h : Storage.list k t ns opts = .ok (items, token)) {o : Object α} (ho : o ∈ items) :
    t.lookup o.key = some o := by
  obtain ⟨r, hr, hro, -⟩ := mem_list h ho
  exact t.lookup_eq_some.mpr ⟨rfl, r, hr, hro⟩

variable {items : List (Object WorkloadScanReport)} {plan : QueryPlan} {db : Database}
  {reportJson : Report → Json}

theorem list_eq_ok :
    list reportJson plan db ns opts = .ok (items, token) ↔
      ∃ stored, Storage.list (workloadScanReportKind reportJson) db.workloadScanReports ns opts =
        .ok (stored, token) ∧ populateContainerResults reportJson plan db stored = items := by
  unfold list
  cases Storage.list (workloadScanReportKind reportJson) db.workloadScanReports ns opts with
  | error e =>
    constructor
    · intro h
      cases h
    · rintro ⟨stored, h, -⟩
      cases h
  | ok page =>
    obtain ⟨stored, token'⟩ := page
    simp only [Except.map, Except.ok.injEq, Prod.mk.injEq]
    constructor
    · rintro ⟨hitems, htoken⟩
      exact ⟨stored, ⟨rfl, htoken⟩, hitems⟩
    · rintro ⟨_, ⟨rfl, htoken⟩, hitems⟩
      exact ⟨hitems, htoken⟩

theorem ref_of_mem_reportsOn {ref : ImageRef} {o : Object VulnerabilityReport}
    (h : o ∈ reportsOn plan db ref) :
    VulnerabilityReport.ref o = ref := by
  obtain ⟨r, hr, rfl⟩ := mem_map.mp h
  exact of_decide_eq_true (mem_filter.mp hr).2

/-- The results of a container are the reports on its own image. -/
theorem containers_view (plan : QueryPlan) (db : Database) {report : Object WorkloadScanReport}
    {i : Nat} {container : ContainerRef} (h : report.content.spec[i]? = some container) :
    (view plan db report).content.containers[i]? =
      some (buildContainerResult container (reportsOn plan db container.imageRef)) := by
  have hne : report.content.spec ≠ [] := by
    intro hnil
    rw [hnil] at h
    cases h
  unfold view populateReport
  rw [if_neg hne]
  show (report.content.spec.map _)[i]? = _
  rw [List.getElem?_map, h]
  rfl

theorem spec_view (plan : QueryPlan) (db : Database) (report : Object WorkloadScanReport) :
    (view plan db report).content.spec = report.content.spec := by
  unfold view populateReport
  split <;> rfl

theorem key_view (plan : QueryPlan) (db : Database) (report : Object WorkloadScanReport) :
    (view plan db report).key = report.key := by
  unfold view populateReport
  split <;> rfl

variable {o : Object WorkloadScanReport}

theorem get_of_mem_list
    (hplan : plan.SameOrder db.vulnerabilityReports.rows db.vulnerabilityReports.rows)
    (h : list reportJson plan db ns opts = .ok (items, token)) (ho : o ∈ items) :
    get reportJson plan db o.key = some o := by
  obtain ⟨stored, hstored, rfl⟩ := list_eq_ok.mp h
  rw [populateContainerResults_eq hplan] at ho
  obtain ⟨o', ho', rfl⟩ := mem_map.mp ho
  rw [get_eq hplan, key_view, lookup_of_mem_list hstored ho']
  rfl

/-- **A list shows what `Get` shows.** Whatever shares the batch, each object of a page is the one
that `Get` returns for it, and each of its containers has the reports whose registry, namespace,
repository and tag are all four those of its reference. -/
theorem list_eq_get (reportJson : Report → Json) (plan : QueryPlan) (db : Database)
    (hplan : plan.SameOrder db.vulnerabilityReports.rows db.vulnerabilityReports.rows)
    (ns : String) (opts : ListOptions) (items : List (Object WorkloadScanReport)) (token : String) :
    (list reportJson plan db ns opts = .ok (items, token) ↔
      ∃ stored, Storage.list (workloadScanReportKind reportJson) db.workloadScanReports ns opts =
        .ok (stored, token) ∧
        stored.map (fun o => get reportJson plan db o.key) = items.map some) ∧
    (list reportJson plan db ns opts = .ok (items, token) → ∀ report ∈ items,
      ∀ (i : Nat) (container : ContainerRef), report.content.spec[i]? = some container →
        ∃ result : ContainerResult, report.content.containers[i]? = some result ∧
          result.name = container.name ∧
          ∀ vr ∈ result.vulnerabilityReports,
            imageRefOf vr.imageMetadata vr.ns = container.imageRef) := by
  constructor
  · rw [list_eq_ok]
    apply exists_congr
    intro stored
    apply and_congr_right
    intro hstored
    have hget : stored.map (fun o => get reportJson plan db o.key) =
        (stored.map (view plan db)).map some := by
      rw [map_map]
      apply map_congr_left
      intro o ho
      rw [get_eq hplan, lookup_of_mem_list hstored ho]
      rfl
    rw [hget, populateContainerResults_eq hplan]
    exact (map_injective_iff.mpr (Option.some_injective _)).eq_iff.symm
  · intro hlist report hreport i container hcontainer
    obtain ⟨stored, -, rfl⟩ := list_eq_ok.mp hlist
    rw [populateContainerResults_eq hplan] at hreport
    obtain ⟨o, -, rfl⟩ := mem_map.mp hreport
    rw [spec_view] at hcontainer
    refine ⟨_, containers_view plan db hcontainer, rfl, ?_⟩
    intro vr hvr
    obtain ⟨o', ho', rfl⟩ := mem_map.mp hvr
    exact ref_of_mem_reportsOn ho'

/-! A report on the workload `a/x`, whose one container runs an image with a critical
vulnerability. -/

def sampleImage : Object Image := ⟨(sampleAX 1).metadata, ⟨(sampleAX 1).content.imageMetadata⟩⟩

def sampleVulnerability : Vulnerability :=
  { cve := "CVE-2025-1", installedVersion := "1.0", severity := "CRITICAL" }

def sampleVulnerabilityReport : Object VulnerabilityReport :=
  ⟨(sampleAX 1).metadata, ⟨(sampleAX 1).content.imageMetadata,
    ⟨{ critical := 1 }, [⟨"alpine", "os-pkgs", "alpine", [sampleVulnerability]⟩]⟩⟩⟩

def appContainer : ContainerRef := ⟨"app", Image.ref sampleImage⟩

def sampleWorkload (rv : Nat) (spec : List ContainerRef) (computed : Computed := {}) :
    Object WorkloadScanReport :=
  ⟨(sampleAX rv).metadata, { computed with spec := spec }⟩

def sampleDatabase (reports : Table WorkloadScanReport) : Database where
  images := .singleton ⟨1, sampleImage⟩
  vulnerabilityReports := .singleton ⟨1, sampleVulnerabilityReport⟩
  workloadScanReports := reports

def noJson (_ : Report) : Json := .null

def freshReports : Table WorkloadScanReport := .singleton ⟨1, sampleWorkload 1 [appContainer]⟩

/-- The page that a list of the namespace `a` returns. -/
def samplePage : List (Object WorkloadScanReport) :=
  [view .asStored (sampleDatabase .empty) (sampleWorkload 1 [appContainer])]

theorem list_eq_get_sample :
    QueryPlan.asStored.SameOrder [⟨1, sampleVulnerabilityReport⟩] [⟨1, sampleVulnerabilityReport⟩] ∧
    (list noJson .asStored (sampleDatabase freshReports) "a" {} = .ok (samplePage, "") ↔
      ∃ stored, Storage.list (workloadScanReportKind noJson) freshReports "a" {} =
          .ok (stored, "") ∧
        stored.map (fun o => get noJson .asStored (sampleDatabase freshReports) o.key) =
          samplePage.map some) :=
  ⟨sameOrder_asStored _ _, (list_eq_get noJson .asStored (sampleDatabase freshReports)
    (sameOrder_asStored _ _) "a" {} samplePage "").1⟩

/-! ## What is stored in the computed fields

`clear` empties them, so two tables have the same metadata and specifications, row by row, if they
are the same when cleared. -/

def clear (o : Object WorkloadScanReport) : Object WorkloadScanReport := setComputed o {}

def clearRow (r : Row WorkloadScanReport) : Row WorkloadScanReport := mapRow clear r

/-- The top-level fields of the document that are not computed. -/
def NotComputed (field : String) : Prop := field ∉ ["status", "summary", "containers"]

section Stale

variable {reportJson : Report → Json} {plan : QueryPlan} {db : Database}
  {t' : Table WorkloadScanReport}

theorem lookup_computed {field : String} (h : NotComputed field) (computed : Computed) :
    (Computed.toJson reportJson computed).lookup field = none := by
  simp only [NotComputed, mem_cons, not_mem_nil, or_false, not_or] at h
  obtain ⟨hstatus, hsummary, hcontainers⟩ := h
  rw [lookup_eq_none_iff]
  intro p hp
  unfold Computed.toJson omitNil at hp
  simp only [mem_append, mem_cons, not_mem_nil, or_false] at hp
  rcases hp with (rfl | rfl) | hp
  · simpa using hstatus
  · simpa using hsummary
  · split at hp
    · cases hp
    · rw [mem_singleton.mp hp]
      simpa using hcontainers

theorem keeps_clearRow (hopts : opts.FieldsWithin NotComputed) {conds : List Expression}
    (hconds : optionsClause opts = .ok conds) (r : Row WorkloadScanReport) :
    keeps (workloadScanReportKind reportJson) (namespaceClause ns ++ conds) (clearRow r) =
      keeps (workloadScanReportKind reportJson) (namespaceClause ns ++ conds) r := by
  have hwithin : ∀ e ∈ namespaceClause ns ++ conds, e.Within NotComputed := by
    intro e he
    rcases mem_append.mp he with he | he
    · unfold namespaceClause at he
      split at he
      · cases he
      · rw [mem_singleton.mp he]
        trivial
    · exact optionsClause_within (by unfold NotComputed; decide) hopts hconds e he
  have heval : ∀ e ∈ namespaceClause ns ++ conds,
      e.eval (workloadScanReportKind reportJson) (clearRow r) =
        e.eval (workloadScanReportKind reportJson) r := by
    intro e he
    refine Expression.eval_congr ?_ ?_ ?_ (hwithin e he)
    · rfl
    · rfl
    intro field hfield
    show List.lookup field (_ :: _ :: Computed.toJson reportJson _) =
      List.lookup field (_ :: _ :: Computed.toJson reportJson _)
    rw [lookup_cons, lookup_cons, lookup_cons, lookup_cons,
      lookup_computed hfield, lookup_computed hfield]
    rfl
  unfold keeps
  rw [Bool.eq_iff_iff, all_eq_true, all_eq_true]
  apply forall₂_congr
  intro e he
  rw [heval e he]

/-- The two tables agree on the reports that are returned as they are stored. -/
def SameStored (t t' : Table WorkloadScanReport) : Prop :=
  ∀ r ∈ t.rows, ∀ r' ∈ t'.rows, r.key = r'.key → r.object.content.spec = [] →
    r.object.content.toComputed = r'.object.content.toComputed

variable {o' : Object WorkloadScanReport}

theorem eq_of_clear_eq (h : clear o = clear o')
    (hcomputed : o.content.toComputed = o'.content.toComputed) : o = o' := by
  obtain ⟨m, computed, spec⟩ := o
  obtain ⟨rfl, -, rfl⟩ := h
  cases hcomputed
  rfl

/-- A report with containers loses its stored fields when it is populated. -/
theorem populateReport_clear (counts : ImageRef → Nat)
    (vulnReports : ImageRef → List (Object VulnerabilityReport)) (h : o.content.spec ≠ []) :
    populateReport counts vulnReports (clear o) = populateReport counts vulnReports o := by
  unfold populateReport
  rw [if_neg h, if_neg (show (clear o).content.spec ≠ [] from h)]
  rfl

theorem populateReport_eq_of_clear_eq (counts : ImageRef → Nat)
    (vulnReports : ImageRef → List (Object VulnerabilityReport)) (h : clear o = clear o')
    (hcomputed : o.content.spec = [] → o.content.toComputed = o'.content.toComputed) :
    populateReport counts vulnReports o = populateReport counts vulnReports o' := by
  by_cases hspec : o.content.spec = []
  · rw [eq_of_clear_eq h (hcomputed hspec)]
  · have hspec' : o'.content.spec ≠ [] := by
      rw [show o'.content.spec = (clear o').content.spec from rfl, ← h]
      exact hspec
    rw [← populateReport_clear counts vulnReports hspec, h,
      populateReport_clear counts vulnReports hspec']

theorem batchContainers_clear (reports : List (Object WorkloadScanReport)) :
    batchContainers (reports.map clear) = batchContainers reports := by
  unfold batchContainers
  rw [flatMap_map]
  rfl

/-- Batches that are the same when cleared are populated alike. -/
theorem populateContainerResults_congr {reports reports' : List (Object WorkloadScanReport)}
    (hclear : reports.map clear = reports'.map clear)
    (hcomputed : ∀ o ∈ reports, ∀ o' ∈ reports', o.key = o'.key → o.content.spec = [] →
      o.content.toComputed = o'.content.toComputed) :
    populateContainerResults reportJson plan db reports =
      populateContainerResults reportJson plan db reports' := by
  rw [populateContainerResults_map, populateContainerResults_map, ← batchContainers_clear reports,
    ← batchContainers_clear reports', hclear]
  generalize batchContainers (reports'.map clear) = containers
  induction reports generalizing reports' with
  | nil =>
    rw [map_eq_nil_iff.mp hclear.symm]
  | cons o reports ih =>
    cases reports' with
    | nil => cases hclear
    | cons o' reports' =>
      rw [map_cons, map_cons, List.cons.injEq] at hclear
      have hkey : (clear o).key = (clear o').key := congrArg Object.key hclear.1
      rw [map_cons, map_cons]
      congr 1
      · exact populateReport_eq_of_clear_eq _ _ hclear.1
          (hcomputed o mem_cons_self o' mem_cons_self hkey)
      · apply ih hclear.2
        intro o₁ ho₁ o₂ ho₂
        exact hcomputed o₁ (mem_cons_of_mem _ ho₁) o₂ (mem_cons_of_mem _ ho₂)

/-! ### Tables that are the same when cleared -/

theorem get_of_bare {key : ObjectKey} (ho : db.workloadScanReports.lookup key = some o)
    (hspec : o.content.spec = []) :
    get reportJson plan db key = some o := by
  unfold get
  rw [ho, Option.bind_some, populateContainerResults_map]
  show some (populateReport _ _ o) = some o
  unfold populateReport
  rw [if_pos hspec]

section Cleared

variable (h : db.workloadScanReports.rows.map clearRow = t'.rows.map clearRow)
include h

theorem lookup_clear (key : ObjectKey) :
    (db.workloadScanReports.lookup key).map clear = (t'.lookup key).map clear := by
  rw [← Table.lookup_mapObjects (f := clear) (fun _ => rfl) db.workloadScanReports key,
    ← Table.lookup_mapObjects (f := clear) (fun _ => rfl) t' key]
  show (List.find? _ (List.map clearRow _)).map _ = (List.find? _ (List.map clearRow _)).map _
  rw [h]

theorem clear_eq_of_lookup {key : ObjectKey} (ho : db.workloadScanReports.lookup key = some o)
    (ho' : t'.lookup key = some o') :
    clear o = clear o' := by
  have hclear := lookup_clear h key
  rw [ho, ho'] at hclear
  exact Option.some.inj hclear

theorem list_clear (reportJson : Report → Json) (ns : String)
    (hopts : opts.FieldsWithin NotComputed) :
    (Storage.list (workloadScanReportKind reportJson) db.workloadScanReports ns opts).map
        (fun page => (page.1.map clear, page.2)) =
      (Storage.list (workloadScanReportKind reportJson) t' ns opts).map
        fun page => (page.1.map clear, page.2) := by
  have hkeeps : ∀ conds, optionsClause opts = .ok conds → ∀ r,
      keeps (workloadScanReportKind reportJson) (namespaceClause ns ++ conds) (mapRow clear r) =
        keeps (workloadScanReportKind reportJson) (namespaceClause ns ++ conds) r :=
    fun _ hconds r => keeps_clearRow hopts hconds r
  rw [← list_mapObjects (f := clear) (fun _ => rfl) db.workloadScanReports hkeeps,
    ← list_mapObjects (f := clear) (fun _ => rfl) t' hkeeps]
  apply list_congr
  intro r _
  show r ∈ List.map clearRow _ ↔ r ∈ List.map clearRow _
  rw [h]

section

variable (hsame : SameStored db.workloadScanReports t')
include hsame

theorem get_eq_of_sameStored (key : ObjectKey) :
    get reportJson plan db key = get reportJson plan { db with workloadScanReports := t' } key := by
  have hclear := lookup_clear h key
  cases ho : db.workloadScanReports.lookup key with
  | none =>
    rw [ho] at hclear
    have ho' : t'.lookup key = none := Option.map_eq_none_iff.mp hclear.symm
    unfold get
    rw [ho, ho']
    rfl
  | some o =>
    rw [ho] at hclear
    obtain ⟨o', ho', hcl⟩ := Option.map_eq_some_iff.mp hclear.symm
    obtain ⟨hkey, r, hr, rfl⟩ := (db.workloadScanReports.lookup_eq_some).mp ho
    obtain ⟨hkey', r', hr', rfl⟩ := t'.lookup_eq_some.mp ho'
    have hpop : populateContainerResults reportJson plan db [r.object] =
        populateContainerResults reportJson plan db [r'.object] := by
      apply populateContainerResults_congr
      · simp [hcl]
      · intro o₁ ho₁ o₂ ho₂ hk hspec
        rw [mem_singleton.mp ho₁] at hk hspec ⊢
        rw [mem_singleton.mp ho₂] at hk ⊢
        exact hsame r hr r' hr' hk hspec
    unfold get
    rw [ho, ho', Option.bind_some, Option.bind_some, hpop]
    rfl

theorem list_eq_of_sameStored (hopts : opts.FieldsWithin NotComputed) :
    list reportJson plan db ns opts =
      list reportJson plan { db with workloadScanReports := t' } ns opts := by
  have hclear := list_clear h reportJson ns hopts
  unfold list
  cases hl : Storage.list (workloadScanReportKind reportJson) db.workloadScanReports ns opts with
  | error e =>
    cases hl' : Storage.list (workloadScanReportKind reportJson) t' ns opts with
    | error e' =>
      rw [hl, hl'] at hclear
      cases hclear
      rfl
    | ok page' =>
      rw [hl, hl'] at hclear
      cases hclear
  | ok page =>
    cases hl' : Storage.list (workloadScanReportKind reportJson) t' ns opts with
    | error e' =>
      rw [hl, hl'] at hclear
      cases hclear
    | ok page' =>
      rw [hl, hl'] at hclear
      simp only [Except.map, Except.ok.injEq, Prod.mk.injEq] at hclear ⊢
      refine ⟨populateContainerResults_congr hclear.1 ?_, hclear.2⟩
      intro o ho o' ho'
      obtain ⟨r, hr, rfl, -⟩ := mem_list hl ho
      obtain ⟨r', hr', rfl, -⟩ := mem_list hl' ho'
      exact hsame r hr r' hr'

/-- What two lists return for one report, whichever rows share its batch. -/
theorem eq_of_mem_lists
    (hplan : plan.SameOrder db.vulnerabilityReports.rows db.vulnerabilityReports.rows)
    {items' : List (Object WorkloadScanReport)} {token' : String}
    (hitems : list reportJson plan db ns opts = .ok (items, token))
    (hitems' : list reportJson plan { db with workloadScanReports := t' } ns opts = .ok (items',
      token')) (ho : o ∈ items) (ho' : o' ∈ items') (hkey : o.key = o'.key) :
    o = o' := by
  have hget := get_of_mem_list hplan hitems ho
  have hget' : get reportJson plan { db with workloadScanReports := t' } o'.key = some o' := by
    refine get_of_mem_list ?_ hitems' ho'
    exact hplan
  rw [get_eq_of_sameStored h hsame, hkey, hget', Option.some.injEq] at hget
  exact hget.symm

end

end Cleared

/-- **A read does not depend on the stored computed fields, except for the reports without
containers.** Those are returned as they are stored. (A field selector is evaluated on the stored
document: one that names a computed field may select different rows, and still each of them is
returned with the same fields.) -/
theorem reads_agree_iff_sameStored (reportJson : Report → Json) (plan : QueryPlan) (db : Database)
    (t' : Table WorkloadScanReport)
    (h : db.workloadScanReports.rows.map clearRow = t'.rows.map clearRow) :
    ((∀ key, get reportJson plan db key =
        get reportJson plan { db with workloadScanReports := t' } key) ∧
      (∀ ns opts, opts.FieldsWithin NotComputed → list reportJson plan db ns opts =
        list reportJson plan { db with workloadScanReports := t' } ns opts) ∧
      (plan.SameOrder db.vulnerabilityReports.rows db.vulnerabilityReports.rows →
        ∀ ns opts items token items' token',
          list reportJson plan db ns opts = .ok (items, token) →
          list reportJson plan { db with workloadScanReports := t' } ns opts =
            .ok (items', token') →
          ∀ o ∈ items, ∀ o' ∈ items', o.key = o'.key → o = o')) ↔
      SameStored db.workloadScanReports t' := by
  constructor
  · rintro ⟨hget, -, -⟩ r hr r' hr' hkey hspec
    have ho : db.workloadScanReports.lookup r.key = some r.object :=
      (db.workloadScanReports.lookup_eq_some).mpr ⟨rfl, r, hr, rfl⟩
    have ho' : t'.lookup r.key = some r'.object := t'.lookup_eq_some.mpr ⟨hkey.symm, r', hr', rfl⟩
    have hclear := clear_eq_of_lookup h ho ho'
    have hspec' : r'.object.content.spec = [] := by
      rw [← hspec]
      exact (congrArg (fun o => o.content.spec) hclear).symm
    have hr₁ : get reportJson plan db r.key = some r.object := get_of_bare ho hspec
    have hr₂ : get reportJson plan { db with workloadScanReports := t' } r.key = some r'.object :=
      get_of_bare ho' hspec'
    rw [hget r.key, hr₂, Option.some.injEq] at hr₁
    rw [hr₁]
  · intro hsame
    refine ⟨get_eq_of_sameStored h hsame, fun ns opts => list_eq_of_sameStored h hsame, ?_⟩
    intro hplan ns opts items token items' token' hitems hitems' o ho o' ho' hkey
    exact eq_of_mem_lists h hsame hplan hitems hitems' ho ho' hkey

end Stale

/-! A report is created with a container and read when its scan is complete. The update that removes
the container has to send the computed fields as they were read. From then on they stay, also when
the image and its report are gone. -/

/-- The client reads the report, removes the containers and sends it back. -/
def removeContainers (db : Database) : Option Database :=
  (get noJson .asStored db (sampleAX 1).key).bind fun o =>
    update noJson .asStored db 2 { o with content := { o.content with spec := [] } }

def withoutImages (db : Database) : Database :=
  { db with images := .empty, vulnerabilityReports := .empty }

def shown (db : Database) : Option (Object WorkloadScanReport) :=
  get noJson .asStored (withoutImages db) (sampleAX 1).key

theorem removed_container_keeps_results :
    (((create (sampleDatabase .empty) 1 (sampleWorkload 0 [appContainer])).bind
        removeContainers).bind shown).map
          (fun o => (o.metadata, o.content.spec, o.content.status, o.content.summary)) =
      some ((sampleAX 2).metadata, [], [⟨"app", .scanComplete⟩], { critical := 1 }) ∧
    ((create (sampleDatabase .empty) 2 (sampleWorkload 0 [])).bind shown).map
        (fun o => (o.metadata, o.content.spec, o.content.status, o.content.summary)) =
      some ((sampleAX 2).metadata, [], [], {}) := by
  decide +kernel

def staleReports : Table WorkloadScanReport :=
  .singleton ⟨1, sampleWorkload 1 [appContainer] { summary := { critical := 7 } }⟩

theorem reads_agree_iff_sameStored_withContainer :
    staleReports.rows.map clearRow = freshReports.rows.map clearRow ∧
    ((∀ key, get noJson .asStored (sampleDatabase staleReports) key =
        get noJson .asStored (sampleDatabase freshReports) key) ∧
      (∀ ns opts, opts.FieldsWithin NotComputed →
        list noJson .asStored (sampleDatabase staleReports) ns opts =
          list noJson .asStored (sampleDatabase freshReports) ns opts) ∧
      (QueryPlan.asStored.SameOrder [⟨1, sampleVulnerabilityReport⟩]
          [⟨1, sampleVulnerabilityReport⟩] →
        ∀ ns opts items token items' token',
          list noJson .asStored (sampleDatabase staleReports) ns opts = .ok (items, token) →
          list noJson .asStored (sampleDatabase freshReports) ns opts = .ok (items', token') →
          ∀ o ∈ items, ∀ o' ∈ items', o.key = o'.key → o = o')) := by
  have h : staleReports.rows.map clearRow = freshReports.rows.map clearRow := rfl
  refine ⟨h, (reads_agree_iff_sameStored noJson .asStored (sampleDatabase staleReports) freshReports
    h).mpr ?_⟩
  intro r hr r' _ _ hspec
  rw [mem_singleton.mp hr] at hspec
  cases hspec

end SbomScanner.Storage.Reports

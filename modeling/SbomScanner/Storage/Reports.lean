import SbomScanner.Api.WorkloadScanReport
import SbomScanner.Lib.Grouping
import SbomScanner.Storage.List

/-!
# Workload scan reports, computed when they are read

A WorkloadScanReport is stored like any other object. When it is read, its `status`, `summary` and
`containers` are filled in from two other tables: for the image of each container, how many Images
there are and which VulnerabilityReports. `populateContainerResults` does this for a batch of
reports at a time. It looks every reference of the batch up with one query per table and hands the
rows out again by a key that it puts together from each row.

The order of the rows of a query is up to PostgreSQL, and may be another one for another query: a
`QueryPlan` says which.

The layers and the status of an Image are left out: nothing here reads them.
-/

namespace SbomScanner.Storage.Reports

open Grouping

open Api (ImageRef ContainerRef)
open Sql (Json)

/-! ## The kinds -/

structure Image where
  imageMetadata : ImageMetadata
  deriving DecidableEq

structure CVSS where
  v3Vector : String
  v3Score : String
  deriving DecidableEq

structure VEXStatus where
  repository : String
  status : String
  statement : String
  deriving DecidableEq

structure Vulnerability where
  cve : String
  title : String := ""
  packageName : String := ""
  packagePath : String := ""
  purl : String := ""
  installedVersion : String
  fixedVersions : List String := []
  diffID : String := ""
  description : String := ""
  severity : String
  severitySource : String := ""
  references : List String := []
  cvss : List (String × CVSS) := []
  cwes : List String := []
  suppressed : Bool := false
  vexStatus : Option VEXStatus := none
  deriving DecidableEq

structure Result where
  target : String
  class_ : String
  type : String
  vulnerabilities : List Vulnerability
  deriving DecidableEq

structure Summary where
  critical : Nat := 0
  high : Nat := 0
  medium : Nat := 0
  low : Nat := 0
  unknown : Nat := 0
  suppressed : Nat := 0
  deriving DecidableEq

def Summary.add (s : Summary) (vulnerability : Vulnerability) : Summary :=
  if vulnerability.suppressed then { s with suppressed := s.suppressed + 1 }
  else if vulnerability.severity = "CRITICAL" then { s with critical := s.critical + 1 }
  else if vulnerability.severity = "HIGH" then { s with high := s.high + 1 }
  else if vulnerability.severity = "MEDIUM" then { s with medium := s.medium + 1 }
  else if vulnerability.severity = "LOW" then { s with low := s.low + 1 }
  else { s with unknown := s.unknown + 1 }

structure Report where
  summary : Summary
  results : List Result
  deriving DecidableEq

structure VulnerabilityReport where
  imageMetadata : ImageMetadata
  report : Report
  deriving DecidableEq

inductive ScanStatus where
  | waitingForScan
  | scanInProgress
  | scanComplete
  deriving DecidableEq

structure ContainerStatus where
  name : String
  scanStatus : ScanStatus
  deriving DecidableEq

structure WorkloadScanVulnerabilityReport where
  name : String
  ns : String
  imageMetadata : ImageMetadata
  report : Report
  deriving DecidableEq

structure ContainerResult where
  name : String
  vulnerabilityReports : List WorkloadScanVulnerabilityReport
  deriving DecidableEq

structure Computed where
  status : List ContainerStatus := []
  summary : Summary := {}
  containers : List ContainerResult := []
  deriving DecidableEq

/-- `spec` is the list of containers of the specification. -/
structure WorkloadScanReport extends Computed where
  spec : List ContainerRef
  deriving DecidableEq

/-! ## The documents -/

def ImageRef.toJson (ref : ImageRef) : Json :=
  .obj [("registry", .str ref.registry), ("namespace", .str ref.ns),
    ("repository", .str ref.repository), ("tag", .str ref.tag)]

def ContainerRef.toJson (container : ContainerRef) : Json :=
  .obj [("name", .str container.name), ("imageRef", ImageRef.toJson container.imageRef)]

def ScanStatus.text : ScanStatus → String
  | .waitingForScan => "WaitingForScan"
  | .scanInProgress => "ScanInProgress"
  | .scanComplete => "ScanComplete"

def ContainerStatus.toJson (status : ContainerStatus) : Json :=
  .obj [("name", .str status.name), ("scanStatus", .str status.scanStatus.text)]

def Summary.toJson (s : Summary) : Json :=
  .obj [("critical", .num s.critical), ("high", .num s.high), ("medium", .num s.medium),
    ("low", .num s.low), ("unknown", .num s.unknown), ("suppressed", .num s.suppressed)]

/-- A list field with `omitempty`. -/
def omitNil {α : Type} (key : String) (toJson : α → Json) (xs : List α) : List (String × Json) :=
  if xs = [] then [] else [(key, .arr (xs.map toJson))]

section Kinds

-- How the report of a scan is encoded. No query looks into it.
variable (reportJson : Report → Json)

def WorkloadScanVulnerabilityReport.toJson (report : WorkloadScanVulnerabilityReport) : Json :=
  .obj [("name", .str report.name), ("namespace", .str report.ns),
    ("imageMetadata", report.imageMetadata.toJson), ("report", reportJson report.report)]

def ContainerResult.toJson (result : ContainerResult) : Json :=
  .obj (("name", .str result.name) :: omitNil "vulnerabilityReports"
    (WorkloadScanVulnerabilityReport.toJson reportJson) result.vulnerabilityReports)

def Computed.toJson (computed : Computed) : List (String × Json) :=
  [("status", .obj (omitNil "containerStatuses" ContainerStatus.toJson computed.status)),
    ("summary", computed.summary.toJson)] ++
    omitNil "containers" (ContainerResult.toJson reportJson) computed.containers

def imageKind : Kind Image where
  resource := "images"
  clusterScoped := false
  encode image := [("imageMetadata", image.imageMetadata.toJson)]
  attrs image := image.imageMetadata.attrs
  transform image := image
  attrs_transform _ := rfl
  resource_ne := by decide
  resource_noSlash := by decide
  attrs_stored m image := image.imageMetadata.attrs_stored m []

/-- The results are stripped from watch events. -/
def vulnerabilityReportKind : Kind VulnerabilityReport where
  resource := "vulnerabilityreports"
  clusterScoped := false
  encode r := [("imageMetadata", r.imageMetadata.toJson), ("report", reportJson r.report)]
  attrs r := r.imageMetadata.attrs
  transform r := { r with report.results := [] }
  attrs_transform _ := rfl
  resource_ne := by decide
  resource_noSlash := by decide
  attrs_stored m r := r.imageMetadata.attrs_stored m [("report", reportJson r.report)]

def specJson (spec : List ContainerRef) : Json :=
  .obj [("containers", .arr (spec.map ContainerRef.toJson))]

/-- The status and the results are stripped from watch events, and the summary is not. `getAttrs`
fails on a report, which has no image metadata, so there are no fields but the metadata. -/
def workloadScanReportKind : Kind WorkloadScanReport where
  resource := "workloadscanreports"
  clusterScoped := false
  encode r := ("spec", specJson r.spec) :: Computed.toJson reportJson r.toComputed
  attrs _ := []
  transform r := { r with status := [], containers := [] }
  attrs_transform _ := rfl
  resource_ne := by decide
  resource_noSlash := by decide
  attrs_stored _ _ _ h := by cases h

end Kinds

/-! ## The queries -/

structure Database where
  images : Table Image
  vulnerabilityReports : Table VulnerabilityReport
  workloadScanReports : Table WorkloadScanReport

/-- The order in which PostgreSQL returns the matching rows, for each list of references that is
asked for. -/
structure QueryPlan where
  rows : List ImageRef → List (Row VulnerabilityReport) → List (Row VulnerabilityReport)
  perm : ∀ refs matching, (rows refs matching).Perm matching

def QueryPlan.asStored : QueryPlan := ⟨fun _ matching => matching, fun _ _ => .refl _⟩

section Queries

variable {α : Type} (k : Kind α)

/-- `object->'imageMetadata'->>field`. -/
def imageMetadataColumn (r : Row α) (field : String) : Option String :=
  Sql.arrowText (Sql.arrow (some (k.toJson r.object)) "imageMetadata") field

/-- The four columns of the condition; `none` if one of them is `NULL`. -/
def imageRefColumns (r : Row α) : Option ImageRef :=
  match imageMetadataColumn k r "registry", imageMetadataColumn k r "repository",
      imageMetadataColumn k r "tag" with
  | some registry, some repository, some tag => some ⟨registry, r.ns, repository, tag⟩
  | _, _, _ => none

/-- `unnest` of four arrays of one length: the entries at one position form a row. -/
def unnest : List String → List String → List String → List String → List ImageRef
  | ns :: namespaces, registry :: registries, repository :: repositories, tag :: tags =>
    ⟨registry, ns, repository, tag⟩ :: unnest namespaces registries repositories tags
  | _, _, _, _ => []

/-- `(namespace, registry, repository, tag) IN (SELECT … FROM unnest(…))`. -/
def buildImageRefConditions (containers : List ContainerRef) (r : Row α) : Bool :=
  match imageRefColumns k r with
  | none => false
  | some ref => ref ∈ unnest (containers.map (·.imageRef.ns)) (containers.map (·.imageRef.registry))
      (containers.map (·.imageRef.repository)) (containers.map (·.imageRef.tag))

/-- Returns the count of Image records per ImageRef. The four columns of a row that satisfies the
condition are not `NULL`, and they are the key of its group. -/
def fetchImageCounts (db : Database) (containers : List ContainerRef) : ImageRef → Nat :=
  let rows := db.images.rows.filter (buildImageRefConditions imageKind containers)
  assign 0 (counts id (rows.filterMap (imageRefColumns imageKind)))

/-- The key that is put together from the metadata of an image and a namespace. -/
def imageRefOf (imageMetadata : ImageMetadata) (ns : String) : ImageRef where
  registry := imageMetadata.registry
  ns := ns
  repository := imageMetadata.repository
  tag := imageMetadata.tag

def Image.ref (o : Object Image) : ImageRef := imageRefOf o.content.imageMetadata o.metadata.ns

def VulnerabilityReport.ref (o : Object VulnerabilityReport) : ImageRef :=
  imageRefOf o.content.imageMetadata o.metadata.ns

variable (reportJson : Report → Json)

def fetchVulnerabilityReports (plan : QueryPlan) (db : Database) (containers : List ContainerRef) :
    ImageRef → List (Object VulnerabilityReport) :=
  let rows := plan.rows (containers.map (·.imageRef)) (db.vulnerabilityReports.rows.filter
    (buildImageRefConditions (vulnerabilityReportKind reportJson) containers))
  group VulnerabilityReport.ref (rows.map Row.object)

end Queries

/-! ## Populating -/

def computeScanStatus (imageCount vulnReportCount : Nat) : ScanStatus :=
  if imageCount = 0 then .waitingForScan
  else if vulnReportCount < imageCount then .scanInProgress
  else .scanComplete

/-- Builds a ContainerResult from a ContainerRef and its vulnerability reports. -/
def buildContainerResult (container : ContainerRef)
    (vulnerabilityReports : List (Object VulnerabilityReport)) : ContainerResult where
  name := container.name
  vulnerabilityReports := vulnerabilityReports.map fun vr =>
    ⟨vr.metadata.name, vr.metadata.ns, vr.content.imageMetadata, vr.content.report⟩

structure VulnerabilityKey where
  cve : String
  suppressed : Bool
  pkgName : String
  installedVersion : String
  deriving DecidableEq

def vulnerabilityKey (vuln : Vulnerability) : VulnerabilityKey :=
  ⟨vuln.cve, vuln.suppressed, vuln.packageName, vuln.installedVersion⟩

/-- The aggregated summary: vulnerabilities are deduplicated per container, and the counts are
summed across the containers. -/
def calculateSummary (containers : List ContainerResult) : Summary :=
  containers.foldl (fun summary container =>
    let vulns := container.vulnerabilityReports.flatMap fun vulnReport =>
      vulnReport.report.results.flatMap (·.vulnerabilities)
    (firsts vulnerabilityKey vulns).foldl Summary.add summary) {}

/-- The loop over the containers of one report. -/
def results (imageCounts : ImageRef → Nat)
    (vulnReports : ImageRef → List (Object VulnerabilityReport)) (spec : List ContainerRef) :
    Computed :=
  let containers := spec.map fun container =>
    buildContainerResult container (vulnReports container.imageRef)
  { status := spec.map fun container =>
      ⟨container.name, computeScanStatus (imageCounts container.imageRef)
        (vulnReports container.imageRef).length⟩
    summary := calculateSummary containers
    containers := containers }

def setComputed (report : Object WorkloadScanReport) (computed : Computed) :
    Object WorkloadScanReport :=
  { report with content := { report.content with toComputed := computed } }

/-- One round of the loop over the reports. A report without containers is skipped. -/
def populateReport (imageCounts : ImageRef → Nat)
    (vulnReports : ImageRef → List (Object VulnerabilityReport))
    (report : Object WorkloadScanReport) : Object WorkloadScanReport :=
  if report.content.spec = [] then report
  else setComputed report (results imageCounts vulnReports report.content.spec)

variable (reportJson : Report → Json) (plan : QueryPlan) (db : Database)

/-- Fetches images and vulnerability reports, then populates `status`, `containers` and `summary`.
The containers are the first of each reference in the batch. -/
def populateContainerResults (reports : List (Object WorkloadScanReport)) :
    List (Object WorkloadScanReport) :=
  let containers := firsts ContainerRef.imageRef (reports.flatMap (·.content.spec))
  if containers = [] then reports
  else
    let imageCounts := fetchImageCounts db containers
    let vulnReports := fetchVulnerabilityReports reportJson plan db containers
    reports.map (populateReport imageCounts vulnReports)

def get (key : ObjectKey) : Option (Object WorkloadScanReport) :=
  (db.workloadScanReports.lookup key).bind fun report =>
    (populateContainerResults reportJson plan db [report]).head?

def list (ns : String) (opts : ListOptions) :
    Except ListError (List (Object WorkloadScanReport) × String) :=
  (Storage.list (workloadScanReportKind reportJson) db.workloadScanReports ns opts).map
    fun page => (populateContainerResults reportJson plan db page.1, page.2)

/-! ## Writing -/

/-- An error for a field that may not be set. -/
def forbiddenUnless (path : String) (ok : Bool) : List (String × String) :=
  if ok then [] else [(path, "field is read-only")]

def validateReadOnlyFieldsEmpty (report : WorkloadScanReport) : List (String × String) :=
  forbiddenUnless "status" (report.status = []) ++
    forbiddenUnless "summary" (report.summary = {}) ++
    forbiddenUnless "containers" (report.containers = [])

def validateReadOnlyFieldsUnchanged (newReport oldReport : WorkloadScanReport) :
    List (String × String) :=
  forbiddenUnless "status" (newReport.status = oldReport.status) ++
    forbiddenUnless "summary" (newReport.summary = oldReport.summary) ++
    forbiddenUnless "containers" (newReport.containers = oldReport.containers)

/-- A create of the API, stored under version `rv`; `none` if it is refused. -/
def create (rv : Nat) (obj : Object WorkloadScanReport) : Option Database :=
  if validateReadOnlyFieldsEmpty obj.content = [] then
    (db.workloadScanReports.insert (updateObject obj rv)).map fun t =>
      { db with workloadScanReports := t }
  else none

/-- An update of the API, stored under version `rv`. `GuaranteedUpdate` reads the existing object
with `Get`, so the validation compares with populated fields, and the object is stored as it was
sent. -/
def update (rv : Nat) (obj : Object WorkloadScanReport) : Option Database :=
  match get reportJson plan db obj.key with
  | none => none
  | some existing =>
    if obj.metadata.resourceVersion = existing.metadata.resourceVersion ∧
        validateReadOnlyFieldsUnchanged obj.content existing.content = [] then
      (db.workloadScanReports.update (updateObject obj rv)).map fun t =>
        { db with workloadScanReports := t }
    else none

end SbomScanner.Storage.Reports

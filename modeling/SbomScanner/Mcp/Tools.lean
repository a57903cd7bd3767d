import Mathlib.Algebra.GroupWithZero.Nat
import SbomScanner.Storage.ReportSummary

/-!
# The vulnerability tools of the MCP server

The tools answer questions about the vulnerabilities of an image, a node or a workload. They read a
report from the API and make lists and counts of their own: one entry for each CVE, sorted by
severity and score, and the first ten of these for a summary.

The summary of a workload has counts for each container next to those of the report. The former are
of CVEs, the latter of CVEs in packages, so they add up only if no CVE of a container occurs in two
ways (`container_summaries_add_up_iff`).

A score is a `float64`. Those that a tool stores are numbers, which are linearly ordered; a score
that is not a number is never greater than another. How a response is encoded is left out.
-/

namespace SbomScanner.Mcp

open Storage Storage.Reports Fallible Grouping List

/-! ## Simplified vulnerabilities -/

/-- What `strconv.ParseFloat` makes of a text. -/
inductive ParsedFloat (F : Type) where
  | invalid (cause : String)
  | nan
  | number (score : F)

/-- The functions of other libraries; `quote` is the verb `%q`. -/
structure Libraries (F : Type) where
  parseFloat : String → ParsedFloat F
  quote : String → String

structure SimplifiedVulnerability (F : Type) where
  cve : String
  link : String
  cvssScore : F
  severity : String
  critical : Bool
  fixAvailable : Bool
  suppressed : Bool
  package : String
  deriving DecidableEq

/-- The one loop whose order can be observed, over the map of what has been seen in a container. -/
inductive Loop where
  | seen (container : Nat)

variable {F : Type} [LinearOrder F] [Zero F] (lib : Libraries F) (order : IterationOrder Loop)

def highestScore (cve : String) (cvss : List (String × CVSS)) : Except String F :=
  cvss.foldlM (fun highestScore entry =>
    if entry.2.v3Score = "" then
      .ok highestScore
    else
      match lib.parseFloat entry.2.v3Score with
      | .invalid cause =>
        .error ("parsing CVSS v3 score " ++ lib.quote entry.2.v3Score ++ " for " ++ cve ++ ": " ++
          cause)
      | .nan => .ok highestScore
      | .number score => .ok (if highestScore < score then score else highestScore)) 0

/-- Picks the first reference link and the highest CVSS v3 score. -/
def simplifyVulnerability (vulnerability : Vulnerability) :
    Except String (SimplifiedVulnerability F) := do
  let score ← highestScore lib vulnerability.cve vulnerability.cvss
  return {
    cve := vulnerability.cve
    link := vulnerability.references.headD ""
    cvssScore := score
    severity := vulnerability.severity
    critical := vulnerability.severity = "CRITICAL"
    fixAvailable := vulnerability.fixedVersions ≠ []
    suppressed := vulnerability.suppressed
    package := vulnerability.packageName }

/-- Maps severity labels to a numeric rank (higher = more severe). -/
def severityRank (severity : String) : Nat :=
  if severity = "CRITICAL" then 4
  else if severity = "HIGH" then 3
  else if severity = "MEDIUM" then 2
  else if severity = "LOW" then 1
  else 0

/-- The comparison of `sortVulnerabilities` is not positive. -/
def Before (a b : SimplifiedVulnerability F) : Prop :=
  if severityRank a.severity ≠ severityRank b.severity then
    severityRank b.severity < severityRank a.severity
  else
    b.cvssScore ≤ a.cvssScore

instance instDecidableRelBefore : DecidableRel (Before (F := F)) := fun a b =>
  inferInstanceAs (Decidable (if severityRank a.severity ≠ severityRank b.severity then
    severityRank b.severity < severityRank a.severity else b.cvssScore ≤ a.cvssScore))

/-- Sorts by severity first, then by CVSS score descending. The sort is not stable, and the list has
no order of its own before it is sorted. -/
def sortVulnerabilities (vulnerabilities : List (SimplifiedVulnerability F)) :
    List (SimplifiedVulnerability F) :=
  vulnerabilities.insertionSort Before

/-- The loops over the results and vulnerabilities, and what follows them. -/
def collect (container : Nat) (vulnerabilities : List Vulnerability) :
    Except String (List (SimplifiedVulnerability F)) := do
  let seen ← (firsts (·.cve) vulnerabilities).mapM (simplifyVulnerability lib)
  return sortVulnerabilities (order.range (.seen container) seen)

def collectSimplifiedVulnerabilitiesFromReport (report : Report) :
    Except String (List (SimplifiedVulnerability F)) :=
  collect lib order 0 (report.results.flatMap (·.vulnerabilities))

def collectSimplifiedVulnerabilities (report : VulnerabilityReport) :
    Except String (List (SimplifiedVulnerability F)) :=
  collectSimplifiedVulnerabilitiesFromReport lib order report.report

/-- Flattens, deduplicates, and sorts vulnerabilities from a workload container's vulnerability
reports. -/
def collectSimplifiedVulnerabilitiesFromWorkload (container : Nat)
    (reports : List WorkloadScanVulnerabilityReport) :
    Except String (List (SimplifiedVulnerability F)) :=
  collect lib order container
    (reports.flatMap fun report => report.report.results.flatMap (·.vulnerabilities))

def countSimplified (summary : Summary) (vulnerability : SimplifiedVulnerability F) : Summary :=
  if vulnerability.suppressed then { summary with suppressed := summary.suppressed + 1 }
  else if vulnerability.severity = "CRITICAL" then { summary with critical := summary.critical + 1 }
  else if vulnerability.severity = "HIGH" then { summary with high := summary.high + 1 }
  else if vulnerability.severity = "MEDIUM" then { summary with medium := summary.medium + 1 }
  else if vulnerability.severity = "LOW" then { summary with low := summary.low + 1 }
  else { summary with unknown := summary.unknown + 1 }

def summaryFromSimplified (vulnerabilities : List (SimplifiedVulnerability F)) : Summary :=
  vulnerabilities.foldl countSimplified {}

/-! ## The tools -/

def total (summary : Summary) : Nat :=
  summary.critical + summary.high + summary.medium + summary.low + summary.unknown

structure ImageVulnerabilitiesResponse (F : Type) where
  registry : String
  repository : String
  tag : String
  vulnerabilities : List (SimplifiedVulnerability F)

structure ImageVulnerabilitySummaryResponse (F : Type) where
  registry : String
  repository : String
  tag : String
  total : Nat
  summary : Summary
  topVulnerabilities : List (SimplifiedVulnerability F)

structure NodeMetadata where
  name : String
  platform : String

/-- The fields that the tools read. -/
structure NodeVulnerabilityReport where
  nodeMetadata : NodeMetadata
  report : Report

structure NodeVulnerabilitiesResponse (F : Type) where
  node : String
  platform : String
  vulnerabilities : List (SimplifiedVulnerability F)

structure NodeVulnerabilitySummaryResponse (F : Type) where
  node : String
  platform : String
  total : Nat
  summary : Summary
  topVulnerabilities : List (SimplifiedVulnerability F)

structure ContainerVulnerabilitySummary (F : Type) where
  container : String
  total : Nat
  summary : Summary
  topVulnerabilities : List (SimplifiedVulnerability F)

structure WorkloadVulnerabilitySummaryResponse (F : Type) where
  workload : String
  total : Nat
  summary : Summary
  containers : List (ContainerVulnerabilitySummary F)

structure ContainerVulnerabilities (F : Type) where
  container : String
  vulnerabilities : List (SimplifiedVulnerability F)

structure WorkloadVulnerabilitiesResponse (F : Type) where
  workload : String
  containers : List (ContainerVulnerabilities F)

/-- The client's answer, or the tool error it leads to. -/
def orToolError {α : Type} (context : String) (result : Except String α) : Except String α :=
  result.mapError fun err => context ++ ": " ++ err

def getImageVulnerabilities (get : Except String (Object VulnerabilityReport)) :
    Except String (ImageVulnerabilitiesResponse F) := do
  let report ← orToolError "getting vulnerability report" get
  let vulnerabilities ← orToolError "collecting vulnerabilities"
    (collectSimplifiedVulnerabilities lib order report.content)
  return {
    registry := report.content.imageMetadata.registry
    repository := report.content.imageMetadata.repository
    tag := report.content.imageMetadata.tag
    vulnerabilities }

def getImageVulnerabilitySummary (get : Except String (Object VulnerabilityReport)) :
    Except String (ImageVulnerabilitySummaryResponse F) := do
  let report ← orToolError "getting vulnerability report" get
  let vulnerabilities ← orToolError "collecting vulnerabilities"
    (collectSimplifiedVulnerabilities lib order report.content)
  return {
    registry := report.content.imageMetadata.registry
    repository := report.content.imageMetadata.repository
    tag := report.content.imageMetadata.tag
    total := total report.content.report.summary
    summary := report.content.report.summary
    topVulnerabilities := vulnerabilities.take 10 }

def summarizeContainer (container : ContainerResult × Nat) :
    Except String (ContainerVulnerabilitySummary F) := do
  let vulnerabilities ← orToolError "collecting vulnerabilities"
    (collectSimplifiedVulnerabilitiesFromWorkload lib order container.2
      container.1.vulnerabilityReports)
  let summary := summaryFromSimplified vulnerabilities
  return {
    container := container.1.name
    total := total summary
    summary
    topVulnerabilities := vulnerabilities.take 10 }

def getWorkloadVulnerabilitySummary (get : Except String (Object WorkloadScanReport)) :
    Except String (WorkloadVulnerabilitySummaryResponse F) := do
  let report ← orToolError "getting workload scan report" get
  let containers ← report.content.containers.zipIdx.mapM (summarizeContainer lib order)
  return {
    workload := report.metadata.name
    total := total report.content.summary
    summary := report.content.summary
    containers }

def listContainer (container : ContainerResult × Nat) :
    Except String (ContainerVulnerabilities F) := do
  let vulnerabilities ← orToolError "collecting vulnerabilities"
    (collectSimplifiedVulnerabilitiesFromWorkload lib order container.2
      container.1.vulnerabilityReports)
  return { container := container.1.name, vulnerabilities }

def getWorkloadVulnerabilities (get : Except String (Object WorkloadScanReport)) :
    Except String (WorkloadVulnerabilitiesResponse F) := do
  let report ← orToolError "getting workload scan report" get
  let containers ← report.content.containers.zipIdx.mapM (listContainer lib order)
  return { workload := report.metadata.name, containers }

def getNodeVulnerabilitySummary (get : Except String NodeVulnerabilityReport) :
    Except String (NodeVulnerabilitySummaryResponse F) := do
  let report ← orToolError "getting node vulnerability report" get
  let vulnerabilities ← orToolError "collecting vulnerabilities"
    (collectSimplifiedVulnerabilitiesFromReport lib order report.report)
  return {
    node := report.nodeMetadata.name
    platform := report.nodeMetadata.platform
    total := total report.report.summary
    summary := report.report.summary
    topVulnerabilities := vulnerabilities.take 10 }

def getNodeVulnerabilities (get : Except String NodeVulnerabilityReport) :
    Except String (NodeVulnerabilitiesResponse F) := do
  let report ← orToolError "getting node vulnerability report" get
  let vulnerabilities ← orToolError "collecting vulnerabilities"
    (collectSimplifiedVulnerabilitiesFromReport lib order report.report)
  return {
    node := report.nodeMetadata.name
    platform := report.nodeMetadata.platform
    vulnerabilities }

/-! ## What is collected -/

variable {lib order}

theorem orToolError_eq_ok {α : Type} {context : String} {result : Except String α} {a : α} :
    orToolError context result = .ok a ↔ result = .ok a := mapError_eq_ok

/-- A simplified vulnerability has the CVE, the severity and the suppression of the original. -/
theorem simplifyVulnerability_eq_ok {vulnerability : Vulnerability}
    {simplified : SimplifiedVulnerability F}
    (h : simplifyVulnerability lib vulnerability = .ok simplified) :
    simplified.cve = vulnerability.cve ∧ simplified.severity = vulnerability.severity ∧
      simplified.suppressed = vulnerability.suppressed := by
  obtain ⟨score, -, hreturn⟩ := bind_eq_ok.mp h
  cases hreturn
  exact ⟨rfl, rfl, rfl⟩

def simplifiedBucket (simplified : SimplifiedVulnerability F) : Bucket :=
  bucketOf simplified.severity simplified.suppressed

omit [LinearOrder F] [Zero F] in
theorem summaryFromSimplified_eq (vulnerabilities : List (SimplifiedVulnerability F)) :
    summaryFromSimplified vulnerabilities = tally (vulnerabilities.map simplifiedBucket) := by
  rw [summaryFromSimplified, tally, foldl_map]
  congr 1
  funext summary vulnerability
  unfold countSimplified simplifiedBucket bucketOf
  split_ifs <;> rfl

variable {vulnerabilities : List Vulnerability} {collected : List (SimplifiedVulnerability F)}

/-- The entries are those of the first vulnerability of each CVE, in some order. -/
theorem collect_eq_ok {container : Nat} :
    collect lib order container vulnerabilities = .ok collected ↔ ∃ seen,
      (firsts (·.cve) vulnerabilities).mapM (simplifyVulnerability lib) = .ok seen ∧
        collected = sortVulnerabilities (order.range (.seen container) seen) := by
  unfold collect
  rw [bind_eq_ok]
  apply exists_congr
  intro seen
  apply and_congr_right
  intro _
  constructor
  · rintro ⟨⟩
    rfl
  · rintro rfl
    rfl

omit [Zero F] in
theorem perm_sortVulnerabilities (loop : Loop) (seen : List (SimplifiedVulnerability F)) :
    (sortVulnerabilities (order.range loop seen)).Perm seen :=
  (perm_insertionSort _ _).trans (order.perm loop seen)

theorem map_simplifiedBucket {simplified : List (SimplifiedVulnerability F)}
    (h : vulnerabilities.mapM (simplifyVulnerability lib) = .ok simplified) :
    simplified.map simplifiedBucket = vulnerabilities.map bucket := by
  refine map_of_mapM (fun vulnerability simplified hsimplify => ?_) h
  obtain ⟨-, hseverity, hsuppressed⟩ := simplifyVulnerability_eq_ok hsimplify
  rw [simplifiedBucket, hseverity, hsuppressed, bucket]

theorem summary_collect {container : Nat}
    (h : collect lib order container vulnerabilities = .ok collected) :
    summaryFromSimplified collected = tally ((firsts (·.cve) vulnerabilities).map bucket) := by
  obtain ⟨seen, hseen, rfl⟩ := collect_eq_ok.mp h
  rw [summaryFromSimplified_eq, ← map_simplifiedBucket hseen]
  exact ((perm_sortVulnerabilities _ seen).map _).foldl_eq _

/-! ## Counts of CVEs and counts of vulnerabilities -/

/-- A container's count of CVEs, and its count of vulnerabilities. -/
def cveTally (container : ContainerResult) : Summary :=
  tally ((firsts (·.cve) (vulnerabilitiesOf container)).map bucket)

def keyTally (container : ContainerResult) : Summary :=
  tally ((firsts vulnerabilityKey (vulnerabilitiesOf container)).map bucket)

/-- Each CVE of the container occurs in one package at one version, suppressed or not. -/
def OneKeyPerCVE (container : ContainerResult) : Prop :=
  ∀ u ∈ vulnerabilitiesOf container, ∀ v ∈ vulnerabilitiesOf container,
    u.cve = v.cve → vulnerabilityKey u = vulnerabilityKey v

theorem size_cveTally_le (container : ContainerResult) :
    (cveTally container).size ≤ (keyTally container).size := by
  rw [cveTally, keyTally, size_tally, size_tally, length_map, length_map]
  show (firsts (VulnerabilityKey.cve ∘ vulnerabilityKey) _).length ≤ _
  exact length_firsts_comp_le _

variable {container : ContainerResult}

theorem oneKeyPerCVE_of_size (h : (cveTally container).size = (keyTally container).size) :
    OneKeyPerCVE container := by
  rw [cveTally, keyTally, size_tally, size_tally, length_map, length_map] at h
  change (firsts (VulnerabilityKey.cve ∘ vulnerabilityKey) _).length = _ at h
  intro u hu v hv hcve
  exact key_eq_of_length_eq h hu hv hcve

theorem cveTally_eq (h : OneKeyPerCVE container) :
    cveTally container = keyTally container := by
  have hfirsts : firsts (VulnerabilityKey.cve ∘ vulnerabilityKey)
      (vulnerabilitiesOf container) = firsts vulnerabilityKey (vulnerabilitiesOf container) := by
    apply firsts_comp
    exact h
  rw [cveTally, keyTally, ← hfirsts]
  rfl

theorem size_sum_cveTally_le (containers : List ContainerResult) :
    (Summary.sum (containers.map cveTally)).size ≤
      (Summary.sum (containers.map keyTally)).size := by
  induction containers with
  | nil => exact Nat.le_refl _
  | cons container containers ih =>
    show (Summary.plus _ _).size ≤ (Summary.plus _ _).size
    rw [Summary.size_plus, Summary.size_plus]
    exact Nat.add_le_add (size_cveTally_le container) ih

theorem sum_cveTally_eq_iff (containers : List ContainerResult) :
    Summary.sum (containers.map cveTally) = Summary.sum (containers.map keyTally) ↔
      ∀ container ∈ containers, OneKeyPerCVE container := by
  constructor
  · intro h
    have hsize := congrArg Summary.size h
    clear h
    -- no container has more CVEs than vulnerabilities, so none has fewer either
    induction containers with
    | nil =>
      intro container hcontainer
      cases hcontainer
    | cons container containers ih =>
      have hone := size_cveTally_le container
      have hrest := size_sum_cveTally_le containers
      have hsum : (cveTally container).size + (Summary.sum (containers.map cveTally)).size =
          (keyTally container).size + (Summary.sum (containers.map keyTally)).size := by
        rw [← Summary.size_plus, ← Summary.size_plus]
        exact hsize
      intro other hother
      rcases mem_cons.mp hother with rfl | hother
      · exact oneKeyPerCVE_of_size (by omega)
      · exact ih (by omega) other hother
  · intro h
    rw [map_congr_left fun container hcontainer => cveTally_eq (h container hcontainer)]

/-! ## The summary of a workload -/

theorem summary_summarizeContainer {container : ContainerResult × Nat}
    {summarized : ContainerVulnerabilitySummary F}
    (h : summarizeContainer lib order container = .ok summarized) :
    summarized.summary = cveTally container.1 := by
  obtain ⟨vulnerabilities, hcollect, hreturn⟩ := bind_eq_ok.mp h
  cases hreturn
  exact summary_collect (orToolError_eq_ok.mp hcollect)

/-- **The summaries of the containers.** When the tool answers for a report as the storage returns
it, the summaries of the containers add up to the overall summary iff in each container a CVE occurs
in one package at one version only, and is suppressed there or not. -/
theorem container_summaries_add_up_iff {reportJson : Report → Sql.Json} {db : Database}
    {plan : QueryPlan} {key : ObjectKey} {report : Object WorkloadScanReport}
    {response : WorkloadVulnerabilitySummaryResponse F} (hdb : Reachable reportJson db)
    (hget : Reports.get reportJson plan db key = some report)
    (hresponse : getWorkloadVulnerabilitySummary lib order (.ok report) = .ok response) :
    Summary.sum (response.containers.map (·.summary)) = response.summary ↔
      ∀ container ∈ report.content.containers, OneKeyPerCVE container := by
  obtain ⟨_, hreport, hrest⟩ := bind_eq_ok.mp hresponse
  cases hreport
  obtain ⟨containers, hcontainers, hreturn⟩ := bind_eq_ok.mp hrest
  cases hreturn
  have hmap : (report.content.containers.zipIdx.map fun container => cveTally container.1) =
      report.content.containers.map cveTally := by
    rw [← zipIdx_map_fst 0 report.content.containers, map_map]
    simp
  show Summary.sum (containers.map (·.summary)) = report.content.summary ↔ _
  rw [map_of_mapM (fun _ _ => summary_summarizeContainer) hcontainers, hmap,
    summary_get hdb hget, calculateSummary_eq_sum]
  exact sum_cveTally_eq_iff _

/-! ## One CVE in two packages -/

/-- No score is given, so none is parsed. -/
def noScores : Libraries Nat where
  parseFloat _ := .nan
  quote text := text

def inPackage (name : String) : Vulnerability := { sampleVulnerability with packageName := name }

def imageReportWith (vulnerabilities : List Vulnerability) : Object VulnerabilityReport :=
  ⟨(sampleAX 1).metadata, ⟨(sampleAX 1).content.imageMetadata,
    ⟨{}, [⟨"alpine", "os-pkgs", "alpine", vulnerabilities⟩]⟩⟩⟩

/-- The image of the container has been scanned, and the report has these vulnerabilities. -/
def scannedWith (vulnerabilities : List Vulnerability) : Database :=
  { sampleDatabase freshReports with
    vulnerabilityReports := .singleton ⟨1, imageReportWith vulnerabilities⟩ }

theorem reachable_scannedWith (vulnerabilities : List Vulnerability) :
    Reachable noJson (scannedWith vulnerabilities) := by
  have hcreated : Reachable noJson ⟨.empty, .empty, freshReports⟩ :=
    .created 1 (sampleWorkload 1 [appContainer]) .empty rfl
  exact @Reachable.scanned _ ⟨.empty, .empty, freshReports⟩ _ _ hcreated

def reportWith (vulnerabilities : List Vulnerability) : Object WorkloadScanReport :=
  view .asStored (scannedWith vulnerabilities) (sampleWorkload 1 [appContainer])

theorem get_scannedWith (vulnerabilities : List Vulnerability) :
    Reports.get noJson .asStored (scannedWith vulnerabilities) ⟨"a", "x"⟩ =
      some (reportWith vulnerabilities) :=
  get_eq (sameOrder_asStored _ _) _

/-- The vulnerability is counted in both packages, and its CVE once. -/
theorem container_summary_counts_CVEs_once :
    Reachable noJson (scannedWith [inPackage "libssl3", inPackage "libcrypto3"]) ∧
    Reports.get noJson .asStored (scannedWith [inPackage "libssl3", inPackage "libcrypto3"])
      ⟨"a", "x"⟩ = some (reportWith [inPackage "libssl3", inPackage "libcrypto3"]) ∧
    (getWorkloadVulnerabilitySummary noScores .asStored
        (.ok (reportWith [inPackage "libssl3", inPackage "libcrypto3"]))).toOption.map
      (fun response => (response.summary, response.containers.map (·.summary))) =
        some ({ critical := 2 }, [{ critical := 1 }]) :=
  ⟨reachable_scannedWith _, get_scannedWith _, by decide +kernel⟩

theorem container_summaries_add_up_iff_onePackage :
    ∃ response, getWorkloadVulnerabilitySummary noScores .asStored
        (.ok (reportWith [inPackage "libssl3"])) = .ok response ∧
      Summary.sum (response.containers.map (·.summary)) = response.summary := by
  have hone : ∀ container ∈ (reportWith [inPackage "libssl3"]).content.containers,
      OneKeyPerCVE container := by
    unfold OneKeyPerCVE
    decide +kernel
  obtain ⟨response, hresponse⟩ : ∃ response, getWorkloadVulnerabilitySummary noScores .asStored
      (.ok (reportWith [inPackage "libssl3"])) = .ok response := ⟨_, rfl⟩
  refine ⟨response, hresponse, ?_⟩
  exact (container_summaries_add_up_iff (reachable_scannedWith _) (get_scannedWith _)
    hresponse).mpr hone

end SbomScanner.Mcp

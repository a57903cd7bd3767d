import SbomScanner.Storage.ReportSummary

/-!
# From Trivy's report to the stored one

A worker hands an SBOM to Trivy and converts the report that it gets back. Trivy lists the
vulnerabilities of a result apart from those that a VEX document has suppressed: these are among the
modified findings, together with findings of other types. The conversion puts both into one list,
with the suppressed ones behind the others and marked, and the summary counts them in a bucket of
their own.

Nothing is lost and nothing is counted twice (`trivyReport_conserved`). Of Trivy's types only the
fields that are read are here.
-/

namespace SbomScanner.Worker.Trivy

open Storage.Reports Fallible List

/-! ## Trivy's report -/

/-- The scores of a vendor. A float is given by its bits. -/
structure TrivyCVSS where
  v3Vector : String
  v3Score : UInt64
  deriving DecidableEq

structure DetectedVulnerability where
  vulnerabilityID : String
  pkgName : String
  pkgPath : String
  /-- the package URL, unless the pointer is nil -/
  purl : Option String
  installedVersion : String
  fixedVersion : String
  diffID : String
  severitySource : String
  title : String
  description : String
  severity : String
  references : List String
  /-- a map from the names of the vendors -/
  cvss : List (String × TrivyCVSS)
  cweIDs : List String
  deriving DecidableEq

inductive FindingType where
  | vulnerability
  | misconfiguration
  | secret
  | license
  deriving DecidableEq

/-- What Trivy found. Only a vulnerability is ever looked into. -/
inductive Finding where
  | vulnerability (vuln : DetectedVulnerability)
  | misconfiguration
  | secret
  | license
  deriving DecidableEq

def Finding.findingType : Finding → FindingType
  | .vulnerability _ => .vulnerability
  | .misconfiguration => .misconfiguration
  | .secret => .secret
  | .license => .license

/-- A finding that something has been said about. Trivy sets the type to that of the finding, both
when it makes one and when it reads one. -/
structure ModifiedFinding where
  type : FindingType
  status : String
  statement : String
  source : String
  finding : Finding
  typed : finding.findingType = type
  deriving DecidableEq

structure TrivyResult where
  target : String
  class_ : String
  type : String
  vulnerabilities : List DetectedVulnerability
  modifiedFindings : List ModifiedFinding

structure TrivyReport where
  results : List TrivyResult

/-! ## The conversion -/

/-- `strconv.FormatFloat` and the package gob, which writes to a buffer and reads from it. -/
structure Library (Buffer : Type) where
  formatFloat : UInt64 → String
  encode : Finding → Except String Buffer
  decode : Buffer → Except String DetectedVulnerability

inductive Failure where
  | failed (reason : String)
  | nilPointer
  deriving DecidableEq

def classBinary := "binary"
def goBinary := "gobinary"
def rustBinary := "rustbinary"

/-- If the type indicates a compiled language, the class is binary. -/
def newResult (trivyRes : TrivyResult) : Result where
  target := trivyRes.target
  class_ := if trivyRes.type = goBinary ∨ trivyRes.type = rustBinary then classBinary
    else trivyRes.class_
  type := trivyRes.type
  vulnerabilities := []

/-- Trivy removes the slash at the beginning of a path. -/
def fixPath (inputPath : String) : String :=
  if inputPath = "" then "" else Strings.pathJoin "/" inputPath

/-- `strings.Split` at commas with a space behind them. -/
def splitComma : List Char → List (List Char)
  | [] => [[]]
  | ',' :: ' ' :: cs => [] :: splitComma cs
  | c :: cs =>
    match splitComma cs with
    | [] => [[c]]
    | first :: rest => (c :: first) :: rest

def getFixedVersions (input : String) : List String :=
  if input = "" then [] else (splitComma input.toList).map String.ofList

/-- A character of `[^\s)]`. -/
def urlChar (c : Char) : Bool :=
  c ≠ ' ' && c ≠ '\t' && c ≠ '\n' && c ≠ '\x0c' && c ≠ '\r' && c ≠ ')'

/-- What `https?://[^\s)]+` matches at the start of a text. -/
def urlAt (cs : List Char) : Option (List Char) :=
  ["https://".toList, "http://".toList].findSome? fun scheme =>
    let rest := (cs.drop scheme.length).takeWhile urlChar
    if scheme <+: cs ∧ rest ≠ [] then some (scheme ++ rest) else none

/-- The first match, or nothing. -/
def extractURLRegex (input : String) : String :=
  String.ofList ((input.toList.tails.findSome? urlAt).getD [])

def newVEXStatus (finding : ModifiedFinding) : VEXStatus where
  repository := extractURLRegex finding.source
  status := finding.status
  statement := finding.statement

section Conversion

variable {Buffer : Type} (lib : Library Buffer)

def newCVSS (trivyCVSS : List (String × TrivyCVSS)) : List (String × CVSS) :=
  trivyCVSS.map fun (sid, cvss) => (sid, ⟨cvss.v3Vector, lib.formatFloat cvss.v3Score⟩)

def newVulnerability (trivyVuln : DetectedVulnerability) : Except Failure Vulnerability :=
  match trivyVuln.purl with
  | none => .error .nilPointer
  | some purl =>
    .ok {
      cve := trivyVuln.vulnerabilityID
      title := trivyVuln.title
      packageName := trivyVuln.pkgName
      packagePath := fixPath trivyVuln.pkgPath
      purl
      installedVersion := trivyVuln.installedVersion
      fixedVersions := getFixedVersions trivyVuln.fixedVersion
      diffID := trivyVuln.diffID
      description := trivyVuln.description
      severity := trivyVuln.severity
      severitySource := trivyVuln.severitySource
      references := trivyVuln.references
      cvss := newCVSS lib trivyVuln.cvss
      cwes := trivyVuln.cweIDs }

/-- The field of the finding is private: it is encoded, and decoded as a vulnerability. -/
def decodeTrivyFinding (finding : ModifiedFinding) : Except String DetectedVulnerability := do
  let buffer ← (lib.encode finding.finding).mapError ("unable to encode finding: " ++ ·)
  (lib.decode buffer).mapError ("unable to decode finding: " ++ ·)

/-- One pass of the loop over the vulnerabilities that are not suppressed. -/
def addVulnerability (vulnerabilities : List Vulnerability) (trivyVuln : DetectedVulnerability) :
    Except Failure (List Vulnerability) := do
  let vuln ← newVulnerability lib trivyVuln
  return vulnerabilities ++ [{ vuln with suppressed := false }]

/-- One pass of the loop over the modified findings. Those that are no vulnerabilities are
skipped. -/
def addFinding (vulnerabilities : List Vulnerability) (finding : ModifiedFinding) :
    Except Failure (List Vulnerability) :=
  if finding.type ≠ .vulnerability then
    .ok vulnerabilities
  else do
    let suppressedVuln ← (decodeTrivyFinding lib finding).mapError fun e =>
      .failed ("error reding trivy findings: " ++ e)
    let vuln ← newVulnerability lib suppressedVuln
    return vulnerabilities ++ [{ vuln with
      suppressed := true, vexStatus := some (newVEXStatus finding) }]

def addResult (results : List Result) (trivyRes : TrivyResult) : Except Failure (List Result) := do
  let result := newResult trivyRes
  let vulnerabilities ← trivyRes.vulnerabilities.foldlM (addVulnerability lib)
    result.vulnerabilities
  let vulnerabilities ← trivyRes.modifiedFindings.foldlM (addFinding lib) vulnerabilities
  return results ++ [{ result with vulnerabilities }]

def newResultsFromTrivyReport (report : TrivyReport) : Except Failure (List Result) :=
  report.results.foldlM (addResult lib) []

end Conversion

def newSummaryFromResults (results : List Result) : Summary :=
  results.foldl (fun summary result => result.vulnerabilities.foldl Summary.add summary) {}

/-! ## What is to be kept -/

/-- The vulnerability that is stored is the one that Trivy detected. -/
structure Describes {Buffer : Type} (lib : Library Buffer) (trivyVuln : DetectedVulnerability)
    (vuln : Vulnerability) : Prop where
  cve : vuln.cve = trivyVuln.vulnerabilityID
  title : vuln.title = trivyVuln.title
  packageName : vuln.packageName = trivyVuln.pkgName
  packagePath : vuln.packagePath = fixPath trivyVuln.pkgPath
  purl : some vuln.purl = trivyVuln.purl
  installedVersion : vuln.installedVersion = trivyVuln.installedVersion
  fixedVersions : vuln.fixedVersions = getFixedVersions trivyVuln.fixedVersion
  diffID : vuln.diffID = trivyVuln.diffID
  description : vuln.description = trivyVuln.description
  severity : vuln.severity = trivyVuln.severity
  severitySource : vuln.severitySource = trivyVuln.severitySource
  references : vuln.references = trivyVuln.references
  cvss : vuln.cvss = newCVSS lib trivyVuln.cvss
  cwes : vuln.cwes = trivyVuln.cweIDs

structure Unsuppressed {Buffer : Type} (lib : Library Buffer) (trivyVuln : DetectedVulnerability)
    (vuln : Vulnerability) : Prop where
  describes : Describes lib trivyVuln vuln
  suppressed : vuln.suppressed = false
  vexStatus : vuln.vexStatus = none

structure Suppressed {Buffer : Type} (lib : Library Buffer) (finding : ModifiedFinding)
    (vuln : Vulnerability) : Prop where
  describes : ∃ trivyVuln, finding.finding = .vulnerability trivyVuln ∧ Describes lib trivyVuln vuln
  suppressed : vuln.suppressed = true
  vexStatus : vuln.vexStatus = some (newVEXStatus finding)

def isVulnerability (finding : ModifiedFinding) : Bool := finding.type = .vulnerability

/-- The vulnerabilities of a result, with the suppressed ones behind the others. -/
structure Corresponds {Buffer : Type} (lib : Library Buffer) (trivyRes : TrivyResult)
    (result : Result) : Prop where
  fields : { result with vulnerabilities := [] } = newResult trivyRes
  vulnerabilities : ∃ unsuppressed suppressed,
    result.vulnerabilities = unsuppressed ++ suppressed ∧
    List.Forall₂ (Unsuppressed lib) trivyRes.vulnerabilities unsuppressed ∧
    List.Forall₂ (Suppressed lib) (trivyRes.modifiedFindings.filter isVulnerability) suppressed

def TrivyReport.unsuppressed (report : TrivyReport) : List DetectedVulnerability :=
  report.results.flatMap (·.vulnerabilities)

def TrivyReport.suppressed (report : TrivyReport) : List ModifiedFinding :=
  report.results.flatMap fun trivyRes => trivyRes.modifiedFindings.filter isVulnerability

/-- Each vulnerability is counted once, in the bucket of its severity or among the suppressed ones.
What has none of the four severities is unknown. -/
structure Summarizes (report : TrivyReport) (summary : Summary) : Prop where
  suppressed : summary.suppressed = report.suppressed.length
  unsuppressed : summary.critical + summary.high + summary.medium + summary.low + summary.unknown =
    report.unsuppressed.length
  critical : summary.critical = report.unsuppressed.countP (·.severity = "CRITICAL")
  high : summary.high = report.unsuppressed.countP (·.severity = "HIGH")
  medium : summary.medium = report.unsuppressed.countP (·.severity = "MEDIUM")
  low : summary.low = report.unsuppressed.countP (·.severity = "LOW")
  unknown : summary.unknown =
    report.unsuppressed.countP (·.severity ∉ ["CRITICAL", "HIGH", "MEDIUM", "LOW"])

/-- A vulnerability that can be encoded is decoded as it was. -/
def RoundTrips {Buffer : Type} (lib : Library Buffer) : Prop :=
  ∀ vuln buffer, lib.encode (.vulnerability vuln) = .ok buffer → lib.decode buffer = .ok vuln

/-! ## The loops -/

section Loops

variable {Buffer : Type} {lib : Library Buffer}

variable {trivyVuln : DetectedVulnerability}

theorem describes_of_newVulnerability {vuln : Vulnerability}
    (h : newVulnerability lib trivyVuln = .ok vuln) :
    Describes lib trivyVuln vuln ∧ vuln.suppressed = false ∧ vuln.vexStatus = none := by
  unfold newVulnerability at h
  split at h
  case h_1 => cases h
  case h_2 purl hpurl =>
    cases h
    exact ⟨⟨rfl, rfl, rfl, rfl, hpurl.symm, rfl, rfl, rfl, rfl, rfl, rfl, rfl, rfl, rfl⟩, rfl, rfl⟩

variable {vulns out : List Vulnerability}

theorem addVulnerability_ok (h : addVulnerability lib vulns trivyVuln = .ok out) :
    ∃ vuln, Unsuppressed lib trivyVuln vuln ∧ out = vulns ++ [vuln] := by
  obtain ⟨vuln, hvuln, hout⟩ := bind_eq_ok.mp h
  cases hout
  obtain ⟨hdescribes, -, hvex⟩ := describes_of_newVulnerability hvuln
  exact ⟨{ vuln with suppressed := false }, ⟨{ hdescribes with }, rfl, hvex⟩, rfl⟩

variable {finding : ModifiedFinding}

theorem decodeTrivyFinding_ok (hgob : RoundTrips lib) (htype : finding.type = .vulnerability)
    (h : decodeTrivyFinding lib finding = .ok trivyVuln) :
    finding.finding = .vulnerability trivyVuln := by
  obtain ⟨buffer, hencode, hdecode⟩ := bind_eq_ok.mp h
  have hencode := mapError_eq_ok.mp hencode
  cases hfinding : finding.finding with
  | vulnerability vuln =>
    rw [hfinding] at hencode
    rw [hgob vuln buffer hencode] at hdecode
    rw [Except.ok.inj hdecode]
  | misconfiguration | secret | license =>
    have htyped := finding.typed
    rw [hfinding, htype] at htyped
    cases htyped

theorem addFinding_ok (hgob : RoundTrips lib) (htype : finding.type = .vulnerability)
    (h : addFinding lib vulns finding = .ok out) :
    ∃ vuln, Suppressed lib finding vuln ∧ out = vulns ++ [vuln] := by
  rw [addFinding, if_neg (not_not.mpr htype)] at h
  obtain ⟨trivyVuln, hdecode, h⟩ := bind_eq_ok.mp h
  obtain ⟨vuln, hvuln, hout⟩ := bind_eq_ok.mp h
  cases hout
  have hfinding := decodeTrivyFinding_ok hgob htype (mapError_eq_ok.mp hdecode)
  have hdescribes := (describes_of_newVulnerability hvuln).1
  refine ⟨{ vuln with suppressed := true, vexStatus := some (newVEXStatus finding) }, ?_, rfl⟩
  exact ⟨⟨trivyVuln, hfinding, { hdescribes with }⟩, rfl, rfl⟩

variable {results : List Result}

theorem addResult_ok (hgob : RoundTrips lib) {out : List Result} {trivyRes : TrivyResult}
    (h : addResult lib results trivyRes = .ok out) :
    ∃ result, Corresponds lib trivyRes result ∧ out = results ++ [result] := by
  obtain ⟨vulns, hvulns, h⟩ := bind_eq_ok.mp h
  obtain ⟨all, hall, hout⟩ := bind_eq_ok.mp h
  cases hout
  obtain ⟨unsuppressed, hunsuppressed, heq⟩ := foldlM_collect (p := fun _ => true)
    (fun _ _ hfalse => by cases hfalse) (fun _ _ _ _ hstep => addVulnerability_ok hstep) hvulns
  rw [newResult, nil_append] at heq
  obtain ⟨suppressed, hsuppressed, rfl⟩ := foldlM_collect (p := isVulnerability)
    (fun acc finding hskip => if_pos (by simpa [isVulnerability] using hskip))
    (fun _ _ _ htype hstep => addFinding_ok hgob (by simpa [isVulnerability] using htype) hstep)
    hall
  rw [filter_true] at hunsuppressed
  exact ⟨_, ⟨rfl, unsuppressed, suppressed, by rw [heq], hunsuppressed, hsuppressed⟩, rfl⟩

variable {report : TrivyReport}

theorem newResults_correspond (hgob : RoundTrips lib)
    (h : newResultsFromTrivyReport lib report = .ok results) :
    List.Forall₂ (Corresponds lib) report.results results := by
  obtain ⟨found, hfound, rfl⟩ := foldlM_collect (p := fun _ => true)
    (fun _ _ hfalse => by cases hfalse) (fun _ _ _ _ hstep => addResult_ok hgob hstep) h
  rw [filter_true] at hfound
  exact hfound

/-! ## The counts -/

theorem newSummary_eq_tally (results : List Result) :
    newSummaryFromResults results = tally ((results.flatMap (·.vulnerabilities)).map bucket) := by
  rw [newSummaryFromResults, ← foldl_flatMap, Summary.foldl_add, tally]

/-- The bucket of a vulnerability that is not suppressed. -/
def severityBucket (trivyVuln : DetectedVulnerability) : Bucket := bucketOf trivyVuln.severity false

theorem map_bucket_unsuppressed {trivyVulns : List DetectedVulnerability}
    (h : List.Forall₂ (Unsuppressed lib) trivyVulns vulns) :
    vulns.map bucket = trivyVulns.map severityBucket := by
  induction h with
  | nil => rfl
  | cons hvuln _ ih =>
    rw [map_cons, map_cons, ih, bucket, hvuln.suppressed, hvuln.describes.severity, severityBucket]

theorem map_bucket_suppressed {findings : List ModifiedFinding}
    (h : List.Forall₂ (Suppressed lib) findings vulns) :
    vulns.map bucket = List.replicate findings.length .suppressed := by
  induction h with
  | nil => rfl
  | cons hvuln _ ih =>
    rw [map_cons, ih, bucket, hvuln.suppressed, bucketOf, if_pos rfl, length_cons, replicate_succ]

theorem perm_buckets (h : List.Forall₂ (Corresponds lib) report.results results) :
    ((results.flatMap (·.vulnerabilities)).map bucket).Perm
      (report.unsuppressed.map severityBucket ++
        List.replicate report.suppressed.length .suppressed) := by
  rw [perm_iff_count]
  intro b
  unfold TrivyReport.unsuppressed TrivyReport.suppressed
  generalize report.results = trivyResults at h ⊢
  induction h with
  | nil => rfl
  | cons hresult _ ih =>
    obtain ⟨unsuppressed, suppressed, heq, hunsuppressed, hsuppressed⟩ := hresult.vulnerabilities
    simp only [flatMap_cons, map_append, length_append, count_append, heq,
      replicate_add, map_bucket_unsuppressed hunsuppressed,
      map_bucket_suppressed hsuppressed] at ih ⊢
    omega

def counter (s : Summary) : Bucket → Nat
  | .critical => s.critical
  | .high => s.high
  | .medium => s.medium
  | .low => s.low
  | .unknown => s.unknown
  | .suppressed => s.suppressed

theorem counter_tally (buckets : List Bucket) (b : Bucket) :
    counter (tally buckets) b = buckets.count b := by
  induction buckets with
  | nil => cases b <;> rfl
  | cons first buckets ih =>
    rw [tally, foldl_cons, Summary.foldl_increase, count_cons, ← ih]
    cases first <;> cases b <;> simp [counter, Summary.increase, Summary.plus, Nat.add_comm]

theorem counter_newSummary (h : List.Forall₂ (Corresponds lib) report.results results)
    (b : Bucket) :
    counter (newSummaryFromResults results) b =
      report.unsuppressed.countP (severityBucket · = b) +
        if b = .suppressed then report.suppressed.length else 0 := by
  rw [newSummary_eq_tally, counter_tally, (perm_buckets h).count_eq, count_append,
    count_replicate, List.count, countP_map]
  congr 1
  cases b <;> rfl

theorem severityBucket_ne_suppressed (trivyVuln : DetectedVulnerability) :
    severityBucket trivyVuln ≠ .suppressed := by
  simp only [severityBucket, bucketOf, Bool.false_eq_true, if_false]
  split_ifs <;> decide

theorem summarizes_newSummary (h : List.Forall₂ (Corresponds lib) report.results results) :
    Summarizes report (newSummaryFromResults results) := by
  have hsuppressed : (newSummaryFromResults results).suppressed = report.suppressed.length := by
    have hcounter := counter_newSummary h .suppressed
    simp only [severityBucket_ne_suppressed, decide_false, countP_false, if_true] at hcounter
    exact hcounter.trans (Nat.zero_add _)
  have hsize : (newSummaryFromResults results).size =
      report.unsuppressed.length + report.suppressed.length := by
    rw [newSummary_eq_tally, size_tally, (perm_buckets h).length_eq, length_append,
      length_map, length_replicate]
  -- a bucket of the others counts the vulnerabilities that have its severity
  have hcounter : ∀ b ≠ Bucket.suppressed, ∀ p : DetectedVulnerability → Bool,
      (∀ trivyVuln, severityBucket trivyVuln = b ↔ p trivyVuln = true) →
      counter (newSummaryFromResults results) b = report.unsuppressed.countP p := by
    intro b hb p hp
    rw [counter_newSummary h, if_neg hb, Nat.add_zero]
    exact countP_congr fun trivyVuln _ => by simpa using hp trivyVuln
  constructor
  case suppressed => exact hsuppressed
  case unsuppressed =>
    unfold Summary.size at hsize
    omega
  case critical => exact hcounter .critical (by decide) _ (by grind [severityBucket, bucketOf])
  case high => exact hcounter .high (by decide) _ (by grind [severityBucket, bucketOf])
  case medium => exact hcounter .medium (by decide) _ (by grind [severityBucket, bucketOf])
  case low => exact hcounter .low (by decide) _ (by grind [severityBucket, bucketOf])
  case unknown => exact hcounter .unknown (by decide) _ (by grind [severityBucket, bucketOf])

theorem trivyReport_conserved (hgob : RoundTrips lib) {report : TrivyReport} {results : List Result}
    (h : newResultsFromTrivyReport lib report = .ok results) :
    List.Forall₂ (Corresponds lib) report.results results ∧
      Summarizes report (newSummaryFromResults results) := by
  have hcorrespond := newResults_correspond hgob h
  exact ⟨hcorrespond, summarizes_newSummary hcorrespond⟩

end Loops

/-! ## A report with findings of two types -/

namespace Sample

/-- The buffer keeps what it is given. -/
def lib : Library Finding where
  formatFloat _ := "7.5"
  encode := .ok
  decode
    | .vulnerability vuln => .ok vuln
    | _ => .error "type mismatch"

theorem roundTrips_lib : RoundTrips lib := by
  intro vuln buffer h
  cases h
  rfl

def detected (vulnerabilityID severity : String) : DetectedVulnerability where
  vulnerabilityID := vulnerabilityID
  pkgName := "libssl3"
  pkgPath := "usr/lib"
  purl := some "pkg:deb/libssl3"
  installedVersion := "3.0"
  fixedVersion := "3.1, 3.2"
  diffID := "sha256:1"
  severitySource := "nvd"
  title := "overflow"
  description := ""
  severity := severity
  references := []
  cvss := [("nvd", ⟨"AV:N", 0⟩)]
  cweIDs := ["CWE-787"]

def suppressed : ModifiedFinding where
  type := .vulnerability
  status := "not_affected"
  statement := "not reachable"
  source := "VEX Repository:  (https://github.com/kubewarden/vexhub)"
  finding := .vulnerability (detected "CVE-2025-3" "HIGH")
  typed := rfl

def secret : ModifiedFinding := ⟨.secret, "ignored", "", "", .secret, rfl⟩

def report : TrivyReport where
  results := [⟨"app", "lang-pkgs", "gobinary",
    [detected "CVE-2025-1" "CRITICAL", detected "CVE-2025-2" "NEGLIGIBLE"], [secret, suppressed]⟩]

example : getFixedVersions "3.1, 3.2" = ["3.1", "3.2"] := by decide
example : fixPath "usr/lib" = "/usr/lib" := by decide
example : extractURLRegex suppressed.source = "https://github.com/kubewarden/vexhub" := by decide

end Sample

open Sample in
theorem trivyReport_conserved_sample :
    ∃ results, newResultsFromTrivyReport lib report = .ok results ∧
      newSummaryFromResults results = { critical := 1, unknown := 1, suppressed := 1 } ∧
      List.Forall₂ (Corresponds lib) report.results results ∧
      Summarizes report (newSummaryFromResults results) := by
  refine ⟨_, rfl, by decide, ?_⟩
  exact trivyReport_conserved roundTrips_lib rfl

end SbomScanner.Worker.Trivy

import SbomScanner.Lib.Rearrangement
import SbomScanner.Storage.ReportReads

/-!
# The summary and the order of the reports

PostgreSQL returns the VulnerabilityReports of an image in no particular order. `calculateSummary`
goes through them and counts, of the vulnerabilities with the same key, the first one that it meets.
The key does not include the severity. So the order makes no difference as long as vulnerabilities
with the same key fall into the same bucket of the summary (`calculateSummary_eq`), and that is all
that can be said without a look at how often each of them occurs (`summary_orderFree_iff`).

A report that is read has the summary of its containers (`summary_get`). For one that is populated
this is so by definition; one without containers is returned as it is stored, and what is stored has
been read before.
-/

namespace SbomScanner.Storage.Reports

open Rearrangement Grouping List Option

/-! ## Buckets -/

inductive Bucket where
  | critical
  | high
  | medium
  | low
  | unknown
  | suppressed
  deriving DecidableEq

def bucketOf (severity : String) (suppressed : Bool) : Bucket :=
  if suppressed then .suppressed
  else if severity = "CRITICAL" then .critical
  else if severity = "HIGH" then .high
  else if severity = "MEDIUM" then .medium
  else if severity = "LOW" then .low
  else .unknown

def bucket (vuln : Vulnerability) : Bucket := bucketOf vuln.severity vuln.suppressed

def Summary.increase (s : Summary) : Bucket → Summary
  | .critical => { s with critical := s.critical + 1 }
  | .high => { s with high := s.high + 1 }
  | .medium => { s with medium := s.medium + 1 }
  | .low => { s with low := s.low + 1 }
  | .unknown => { s with unknown := s.unknown + 1 }
  | .suppressed => { s with suppressed := s.suppressed + 1 }

theorem Summary.add_eq_increase (s : Summary) (vuln : Vulnerability) :
    s.add vuln = s.increase (bucket vuln) := by
  unfold Summary.add bucket bucketOf
  split_ifs <;> rfl

theorem Summary.increase_inj {a b : Bucket} (h : Summary.increase {} a = Summary.increase {} b) :
    a = b := by
  revert h
  cases a <;> cases b <;> simp [Summary.increase]

instance instRightCommutativeIncrease : RightCommutative Summary.increase := by
  constructor
  intro s a b
  cases a <;> cases b <;> rfl

theorem Summary.foldl_add (s : Summary) (vulns : List Vulnerability) :
    vulns.foldl Summary.add s = (vulns.map bucket).foldl Summary.increase s := by
  rw [foldl_map]
  congr 1
  funext s vuln
  exact s.add_eq_increase vuln

/-- The summary with one count for each bucket in the list. -/
def tally (buckets : List Bucket) : Summary := buckets.foldl Summary.increase {}

namespace Summary

def plus (a b : Summary) : Summary where
  critical := a.critical + b.critical
  high := a.high + b.high
  medium := a.medium + b.medium
  low := a.low + b.low
  unknown := a.unknown + b.unknown
  suppressed := a.suppressed + b.suppressed

def sum (summaries : List Summary) : Summary := summaries.foldr plus {}

def size (s : Summary) : Nat := s.critical + s.high + s.medium + s.low + s.unknown + s.suppressed

theorem plus_assoc (a b c : Summary) : (a.plus b).plus c = a.plus (b.plus c) := by
  simp [plus, Nat.add_assoc]

theorem zero_plus (a : Summary) : plus {} a = a := by
  simp [plus]

theorem size_plus (a b : Summary) : (a.plus b).size = a.size + b.size := by
  simp only [plus, size]
  omega

theorem increase_eq_plus (s : Summary) (b : Bucket) : s.increase b = s.plus (increase {} b) := by
  cases b <;> rfl

theorem foldl_increase (s : Summary) (buckets : List Bucket) :
    buckets.foldl increase s = s.plus (tally buckets) := by
  unfold tally
  induction buckets generalizing s with
  | nil => rfl
  | cons b buckets ih =>
    rw [foldl_cons, foldl_cons, ih, ih (increase {} b), increase_eq_plus, plus_assoc]

end Summary

theorem size_tally (buckets : List Bucket) : (tally buckets).size = buckets.length := by
  induction buckets with
  | nil => rfl
  | cons b buckets ih =>
    have hone : (Summary.increase {} b).size = 1 := by cases b <;> rfl
    rw [tally, foldl_cons, Summary.foldl_increase, Summary.size_plus, ih, hone,
      length_cons, Nat.add_comm]

/-! ## Other orders -/

/-- The same result with its vulnerabilities in another order. -/
def Result.Reordered (a b : Result) : Prop :=
  b = { a with vulnerabilities := b.vulnerabilities } ∧ a.vulnerabilities.Perm b.vulnerabilities

/-- The same report with the results, and what is inside them, in another order. -/
def Report.Reordered (a b : Report) : Prop :=
  b.summary = a.summary ∧ Rearranged Result.Reordered a.results b.results

def WorkloadScanVulnerabilityReport.Reordered (a b : WorkloadScanVulnerabilityReport) : Prop :=
  b = { a with report := { a.report with results := b.report.results } } ∧
    Rearranged Result.Reordered a.report.results b.report.results

def ContainerResult.Reordered (a b : ContainerResult) : Prop :=
  b.name = a.name ∧ Rearranged WorkloadScanVulnerabilityReport.Reordered a.vulnerabilityReports
    b.vulnerabilityReports

/-- The vulnerabilities of a container, in the order in which the loop meets them. -/
def vulnerabilitiesOf (container : ContainerResult) : List Vulnerability :=
  container.vulnerabilityReports.flatMap fun vulnReport =>
    vulnReport.report.results.flatMap (·.vulnerabilities)

theorem perm_vulnerabilitiesOf {a b : ContainerResult} (h : a.Reordered b) :
    (vulnerabilitiesOf a).Perm (vulnerabilitiesOf b) :=
  h.2.perm_flatMap fun _ _ hreport => hreport.2.perm_flatMap fun _ _ hresult => hresult.2

/-! ## The summary -/

def countContainer (summary : Summary) (container : ContainerResult) : Summary :=
  (firsts vulnerabilityKey (vulnerabilitiesOf container)).foldl Summary.add summary

theorem calculateSummary_eq_foldl (containers : List ContainerResult) :
    calculateSummary containers = containers.foldl countContainer {} := rfl

theorem calculateSummary_eq_sum (containers : List ContainerResult) :
    calculateSummary containers = Summary.sum (containers.map fun container =>
      tally ((firsts vulnerabilityKey (vulnerabilitiesOf container)).map bucket)) := by
  have hfoldl : ∀ summary : Summary, containers.foldl countContainer summary =
      summary.plus (Summary.sum (containers.map fun container =>
        tally ((firsts vulnerabilityKey (vulnerabilitiesOf container)).map bucket))) := by
    induction containers with
    | nil => exact fun _ => rfl
    | cons container containers ih =>
      intro summary
      rw [foldl_cons, ih, countContainer, Summary.foldl_add, Summary.foldl_increase,
        Summary.plus_assoc]
      rfl
  rw [calculateSummary_eq_foldl, hfoldl, Summary.zero_plus]

/-- Vulnerabilities with the same key are counted alike. -/
def KeyDecides (vulns : List Vulnerability) : Prop :=
  ∀ u ∈ vulns, ∀ v ∈ vulns, vulnerabilityKey u = vulnerabilityKey v → bucket u = bucket v

theorem countContainer_eq {a b : ContainerResult} (h : a.Reordered b)
    (hdecides : KeyDecides (vulnerabilitiesOf a)) (summary : Summary) :
    countContainer summary a = countContainer summary b := by
  unfold countContainer
  rw [Summary.foldl_add, Summary.foldl_add]
  exact (perm_map_firsts (perm_vulnerabilitiesOf h) hdecides).foldl_eq _

theorem calculateSummary_eq {containers containers' : List ContainerResult}
    (h : List.Forall₂ ContainerResult.Reordered containers containers')
    (hdecides : ∀ container ∈ containers, KeyDecides (vulnerabilitiesOf container)) :
    calculateSummary containers = calculateSummary containers' := by
  rw [calculateSummary_eq_foldl, calculateSummary_eq_foldl]
  generalize ({} : Summary) = summary
  induction h generalizing summary with
  | nil => rfl
  | @cons a b as bs hab _ ih =>
    rw [foldl_cons, foldl_cons, countContainer_eq hab (hdecides a mem_cons_self)]
    exact ih (fun c hc => hdecides c (mem_cons_of_mem a hc)) _

/-- A container with one report of one result. -/
def oneResult (vulns : List Vulnerability) : ContainerResult where
  name := "app"
  vulnerabilityReports := [⟨"x", "a", (sampleAX 1).content.imageMetadata,
    ⟨{}, [⟨"alpine", "os-pkgs", "alpine", vulns⟩]⟩⟩]

theorem vulnerabilitiesOf_oneResult (vulns : List Vulnerability) :
    vulnerabilitiesOf (oneResult vulns) = vulns := by
  simp [vulnerabilitiesOf, oneResult]

theorem reordered_oneResult {vulns vulns' : List Vulnerability} (h : vulns.Perm vulns') :
    (oneResult vulns).Reordered (oneResult vulns') :=
  ⟨rfl, _, .refl _, .cons ⟨rfl, _, .refl _, .cons ⟨rfl, h⟩ .nil⟩ .nil⟩

/-- Of two vulnerabilities with the same key, the first is counted. -/
theorem calculateSummary_pair {u v : Vulnerability} (h : vulnerabilityKey u = vulnerabilityKey v) :
    calculateSummary [oneResult [u, v]] = Summary.increase {} (bucket u) := by
  rw [calculateSummary_eq_foldl, foldl_cons, foldl_nil, countContainer, vulnerabilitiesOf_oneResult]
  have hfirsts : firsts vulnerabilityKey [u, v] = [u] := by
    simp [firsts, firstsFrom, h]
  rw [hfirsts, foldl_cons, foldl_nil, Summary.add_eq_increase]

/-- The databases that writes of WorkloadScanReports lead to, with the scans going on. -/
inductive Reachable (reportJson : Report → Sql.Json) : Database → Prop where
  | empty : Reachable reportJson ⟨.empty, .empty, .empty⟩
  | scanned {db : Database} (images : Table Image)
      (vulnerabilityReports : Table VulnerabilityReport) (h : Reachable reportJson db) :
      Reachable reportJson { db with images, vulnerabilityReports }
  | created {db db' : Database} (rv : Nat) (obj : Object WorkloadScanReport)
      (h : Reachable reportJson db) (hcreate : create db rv obj = some db') :
      Reachable reportJson db'
  | updated {db db' : Database} (plan : QueryPlan) (rv : Nat) (obj : Object WorkloadScanReport)
      (h : Reachable reportJson db) (hupdate : update reportJson plan db rv obj = some db') :
      Reachable reportJson db'
  | deleted {db : Database} (key : ObjectKey) {obj : Object WorkloadScanReport}
      {t : Table WorkloadScanReport} (h : Reachable reportJson db)
      (hdelete : db.workloadScanReports.delete key = some (obj, t)) :
      Reachable reportJson { db with workloadScanReports := t }

/-- The summary is that of the containers. -/
def Consistent (report : Object WorkloadScanReport) : Prop :=
  report.content.summary = calculateSummary report.content.containers

variable {report : Object WorkloadScanReport}

theorem consistent_populateReport {counts : Api.ImageRef → Nat}
    {vulnReports : Api.ImageRef → List (Object VulnerabilityReport)} (h : Consistent report) :
    Consistent (populateReport counts vulnReports report) := by
  unfold populateReport
  split
  · exact h
  · rfl

variable {reportJson : Report → Sql.Json} {db : Database}

variable {key : ObjectKey} {plan : QueryPlan}

theorem consistent_get
    (h : ∀ key stored, db.workloadScanReports.lookup key = some stored → Consistent stored)
    (hget : get reportJson plan db key = some report) :
    Consistent report := by
  obtain ⟨stored, hstored, hhead⟩ := bind_eq_some_iff.mp hget
  rw [populateContainerResults_map] at hhead
  cases hhead
  exact consistent_populateReport (h key stored hstored)

/-- What is sent in an update is what has been read. -/
theorem consistent_of_unchanged {obj existing : Object WorkloadScanReport}
    (h : validateReadOnlyFieldsUnchanged obj.content existing.content = [])
    (hexisting : Consistent existing) : Consistent obj := by
  unfold validateReadOnlyFieldsUnchanged forbiddenUnless at h
  rw [append_eq_nil_iff, append_eq_nil_iff] at h
  obtain ⟨⟨-, hsummary⟩, hcontainers⟩ := h
  have hsummary : obj.content.summary = existing.content.summary := by simpa using hsummary
  have hcontainers : obj.content.containers = existing.content.containers := by
    simpa using hcontainers
  rw [Consistent, hsummary, hcontainers]
  exact hexisting

theorem consistent_of_empty {obj : Object WorkloadScanReport}
    (h : validateReadOnlyFieldsEmpty obj.content = []) : Consistent obj := by
  unfold validateReadOnlyFieldsEmpty forbiddenUnless at h
  rw [append_eq_nil_iff, append_eq_nil_iff] at h
  obtain ⟨⟨-, hsummary⟩, hcontainers⟩ := h
  have hsummary : obj.content.summary = {} := by simpa using hsummary
  have hcontainers : obj.content.containers = [] := by simpa using hcontainers
  rw [Consistent, hsummary, hcontainers]
  rfl

theorem consistent_written {t t' : Table WorkloadScanReport}
    {obj : Option (Object WorkloadScanReport)}
    (h : ∀ key stored, t.lookup key = some stored → Consistent stored)
    (hobj : ∀ o ∈ obj, Consistent o) (ht : t'.lookup = Function.update t.lookup key obj) :
    ∀ key stored, t'.lookup key = some stored → Consistent stored := by
  intro key' stored hstored
  rw [ht] at hstored
  by_cases hkey : key' = key
  · rw [hkey, Function.update_self] at hstored
    exact hobj stored hstored
  · rw [Function.update_of_ne hkey] at hstored
    exact h key' stored hstored

theorem Reachable.consistent (h : Reachable reportJson db) :
    ∀ key stored, db.workloadScanReports.lookup key = some stored → Consistent stored := by
  induction h with
  | empty =>
    intro key stored hstored
    cases hstored
  | scanned images vulnerabilityReports h ih => exact ih
  | created rv obj h hcreate ih =>
    unfold create at hcreate
    split at hcreate
    · next hempty =>
        obtain ⟨t, ht, rfl⟩ := map_eq_some_iff.mp hcreate
        refine consistent_written ih ?_ (Table.lookup_insert ht).2
        rintro o ⟨⟩
        exact consistent_of_empty hempty
    · cases hcreate
  | updated plan rv obj h hupdate ih =>
    unfold update at hupdate
    split at hupdate
    · cases hupdate
    · next existing hexisting =>
        split at hupdate
        · next hvalid =>
            obtain ⟨t, ht, rfl⟩ := map_eq_some_iff.mp hupdate
            refine consistent_written ih ?_ (Table.lookup_update ht).2
            rintro o ⟨⟩
            exact consistent_of_unchanged hvalid.2 (consistent_get ih hexisting)
        · cases hupdate
  | deleted key h hdelete ih =>
    refine consistent_written ih ?_ (Table.lookup_delete hdelete).2
    rintro o ⟨⟩

/-- The summary of a report that `Get` returns, also of one that is returned as it is stored. -/
theorem summary_get (h : Reachable reportJson db)
    (hget : get reportJson plan db key = some report) :
    report.content.summary = calculateSummary report.content.containers :=
  consistent_get h.consistent hget

/-! ## A severity that has changed

The image of the container is there for two platforms. They were scanned at different times, and the
vulnerability was rated higher in between. -/

def ratedLater : Vulnerability := { sampleVulnerability with severity := "HIGH" }

def platformReport (name : String) (vuln : Vulnerability) : WorkloadScanVulnerabilityReport where
  name := name
  ns := "a"
  imageMetadata := (sampleAX 1).content.imageMetadata
  report := ⟨{}, [⟨"alpine", "os-pkgs", "alpine", [vuln]⟩]⟩

end SbomScanner.Storage.Reports

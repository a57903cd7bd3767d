import SbomScanner.Mcp.Tools

/-!
# The lists of vulnerabilities and the order of a report

The tools list one vulnerability for each CVE, most severe first. Which of the vulnerabilities with
a CVE is listed depends on the order of the report, and the order of entries with the same severity
and score on the iteration over a map. `lists_orderFree_iff` says for which vulnerabilities neither
can be observed.
-/

namespace SbomScanner.Mcp

open Storage Storage.Reports Fallible Grouping List
open Rearrangement

variable {F : Type} [LinearOrder F] [Zero F] (lib : Libraries F)

/-! ## The order of the entries -/

/-- Neither entry comes before the other. -/
def Tied (x y : SimplifiedVulnerability F) : Prop :=
  severityRank x.severity = severityRank y.severity ∧ x.cvssScore = y.cvssScore

omit [Zero F] in
theorem before_iff {x y : SimplifiedVulnerability F} :
    Before x y ↔ severityRank y.severity < severityRank x.severity ∨
      severityRank x.severity = severityRank y.severity ∧ y.cvssScore ≤ x.cvssScore := by
  unfold Before
  split
  case isTrue hne => exact ⟨.inl, fun h => h.resolve_right fun heq => hne heq.1⟩
  case isFalse heq =>
    rw [not_ne_iff] at heq
    exact ⟨fun hle => .inr ⟨heq, hle⟩, fun h => (h.resolve_left heq.not_gt).2⟩

omit [Zero F] in
theorem tied_iff {x y : SimplifiedVulnerability F} : Tied x y ↔ Before x y ∧ Before y x := by
  rw [before_iff, before_iff, Tied]
  constructor
  · rintro ⟨hrank, hscore⟩
    exact ⟨.inr ⟨hrank, hscore.ge⟩, .inr ⟨hrank.symm, hscore.le⟩⟩
  · rintro ⟨hlt | ⟨hrank, hle⟩, hlt' | ⟨hrank', hle'⟩⟩
    · omega
    · omega
    · omega
    · exact ⟨hrank, le_antisymm hle' hle⟩

instance instTotalBefore : Std.Total (Before (F := F)) where
  total x y := by
    rw [before_iff, before_iff]
    rcases lt_trichotomy (severityRank x.severity) (severityRank y.severity) with hlt | heq | hgt
    · exact .inr (.inl hlt)
    · rcases le_total x.cvssScore y.cvssScore with hle | hle
      · exact .inr (.inr ⟨heq.symm, hle⟩)
      · exact .inl (.inr ⟨heq, hle⟩)
    · exact .inl (.inl hgt)

instance instIsTransBefore : IsTrans (SimplifiedVulnerability F) Before where
  trans x y z hxy hyz := by
    rw [before_iff] at hxy hyz ⊢
    rcases hxy with hxy | ⟨hxy, hle⟩
    · rcases hyz with hyz | ⟨hyz, -⟩ <;> omega
    · rcases hyz with hyz | ⟨hyz, hle'⟩
      · omega
      · exact .inr ⟨hxy.trans hyz, hle'.trans hle⟩

omit [Zero F] in
/-- If no two entries are tied, it does not matter in which order they are sorted. -/
theorem sortVulnerabilities_eq {xs ys : List (SimplifiedVulnerability F)} (h : xs.Perm ys)
    (huntied : ∀ x ∈ xs, ∀ y ∈ xs, Tied x y → x = y) :
    sortVulnerabilities xs = sortVulnerabilities ys := by
  have hxs := perm_insertionSort Before xs
  have hys := perm_insertionSort Before ys
  refine List.Perm.eq_of_pairwise ?_ (pairwise_insertionSort Before xs)
    (pairwise_insertionSort Before ys) (hxs.trans (h.trans hys.symm))
  intro x y hx hy hxy hyx
  exact huntied x (hxs.mem_iff.mp hx) y (h.mem_iff.mpr (hys.mem_iff.mp hy))
    (tied_iff.mpr ⟨hxy, hyx⟩)

/-! ## What makes the order irrelevant -/

/-- Some CVE cannot be listed: none of its vulnerabilities has a score that can be parsed. -/
def Unlistable (vulns : List Vulnerability) : Prop :=
  ∃ u ∈ vulns, ∀ v ∈ vulns, v.cve = u.cve → (simplifyVulnerability lib v).toOption = none

/-- Vulnerabilities with the same CVE have the same entry, and no two entries are tied. -/
structure Unambiguous (vulns : List Vulnerability) : Prop where
  same : ∀ u ∈ vulns, ∀ v ∈ vulns, u.cve = v.cve →
    (simplifyVulnerability lib u).toOption = (simplifyVulnerability lib v).toOption
  untied : ∀ u ∈ vulns, ∀ v ∈ vulns, ∀ x y, simplifyVulnerability lib u = .ok x →
    simplifyVulnerability lib v = .ok y → Tied x y → u.cve = v.cve

variable {lib} {vulns vulns' : List Vulnerability} {order order' : IterationOrder Loop}
  {container container' : Nat}

theorem Unlistable.of_perm (h : Unlistable lib vulns) (hperm : vulns.Perm vulns') :
    Unlistable lib vulns' := by
  obtain ⟨u, hu, hnone⟩ := h
  exact ⟨u, hperm.mem_iff.mp hu, fun v hv => hnone v (hperm.mem_iff.mpr hv)⟩

theorem Unambiguous.of_perm (h : Unambiguous lib vulns) (hperm : vulns.Perm vulns') :
    Unambiguous lib vulns' where
  same u hu v hv := h.same u (hperm.mem_iff.mpr hu) v (hperm.mem_iff.mpr hv)
  untied u hu v hv := h.untied u (hperm.mem_iff.mpr hu) v (hperm.mem_iff.mpr hv)

theorem exists_of_mem_seen {seen : List (SimplifiedVulnerability F)}
    (h : (firsts (·.cve) vulns).mapM (simplifyVulnerability lib) = .ok seen)
    {x : SimplifiedVulnerability F} (hx : x ∈ seen) :
    ∃ u ∈ vulns, simplifyVulnerability lib u = .ok x := by
  obtain ⟨u, hu, hsimplify⟩ := exists_of_mem_mapM h hx
  exact ⟨u, mem_of_mem_firsts hu, hsimplify⟩

theorem collect_ne_ok (h : Unlistable lib vulns) (collected : List (SimplifiedVulnerability F)) :
    collect lib order container vulns ≠ .ok collected := by
  intro hok
  obtain ⟨seen, hseen, -⟩ := collect_eq_ok.mp hok
  obtain ⟨u, hu, hnone⟩ := h
  have hcve : u.cve ∈ (firsts (·.cve) vulns).map (·.cve) :=
    (mem_map_firsts vulns).mpr (mem_map_of_mem hu)
  obtain ⟨v, hv, hvu⟩ := mem_map.mp hcve
  obtain ⟨x, -, hx⟩ := exists_mem_of_mapM hseen hv
  have hfails := hnone v (mem_of_mem_firsts hv) hvu
  rw [hx] at hfails
  cases hfails

variable {collected : List (SimplifiedVulnerability F)}

theorem Unambiguous.collect_eq_ok (h : Unambiguous lib vulns) (hperm : vulns.Perm vulns')
    (hok : collect lib order container vulns = .ok collected) :
    collect lib order' container' vulns' = .ok collected := by
  obtain ⟨seen, hseen, rfl⟩ := Mcp.collect_eq_ok.mp hok
  obtain ⟨seen', hseen', hentries⟩ := perm_of_mapM hseen (perm_map_firsts hperm h.same)
  refine Mcp.collect_eq_ok.mpr ⟨seen', hseen', ?_⟩
  apply sortVulnerabilities_eq
  · exact (order.perm _ seen).trans (hentries.trans (order'.perm _ seen').symm)
  · intro x hx y hy htied
    obtain ⟨u, hu, hux⟩ := exists_of_mem_seen hseen (order.mem_range.mp hx)
    obtain ⟨v, hv, hvy⟩ := exists_of_mem_seen hseen (order.mem_range.mp hy)
    have hsame := h.same u hu v hv (h.untied u hu v hv x y hux hvy htied)
    rw [hux, hvy] at hsame
    exact Option.some.inj hsame

/-- What is collected, or that nothing is. -/
theorem toOption_collect_eq (h : Unlistable lib vulns ∨ Unambiguous lib vulns)
    (hperm : vulns.Perm vulns') :
    (collect lib order container vulns).toOption =
      (collect lib order' container' vulns').toOption := by
  ext collected
  have hiff : collect lib order container vulns = .ok collected ↔
      collect lib order' container' vulns' = .ok collected := by
    rcases h with h | h
    · exact iff_of_false (collect_ne_ok h _) (collect_ne_ok (h.of_perm hperm) _)
    · exact ⟨h.collect_eq_ok hperm, (h.of_perm hperm).collect_eq_ok hperm.symm⟩
  constructor
  · intro hsome
    rw [hiff.mp (eq_ok_of_toOption hsome)]
    rfl
  · intro hsome
    rw [hiff.mpr (eq_ok_of_toOption hsome)]
    rfl

/-! ## Orders that can be told apart -/

variable {rest : List Vulnerability}

theorem mem_of_collect_cons {u : Vulnerability}
    (h : collect lib order container (u :: rest) = .ok collected) :
    ∃ x ∈ collected, simplifyVulnerability lib u = .ok x := by
  obtain ⟨seen, hseen, rfl⟩ := collect_eq_ok.mp h
  obtain ⟨x, hx, hsimplify⟩ := exists_mem_of_mapM hseen mem_cons_self
  exact ⟨x, (perm_sortVulnerabilities _ seen).mem_iff.mpr hx, hsimplify⟩

theorem nodup_cve_collect (h : collect lib order container vulns = .ok collected) :
    (collected.map (·.cve)).Nodup := by
  obtain ⟨seen, hseen, rfl⟩ := collect_eq_ok.mp h
  have hcves : seen.map (·.cve) = (firsts (·.cve) vulns).map (·.cve) :=
    map_of_mapM (fun _ _ hsimplify => (simplifyVulnerability_eq_ok hsimplify).1) hseen
  rw [((perm_sortVulnerabilities _ seen).map _).nodup_iff, hcves]
  exact nodup_map_firsts vulns

/-- Entries that are tied are listed in the order of their vulnerabilities, if the map has it. -/
theorem pair_sublist_collect {u v : Vulnerability} {x y : SimplifiedVulnerability F}
    (h : collect lib .asStored container (u :: v :: rest) = .ok collected)
    (hx : simplifyVulnerability lib u = .ok x) (hy : simplifyVulnerability lib v = .ok y)
    (hcve : u.cve ≠ v.cve) (htied : Tied x y) : [x, y].Sublist collected := by
  obtain ⟨seen, hseen, rfl⟩ := collect_eq_ok.mp h
  have hfirsts : firsts (·.cve) (u :: v :: rest) =
      u :: v :: firstsFrom (·.cve) [v.cve, u.cve] rest := by
    rw [firsts_cons, firstsFrom, if_neg]
    simpa using hcve.symm
  rw [hfirsts] at hseen
  have hrel := mapM_eq_ok.mp hseen
  cases hrel with
  | cons hx' hrel =>
    cases hrel with
    | cons hy' hrel =>
      cases hx.symm.trans hx'
      cases hy.symm.trans hy'
      exact pair_sublist_insertionSort (tied_iff.mp htied).1
        (((nil_sublist _).cons_cons y).cons_cons x)

/-- With the vulnerabilities first whose scores can be parsed, the list is made. -/
theorem exists_collect_eq_ok (h : ¬Unlistable lib vulns) :
    ∃ vulns', vulns.Perm vulns' ∧
      ∃ collected, collect lib order container vulns' = .ok collected := by
  let listable (v : Vulnerability) : Bool := (simplifyVulnerability lib v).toOption.isSome
  refine ⟨vulns.filter listable ++ vulns.filter (!listable ·), ?_, ?_⟩
  · exact (filter_append_perm listable vulns).symm
  have hok : ∀ u ∈ firsts (·.cve)
      (vulns.filter listable ++ vulns.filter (!listable ·)),
      ∃ x, simplifyVulnerability lib u = .ok x := by
    intro u hu
    have hlistable : listable u := by
      rcases mem_firsts_append hu with hin | hnot
      · exact (mem_filter.mp hin).2
      · by_contra hu'
        have huin : u ∈ vulns := by
          have := mem_of_mem_firsts hu
          exact (filter_append_perm listable vulns).mem_iff.mp this
        refine h ⟨u, huin, fun v hv hcve => ?_⟩
        by_contra hv'
        refine hnot (mem_map.mpr ⟨v, mem_filter.mpr ⟨hv, ?_⟩, hcve⟩)
        exact Option.isSome_iff_ne_none.mpr hv'
    obtain ⟨x, hx⟩ := Option.isSome_iff_exists.mp hlistable
    exact ⟨x, eq_ok_of_toOption hx⟩
  obtain ⟨seen, hseen⟩ := exists_mapM_eq_ok hok
  exact ⟨_, collect_eq_ok.mpr ⟨seen, hseen, rfl⟩⟩

/-- If no order can be told from another, each vulnerability is listed as it would be first. -/
theorem unambiguous_of_forall
    (h : ∀ vulns', vulns.Perm vulns' → collect lib .asStored container vulns' = .ok collected) :
    Unambiguous lib vulns := by
  have hlisted : ∀ u ∈ vulns, ∃ x ∈ collected, simplifyVulnerability lib u = .ok x :=
    fun u hu => mem_of_collect_cons (h _ (perm_cons_erase hu))
  have hnodup := nodup_cve_collect (h vulns (.refl _))
  constructor
  case same =>
    intro u hu v hv hcve
    obtain ⟨x, hx, hux⟩ := hlisted u hu
    obtain ⟨y, hy, hvy⟩ := hlisted v hv
    have hxy : x = y := by
      apply inj_on_of_nodup_map hnodup hx hy
      rw [(simplifyVulnerability_eq_ok hux).1, (simplifyVulnerability_eq_ok hvy).1, hcve]
    rw [hux, hvy, hxy]
  case untied =>
    intro u hu v hv x y hux hvy htied
    by_contra hcve
    have hv' : v ∈ vulns.erase u := (mem_erase_of_ne (ne_of_apply_ne _ (Ne.symm hcve))).mpr hv
    have huv : vulns.Perm (u :: v :: (vulns.erase u).erase v) :=
      (perm_cons_erase hu).trans ((perm_cons_erase hv').cons u)
    have hxy := pair_sublist_collect (h _ huv) hux hvy hcve htied
    have hyx := pair_sublist_collect (h _ (huv.trans (.swap v u _))) hvy hux (Ne.symm hcve)
      ⟨htied.1.symm, htied.2.symm⟩
    exact not_swapped (List.Nodup.of_map _ hnodup) hxy hyx

/-! ## The tools -/

variable (lib)

/-- The two lists for an image; none if the tool returns an error. -/
def imageLists (order : IterationOrder Loop) (report : Object VulnerabilityReport) :
    Option (List (SimplifiedVulnerability F)) × Option (List (SimplifiedVulnerability F)) :=
  ((getImageVulnerabilities lib order (.ok report)).toOption.map (·.vulnerabilities),
    (getImageVulnerabilitySummary lib order (.ok report)).toOption.map (·.topVulnerabilities))

def nodeLists (order : IterationOrder Loop) (report : NodeVulnerabilityReport) :
    Option (List (SimplifiedVulnerability F)) × Option (List (SimplifiedVulnerability F)) :=
  ((getNodeVulnerabilities lib order (.ok report)).toOption.map (·.vulnerabilities),
    (getNodeVulnerabilitySummary lib order (.ok report)).toOption.map (·.topVulnerabilities))

def containerLists (order : IterationOrder Loop) (container : ContainerResult × Nat) :
    Option (List (SimplifiedVulnerability F)) × Option (List (SimplifiedVulnerability F)) :=
  ((listContainer lib order container).toOption.map (·.vulnerabilities),
    (summarizeContainer lib order container).toOption.map (·.topVulnerabilities))

/-- Every report with these vulnerabilities is listed in one way, whatever the order of its results
and vulnerabilities and the iteration order of the maps. -/
structure OrderFree (vulns : List Vulnerability) : Prop where
  image : ∀ (report : Object VulnerabilityReport) (reordered : Report),
    (report.content.report.results.flatMap (·.vulnerabilities)).Perm vulns →
    report.content.report.Reordered reordered → ∀ order order',
      imageLists lib order report =
        imageLists lib order' ⟨report.metadata, { report.content with report := reordered }⟩
  node : ∀ (report : NodeVulnerabilityReport) (reordered : Report),
    (report.report.results.flatMap (·.vulnerabilities)).Perm vulns →
    report.report.Reordered reordered → ∀ order order',
      nodeLists lib order report = nodeLists lib order' { report with report := reordered }
  container : ∀ (container reordered : ContainerResult) (i : Nat),
    (vulnerabilitiesOf container).Perm vulns → container.Reordered reordered → ∀ order order',
      containerLists lib order (container, i) = containerLists lib order' (reordered, i)

variable {lib}

/-- A list and its beginning. -/
def withTop (collected : Option (List (SimplifiedVulnerability F))) :
    Option (List (SimplifiedVulnerability F)) × Option (List (SimplifiedVulnerability F)) :=
  (collected, collected.map (·.take 10))

theorem orToolError_ok_bind {α β : Type} (context : String) (a : α) (f : α → Except String β) :
    orToolError context (.ok a) >>= f = f a := rfl

theorem imageLists_eq (report : Object VulnerabilityReport) : imageLists lib order report =
    withTop (collect lib order 0
      (report.content.report.results.flatMap (·.vulnerabilities))).toOption := by
  unfold imageLists getImageVulnerabilities getImageVulnerabilitySummary
    collectSimplifiedVulnerabilities collectSimplifiedVulnerabilitiesFromReport
  rw [orToolError_ok_bind, orToolError_ok_bind]
  cases collect lib order 0 (report.content.report.results.flatMap (·.vulnerabilities)) <;> rfl

theorem nodeLists_eq (report : NodeVulnerabilityReport) : nodeLists lib order report =
    withTop (collect lib order 0 (report.report.results.flatMap (·.vulnerabilities))).toOption := by
  unfold nodeLists getNodeVulnerabilities getNodeVulnerabilitySummary
    collectSimplifiedVulnerabilitiesFromReport
  rw [orToolError_ok_bind, orToolError_ok_bind]
  cases collect lib order 0 (report.report.results.flatMap (·.vulnerabilities)) <;> rfl

theorem containerLists_eq (container : ContainerResult) (i : Nat) :
    containerLists lib order (container, i) =
      withTop (collect lib order i (vulnerabilitiesOf container)).toOption := by
  unfold containerLists listContainer summarizeContainer
    collectSimplifiedVulnerabilitiesFromWorkload vulnerabilitiesOf
  cases collect lib order i (container.vulnerabilityReports.flatMap fun report =>
    report.report.results.flatMap (·.vulnerabilities)) <;> rfl

theorem perm_of_reordered {a b : Report} (h : a.Reordered b) :
    (a.results.flatMap (·.vulnerabilities)).Perm (b.results.flatMap (·.vulnerabilities)) :=
  h.2.perm_flatMap fun _ _ hresult => hresult.2

theorem imageLists_imageReportWith (vulns : List Vulnerability) :
    imageLists lib order (imageReportWith vulns) =
      withTop (collect lib order 0 vulns).toOption := by
  rw [imageLists_eq, imageReportWith, flatMap_singleton]

/-- **The lists and the order.** The lists of the tools depend on nothing but the vulnerabilities
iff these are unambiguous, or no list can be made of them. -/
theorem lists_orderFree_iff (lib : Libraries F) (vulns : List Vulnerability) :
    OrderFree lib vulns ↔ Unlistable lib vulns ∨ Unambiguous lib vulns := by
  constructor
  · intro h
    rw [or_iff_not_imp_left]
    intro hlistable
    have hsame : ∀ vulns', vulns.Perm vulns' → (collect lib .asStored 0 vulns).toOption =
        (collect lib .asStored 0 vulns').toOption := by
      intro vulns' hperm
      have hvulns : ((imageReportWith vulns).content.report.results.flatMap
          (·.vulnerabilities)).Perm vulns := by
        rw [imageReportWith, flatMap_singleton]
      have hlists := h.image (imageReportWith vulns) (imageReportWith vulns').content.report hvulns
        ⟨rfl, _, .refl _, .cons ⟨rfl, hperm⟩ .nil⟩ .asStored .asStored
      rw [imageLists_imageReportWith] at hlists
      exact congrArg Prod.fst (hlists.trans (imageLists_imageReportWith vulns'))
    obtain ⟨vulns', hperm, collected, hcollected⟩ : ∃ vulns', vulns.Perm vulns' ∧
        ∃ collected, collect lib .asStored 0 vulns' = .ok collected :=
      exists_collect_eq_ok hlistable
    have hall : ∀ other, vulns.Perm other → collect lib .asStored 0 other = .ok collected := by
      intro other hother
      apply eq_ok_of_toOption
      rw [← hsame other hother, hsame vulns' hperm, hcollected]
      rfl
    exact unambiguous_of_forall hall
  · intro h
    have hvulns : ∀ vulns', vulns'.Perm vulns → Unlistable lib vulns' ∨ Unambiguous lib vulns' :=
      fun vulns' hperm => h.imp (·.of_perm hperm.symm) (·.of_perm hperm.symm)
    constructor
    case image =>
      intro report reordered hperm hreordered order order'
      rw [imageLists_eq, imageLists_eq,
        toOption_collect_eq (hvulns _ hperm) (perm_of_reordered hreordered)]
    case node =>
      intro report reordered hperm hreordered order order'
      rw [nodeLists_eq, nodeLists_eq,
        toOption_collect_eq (hvulns _ hperm) (perm_of_reordered hreordered)]
    case container =>
      intro container reordered i hperm hreordered order order'
      rw [containerLists_eq, containerLists_eq,
        toOption_collect_eq (hvulns _ hperm) (perm_vulnerabilitiesOf hreordered)]

/-! ## Reports that are listed in two ways -/

def reversed : IterationOrder Loop where
  range _ xs := xs.reverse
  perm _ xs := reverse_perm xs

/-- Eleven CVEs of the same severity, without a score. -/
def elevenCVEs : List Vulnerability :=
  (List.range 11).map fun i => { sampleVulnerability with cve := "CVE-2025-" ++ toString i }

/-- The package of an entry depends on the order of the report, and which ten entries come first on
the order of the map. -/
theorem lists_depend_on_order :
    ((imageLists noScores .asStored (imageReportWith [inPackage "libssl3", inPackage "libcrypto3"])
        ).1.map (·.map (·.package)) = some ["libssl3"] ∧
      (imageLists noScores .asStored (imageReportWith [inPackage "libcrypto3", inPackage "libssl3"])
        ).1.map (·.map (·.package)) = some ["libcrypto3"]) ∧
    ((imageLists noScores .asStored (imageReportWith elevenCVEs)).2.map (·.map (·.cve)) =
        some ((elevenCVEs.take 10).map (·.cve)) ∧
      (imageLists noScores reversed (imageReportWith elevenCVEs)).2.map (·.map (·.cve)) =
        some ((elevenCVEs.drop 1).reverse.map (·.cve))) := by
  decide +kernel

end SbomScanner.Mcp

import Mathlib.Data.Prod.Lex
import Mathlib.Data.String.Basic
import SbomScanner.Api.WorkloadScanReport
import SbomScanner.Lib.Informer
import SbomScanner.Lib.Procedure
import SbomScanner.Lib.Transition

/-!
# The workloads of an image

An Image lists in its status the WorkloadScanReports that have a container of the image. The
controller keeps the list: an event about an Image enqueues it, an event about a report enqueues the
Images that the report references, before or after the event, and a reconcile reads the Image and
the reports that reference it and patches the list when it is another one.

The reports of an Image and the Images of a report are looked up in caches, through two indexes with
different keys. The caches lag behind the API server, independently of each other, and any number of
reconciles run at the same time as others write. The invariant is about one Image at a time: as long
as its list is not what the cache of the reports says, something is under way that will read both
again (`Attended`).
-/

namespace SbomScanner.WorkloadScan.ImageStatus

open Api Transition Keyed List Strings Accumulate
open Informer (Event)

/-- A namespace and a name in it. -/
abbrev Key := String × String

/-- A reference whose index key can be taken apart. -/
structure Splits (ref : ImageRef) : Prop where
  ns : '/' ∉ ref.ns.toList
  registry : '/' ∉ ref.registry.toList
  repository : ':' ∉ ref.repository.toList

/-- A labelled Image, with the keys of the reports in its status. -/
structure Image where
  name : String
  ns : String
  registry : String
  repository : String
  tag : String
  labels : Labels
  workloadScanReports : List Key
  labelled : labels.lookup labelWorkloadScanKey = some labelWorkloadScanValue
  splits : Splits ⟨registry, ns, repository, tag⟩

def Image.key (image : Image) : Key := (image.ns, image.name)

def Image.ref (image : Image) : ImageRef :=
  ⟨image.registry, image.ns, image.repository, image.tag⟩

structure Report extends WorkloadScanReport Unit where
  splits : ∀ c ∈ containers, Splits c.imageRef

def Report.key (report : Report) : Key := report.toWorkloadScanReport.key

/-! ## The indexes -/

def imageMetadataIndexKey (registry repository tag : String) : String :=
  registry ++ "/" ++ repository ++ ":" ++ tag

def imageRefIndexKey (ref : ImageRef) : String :=
  ref.ns ++ "/" ++ ref.registry ++ "/" ++ ref.repository ++ ":" ++ ref.tag

def indexImageByMetadata (image : Image) : List String :=
  [imageMetadataIndexKey image.registry image.repository image.tag]

def indexWorkloadByImageRef (workload : Report) : List String :=
  (workload.containers.map fun container => imageRefIndexKey container.imageRef).eraseDups

/-- The cached Images of a namespace, or of all if it is empty, that are indexed under the key. -/
def listImages (images : List Image) (ns indexKey : String) : List Image :=
  images.filter fun image => (ns = "" ∨ image.ns = ns) ∧ indexKey ∈ indexImageByMetadata image

def mapWorkloadScanReportToImages (images : List Image) (workload : Report) :
    List Key :=
  (workload.containers.map (·.imageRef)).eraseDups.flatMap fun ref =>
    (listImages images ref.ns
      (imageMetadataIndexKey ref.registry ref.repository ref.tag)).map Image.key

def workloadScanPredicate (image : Image) : Bool :=
  image.labels.lookup labelWorkloadScanKey = some labelWorkloadScanValue

def findWorkloadScanReportsByImage (reports : List Report) (image : Image) : List Report :=
  reports.filter fun workload => imageRefIndexKey image.ref ∈ indexWorkloadByImageRef workload

def newReports (reports : List Report) (image : Image) : List Key :=
  ((findWorkloadScanReportsByImage reports image).map Report.key).insertionSort
    fun a b => toLex a ≤ toLex b

/-! ## The controller at work -/

inductive Phase where
  | started (key : Key)
  | got (image : Image)
  | patching (image : Image) (reports : List Key)

def Phase.request : Phase → Key
  | .started key => key
  | .got image => image.key
  | .patching image _ => image.key

/-- The error that `Reconcile` returns when the next call fails. -/
def Phase.error (err : String) : Phase → String
  | .started _ => "failed to get image: " ++ err
  | .got _ =>
    "failed to find workload scan reports: failed to list workload scan reports: " ++ err
  | .patching _ _ => "failed to patch image status: " ++ err

structure State where
  images : Informer Image.key
  reports : Informer Report.key
  queue : List Key
  running : List Phase
  errors : List String

def init : State := ⟨.empty, .empty, [], [], []⟩

inductive Action where
  /-- Someone creates, updates or deletes an Image. -/
  | writeImage (e : Event Image.key)
  | writeReport (e : Event Report.key)
  | deliverImage
  | deliverReport
  | start (key : Key)
  /-- The next call of a reconcile succeeds. -/
  | proceed (i : Nat)
  | fail (i : Nat) (err : String)

/-- A reconcile that fails is tried again. -/
def State.requeue (s : State) (i : Nat) (p : Phase) (err : String) : State :=
  { s with
    running := s.running.eraseIdx i
    queue := s.queue ++ [p.request]
    errors := s.errors ++ [p.error err] }

def State.patch (s : State) (i : Nat) (image : Image) (reports : List Key) : State :=
  match s.images.stored.get image.key with
  | none => s.requeue i (.patching image reports) "not found"
  | some current =>
    { s with
      running := s.running.eraseIdx i
      -- a patch that changes nothing is no event
      images := if current.workloadScanReports = reports then s.images else
        s.images.write (.of { current with workloadScanReports := reports }) }

/-- `Reconcile`, from one call to the next. -/
def State.reconcile (s : State) (i : Nat) : Phase → State
  | .started key =>
    -- an Image that is not found has no status to keep
    { s with running := s.running.eraseIdx i ++ ((s.images.cached.get key).map .got).toList }
  | .got image =>
    let reports := newReports s.reports.cached.items image
    { s with running := s.running.eraseIdx i ++
        if image.workloadScanReports = reports then [] else [.patching image reports] }
  | .patching image reports => s.patch i image reports

def step (s : State) : Action → Option State
  | .writeImage e => some { s with images := s.images.write e }
  | .writeReport e => some { s with reports := s.reports.write e }
  | .deliverImage => s.images.deliver.map fun (e, images) =>
    -- the object of a deletion is the one that was known last
    let object := e.object.or (s.images.cached.get e.subject)
    { s with
      images := images
      queue := s.queue ++ (object.toList.filter workloadScanPredicate).map Image.key }
  | .deliverReport => s.reports.deliver.map fun (e, reports) =>
    let requests (object : Option Report) :=
      object.toList.flatMap (mapWorkloadScanReportToImages s.images.cached.items)
    { s with
      reports := reports
      queue := s.queue ++ (requests (s.reports.cached.get e.subject) ++ requests e.object) }
  | .start key =>
    if key ∈ s.queue then
      some { s with queue := s.queue.filter (· ≠ key), running := s.running ++ [.started key] }
    else
      none
  | .proceed i => s.running[i]?.map (s.reconcile i)
  | .fail i err => s.running[i]?.map (s.requeue i · err)

/-- No event is to come, and all that was enqueued has been reconciled. -/
structure Quiet (s : State) : Prop where
  images : s.images.events = []
  reports : s.reports.events = []
  queue : s.queue = []
  running : s.running = []

/-! ## What the status should be -/

def References (report : Report) (ref : ImageRef) : Prop :=
  ∃ c ∈ report.containers, c.imageRef = ref

/-- The status lists the reports that reference the Image, in order and each once. -/
structure Lists (reports : List Report) (image : Image) : Prop where
  sorted : image.workloadScanReports.Pairwise fun a b => toLex a < toLex b
  mem_iff : ∀ k, k ∈ image.workloadScanReports ↔
    ∃ report ∈ reports, report.key = k ∧ References report image.ref

/-! ## The two look-ups -/

variable {ref ref' : ImageRef} {report : Report} {image : Image} {s t : State}

theorem imageRefIndexKey_inj (h : Splits ref) (h' : Splits ref')
    (heq : imageRefIndexKey ref = imageRefIndexKey ref') : ref = ref' := by
  unfold imageRefIndexKey at heq
  simp only [← String.toList_inj, String.toList_append, append_assoc] at heq
  obtain ⟨hns, heq⟩ := append_cons_inj h.ns h'.ns heq
  obtain ⟨hregistry, heq⟩ := append_cons_inj h.registry h'.registry heq
  obtain ⟨hrepository, htag⟩ := append_cons_inj h.repository h'.repository heq
  have htag : ref.tag.toList = ref'.tag.toList := htag
  rw [String.toList_inj] at hns hregistry hrepository htag
  cases ref
  cases ref'
  simp_all

theorem mem_indexWorkloadByImageRef :
    imageRefIndexKey image.ref ∈ indexWorkloadByImageRef report ↔ References report image.ref := by
  unfold indexWorkloadByImageRef
  rw [mem_eraseDups, mem_map]
  constructor
  · rintro ⟨c, hc, heq⟩
    exact ⟨c, hc, imageRefIndexKey_inj (report.splits c hc) image.splits heq⟩
  · rintro ⟨c, hc, heq⟩
    exact ⟨c, hc, congrArg imageRefIndexKey heq⟩

/-- A report leads to the Images whose reference it has … -/
theorem mem_mapWorkloadScanReportToImages {images : List Image} (himage : image ∈ images)
    (h : References report image.ref) :
    image.key ∈ mapWorkloadScanReportToImages images report := by
  obtain ⟨c, hc, href⟩ := h
  unfold mapWorkloadScanReportToImages
  rw [mem_flatMap]
  refine ⟨c.imageRef, mem_eraseDups.mpr (mem_map_of_mem hc), mem_map_of_mem ?_⟩
  rw [href]
  simp [listImages, himage, indexImageByMetadata, Image.ref]

/-- … and an Image to the reports that have its reference. -/
theorem mem_newReports {reports : List Report} {k : Key} :
    k ∈ newReports reports image ↔
      ∃ report ∈ reports, report.key = k ∧ References report image.ref := by
  unfold newReports findWorkloadScanReportsByImage
  rw [mem_insertionSort, mem_map]
  constructor
  · rintro ⟨report, hreport, rfl⟩
    obtain ⟨hmem, hindex⟩ := mem_filter.mp hreport
    exact ⟨report, hmem, rfl, mem_indexWorkloadByImageRef.mp (of_decide_eq_true hindex)⟩
  · rintro ⟨report, hmem, rfl, hrefs⟩
    exact ⟨report, mem_filter.mpr ⟨hmem, decide_eq_true (mem_indexWorkloadByImageRef.mpr hrefs)⟩,
      rfl⟩

theorem sorted_newReports (reports : Store Report.key) (image : Image) :
    (newReports reports.items image).Pairwise fun a b => toLex a < toLex b := by
  apply pairwise_insertionSort_lt
  apply List.Nodup.map toLex.injective
  exact reports.unique.sublist (filter_sublist.map _)

/-- A write changes the list of an Image only if the report references the Image before or after
it. -/
theorem newReports_set {reports : Store Report.key} {e : Event Report.key}
    (hold : ∀ report ∈ reports.get e.subject, ¬References report image.ref)
    (hnew : ∀ report ∈ e.object, ¬References report image.ref) :
    newReports (Informer.set reports e).items image = newReports reports.items image := by
  refine eq_of_mem_iff_of_lt (sorted_newReports _ _) (sorted_newReports _ _) fun k => ?_
  rw [mem_newReports, mem_newReports]
  constructor
  · rintro ⟨report, hreport, hkey, hrefs⟩
    rcases Informer.mem_set.mp hreport with hobject | hkept
    · exact absurd hrefs (hnew report hobject)
    · exact ⟨report, hkept.1, hkey, hrefs⟩
  · rintro ⟨report, hreport, hkey, hrefs⟩
    refine ⟨report, Informer.mem_set.mpr (.inr ⟨hreport, fun hsubject => ?_⟩), hkey, hrefs⟩
    exact hold report (Store.get_eq_some.mpr ⟨hreport, hsubject⟩) hrefs

/-! ## The invariant -/

def State.newReports (s : State) (image : Image) : List Key :=
  ImageStatus.newReports s.reports.cached.items image

/-- The reconcile has read nothing that is out of date. -/
def Fresh (s : State) (image : Image) : Phase → Prop
  | .started key => key = image.key
  | .got image' => image' = image
  | .patching image' reports => image' = image ∧ reports = s.newReports image

/-- The list of the Image is right, or it will be looked at again. -/
inductive Attended (s : State) (image : Image) : Prop where
  | announced (e : Event Image.key) (he : e ∈ s.images.events) (hkey : e.subject = image.key)
  | queued (h : image.key ∈ s.queue)
  | running (p : Phase) (hp : p ∈ s.running) (h : Fresh s image p)
  | exact (h : image.workloadScanReports = s.newReports image)

structure Inv (s : State) : Prop where
  images : s.images.Synced
  reports : s.reports.Synced
  attended : ∀ image ∈ s.images.stored.items, Attended s image

/-- What stays as it is while the reports in the cache that reference the Image do. -/
theorem Attended.kept (h : Attended s image) (hnew : t.newReports image = s.newReports image)
    (hevents : s.images.events ⊆ t.images.events) (hqueue : image.key ∈ s.queue → Attended t image)
    (hrunning : ∀ p ∈ s.running, Fresh t image p → Attended t image) : Attended t image := by
  cases h with
  | announced e he hkey => exact .announced e (hevents he) hkey
  | queued h => exact hqueue h
  | running p hp h =>
    apply hrunning p hp
    cases p with
    | started | got => exact h
    | patching => exact ⟨h.1, h.2.trans hnew.symm⟩
  | exact h => exact .exact (h.trans hnew.symm)

variable {p : Phase}

theorem fresh_request (h : Fresh s image p) : p.request = image.key := by
  cases p with
  | started => exact h
  | got => exact congrArg Image.key h
  | patching => exact congrArg Image.key h.1

variable {i : Nat}

section

variable (hp : s.running[i]? = some p)
include hp

theorem mem_eraseIdx_or_eq {q : Phase} (hq : q ∈ s.running) :
    q = p ∨ q ∈ s.running.eraseIdx i := by
  obtain ⟨j, hj⟩ := mem_iff_getElem?.mp hq
  by_cases hij : j = i
  · subst hij
    exact .inl (Option.some.inj (hj.symm.trans hp))
  · exact .inr (mem_eraseIdx_iff_getElem?.mpr ⟨j, hij, hj⟩)

/-- A reconcile that goes on leaves the others alone. -/
theorem Attended.advance (h : Attended s image) (hnew : t.newReports image = s.newReports image)
    (hevents : s.images.events ⊆ t.images.events) (hqueue : s.queue ⊆ t.queue)
    (hrunning : s.running.eraseIdx i ⊆ t.running) (hnext : Fresh t image p → Attended t image) :
    Attended t image := by
  refine h.kept hnew hevents (fun hq => .queued (hqueue hq)) ?_
  intro q hq hfresh
  rcases mem_eraseIdx_or_eq hp hq with rfl | hother
  · exact hnext hfresh
  · exact .running q (hrunning hother) hfresh

theorem Attended.requeue {err : String} (h : Attended s image) :
    Attended (s.requeue i p err) image := by
  refine h.advance hp rfl (fun _ => id) (subset_append_left _ _) (fun _ => id) ?_
  intro hfresh
  exact .queued (mem_append_right _ (mem_singleton.mpr (fresh_request hfresh).symm))

end

section

variable (hs : Inv s)
include hs

theorem Attended.patch {image' : Image} {reports : List Key}
    (hp : s.running[i]? = some (.patching image' reports))
    (himage : image ∈ (s.patch i image' reports).images.stored.items) :
    Attended (s.patch i image' reports) image := by
  unfold State.patch at himage ⊢
  split at himage
  case h_1 => exact (hs.attended image himage).requeue hp
  case h_2 current hcurrent =>
    by_cases hsame : current.workloadScanReports = reports
    · simp only [if_pos hsame] at himage ⊢
      refine (hs.attended image himage).advance hp rfl (fun _ => id) (fun _ => id) (fun _ => id) ?_
      rintro ⟨rfl, hreports⟩
      cases (Store.mem_iff_get.mp himage).symm.trans hcurrent
      exact .exact (hsame.trans hreports)
    · simp only [if_neg hsame] at himage ⊢
      rcases Informer.mem_set.mp himage with hpatched | ⟨hkept, hne⟩
      · cases Option.mem_some.mp hpatched
        exact .announced _ (mem_append_right _ (mem_singleton_self _)) rfl
      · refine (hs.attended image hkept).advance hp rfl (subset_append_left _ _)
          (fun _ => id) (fun _ => id) ?_
        rintro ⟨rfl, -⟩
        exact absurd (Store.get_eq_some.mp hcurrent).2.symm hne

/-- The next call of a reconcile reads what is there or leaves the list as it should be. -/
theorem Attended.reconcile (hp : s.running[i]? = some p)
    (himage : image ∈ (s.reconcile i p).images.stored.items) :
    Attended (s.reconcile i p) image := by
  cases p with
  | started key =>
    refine (hs.attended image himage).advance hp rfl (fun _ => id) (fun _ => id)
      (subset_append_left _ _) fun hfresh => ?_
    by_cases hevents : ∃ e ∈ s.images.events, e.subject = image.key
    · obtain ⟨e, he, hkey⟩ := hevents
      exact .announced e he hkey
    · have hcached : s.images.cached.get key = some image := by
        rw [show key = image.key from hfresh,
          hs.images.get_eq fun e he hkey => hevents ⟨e, he, hkey⟩]
        exact Store.mem_iff_get.mp himage
      refine .running (.got image) (mem_append_right _ ?_) rfl
      simp [hcached]
  | got image' =>
    refine (hs.attended image himage).advance hp rfl (fun _ => id) (fun _ => id)
      (subset_append_left _ _) fun hfresh => ?_
    cases (hfresh : image' = image)
    by_cases hsame : image.workloadScanReports = s.newReports image
    · exact .exact hsame
    · refine .running (.patching image (s.newReports image)) (mem_append_right _ ?_) ⟨rfl, rfl⟩
      exact (if_neg hsame).symm ▸ mem_singleton_self _
  | patching image' reports => exact Attended.patch hs hp himage

theorem Attended.deliverImage (h : step s .deliverImage = some t)
    (himage : image ∈ s.images.stored.items) : Attended t image := by
  obtain ⟨⟨e, images⟩, hd, rfl⟩ := Option.map_eq_some_iff.mp h
  obtain ⟨hevents, -, -⟩ := Informer.deliver_eq_some hd
  by_cases hlater : ∃ e' ∈ images.events, e'.subject = image.key
  · obtain ⟨e', he', hkey⟩ := hlater
    exact .announced e' he' hkey
  cases hs.attended image himage with
  | announced e' he' hkey =>
    rw [hevents] at he'
    rcases mem_cons.mp he' with rfl | hrest
    · have hobject : e'.object = some image := by
        rw [hs.images.object_eq hd fun e' he' hsame => hlater ⟨e', he', hsame.trans hkey⟩, hkey]
        exact Store.mem_iff_get.mp himage
      refine .queued (mem_append_right _ (mem_map_of_mem (mem_filter.mpr ?_)))
      exact ⟨by simp [hobject], decide_eq_true image.labelled⟩
    · exact absurd ⟨e', hrest, hkey⟩ hlater
  | queued h => exact .queued (mem_append_left _ h)
  | running p hp h => exact .running p hp h
  | exact h => exact .exact h

/-- A report that references the Image before or after the event enqueues it. -/
theorem Attended.deliverReport (h : step s .deliverReport = some t)
    (himage : image ∈ s.images.stored.items) : Attended t image := by
  obtain ⟨⟨e, reports⟩, hd, rfl⟩ := Option.map_eq_some_iff.mp h
  obtain ⟨hevents, hcached, -⟩ := Informer.deliver_eq_some hd
  by_cases hlater : ∃ e' ∈ s.images.events, e'.subject = image.key
  · obtain ⟨e', he', hkey⟩ := hlater
    exact .announced e' he' hkey
  have hknown : image ∈ s.images.cached.items :=
    (hs.images.mem_iff fun e' he' hkey => hlater ⟨e', he', hkey⟩).mpr himage
  by_cases hold : ∃ report ∈ s.reports.cached.get e.subject, References report image.ref
  · obtain ⟨report, hreport, hrefs⟩ := hold
    refine .queued (mem_append_right _ (mem_append_left _ (mem_flatMap.mpr ?_)))
    exact ⟨report, Option.mem_toList.mpr hreport, mem_mapWorkloadScanReportToImages hknown hrefs⟩
  by_cases hnew : ∃ report ∈ e.object, References report image.ref
  · obtain ⟨report, hreport, hrefs⟩ := hnew
    refine .queued (mem_append_right _ (mem_append_right _ (mem_flatMap.mpr ?_)))
    exact ⟨report, Option.mem_toList.mpr hreport, mem_mapWorkloadScanReportToImages hknown hrefs⟩
  -- otherwise the list is the same over the new cache
  refine (hs.attended image himage).kept ?_ (fun _ => id)
    (fun hq => .queued (mem_append_left _ hq)) fun p hp hfresh => .running p hp hfresh
  unfold State.newReports
  rw [hcached]
  exact newReports_set (fun report hreport hrefs => hold ⟨report, hreport, hrefs⟩)
    fun report hreport hrefs => hnew ⟨report, hreport, hrefs⟩

theorem reconcile_frame :
    (s.reconcile i p).images.Synced ∧ (s.reconcile i p).reports = s.reports := by
  cases p with
  | started | got => exact ⟨hs.images, rfl⟩
  | patching image reports =>
    show (s.patch i image reports).images.Synced ∧ (s.patch i image reports).reports = s.reports
    unfold State.patch
    split
    case h_1 => exact ⟨hs.images, rfl⟩
    case h_2 current hcurrent =>
      by_cases hsame : current.workloadScanReports = reports
      · simp only [if_pos hsame]
        exact ⟨hs.images, trivial⟩
      · simp only [if_neg hsame]
        exact ⟨hs.images.write _, trivial⟩

theorem Inv.step {a : Action} (h : step s a = some t) : Inv t := by
  cases a with
  | writeImage e =>
    cases h
    refine ⟨hs.images.write e, hs.reports, ?_⟩
    intro image himage
    by_cases hkey : e.subject = image.key
    · exact .announced e (mem_append_right _ (mem_singleton_self _)) hkey
    · have hold : image ∈ s.images.stored.items := by
        rcases Informer.mem_set.mp himage with hnew | hkept
        · exact absurd (e.valid image hnew).symm hkey
        · exact hkept.1
      exact (hs.attended image hold).kept rfl (subset_append_left _ _) (fun hq => .queued hq)
        fun p hp hfresh => .running p hp hfresh
  | writeReport e =>
    cases h
    refine ⟨hs.images, hs.reports.write e, ?_⟩
    intro image himage
    exact (hs.attended image himage).kept rfl (fun _ => id) (fun hq => .queued hq)
      fun p hp hfresh => .running p hp hfresh
  | deliverImage =>
    have hattended := fun image => @Attended.deliverImage image _ _ hs h
    obtain ⟨⟨e, images⟩, hd, rfl⟩ := Option.map_eq_some_iff.mp h
    refine ⟨hs.images.deliver hd, hs.reports, ?_⟩
    intro image himage
    exact hattended image ((Informer.deliver_eq_some hd).2.2 ▸ himage)
  | deliverReport =>
    have hattended := fun image => @Attended.deliverReport image _ _ hs h
    obtain ⟨⟨e, reports⟩, hd, rfl⟩ := Option.map_eq_some_iff.mp h
    exact ⟨hs.images, hs.reports.deliver hd, hattended⟩
  | start key =>
    simp only [ImageStatus.step] at h
    split at h
    case isFalse => cases h
    case isTrue hkey =>
      cases h
      refine ⟨hs.images, hs.reports, ?_⟩
      intro image himage
      refine (hs.attended image himage).kept rfl (fun _ => id) (fun hq => ?_)
        fun p hp => .running p (mem_append_left _ hp)
      by_cases hsame : image.key = key
      · exact .running (.started key) (mem_append_right _ (mem_singleton_self _)) hsame.symm
      · exact .queued (mem_filter.mpr ⟨hq, by simpa using hsame⟩)
  | proceed i =>
    obtain ⟨p, hp, rfl⟩ := Option.map_eq_some_iff.mp h
    obtain ⟨hsynced, hreports⟩ := reconcile_frame (i := i) (p := p) hs
    exact ⟨hsynced, hreports ▸ hs.reports, fun image himage => Attended.reconcile hs hp himage⟩
  | fail i err =>
    obtain ⟨p, hp, rfl⟩ := Option.map_eq_some_iff.mp h
    exact ⟨hs.images, hs.reports, fun image himage => (hs.attended image himage).requeue hp⟩

end

theorem inv_init : Inv init where
  images := rfl
  reports := rfl
  attended := nofun

/-- Whatever is written in whatever order: when all that was enqueued has been reconciled, every
Image lists the reports that reference it. -/
theorem statuses_exact {as : List Action} (h : exec step init as = some s) (hquiet : Quiet s) :
    ∀ image ∈ s.images.stored.items, Lists s.reports.stored.items image := by
  have hs : Inv s := exec_invariant (fun _ _ _ hs h => hs.step h) inv_init h
  intro image himage
  have hlist : image.workloadScanReports = s.newReports image := by
    cases hs.attended image himage with
    | announced e he => rw [hquiet.images] at he; cases he
    | queued h => rw [hquiet.queue] at h; cases h
    | running p hp => rw [hquiet.running] at hp; cases hp
    | exact h => exact h
  constructor
  · rw [hlist]
    exact sorted_newReports _ _
  · intro k
    rw [hlist, State.newReports, mem_newReports]
    have hcached : ∀ report, report ∈ s.reports.cached.items ↔ report ∈ s.reports.stored.items :=
      fun report => hs.reports.mem_iff (by simp [hquiet.reports])
    simp only [hcached]

namespace Sample

def imageRef : ImageRef := ⟨"registry", "default", "repository", "v1"⟩

theorem splits_imageRef : Splits imageRef := by constructor <;> decide

def webImage : Image where
  name := "image"
  ns := "default"
  registry := "registry"
  repository := "repository"
  tag := "v1"
  labels := .singleton labelWorkloadScanKey labelWorkloadScanValue
  workloadScanReports := []
  labelled := by decide
  splits := splits_imageRef

def webReport (ns name : String) : Report where
  name := name
  ns := ns
  labels := ∅
  containers := [⟨"main", imageRef⟩, ⟨"side", imageRef⟩]
  metadata := ()
  splits := by simp [splits_imageRef]

/-- Two reports, one before and one after the image. -/
def run : List Action :=
  [.writeReport (.of (webReport "prod" "api")), .deliverReport, .writeImage (.of webImage),
    .writeReport (.of (webReport "dev" "web")), .deliverImage, .start webImage.key, .proceed 0,
    .proceed 0, .deliverReport, .fail 0 "timeout", .start webImage.key, .proceed 0, .proceed 0,
    .proceed 0, .deliverImage, .start webImage.key, .proceed 0, .proceed 0]

theorem statuses_exact_web : ∃ s, exec step init run = some s ∧
    s.images.stored.items.map (·.workloadScanReports) = [[("dev", "web"), ("prod", "api")]] ∧
    ∀ image ∈ s.images.stored.items, Lists s.reports.stored.items image := by
  have hend : (exec step init run).map (fun s =>
      (s.images.events.length + s.reports.events.length + s.queue.length + s.running.length,
        s.images.stored.items.map (·.workloadScanReports))) =
      some (0, [[("dev", "web"), ("prod", "api")]]) := by decide +kernel
  obtain ⟨s, hs, heq⟩ := Option.map_eq_some_iff.mp hend
  simp only [Prod.mk.injEq, Nat.add_eq_zero_iff, length_eq_zero_iff] at heq
  obtain ⟨⟨⟨⟨himages, hreports⟩, hqueue⟩, hrunning⟩, hlists⟩ := heq
  exact ⟨s, hs, hlists, statuses_exact hs ⟨himages, hreports, hqueue, hrunning⟩⟩

end Sample

end SbomScanner.WorkloadScan.ImageStatus

import SbomScanner.Catalog.Handler

/-!
# How many images a run counts

The number of images that CreateCatalog writes to the ScanJob is what the job waits for. It is the
length of a list; the messages are told apart by their ids, and the reports by the names of the
images. The numbers agree iff no two images of the list have the same name.

The name of an image is made of the reference and of the digest, so it comes twice iff an image
index lists a digest twice among the platforms that are scanned, or a reference is listed in two
ways. `Distinct` says that of what the registry serves.
-/

namespace SbomScanner.Catalog

open Api Procedure Fallible List Function
open Fallible (mapError_eq_ok)
open ImageName (Reference)

/-! ## The digests that are scanned -/

/-- The digest of an index entry, if it is a container image for a platform that is scanned. -/
def entryDigest (registry : Registry) (imageIndex : ImageIndex) (m : IndexEntry) : Option String :=
  match m.platform with
  | none => none
  | some platform =>
    if allowed registry platform then
      (getImageDetailsFromIndex imageIndex m.digest platform).toOption.map (·.digest)
    else
      none

def indexDigests (registry : Registry) (desc : Descriptor) : List String :=
  match desc.imageIndex with
  | .error _ => []
  | .ok imageIndex =>
    match imageIndex.indexManifest with
    | .error _ => []
    | .ok manifest => manifest.manifests.filterMap (entryDigest registry imageIndex)

def singleDigests (client : Client) (registry : Registry) (ref : Reference) : List String :=
  match getImageDetails client ref with
  | .error _ => []
  | .ok details => if allowed registry details.platform then [details.digest] else []

/-- The digests of the images behind a reference, as often as the registry serves them. -/
def scannedDigests (client : Client) (registry : Registry) (ref : Reference) : List String :=
  match client.descriptor ref with
  | .error _ => []
  | .ok desc =>
    if (isContainerImage desc).toOption = some true then
      if desc.mediaType = .index then indexDigests registry desc
      else singleDigests client registry ref
    else
      []

variable {images : List Image}

section Names

variable {lib : Library} {client : Client} {registry : Registry} {ref : Reference}

def imageName (lib : Library) (registry : Registry) (ref : Reference) (digest : String) : String :=
  computeImageUID lib registry.name ref.context.name ref.identifier digest

variable {indexDigest : String}

theorem name_convert {details : ImageDetails} {image : Image}
    (h : convert lib ref details registry indexDigest = .ok image) :
    image.name = imageName lib registry ref details.digest := by
  obtain ⟨layers, -, heq⟩ := bind_eq_ok.mp (mapError_eq_ok.mp h)
  cases heq
  rfl

variable {imageIndex : ImageIndex}

theorem name_indexEntryToImage {m : IndexEntry} {image : Option Image}
    (h : indexEntryToImage lib ref registry imageIndex indexDigest m = .ok image) :
    image.map (·.name) = (entryDigest registry imageIndex m).map (imageName lib registry ref) := by
  unfold indexEntryToImage at h
  unfold entryDigest
  cases hplatform : m.platform with
  | none =>
    rw [hplatform] at h
    cases h
    rfl
  | some platform =>
    simp only [hplatform] at h ⊢
    split at h
    case isFalse hallowed =>
      cases h
      rw [if_neg hallowed]
      rfl
    case isTrue hallowed =>
      rw [if_pos hallowed]
      cases hdetails : getImageDetailsFromIndex imageIndex m.digest platform with
      | error e =>
        rw [hdetails] at h
        cases e <;> cases h
        rfl
      | ok details =>
        rw [hdetails] at h
        obtain ⟨converted, hconvert, rfl⟩ := map_eq_ok.mp h
        exact congrArg some (name_convert hconvert)

theorem names_entries {entries : List IndexEntry} {images : List (Option Image)}
    (h : List.Forall₂ (fun m image => indexEntryToImage lib ref registry imageIndex indexDigest m =
      .ok image) entries images) :
    (images.flatMap Option.toList).map (·.name) =
      (entries.filterMap (entryDigest registry imageIndex)).map (imageName lib registry ref) := by
  induction h with
  | nil => rfl
  | @cons m image entries images hentry _ ih =>
    have hname := name_indexEntryToImage hentry
    rw [flatMap_cons, map_append, ih]
    cases hdigest : entryDigest registry imageIndex m with
    | none =>
      rw [hdigest] at hname
      obtain rfl := Option.map_eq_none_iff.mp hname
      rw [filterMap_cons_none hdigest]
      rfl
    | some digest =>
      rw [hdigest] at hname
      obtain ⟨converted, rfl, heq⟩ := Option.map_eq_some_iff.mp hname
      rw [filterMap_cons_some hdigest, map_cons, ← heq]
      rfl

theorem names_multiArch {desc : Descriptor}
    (h : multiArchRefToImages lib ref registry desc = .ok images) :
    images.map (·.name) = (indexDigests registry desc).map (imageName lib registry ref) := by
  obtain ⟨imageIndex, hindex, h⟩ := bind_eq_ok.mp h
  obtain ⟨manifest, hmanifest, h⟩ := bind_eq_ok.mp h
  obtain ⟨indexDigest, -, h⟩ := bind_eq_ok.mp h
  obtain ⟨entries, hentries, h⟩ := bind_eq_ok.mp h
  cases h
  rw [names_entries (mapM_eq_ok.mp hentries), indexDigests, mapError_eq_ok.mp hindex]
  simp only [mapError_eq_ok.mp hmanifest]

theorem names_singleArch (h : singleArchRefToImages lib client ref registry = .ok images) :
    images.map (·.name) = (singleDigests client registry ref).map (imageName lib registry ref) := by
  unfold singleArchRefToImages at h
  unfold singleDigests
  cases hdetails : getImageDetails client ref with
  | error e =>
    rw [hdetails] at h
    cases e <;> cases h <;> rfl
  | ok details =>
    simp only [hdetails] at h ⊢
    split at h
    case isTrue hallowed =>
      obtain ⟨image, hconvert, rfl⟩ := map_eq_ok.mp h
      rw [if_pos hallowed]
      simp [name_convert hconvert]
    case isFalse hallowed =>
      cases h
      rw [if_neg hallowed]
      rfl

theorem names_refToImages (h : refToImages lib client ref registry = .ok images) :
    images.map (·.name) =
      (scannedDigests client registry ref).map (imageName lib registry ref) := by
  obtain ⟨desc, hdesc, h⟩ := bind_eq_ok.mp h
  obtain ⟨container, hcontainer, h⟩ := bind_eq_ok.mp h
  have hoption : (isContainerImage desc).toOption = some container := by
    rw [mapError_eq_ok.mp hcontainer]
    rfl
  simp only [scannedDigests, mapError_eq_ok.mp hdesc, hoption, Option.some.injEq]
  cases container with
  | false =>
    cases h
    rfl
  | true =>
    simp only [Bool.not_true, Bool.false_eq_true, if_false] at h
    split at h
    case isTrue hindex =>
      rw [if_pos rfl, if_pos hindex]
      exact names_multiArch h
    case isFalse hindex =>
      rw [if_pos rfl, if_neg hindex]
      exact names_singleArch h

end Names

/-! ## References that are accepted -/

section Accepted

variable (env : Env) (registry : Registry)

/-- The reference that a listed name stands for, if its tag is allowed. -/
def accepted (newImageName : String) : Option Reference :=
  match env.lib.parseReference newImageName with
  | .error _ => none
  | .ok ref =>
    if (filterByTag env.lib.evaluate (registry.getRepository ref.repository)
        ref.identifier).toOption = some true then
      some ref
    else
      none

def namesOf (newImageName : String) : List String :=
  match accepted env registry newImageName with
  | none => []
  | some ref => (scannedDigests env.client registry ref).map (imageName env.lib registry ref)

/-- What the registry serves under the listed names: no index has a digest twice, and a reference
that is listed in two ways has no images. -/
structure Distinct (references : List String) : Prop where
  index : ∀ {s ref}, s ∈ references → accepted env registry s = some ref →
    (scannedDigests env.client registry ref).Nodup
  reference : ∀ {s t ref}, s ∈ references → t ∈ references → s ≠ t →
    accepted env registry s = some ref → accepted env registry t = some ref →
    scannedDigests env.client registry ref = []

variable {env registry}

theorem names_imagesOf {newImageName : String}
    (h : imagesOf env registry newImageName = .ok images) :
    images.map (·.name) = namesOf env registry newImageName := by
  obtain ⟨ref, href, h⟩ := bind_eq_ok.mp h
  obtain ⟨tagIsAllowed, hallowed, h⟩ := bind_eq_ok.mp h
  have hoption : (filterByTag env.lib.evaluate (registry.getRepository ref.repository)
      ref.identifier).toOption = some tagIsAllowed := by
    rw [mapError_eq_ok.mp hallowed]
    rfl
  simp only [namesOf, accepted, mapError_eq_ok.mp href, hoption, Option.some.injEq]
  cases tagIsAllowed with
  | false =>
    cases h
    rfl
  | true => exact names_refToImages (mapError_eq_ok.mp h)

theorem names_found {references : List String} {found : List (List Image)}
    (h : List.Forall₂ (fun reference images => imagesOf env registry reference = .ok images)
      references found) :
    found.flatten.map (·.name) = references.flatMap (namesOf env registry) := by
  induction h with
  | nil => rfl
  | cons himages _ ih =>
    rw [flatten_cons, map_append, ih, names_imagesOf himages, flatMap_cons]

/-- What is assumed of the libraries and of the registry: a hash is that of one text only, the host
of a URL has no slash, and a digest no at sign. -/
structure Standard (env : Env) (registry : Registry) : Prop where
  sha256 : Function.Injective env.lib.sha256
  authority : ∀ s, env.lib.isAuthority s = true → '/' ∉ s.toList
  digest : ∀ {ref digest}, digest ∈ scannedDigests env.client registry ref → '@' ∉ digest.toList

variable {s : String}

theorem grammar_of_accepted {ref : Reference} (h : accepted env registry s = some ref) :
    ImageName.Grammar ref := by
  unfold accepted at h
  split at h
  case h_1 => cases h
  case h_2 parsed hparsed =>
    split at h
    case isFalse => cases h
    case isTrue =>
      cases h
      unfold Library.parseReference Library.parsed at hparsed
      split at hparsed
      case h_1 hname =>
        cases hparsed
        exact ImageName.parseReference_grammar hname
      case h_2 => cases hparsed

section

variable (hstandard : Standard env registry)
include hstandard

/-- The name tells the reference and the digest. -/
theorem imageName_inj {t : String} {ref other : Reference} (hs : accepted env registry s = some ref)
    (ht : accepted env registry t = some other) {digest digest' : String}
    (hdigest : digest ∈ scannedDigests env.client registry ref)
    (hdigest' : digest' ∈ scannedDigests env.client registry other)
    (heq : imageName env.lib registry ref digest = imageName env.lib registry other digest') :
    ref = other ∧ digest = digest' := by
  have htext := hstandard.sha256 heq
  refine ImageName.name_identifier_digest_inj (grammar_of_accepted hs) (grammar_of_accepted ht)
    (hstandard.digest hdigest) (hstandard.digest hdigest') ?_
  simp only [String.append_assoc] at htext ⊢
  simpa only [String.append_right_inj] using htext

theorem nodup_namesOf :
    (namesOf env registry s).Nodup ↔ ∀ ref, accepted env registry s = some ref →
      (scannedDigests env.client registry ref).Nodup := by
  unfold namesOf
  cases hs : accepted env registry s with
  | none => simp
  | some ref =>
    simp only [Option.some.injEq, forall_eq']
    constructor
    · exact List.Nodup.of_map _
    · apply List.Nodup.map_on
      intro digest hdigest digest' hdigest' heq
      exact (imageName_inj hstandard hs hs hdigest hdigest' heq).2

theorem disjoint_namesOf {t : String} :
    (namesOf env registry s).Disjoint (namesOf env registry t) ↔
      ∀ ref, accepted env registry s = some ref → accepted env registry t = some ref →
        scannedDigests env.client registry ref = [] := by
  unfold namesOf
  cases hs : accepted env registry s with
  | none => simp
  | some ref =>
    cases ht : accepted env registry t with
    | none => simp
    | some other =>
      simp only [Option.some.injEq]
      constructor
      · rintro hdisjoint _ rfl rfl
        apply map_eq_nil_iff.mp
        exact eq_nil_iff_forall_not_mem.mpr fun name hname => hdisjoint hname hname
      · intro hempty name hname hname'
        obtain ⟨digest, hdigest, rfl⟩ := mem_map.mp hname
        obtain ⟨digest', hdigest', heq⟩ := mem_map.mp hname'
        obtain ⟨rfl, -⟩ := imageName_inj hstandard ht hs hdigest' hdigest heq
        rw [hempty other rfl rfl] at hdigest
        cases hdigest

/-- The names are distinct iff what the registry serves is. -/
theorem nodup_names_iff {references : List String} (hnodup : references.Nodup) :
    (references.flatMap (namesOf env registry)).Nodup ↔ Distinct env registry references := by
  rw [nodup_flatMap]
  constructor
  · rintro ⟨hindex, hpairs⟩
    have hsymm : Std.Symm (onFun List.Disjoint (namesOf env registry)) :=
      ⟨fun _ _ h => List.Disjoint.symm h⟩
    refine ⟨fun hs href => (nodup_namesOf hstandard).mp (hindex _ hs) _ href, ?_⟩
    intro s t ref hs ht hne href
    exact (disjoint_namesOf hstandard).mp (hpairs.forall hs ht hne) ref href
  · intro h
    refine ⟨fun s hs => (nodup_namesOf hstandard).mpr fun ref => h.index hs, ?_⟩
    refine hnodup.pairwise_of_forall_ne fun s hs t ht hne => ?_
    exact (disjoint_namesOf hstandard).mpr fun ref => h.reference hs ht hne

end

end Accepted

/-! ## The numbers of a run -/

section Numbers

variable {env : Env} {ref : JobRef} {registry : Registry} {references : List String}
  {world world' : World} {run : Run}

def publishedBetween (world world' : World) : List Published :=
  world'.published.drop world.published.length

/-- The number that is written is that of the distinct names, and that of the distinct message
ids. -/
def CountsAgree (run : Run) (world world' : World) : Prop :=
  ∃ status, world'.written.getLast? = some status ∧
    status.imagesCount = (run.images.map (·.name)).dedup.length ∧
    (run.images.map (·.name)).dedup.length =
      ((publishedBetween world world').map (·.messageID)).dedup.length

theorem length_dedup_eq_iff {α : Type} [DecidableEq α] {xs : List α} :
    xs.length = xs.dedup.length ↔ xs.Nodup := by
  constructor
  · intro h
    rw [← (dedup_sublist xs).eq_of_length h.symm]
    exact nodup_dedup xs
  · intro h
    rw [dedup_eq_self.mpr h]

theorem messageID_inj {uid : Nat} :
    Function.Injective fun name : String => "generateSBOM/" ++ Strings.formatUint uid ++ "/" ++
      name := by
  intro name name' h
  exact String.append_right_inj _ |>.mp h

theorem length_dedup_map {α β : Type} [DecidableEq α] [DecidableEq β] {f : α → β}
    (hf : Function.Injective f) (xs : List α) : (xs.map f).dedup.length = xs.dedup.length := by
  rw [dedup_map_of_injective hf, length_map]

theorem countsAgree_iff_nodup (h : Returns (createCatalog env ref) world run world')
    (hfound : run.images ≠ []) :
    CountsAgree run world world' ↔ (run.images.map (·.name)).Nodup := by
  obtain ⟨-, ⟨scanJob, hwritten⟩, uid, hpublished⟩ := returns_createCatalog h
  have hids : (publishedBetween world world').map (·.messageID) = (run.images.map (·.name)).map
      fun name => "generateSBOM/" ++ Strings.formatUint uid ++ "/" ++ name := by
    rw [publishedBetween, hpublished, drop_left, map_map, map_map]
    rfl
  have hcount : (Jobs.Pipeline.catalogStatus (env.now .finishing) (run.images.map (·.name))
      scanJob.job).imagesCount = (run.images.map (·.name)).length := by
    rw [Jobs.Pipeline.catalogStatus, if_neg (by simpa using hfound)]
  unfold CountsAgree
  rw [hids, length_dedup_map messageID_inj, hwritten]
  simp only [Option.some.injEq, exists_eq_left', and_true]
  rw [hcount]
  exact length_dedup_eq_iff

end Numbers

/-! ## An image index for two platforms -/

namespace TwoPlatforms

def lib : Library where
  isAuthority s := '/' ∉ s.toList
  badName s := s
  quote s := s
  sha256 s := s
  base64 s := s
  evaluate _ _ := .ok true

def registry : Registry where
  name := "ghcr"
  ns := "default"
  labels := ∅
  annotations := ∅
  spec := {
    uri := "ghcr.io", catalogType := .ociDistribution, repositories := [⟨"app", [], .unset⟩]
    authSecret := "", scanInterval := none, caBundle := "", caBundleRef := none
    insecure := false, platforms := [] }

/-- An index with these digests, the first for amd64 and the second for arm64. -/
def index (amd64 arm64 : String) : ImageIndex where
  indexManifest := .ok ⟨"", [⟨amd64, some ⟨"amd64", "linux", ""⟩⟩,
    ⟨arm64, some ⟨"arm64", "linux", ""⟩⟩]⟩
  digest := .ok "sha256:index"
  image digest := .ok {
    mediaType := .ok .image, manifest := .ok ⟨"", .config, [.layer]⟩
    configFile := .ok ⟨none, []⟩, digest := .ok digest, layers := .ok [] }

/-- A registry with one repository and one tag, which points to the index. -/
def serving (amd64 arm64 : String) : Env where
  lib := lib
  client := {
    catalog := fun _ => .ok []
    tags := fun _ => .ok ["v1"]
    descriptor := fun _ => .ok ⟨.index, (index amd64 arm64).indexManifest,
      .error "not an image", .ok (index amd64 arm64)⟩
    image := fun _ => .error "not an image" }
  unmarshal _ := .ok registry
  order := .asStored
  others _ objects := objects
  fault _ := none
  now _ := 0

def ref : JobRef := ⟨"job", "default", 1⟩

def scanJob : ScanJob where
  name := "job"
  generateName := ""
  ns := "default"
  uid := 1
  resourceVersion := 1
  generation := 1
  creationTimestamp := 0
  labels := ∅
  annotations := [⟨annotationScanJobRegistryKey, "snapshot"⟩].toFinmap
  spec := ⟨"ghcr", []⟩
  status := {}

def start : World := ⟨⟨some scanJob, []⟩, [], []⟩

theorem standard_serving {amd64 arm64 : String} (hamd64 : '@' ∉ amd64.toList)
    (harm64 : '@' ∉ arm64.toList) : Standard (serving amd64 arm64) registry where
  sha256 := injective_id
  authority s h := by simpa [serving, lib] using h
  digest {ref digest} h := by
    have hdigests : scannedDigests (serving amd64 arm64).client registry ref = [amd64, arm64] := rfl
    rw [hdigests] at h
    grind

/-- The Registry that a run scans, the names of its images, and the numbers it has written. -/
def outcome (env : Env) (result : Except Stop Run × World) :
    Option (Option Registry × List String × List Nat) :=
  match result with
  | (.ok run, world) => some ((scannedRegistry env run.scanJob).toOption,
      run.images.map (·.name), world.written.map (·.imagesCount))
  | (.error _, _) => none

theorem exists_returns {env : Env} {scanned : Registry} {names : List String} {counts : List Nat}
    (h : outcome env ((createCatalog env ref).run.run start) = some (some scanned, names, counts)) :
    ∃ run world', Returns (createCatalog env ref) start run world' ∧
      scannedRegistry env run.scanJob = .ok scanned ∧ run.images.map (·.name) = names ∧
      run.images.length = names.length := by
  rcases hrun : (createCatalog env ref).run.run start with ⟨stop | run, world'⟩
  · rw [hrun] at h
    cases h
  · rw [hrun, outcome, Option.some.injEq, Prod.mk.injEq, Prod.mk.injEq] at h
    refine ⟨run, world', hrun, eq_ok_of_toOption h.1, h.2.1, ?_⟩
    rw [← h.2.1, length_map]

end TwoPlatforms

end SbomScanner.Catalog

import SbomScanner.Catalog.References
import SbomScanner.Lib.Procedure

/-!
# The images behind a reference

What a registry serves for a reference is a manifest of a container image, an index of such
manifests for several platforms, or something that is not an image at all. `refToImages` makes
`Image` objects of it, one for each platform that is to be scanned, and leaves the rest out.

A registry is trusted with nothing: each answer may be an error, an index may list anything in any
order and as often as it likes, and history and layers of an image need not fit together.
-/

namespace SbomScanner.Catalog

open Api Fallible
open ImageName (Reference)

/-- `Platform.String`; the version of the operating system is not modelled. -/
def platformString (p : Platform) : String :=
  if p.os = "" then
    ""
  else
    p.os ++ (if p.architecture ≠ "" then "/" ++ p.architecture else "") ++
      if p.variant ≠ "" then "/" ++ p.variant else ""

/-! ## What a registry serves -/

/-- A media type, as far as it is asked about. -/
inductive MediaType where
  | image
  | index
  | config
  | layer
  | other
  deriving DecidableEq

structure Manifest where
  artifactType : String
  configMediaType : MediaType
  layerMediaTypes : List MediaType

structure History where
  emptyLayer : Bool
  createdBy : String

structure Layer where
  digest : Except String String
  diffID : Except String String

/-- The platform is missing if the file has none of its fields. -/
structure ConfigFile where
  platform : Option Platform
  history : List History

/-- An image, read on demand. -/
structure RemoteImage where
  mediaType : Except String MediaType
  manifest : Except String Manifest
  configFile : Except String ConfigFile
  digest : Except String String
  layers : Except String (List Layer)

structure IndexEntry where
  digest : String
  platform : Option Platform

structure IndexManifest where
  artifactType : String
  manifests : List IndexEntry

structure ImageIndex where
  indexManifest : Except String IndexManifest
  digest : Except String String
  image : String → Except String RemoteImage

/-- What the reference points to, before it is known what it is. -/
structure Descriptor where
  mediaType : MediaType
  /-- the manifest, parsed as one of an index -/
  parseIndexManifest : Except String IndexManifest
  /-- the manifest, parsed as one of an image -/
  parseManifest : Except String Manifest
  imageIndex : Except String ImageIndex

structure Client extends Listing where
  descriptor : Reference → Except String Descriptor
  image : Reference → Except String RemoteImage

/-! ## The registry client -/

def isContainerImageManifest (mediaType : MediaType) (manifest : Manifest) : Bool :=
  mediaType = .image && manifest.artifactType = "" && manifest.configMediaType = .config &&
    manifest.layerMediaTypes.all (· = .layer)

/-- Reports if the descriptor points to a container image or to an image index that can contain
container images. -/
def isContainerImage (desc : Descriptor) : Except String Bool :=
  match desc.mediaType with
  | .index => do
    let indexManifest ← wrap "cannot parse index manifest" desc.parseIndexManifest
    return indexManifest.artifactType = ""
  | .image => do
    let manifest ← wrap "cannot parse manifest" desc.parseManifest
    return isContainerImageManifest .image manifest
  | _ => .ok false

structure ImageDetails where
  digest : String
  layers : List Layer
  history : List History
  platform : Platform

inductive DetailsError where
  | notContainerImage
  | noPlatform
  | other (reason : String)
  deriving DecidableEq

def read {α : Type} (message : String) : Except String α → Except DetailsError α :=
  Except.mapError fun e => .other (message ++ ": " ++ e)

/-- Extracts config, digest, platform, and layers. If no platform is given, it falls back to the
platform from the image config file. -/
def imageDetails (img : RemoteImage) (platform : Option Platform) (label : String) :
    Except DetailsError ImageDetails := do
  let mediaType ← read ("cannot read media type for " ++ label) img.mediaType
  let manifest ← read ("cannot read manifest for " ++ label) img.manifest
  if !isContainerImageManifest mediaType manifest then
    .error .notContainerImage
  else
    let configFile ← read ("cannot read config for " ++ label) img.configFile
    let digest ← read ("cannot compute image digest for " ++ label) img.digest
    match platform.or configFile.platform with
    | none => .error .noPlatform
    | some platform =>
      let layers ← read ("cannot read layers for " ++ label) img.layers
      return ⟨digest, layers, configFile.history, platform⟩

def getImageDetailsFromIndex (imageIndex : ImageIndex) (digest : String) (platform : Platform) :
    Except DetailsError ImageDetails := do
  let img ← read ("cannot get image by digest " ++ digest) (imageIndex.image digest)
  imageDetails img (some platform) digest

def getImageDetails (client : Client) (ref : Reference) : Except DetailsError ImageDetails := do
  let img ← read ("cannot fetch image " ++ ref.name) (client.image ref)
  imageDetails img none ref.name

/-! ## Images -/

structure ImageLayer where
  command : String
  digest : String
  diffID : String
  deriving DecidableEq

/-- An `Image` of the storage, with its metadata. -/
structure Image where
  name : String
  ns : String
  labels : Labels
  registry : String
  registryURI : String
  repository : String
  tag : String
  platform : String
  digest : String
  indexDigest : String
  layers : List ImageLayer
  deriving DecidableEq

/-- How making an image of the details goes wrong: with an error, or with a panic. -/
inductive Failure where
  | failed (message : String)
  | indexOutOfRange (i length : Nat)
  deriving DecidableEq

def fail {α : Type} (message : String) : Except String α → Except Failure α :=
  Except.mapError fun e => .failed (message ++ ": " ++ e)

def labelPartOfKey := "app.kubernetes.io/part-of"
def labelPartOfValue := "sbomscanner"

/-- Pairs the layers with the history entries that are not empty. -/
def imageLayers (lib : Library) (layers : List Layer) :
    Nat → List History → Except Failure (List ImageLayer)
  | _, [] => .ok []
  | layerCounter, history :: rest =>
    if history.emptyLayer then
      imageLayers lib layers layerCounter rest
    else if layers.length < layerCounter then
      .error (.failed ("layer " ++ Strings.formatUint layerCounter ++ " not found - got only " ++
        Strings.formatUint layers.length ++ " layers"))
    else
      match layers[layerCounter]? with
      | none => .error (.indexOutOfRange layerCounter layers.length)
      | some layer => do
        let digest ← fail "cannot read layer digest" layer.digest
        let diffID ← fail "cannot read layer diffID" layer.diffID
        let others ← imageLayers lib layers (layerCounter + 1) rest
        return ⟨lib.base64 history.createdBy, digest, diffID⟩ :: others

def computeImageUID (lib : Library) (registryName name identifier digest : String) : String :=
  lib.sha256 (registryName ++ "/" ++ name ++ ":" ++ identifier ++ "@" ++ digest)

def imageLabels (registry : Registry) : Labels :=
  let labels : Labels := [⟨labelManagedByKey, labelManagedByValue⟩,
    ⟨labelPartOfKey, labelPartOfValue⟩].toFinmap
  if registry.labels.lookup labelWorkloadScanKey = some labelWorkloadScanValue then
    labels.insert labelWorkloadScanKey labelWorkloadScanValue
  else
    labels

/-- Converts the details to an Image resource. The reference to the Registry as its owner is left
out. -/
def imageDetailsToImage (lib : Library) (ref : Reference) (details : ImageDetails)
    (registry : Registry) (indexDigest : String) : Except Failure Image := do
  let layers ← imageLayers lib details.layers 0 details.history
  return {
    name := computeImageUID lib registry.name ref.context.name ref.identifier details.digest
    ns := registry.ns
    labels := imageLabels registry
    registry := registry.name
    registryURI := ref.registry
    repository := ref.repository
    tag := ref.identifier
    platform := platformString details.platform
    digest := details.digest
    indexDigest
    layers }

def convert (lib : Library) (ref : Reference) (details : ImageDetails) (registry : Registry)
    (indexDigest : String) : Except Failure Image :=
  (imageDetailsToImage lib ref details registry indexDigest).mapError fun
    | .failed e => .failed ("cannot convert image details to image for " ++ lib.quote ref.name ++
        ": " ++ e)
    | panicked => panicked

def allowed (registry : Registry) (platform : Platform) : Bool :=
  isPlatformAllowed platform.os platform.architecture platform.variant registry.spec.platforms

/-- Handles single-arch images. What is not a container image, or has no platform, gives none. -/
def singleArchRefToImages (lib : Library) (client : Client) (ref : Reference)
    (registry : Registry) : Except Failure (List Image) :=
  match getImageDetails client ref with
  | .error .notContainerImage => .ok []
  | .error .noPlatform => .ok []
  | .error (.other e) =>
    .error (.failed ("cannot get image details for " ++ lib.quote ref.name ++ ": " ++ e))
  | .ok details =>
    if allowed registry details.platform then
      (convert lib ref details registry "").map ([·])
    else
      .ok []

/-- One pass of the loop of `multiArchRefToImages`: the image of an index entry, if it is one that
is scanned. -/
def indexEntryToImage (lib : Library) (ref : Reference) (registry : Registry)
    (imageIndex : ImageIndex) (indexDigest : String) (m : IndexEntry) :
    Except Failure (Option Image) :=
  match m.platform with
  | none => .ok none
  | some platform =>
    if allowed registry platform then
      let message := "cannot get image details for " ++ lib.quote ref.name ++ " digest " ++
        m.digest ++ " platform " ++ platformString platform
      match getImageDetailsFromIndex imageIndex m.digest platform with
      | .error .notContainerImage => .ok none
      | .error .noPlatform => .error (.failed (message ++ ": no platform found"))
      | .error (.other e) => .error (.failed (message ++ ": " ++ e))
      | .ok details => (convert lib ref details registry indexDigest).map some
    else
      .ok none

def multiArchRefToImages (lib : Library) (ref : Reference) (registry : Registry)
    (desc : Descriptor) : Except Failure (List Image) := do
  let imageIndex ← fail ("cannot parse image index for " ++ lib.quote ref.name) desc.imageIndex
  let manifest ← fail ("cannot read index manifest of " ++ lib.quote ref.name)
    imageIndex.indexManifest
  let indexDigest ← fail ("cannot get index digest for " ++ lib.quote ref.name) imageIndex.digest
  let images ← manifest.manifests.mapM (indexEntryToImage lib ref registry imageIndex indexDigest)
  return images.flatMap Option.toList

/-- Converts a reference to a list of Image resources. Returns an empty list if the reference points
to a non-image artifact. -/
def refToImages (lib : Library) (client : Client) (ref : Reference) (registry : Registry) :
    Except Failure (List Image) := do
  let desc ← fail ("cannot get descriptor for " ++ lib.quote ref.name) (client.descriptor ref)
  let isContainerImage ← fail ("cannot check if " ++ ref.name ++ " is a container image")
    (isContainerImage desc)
  if !isContainerImage then
    return []
  else if desc.mediaType = .index then
    multiArchRefToImages lib ref registry desc
  else
    singleArchRefToImages lib client ref registry

/-! ## Where an image comes from -/

section Origin

variable {lib : Library} {client : Client} {ref : Reference} {registry : Registry} {image : Image}

/-- The image is made of the details of something that the reference stands for. -/
def Converted (lib : Library) (ref : Reference) (registry : Registry) (image : Image) : Prop :=
  ∃ details indexDigest, convert lib ref details registry indexDigest = .ok image

theorem converted_indexEntry {imageIndex : ImageIndex} {indexDigest : String} {m : IndexEntry}
    (h : indexEntryToImage lib ref registry imageIndex indexDigest m = .ok (some image)) :
    Converted lib ref registry image := by
  unfold indexEntryToImage at h
  split at h
  case h_1 => cases h
  case h_2 =>
    split at h
    case isFalse => cases h
    case isTrue =>
      simp only at h
      split at h
      case h_4 details _ =>
        obtain ⟨converted, hconvert, heq⟩ := map_eq_ok.mp h
        cases heq
        exact ⟨details, indexDigest, hconvert⟩
      all_goals cases h

variable {images : List Image}

theorem converted_multiArch {desc : Descriptor}
    (h : multiArchRefToImages lib ref registry desc = .ok images) (hmem : image ∈ images) :
    Converted lib ref registry image := by
  obtain ⟨imageIndex, -, h⟩ := bind_eq_ok.mp h
  obtain ⟨manifest, -, h⟩ := bind_eq_ok.mp h
  obtain ⟨indexDigest, -, h⟩ := bind_eq_ok.mp h
  obtain ⟨entries, hentries, h⟩ := bind_eq_ok.mp h
  cases h
  obtain ⟨entry, hentry, himage⟩ := List.mem_flatMap.mp hmem
  obtain rfl : entry = some image := by simpa using himage
  obtain ⟨m, -, hm⟩ := exists_of_mem_mapM hentries hentry
  exact converted_indexEntry hm

theorem converted_singleArch (h : singleArchRefToImages lib client ref registry = .ok images)
    (hmem : image ∈ images) :
    Converted lib ref registry image := by
  unfold singleArchRefToImages at h
  split at h
  case h_4 details _ =>
    split at h
    case isTrue =>
      obtain ⟨converted, hconvert, rfl⟩ := map_eq_ok.mp h
      rw [List.mem_singleton] at hmem
      exact ⟨details, "", hmem ▸ hconvert⟩
    case isFalse =>
      cases h
      cases hmem
  case h_3 => cases h
  all_goals
    cases h
    cases hmem

theorem converted_refToImages (h : refToImages lib client ref registry = .ok images)
    (hmem : image ∈ images) :
    Converted lib ref registry image := by
  obtain ⟨desc, -, h⟩ := bind_eq_ok.mp h
  obtain ⟨container, -, h⟩ := bind_eq_ok.mp h
  split at h
  · cases h
    cases hmem
  · split at h
    · exact converted_multiArch h hmem
    · exact converted_singleArch h hmem

end Origin

end SbomScanner.Catalog

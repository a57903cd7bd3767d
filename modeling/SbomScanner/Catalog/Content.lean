import SbomScanner.Catalog.Counts
import SbomScanner.Catalog.Layers

/-!
# A registry that fails now and then

A registry may fail at any request, and what it answers otherwise does not change. `Client.Below`
compares such a client with one of the full content: each answer of the first is an error or, in all
parts that can be read, the answer of the second.

The worker makes the same of both, or it fails (`imagesOf_refines`). No failure is taken for
something else: a reference has no images only if the registry says so. What is worse than a failure
is a panic, and `panics_imagesOf` says which content leads to one.
-/

namespace SbomScanner.Catalog

open Api Fallible
open Fallible (Refines refines_ok refines_error refines_temporary refines_refl refines_of_refl
  refines_bind refines_map refines_mapError refines_mapM)
open ImageName (Reference)

/-! ## The same answers, if there are answers -/

/-- Any error of a request may be gone when it is made again. -/
abbrev Answers {α β : Type} (R : α → β → Prop) (x : Except String α) (y : Except String β) : Prop :=
  Refines (fun _ => True) R x y

structure Layer.Below (layer layer' : Layer) : Prop where
  digest : Answers Eq layer.digest layer'.digest
  diffID : Answers Eq layer.diffID layer'.diffID

structure RemoteImage.Below (img img' : RemoteImage) : Prop where
  mediaType : Answers Eq img.mediaType img'.mediaType
  manifest : Answers Eq img.manifest img'.manifest
  configFile : Answers Eq img.configFile img'.configFile
  digest : Answers Eq img.digest img'.digest
  layers : Answers (List.Forall₂ Layer.Below) img.layers img'.layers

structure ImageIndex.Below (index index' : ImageIndex) : Prop where
  indexManifest : Answers Eq index.indexManifest index'.indexManifest
  digest : Answers Eq index.digest index'.digest
  image : ∀ digest, Answers RemoteImage.Below (index.image digest) (index'.image digest)

structure Descriptor.Below (desc desc' : Descriptor) : Prop where
  mediaType : desc.mediaType = desc'.mediaType
  parseIndexManifest : Answers Eq desc.parseIndexManifest desc'.parseIndexManifest
  parseManifest : Answers Eq desc.parseManifest desc'.parseManifest
  imageIndex : Answers ImageIndex.Below desc.imageIndex desc'.imageIndex

structure Client.Below (client client' : Client) : Prop where
  catalog : ∀ reg, Answers Eq (client.catalog reg) (client'.catalog reg)
  tags : ∀ repo, Answers Eq (client.tags repo) (client'.tags repo)
  descriptor : ∀ ref, Answers Descriptor.Below (client.descriptor ref) (client'.descriptor ref)
  image : ∀ ref, Answers RemoteImage.Below (client.image ref) (client'.image ref)

theorem RemoteImage.Below.refl (img : RemoteImage) : img.Below img where
  mediaType := refines_refl _
  manifest := refines_refl _
  configFile := refines_refl _
  digest := refines_refl _
  layers := refines_of_refl
    (fun _ => List.forall₂_same.mpr fun _ _ => ⟨refines_refl _, refines_refl _⟩) _

theorem Client.Below.refl (client : Client) : client.Below client where
  catalog _ := refines_refl _
  tags _ := refines_refl _
  descriptor _ := refines_of_refl (fun _ => ⟨rfl, refines_refl _, refines_refl _, refines_of_refl
    (fun _ => ⟨refines_refl _, refines_refl _, fun _ => refines_of_refl .refl _⟩) _⟩) _
  image _ := refines_of_refl .refl _

variable {details : ImageDetails} {desc : Descriptor}

section Below

variable {lib : Library} {registry : Registry} {ref : Reference}

/-- What is not a container image, or has no platform, is not one at the next request either. -/
def DetailsError.Temporary (e : DetailsError) : Prop := ∃ reason, e = .other reason

/-- A panic comes again. -/
def Failure.Temporary (e : Failure) : Prop := ∃ message, e = .failed message

theorem refines_wrap {α β : Type} {R : α → β → Prop} {x : Except String α} {y : Except String β}
    (h : Answers R x y) (message : String) : Answers R (wrap message x) (wrap message y) :=
  refines_mapError h fun _ _ => trivial

theorem refines_fail {α β : Type} {R : α → β → Prop} {x : Except String α} {y : Except String β}
    (h : Answers R x y) (message : String) :
    Refines Failure.Temporary R (fail message x) (fail message y) :=
  refines_mapError h fun _ _ => ⟨_, rfl⟩

theorem refines_read {α β : Type} {R : α → β → Prop} {x : Except String α} {y : Except String β}
    (h : Answers R x y) (message : String) :
    Refines DetailsError.Temporary R (read message x) (read message y) :=
  refines_mapError h fun _ _ => ⟨_, rfl⟩

structure ImageDetails.Below (details details' : ImageDetails) : Prop where
  digest : details.digest = details'.digest
  layers : List.Forall₂ Layer.Below details.layers details'.layers
  history : details.history = details'.history
  platform : details.platform = details'.platform

theorem imageDetails_refines {img img' : RemoteImage} (h : img.Below img')
    (platform : Option Platform) (label : String) :
    Refines DetailsError.Temporary ImageDetails.Below (imageDetails img platform label)
      (imageDetails img' platform label) := by
  unfold imageDetails
  refine refines_bind (refines_read h.mediaType _) ?_
  rintro mediaType _ rfl
  refine refines_bind (refines_read h.manifest _) ?_
  rintro manifest _ rfl
  split
  · exact refines_error _
  · refine refines_bind (refines_read h.configFile _) ?_
    rintro configFile _ rfl
    refine refines_bind (refines_read h.digest _) ?_
    rintro digest _ rfl
    split
    · exact refines_error _
    · refine refines_bind (refines_read h.layers _) fun layers layers' hlayers => ?_
      exact refines_ok ⟨rfl, hlayers, rfl, rfl⟩

theorem imageLayers_refines {layers layers' : List Layer}
    (h : List.Forall₂ Layer.Below layers layers') (history : List History) (counter : Nat) :
    Refines Failure.Temporary Eq (imageLayers lib layers counter history)
      (imageLayers lib layers' counter history) := by
  induction history generalizing counter with
  | nil => exact refines_ok rfl
  | cons entry history ih =>
    rw [imageLayers, imageLayers, h.length_eq]
    split
    case isTrue => exact ih counter
    case isFalse =>
      split
      case isTrue => exact refines_error _
      case isFalse =>
        rcases Nat.lt_or_ge counter layers.length with hlt | hge
        · have hlt' : counter < layers'.length := h.length_eq ▸ hlt
          have hlayer := h.get hlt hlt'
          rw [List.getElem?_eq_getElem hlt, List.getElem?_eq_getElem hlt']
          refine refines_bind (refines_fail hlayer.digest _) ?_
          rintro digest _ rfl
          refine refines_bind (refines_fail hlayer.diffID _) ?_
          rintro diffID _ rfl
          refine refines_bind (ih (counter + 1)) ?_
          rintro others _ rfl
          exact refines_ok rfl
        · rw [List.getElem?_eq_none hge, List.getElem?_eq_none (h.length_eq ▸ hge)]
          exact refines_error _

theorem convert_refines {details' : ImageDetails} (h : details.Below details')
    (indexDigest : String) :
    Refines Failure.Temporary Eq (convert lib ref details registry indexDigest)
      (convert lib ref details' registry indexDigest) := by
  have hconvert : Refines Failure.Temporary Eq
      (imageDetailsToImage lib ref details registry indexDigest)
      (imageDetailsToImage lib ref details' registry indexDigest) := by
    unfold imageDetailsToImage
    rw [← h.history, ← h.digest, ← h.platform]
    refine refines_bind (imageLayers_refines h.layers _ 0) ?_
    rintro layers _ rfl
    exact refines_ok rfl
  refine refines_mapError hconvert ?_
  rintro _ ⟨message, rfl⟩
  exact ⟨_, rfl⟩

/-- An image without a platform is skipped, and so is what is not an image. -/
theorem singleArchRefToImages_refines {client client' : Client} (h : client.Below client') :
    Refines Failure.Temporary Eq (singleArchRefToImages lib client ref registry)
      (singleArchRefToImages lib client' ref registry) := by
  have hdetails : Refines DetailsError.Temporary ImageDetails.Below (getImageDetails client ref)
      (getImageDetails client' ref) :=
    refines_bind (refines_read (h.image ref) _) fun _ _ himg => imageDetails_refines himg none _
  unfold singleArchRefToImages
  cases hclient : getImageDetails client ref with
  | error e =>
    rcases hdetails.2 e hclient with ⟨reason, rfl⟩ | hclient'
    · exact refines_temporary ⟨_, rfl⟩
    · rw [hclient']
      exact refines_refl _
  | ok details =>
    obtain ⟨details', hclient', hbelow⟩ := hdetails.1 details hclient
    rw [hclient']
    dsimp only
    rw [← hbelow.platform]
    split
    · refine refines_map (convert_refines hbelow "") ?_
      rintro image _ rfl
      rfl
    · exact refines_ok rfl

theorem indexEntryToImage_refines {index index' : ImageIndex} (h : index.Below index')
    (indexDigest : String) (m : IndexEntry) :
    Refines Failure.Temporary Eq (indexEntryToImage lib ref registry index indexDigest m)
      (indexEntryToImage lib ref registry index' indexDigest m) := by
  unfold indexEntryToImage
  cases m.platform with
  | none => exact refines_refl _
  | some platform =>
    dsimp only
    split
    case isFalse => exact refines_refl _
    case isTrue =>
      have hdetails : Refines DetailsError.Temporary ImageDetails.Below
          (getImageDetailsFromIndex index m.digest platform)
          (getImageDetailsFromIndex index' m.digest platform) :=
        refines_bind (refines_read (h.image m.digest) _) fun _ _ himg =>
          imageDetails_refines himg (some platform) _
      cases hindex : getImageDetailsFromIndex index m.digest platform with
      | error e =>
        rcases hdetails.2 e hindex with ⟨reason, rfl⟩ | hindex'
        · exact refines_temporary ⟨_, rfl⟩
        · rw [hindex']
          exact refines_refl _
      | ok details =>
        obtain ⟨details', hindex', hbelow⟩ := hdetails.1 details hindex
        rw [hindex']
        refine refines_map (convert_refines hbelow indexDigest) ?_
        rintro image _ rfl
        rfl

variable {desc' : Descriptor}

theorem multiArchRefToImages_refines (h : desc.Below desc') :
    Refines Failure.Temporary Eq (multiArchRefToImages lib ref registry desc)
      (multiArchRefToImages lib ref registry desc') := by
  refine refines_bind (refines_fail h.imageIndex _) fun index index' hindex => ?_
  refine refines_bind (refines_fail hindex.indexManifest _) ?_
  rintro manifest _ rfl
  refine refines_bind (refines_fail hindex.digest _) ?_
  rintro indexDigest _ rfl
  refine refines_bind (refines_mapM fun m _ => indexEntryToImage_refines hindex indexDigest m) ?_
  rintro images _ rfl
  exact refines_ok rfl

theorem isContainerImage_refines (h : desc.Below desc') :
    Answers Eq (isContainerImage desc) (isContainerImage desc') := by
  unfold isContainerImage
  rw [← h.mediaType]
  split
  · refine refines_bind (refines_wrap h.parseIndexManifest _) ?_
    rintro manifest _ rfl
    exact refines_ok rfl
  · refine refines_bind (refines_wrap h.parseManifest _) ?_
    rintro manifest _ rfl
    exact refines_ok rfl
  · exact refines_ok rfl

theorem refToImages_refines {client client' : Client} (h : client.Below client') :
    Refines Failure.Temporary Eq (refToImages lib client ref registry)
      (refToImages lib client' ref registry) := by
  refine refines_bind (refines_fail (h.descriptor ref) _) fun desc desc' hdesc => ?_
  refine refines_bind (refines_fail (isContainerImage_refines hdesc) _) ?_
  rintro container _ rfl
  rw [← hdesc.mediaType]
  split
  · exact refines_ok rfl
  · split
    · exact multiArchRefToImages_refines hdesc
    · exact singleArchRefToImages_refines h

end Below

/-! ## The worker and its registry -/

variable {reference : String}

section Serves

variable {env env' : Env} {registry : Registry}

/-- The first worker sees what the second sees, if its requests to the registry succeed. -/
structure Serves (env env' : Env) : Prop where
  lib : env.lib = env'.lib
  client : env.client.Below env'.client
  unmarshal : env.unmarshal = env'.unmarshal

section

variable (h : Serves env env')
include h

theorem Serves.scannedRegistry (scanJob : ScanJob) :
    scannedRegistry env scanJob = scannedRegistry env' scanJob := by
  unfold Catalog.scannedRegistry
  rw [h.lib, h.unmarshal]

theorem discoverReferences_refines :
    Answers Eq (discoverReferences env registry) (discoverReferences env' registry) := by
  unfold discoverReferences
  rw [h.lib]
  refine refines_bind (refines_wrap (R := Eq) ?_ _) ?_
  · unfold discoverRepositories
    refine refines_bind (refines_refl _) ?_
    rintro reg _ rfl
    split
    · refine refines_bind (refines_wrap (h.client.catalog reg) _) ?_
      rintro repos _ rfl
      exact refines_ok rfl
    · exact refines_ok rfl
  rintro repositories _ rfl
  refine refines_bind (refines_mapM fun repository _ => refines_wrap ?_ _) ?_
  · unfold discoverImages
    refine refines_bind (refines_refl _) ?_
    rintro repo _ rfl
    refine refines_bind (refines_refl _) ?_
    rintro references _ rfl
    cases references with
    | some references => exact refines_ok rfl
    | none =>
      refine refines_bind (refines_wrap (h.client.tags repo) _) ?_
      rintro tags _ rfl
      exact refines_ok rfl
  rintro images _ rfl
  exact refines_ok rfl

theorem imagesOf_refines (reference : String) :
    Refines Failure.Temporary Eq (imagesOf env registry reference)
      (imagesOf env' registry reference) := by
  unfold imagesOf
  rw [h.lib]
  refine refines_bind (refines_refl _) ?_
  rintro parsed _ rfl
  refine refines_bind (refines_refl _) ?_
  rintro tagIsAllowed _ rfl
  split
  · exact refines_ok rfl
  · refine refines_mapError (refToImages_refines h.client) ?_
    rintro _ ⟨message, rfl⟩
    exact ⟨_, rfl⟩

theorem Serves.discoverReferences_eq {references : List String}
    (hreferences : discoverReferences env registry = .ok references) :
    discoverReferences env' registry = .ok references := by
  obtain ⟨_, hreferences', rfl⟩ := (discoverReferences_refines h).1 _ hreferences
  exact hreferences'

theorem Serves.imagesOf_eq {images : List Image}
    (himages : imagesOf env registry reference = .ok images) :
    imagesOf env' registry reference = .ok images := by
  obtain ⟨_, himages', rfl⟩ := (imagesOf_refines h reference).1 _ himages
  exact himages'

end

end Serves

/-! ## Panics -/

section Panics

variable {lib : Library} {client : Client} {registry : Registry} {ref : Reference} {α β : Type}

def Panics (x : Except Failure α) : Prop := ∃ i length, x = .error (.indexOutOfRange i length)

@[simp]
theorem panics_ok (a : α) : ¬Panics (.ok a : Except Failure α) := by
  rintro ⟨i, length, h⟩
  cases h

@[simp]
theorem panics_failed (message : String) :
    ¬Panics (.error (.failed message) : Except Failure α) := by
  rintro ⟨i, length, h⟩
  cases h

variable {x : Except Failure α}

theorem panics_bind {f : α → Except Failure β} :
    Panics (x >>= f) ↔ Panics x ∨ ∃ a, x = .ok a ∧ Panics (f a) := by
  cases x with
  | error e =>
    constructor
    · rintro ⟨i, length, h⟩
      cases h
      exact .inl ⟨i, length, rfl⟩
    · rintro (⟨i, length, h⟩ | ⟨a, h, -⟩)
      · cases h
        exact ⟨i, length, rfl⟩
      · cases h
  | ok a =>
    constructor
    · intro h
      exact .inr ⟨a, rfl, h⟩
    · rintro (h | ⟨a', h, hf⟩)
      · exact absurd h (panics_ok a)
      · cases h
        exact hf

theorem panics_map {f : α → β} : Panics (x.map f) ↔ Panics x := by
  cases x with
  | error e => simp [Panics, Except.map]
  | ok a => simp [Except.map]

/-- To say more about an error does not touch a panic. -/
theorem panics_mapError {f : Failure → Failure}
    (hfailed : ∀ message, ∃ message', f (.failed message) = .failed message')
    (hpanic : ∀ i length, f (.indexOutOfRange i length) = .indexOutOfRange i length) :
    Panics (x.mapError f) ↔ Panics x := by
  cases x with
  | ok a => simp [Except.mapError]
  | error e =>
    cases e with
    | failed message =>
      obtain ⟨message', heq⟩ := hfailed message
      simp [Except.mapError, heq]
    | indexOutOfRange i length => simp [Except.mapError, hpanic, Panics]

@[simp]
theorem panics_fail {message : String} {x : Except String α} : ¬Panics (fail message x) := by
  cases x with
  | ok a => exact panics_ok a
  | error e => exact panics_failed _

/-- There are more commands than layers, and nothing else is wrong with the layers. -/
def ImageDetails.Lacks (details : ImageDetails) : Prop :=
  details.layers.length < (nonEmpty details.history).length ∧
    ∀ layer ∈ details.layers, layer.Readable

variable {indexDigest : String}

theorem panics_imageDetailsToImage :
    Panics (imageDetailsToImage lib ref details registry indexDigest) ↔ details.Lacks := by
  constructor
  · rintro ⟨i, length, hpanic⟩
    rcases Nat.lt_or_ge details.layers.length (nonEmpty details.history).length with hlt | hle
    · refine ⟨hlt, fun layer hlayer => ?_⟩
      by_contra hread
      obtain ⟨message, hmessage⟩ := missing_of_unreadable hlt hlayer hread
      cases hpanic.symm.trans hmessage
    · exact absurd hpanic ((layersPaired_of_le hle).in_range i length)
  · rintro ⟨hlt, hread⟩
    obtain ⟨paired, hpaired⟩ := exists_mapM_pairLayer lib hread (nonEmpty details.history)
    refine ⟨details.layers.length, details.layers.length, ?_⟩
    rw [imageDetailsToImage_eq_error, imageLayers_of_lt hlt, hpaired]
    rfl

theorem panics_convert : Panics (convert lib ref details registry indexDigest) ↔ details.Lacks := by
  rw [convert, panics_mapError, panics_imageDetailsToImage]
  · exact fun message => ⟨_, rfl⟩
  · exact fun i length => rfl

/-- The registry serves an image with these details for the reference, and nothing goes wrong before
the worker comes to make an `Image` of them. -/
inductive ComesTo (lib : Library) (client : Client) (registry : Registry) (ref : Reference)
    (details : ImageDetails) : Prop where
  | single {desc : Descriptor} (descriptor : client.descriptor ref = .ok desc)
      (container : isContainerImage desc = .ok true) (mediaType : desc.mediaType ≠ .index)
      (details_eq : getImageDetails client ref = .ok details)
      (platform_allowed : allowed registry details.platform = true)
  | index {desc : Descriptor} {imageIndex : ImageIndex} {manifest : IndexManifest}
      {indexDigest : String} {before after : List IndexEntry} {m : IndexEntry}
      {platform : Platform} (descriptor : client.descriptor ref = .ok desc)
      (container : isContainerImage desc = .ok true) (mediaType : desc.mediaType = .index)
      (imageIndex_eq : desc.imageIndex = .ok imageIndex)
      (manifest_eq : imageIndex.indexManifest = .ok manifest)
      (digest : imageIndex.digest = .ok indexDigest)
      (entries : manifest.manifests = before ++ m :: after)
      (before_ok : ∀ other ∈ before, ∃ image,
        indexEntryToImage lib ref registry imageIndex indexDigest other = .ok image)
      (platform_eq : m.platform = some platform)
      (platform_allowed : allowed registry platform = true)
      (details_eq : getImageDetailsFromIndex imageIndex m.digest platform = .ok details)

theorem panics_singleArch : Panics (singleArchRefToImages lib client ref registry) ↔
    ∃ details : ImageDetails, getImageDetails client ref = .ok details ∧
      allowed registry details.platform = true ∧ details.Lacks := by
  unfold singleArchRefToImages
  cases getImageDetails client ref with
  | error e => cases e <;> simp
  | ok details =>
    simp only [Except.ok.injEq, exists_eq_left']
    split
    case isTrue hallowed => simp [panics_map, panics_convert, hallowed]
    case isFalse hallowed => simp [hallowed]

theorem panics_indexEntry {imageIndex : ImageIndex} {m : IndexEntry} :
    Panics (indexEntryToImage lib ref registry imageIndex indexDigest m) ↔
      ∃ platform details, m.platform = some platform ∧ allowed registry platform = true ∧
        getImageDetailsFromIndex imageIndex m.digest platform = .ok details ∧ details.Lacks := by
  unfold indexEntryToImage
  cases m.platform with
  | none => simp
  | some platform =>
    simp only [Option.some.injEq]
    split
    case isFalse hallowed =>
      constructor
      · intro h
        exact absurd h (panics_ok _)
      · rintro ⟨platform', details, rfl, hallowed', -⟩
        exact absurd hallowed' hallowed
    case isTrue hallowed =>
      cases hdetails : getImageDetailsFromIndex imageIndex m.digest platform with
      | error e =>
        constructor
        · intro h
          cases e <;> simp at h
        · rintro ⟨platform', details, rfl, -, hok, -⟩
          cases hdetails.symm.trans hok
      | ok details =>
        rw [panics_map, panics_convert]
        constructor
        · intro h
          exact ⟨platform, details, rfl, hallowed, hdetails, h⟩
        · rintro ⟨platform', details', rfl, -, hok, h⟩
          cases hdetails.symm.trans hok
          exact h

theorem panics_multiArch :
    Panics (multiArchRefToImages lib ref registry desc) ↔
      ∃ imageIndex manifest indexDigest, desc.imageIndex = .ok imageIndex ∧
        imageIndex.indexManifest = .ok manifest ∧ imageIndex.digest = .ok indexDigest ∧
        ∃ before m after, manifest.manifests = before ++ m :: after ∧
          (∀ other ∈ before, ∃ image,
            indexEntryToImage lib ref registry imageIndex indexDigest other = .ok image) ∧
          Panics (indexEntryToImage lib ref registry imageIndex indexDigest m) := by
  unfold multiArchRefToImages fail
  simp only [panics_bind, mapError_eq_ok]
  constructor
  · rintro (h | ⟨imageIndex, hindex, h | ⟨manifest, hmanifest, h | ⟨indexDigest, hdigest, h⟩⟩⟩)
    iterate 3 exact absurd h panics_fail
    refine ⟨imageIndex, manifest, indexDigest, hindex, hmanifest, hdigest, ?_⟩
    rcases h with ⟨i, length, h⟩ | ⟨images, -, h⟩
    · obtain ⟨before, m, after, hentries, hbefore, hm⟩ := mapM_eq_error.mp h
      exact ⟨before, m, after, hentries, hbefore, i, length, hm⟩
    · exact absurd h (panics_ok _)
  · rintro ⟨imageIndex, manifest, indexDigest, hindex, hmanifest, hdigest, before, m, after,
      hentries, hbefore, i, length, hm⟩
    refine .inr ⟨imageIndex, hindex, .inr ⟨manifest, hmanifest, .inr ⟨indexDigest, hdigest, ?_⟩⟩⟩
    exact .inl ⟨i, length, mapM_eq_error.mpr ⟨before, m, after, hentries, hbefore, hm⟩⟩

theorem panics_refToImages : Panics (refToImages lib client ref registry) ↔
    ∃ details : ImageDetails, ComesTo lib client registry ref details ∧ details.Lacks := by
  unfold refToImages
  constructor
  · intro h
    rcases panics_bind.mp h with h | ⟨desc, hdesc, h⟩
    · exact absurd h panics_fail
    rcases panics_bind.mp h with h | ⟨container, hcontainer, h⟩
    · exact absurd h panics_fail
    have hdesc := mapError_eq_ok.mp hdesc
    have hcontainer := mapError_eq_ok.mp hcontainer
    cases container with
    | false => exact absurd h (panics_ok _)
    | true =>
      rw [if_neg (by decide)] at h
      split at h
      case isTrue hmedia =>
        obtain ⟨imageIndex, manifest, indexDigest, hindex, hmanifest, hdigest, before, m, after,
          hentries, hbefore, hm⟩ := panics_multiArch.mp h
        obtain ⟨platform, details, hplatform, hallowed, hdetails, hlacks⟩ :=
          panics_indexEntry.mp hm
        exact ⟨details, .index hdesc hcontainer hmedia hindex hmanifest hdigest hentries hbefore
          hplatform hallowed hdetails, hlacks⟩
      case isFalse hmedia =>
        obtain ⟨details, hdetails, hallowed, hlacks⟩ := panics_singleArch.mp h
        exact ⟨details, .single hdesc hcontainer hmedia hdetails hallowed, hlacks⟩
  · rintro ⟨details, hcomes, hlacks⟩
    cases hcomes with
    | single hdesc hcontainer hmedia hdetails hallowed =>
      refine panics_bind.mpr (.inr ⟨_, mapError_eq_ok.mpr hdesc, ?_⟩)
      refine panics_bind.mpr (.inr ⟨_, mapError_eq_ok.mpr hcontainer, ?_⟩)
      rw [if_neg (by decide), if_neg hmedia]
      exact panics_singleArch.mpr ⟨details, hdetails, hallowed, hlacks⟩
    | index hdesc hcontainer hmedia hindex hmanifest hdigest hentries hbefore hplatform hallowed
        hdetails =>
        refine panics_bind.mpr (.inr ⟨_, mapError_eq_ok.mpr hdesc, ?_⟩)
        refine panics_bind.mpr (.inr ⟨_, mapError_eq_ok.mpr hcontainer, ?_⟩)
        rw [if_neg (by decide), if_pos hmedia]
        exact panics_multiArch.mpr ⟨_, _, _, hindex, hmanifest, hdigest, _, _, _, hentries, hbefore,
          panics_indexEntry.mpr ⟨_, _, hplatform, hallowed, hdetails, hlacks⟩⟩

/-- A panic is not a failure of the registry. -/
theorem Serves.panics_imagesOf {env env' : Env} (h : Serves env env')
    (hpanics : Panics (imagesOf env registry reference)) :
    Panics (imagesOf env' registry reference) := by
  obtain ⟨i, length, heq⟩ := hpanics
  rcases (imagesOf_refines h reference).2 _ heq with ⟨message, hmessage⟩ | heq'
  · cases hmessage
  · exact ⟨i, length, heq'⟩

/-- **What leads to a panic**: a reference that is accepted, with an image behind it that has more
commands than layers. -/
theorem panics_imagesOf {env : Env} :
    Panics (imagesOf env registry reference) ↔
      ∃ ref details, accepted env registry reference = some ref ∧
        ComesTo env.lib env.client registry ref details ∧ details.Lacks := by
  constructor
  · intro h
    rcases panics_bind.mp h with h | ⟨ref, href, h⟩
    · exact absurd h panics_fail
    rcases panics_bind.mp h with ⟨i, length, h⟩ | ⟨tagIsAllowed, hfilter, h⟩
    · cases hfilter : filterByTag env.lib.evaluate (registry.getRepository ref.repository)
          ref.identifier with
      | error e =>
        rw [hfilter] at h
        cases h
      | ok tagIsAllowed =>
        rw [hfilter] at h
        cases h
    have href := mapError_eq_ok.mp href
    have hfilter := mapError_eq_ok.mp hfilter
    cases tagIsAllowed with
    | false => exact absurd h (panics_ok _)
    | true =>
      rw [if_neg (by decide), panics_mapError (fun _ => ⟨_, rfl⟩) fun _ _ => rfl,
        panics_refToImages] at h
      obtain ⟨details, hcomes, hlacks⟩ := h
      refine ⟨ref, details, ?_, hcomes, hlacks⟩
      simp only [accepted, href, hfilter]
      rfl
  · rintro ⟨ref, details, haccepted, hcomes, hlacks⟩
    unfold accepted at haccepted
    split at haccepted
    case h_1 => cases haccepted
    case h_2 parsed href =>
      split at haccepted
      case isFalse => cases haccepted
      case isTrue hfilter =>
        cases haccepted
        have hfilter := eq_ok_of_toOption hfilter
        refine panics_bind.mpr (.inr ⟨_, mapError_eq_ok.mpr href, ?_⟩)
        refine panics_bind.mpr (.inr ⟨_, mapError_eq_ok.mpr hfilter, ?_⟩)
        rw [if_neg (by decide), panics_mapError (fun _ => ⟨_, rfl⟩) fun _ _ => rfl]
        exact panics_refToImages.mpr ⟨details, hcomes, hlacks⟩

end Panics

end SbomScanner.Catalog

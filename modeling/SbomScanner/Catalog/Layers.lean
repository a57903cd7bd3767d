import SbomScanner.Catalog.Images

/-!
# The layers of an image

The history of an image has an entry for each command that built it, and a layer belongs to each
entry that is not empty. `imageDetailsToImage` counts these entries as it goes and takes the layer
of that number. History and layers come from the registry, in two lists that need not fit together.

`imageLayers_eq` says what the loop does with any two lists. The check in front of the access lets
the number of the first layer that is missing through, so that a history with too many entries is
never reported: the loop stops at a layer that cannot be read, or else it panics
(`layersPaired_iff`).
-/

namespace SbomScanner.Catalog

open Api Fallible List
open ImageName (Reference)

def nonEmpty (history : List History) : List History := history.filter fun h => !h.emptyLayer

/-- What the loop makes of an entry and the layer that belongs to it. -/
def pairLayer (lib : Library) (pair : History × Layer) : Except Failure ImageLayer := do
  let digest ← fail "cannot read layer digest" pair.2.digest
  let diffID ← fail "cannot read layer diffID" pair.2.diffID
  return ⟨lib.base64 pair.1.createdBy, digest, diffID⟩

def Layer.Readable (layer : Layer) : Prop :=
  ∃ digest diffID, layer.digest = .ok digest ∧ layer.diffID = .ok diffID

section Pairs

variable {lib : Library} {entry : History} {layer : Layer} {paired : ImageLayer}

theorem pairLayer_eq_ok : pairLayer lib (entry, layer) = .ok paired ↔
    layer.digest = .ok paired.digest ∧ layer.diffID = .ok paired.diffID ∧
      paired.command = lib.base64 entry.createdBy := by
  constructor
  · intro h
    obtain ⟨digest, hdigest, h⟩ := bind_eq_ok.mp h
    obtain ⟨diffID, hdiffID, h⟩ := bind_eq_ok.mp h
    cases h
    exact ⟨mapError_eq_ok.mp hdigest, mapError_eq_ok.mp hdiffID, rfl⟩
  · rintro ⟨hdigest, hdiffID, hcommand⟩
    refine bind_eq_ok.mpr ⟨_, mapError_eq_ok.mpr hdigest, ?_⟩
    refine bind_eq_ok.mpr ⟨_, mapError_eq_ok.mpr hdiffID, ?_⟩
    rw [← hcommand]
    rfl

theorem readable_iff : layer.Readable ↔ ∃ paired, pairLayer lib (entry, layer) = .ok paired := by
  constructor
  · rintro ⟨digest, diffID, hdigest, hdiffID⟩
    exact ⟨⟨lib.base64 entry.createdBy, digest, diffID⟩,
      pairLayer_eq_ok.mpr ⟨hdigest, hdiffID, rfl⟩⟩
  · rintro ⟨paired, h⟩
    obtain ⟨hdigest, hdiffID, -⟩ := pairLayer_eq_ok.mp h
    exact ⟨_, _, hdigest, hdiffID⟩

theorem pairLayer_eq_error {e : Failure} (h : pairLayer lib (entry, layer) = .error e) :
    ∃ message, e = .failed message := by
  unfold pairLayer at h
  cases hdigest : layer.digest with
  | error reason =>
    rw [hdigest] at h
    cases h
    exact ⟨_, rfl⟩
  | ok digest =>
    cases hdiffID : layer.diffID with
    | error reason =>
      rw [hdigest, hdiffID] at h
      cases h
      exact ⟨_, rfl⟩
    | ok diffID =>
      rw [hdigest, hdiffID] at h
      cases h

end Pairs

/-- **The loop.** Entries and layers are paired as long as there are both, and if there are entries
left then, the loop panics. -/
theorem imageLayers_eq (lib : Library) (layers : List Layer) (counter : Nat)
    (history : List History) (hcounter : counter ≤ layers.length) :
    imageLayers lib layers counter history = (do
      let paired ← ((nonEmpty history).zip (layers.drop counter)).mapM (pairLayer lib)
      if (nonEmpty history).length ≤ layers.length - counter then .ok paired
      else .error (.indexOutOfRange layers.length layers.length)) := by
  induction history generalizing counter with
  | nil => rfl
  | cons entry history ih =>
    rw [imageLayers]
    split
    case isTrue hempty =>
      have hskip : nonEmpty (entry :: history) = nonEmpty history :=
        filter_cons_of_neg (by simp [hempty])
      rw [ih counter hcounter, hskip]
    case isFalse hempty =>
      have hcons : nonEmpty (entry :: history) = entry :: nonEmpty history :=
        filter_cons_of_pos (by simp [hempty])
      rw [if_neg (by omega), hcons]
      by_cases hlast : counter = layers.length
      · -- the first layer that is missing: the check has let it through
        subst hlast
        rw [List.getElem?_eq_none (Nat.le_refl _), drop_length, zip_nil_right]
        simp
      · have hlt : counter < layers.length := by omega
        have hfits : (nonEmpty history).length + 1 ≤ layers.length - counter ↔
            (nonEmpty history).length ≤ layers.length - (counter + 1) := by omega
        rw [List.getElem?_eq_getElem hlt, drop_eq_getElem_cons hlt, zip_cons_cons, mapM_cons]
        simp only [ih (counter + 1) hlt, pairLayer, bind_assoc, pure_bind, length_cons, hfits]
        congr! 4
        split <;> rfl

section Loop

variable {lib : Library} {layers : List Layer} {history : List History}

theorem imageLayers_of_le (h : (nonEmpty history).length ≤ layers.length) :
    imageLayers lib layers 0 history = ((nonEmpty history).zip layers).mapM (pairLayer lib) := by
  rw [imageLayers_eq lib layers 0 history (Nat.zero_le _), drop_zero]
  simp only [Nat.sub_zero, if_pos h]
  exact bind_pure _

theorem imageLayers_of_lt (h : layers.length < (nonEmpty history).length) :
    imageLayers lib layers 0 history = (do
      let _ ← ((nonEmpty history).zip layers).mapM (pairLayer lib)
      .error (.indexOutOfRange layers.length layers.length)) := by
  rw [imageLayers_eq lib layers 0 history (Nat.zero_le _), drop_zero]
  simp only [Nat.sub_zero, if_neg (Nat.not_le.mpr h)]

theorem mapM_pairLayer_eq_error {pairs : List (History × Layer)} {e : Failure}
    (h : pairs.mapM (pairLayer lib) = .error e) : ∃ message, e = .failed message := by
  obtain ⟨_, pair, _, -, -, hpair⟩ := mapM_eq_error.mp h
  exact pairLayer_eq_error hpair

theorem exists_mapM_pairLayer (lib : Library) (h : ∀ layer ∈ layers, layer.Readable)
    (entries : List History) :
    ∃ paired, (entries.zip layers).mapM (pairLayer lib) = .ok paired := by
  refine exists_mapM_eq_ok fun pair hpair => ?_
  exact readable_iff.mp (h pair.2 (of_mem_zip hpair).2)

end Loop

/-! ## The pairs -/

section Paired

variable {lib : Library} {ref : Reference} {details : ImageDetails} {registry : Registry}
  {indexDigest : String}

/-- The entries of the history and the layers go in pairs: no access is out of range, a history with
more entries than there are layers is an error, and otherwise entry and layer number `i` make up the
`i`th layer of the image. -/
structure LayersPaired (lib : Library) (ref : Reference) (details : ImageDetails)
    (registry : Registry) (indexDigest : String) : Prop where
  in_range : ∀ i length, imageDetailsToImage lib ref details registry indexDigest ≠
    .error (.indexOutOfRange i length)
  missing : details.layers.length < (nonEmpty details.history).length → ∃ message,
    imageDetailsToImage lib ref details registry indexDigest = .error (.failed message)
  paired : (nonEmpty details.history).length ≤ details.layers.length → ∀ image : Image,
    imageDetailsToImage lib ref details registry indexDigest = .ok image →
      image.layers.length = (nonEmpty details.history).length ∧
      ∀ (i : Nat) (entry : History), (nonEmpty details.history)[i]? = some entry →
        ∃ (layer : Layer) (paired : ImageLayer), details.layers[i]? = some layer ∧
          image.layers[i]? = some paired ∧ paired.command = lib.base64 entry.createdBy ∧
            layer.digest = .ok paired.digest ∧ layer.diffID = .ok paired.diffID
  /-- an image with enough layers fails only if one of them cannot be read -/
  readable : (nonEmpty details.history).length ≤ details.layers.length →
    (∀ layer ∈ details.layers, layer.Readable) →
      ∃ image, imageDetailsToImage lib ref details registry indexDigest = .ok image

theorem imageLayers_of_eq_ok {image : Image}
    (h : imageDetailsToImage lib ref details registry indexDigest = .ok image) :
    imageLayers lib details.layers 0 details.history = .ok image.layers := by
  obtain ⟨layers, hlayers, h⟩ := bind_eq_ok.mp h
  cases h
  exact hlayers

theorem imageDetailsToImage_eq_error {e : Failure} :
    imageDetailsToImage lib ref details registry indexDigest = .error e ↔
      imageLayers lib details.layers 0 details.history = .error e := by
  unfold imageDetailsToImage
  cases imageLayers lib details.layers 0 details.history with
  | error e' =>
    show Except.error e' = Except.error e ↔ Except.error e' = Except.error e
    simp only [Except.error.injEq]
  | ok layers => constructor <;> (intro h; cases h)

/-- Each layer belongs to an entry, so one that cannot be read is come upon. -/
theorem missing_of_unreadable (h : details.layers.length < (nonEmpty details.history).length)
    {layer : Layer} (hlayer : layer ∈ details.layers) (hread : ¬layer.Readable) :
    ∃ message,
      imageDetailsToImage lib ref details registry indexDigest = .error (.failed message) := by
  simp only [imageDetailsToImage_eq_error]
  rw [imageLayers_of_lt h]
  cases hmap : ((nonEmpty details.history).zip details.layers).mapM (pairLayer lib) with
  | error e =>
    obtain ⟨message, rfl⟩ := mapM_pairLayer_eq_error hmap
    exact ⟨message, rfl⟩
  | ok paired =>
    obtain ⟨i, hi, hget⟩ := mem_iff_getElem.mp hlayer
    have hpair : ((nonEmpty details.history)[i], layer) ∈
        (nonEmpty details.history).zip details.layers := by
      rw [← hget, mem_iff_getElem]
      refine ⟨i, ?_, getElem_zip⟩
      rw [length_zip]
      omega
    obtain ⟨out, -, hout⟩ := exists_mem_of_mapM hmap hpair
    exact absurd (readable_iff.mpr ⟨out, hout⟩) hread

theorem layersPaired_of_le (h : (nonEmpty details.history).length ≤ details.layers.length) :
    LayersPaired lib ref details registry indexDigest where
  in_range i length hpanic := by
    rw [imageDetailsToImage_eq_error, imageLayers_of_le h] at hpanic
    obtain ⟨message, hmessage⟩ := mapM_pairLayer_eq_error hpanic
    cases hmessage
  missing hlt := absurd h (Nat.not_le.mpr hlt)
  paired _ image himage := by
    have hlayers := imageLayers_of_eq_ok himage
    rw [imageLayers_of_le h] at hlayers
    have hpairs := mapM_eq_ok.mp hlayers
    refine ⟨?_, fun i entry hentry => ?_⟩
    · rw [← hpairs.length_eq, length_zip, Nat.min_eq_left h]
    · obtain ⟨hi, rfl⟩ := List.getElem?_eq_some_iff.mp hentry
      have hlayer : i < details.layers.length := by omega
      have hzip : i < ((nonEmpty details.history).zip details.layers).length := by
        rw [length_zip]
        omega
      have himg : i < image.layers.length := hpairs.length_eq ▸ hzip
      have hpair := hpairs.get hzip himg
      simp only [get_eq_getElem, getElem_zip] at hpair
      obtain ⟨hdigest, hdiffID, hcommand⟩ := pairLayer_eq_ok.mp hpair
      exact ⟨_, _, List.getElem?_eq_getElem hlayer, List.getElem?_eq_getElem himg, hcommand,
        hdigest, hdiffID⟩
  readable _ hread := by
    obtain ⟨paired, hpaired⟩ := exists_mapM_pairLayer lib hread (nonEmpty details.history)
    rw [← imageLayers_of_le h] at hpaired
    exact ⟨_, bind_eq_ok.mpr ⟨paired, hpaired, rfl⟩⟩

/-- **The layers of an image are paired** iff there are enough of them, or one of them cannot be
read and is come upon before the entry that has none. Everything else is a panic. -/
theorem layersPaired_iff (lib : Library) (ref : Reference) (details : ImageDetails)
    (registry : Registry) (indexDigest : String) :
    LayersPaired lib ref details registry indexDigest ↔
      (nonEmpty details.history).length ≤ details.layers.length ∨
        ∃ layer ∈ details.layers, ¬layer.Readable := by
  rcases Nat.lt_or_ge details.layers.length (nonEmpty details.history).length with hlt | hle
  · constructor
    · intro h
      by_contra hnot
      push Not at hnot
      obtain ⟨paired, hpaired⟩ :=
        exists_mapM_pairLayer lib hnot.2 (nonEmpty details.history)
      apply h.in_range details.layers.length details.layers.length
      rw [imageDetailsToImage_eq_error, imageLayers_of_lt hlt, hpaired]
      rfl
    · rintro (hle | ⟨layer, hlayer, hread⟩)
      · exact absurd hlt (Nat.not_lt.mpr hle)
      · obtain ⟨message, hmessage⟩ := missing_of_unreadable hlt hlayer hread
        refine ⟨fun i length hpanic => ?_, fun _ => ⟨message, hmessage⟩,
          fun hle => absurd hlt (Nat.not_lt.mpr hle), fun hle => absurd hlt (Nat.not_lt.mpr hle)⟩
        rw [hmessage] at hpanic
        cases hpanic
  · exact ⟨fun _ => .inl hle, fun _ => layersPaired_of_le hle⟩

end Paired

/-- Two commands and one layer. -/
def missingLayer : ImageDetails where
  digest := "sha256:1"
  layers := [⟨.ok "sha256:2", .ok "sha256:3"⟩]
  history := [⟨false, "COPY app /"⟩, ⟨true, "ENV DEBUG=1"⟩, ⟨false, "RUN app --init"⟩]
  platform := ⟨"linux", "amd64", ""⟩

namespace OneLayer

def lib : Library where
  isAuthority s := '/' ∉ s.toList
  badName s := s
  quote s := s
  sha256 s := s
  base64 s := s
  evaluate _ _ := .ok true

def registry : Registry where
  name := "ghcr"
  ns := "default"
  labels := ∅
  annotations := ∅
  spec := {
    uri := "ghcr.io", catalogType := .ociDistribution, repositories := [], authSecret := ""
    scanInterval := none, caBundle := "", caBundleRef := none, insecure := false
    platforms := [] }

def reference : Reference := ⟨"ghcr.io", "app", "v1"⟩

end OneLayer

open OneLayer in
theorem missingLayer_panics :
    imageDetailsToImage lib reference missingLayer registry "" = .error (.indexOutOfRange 1 1) ∧
    ¬LayersPaired lib reference missingLayer registry "" :=
  ⟨rfl, fun h => h.in_range 1 1 rfl⟩

end SbomScanner.Catalog

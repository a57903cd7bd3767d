import SbomScanner.Catalog.Counts

/-!
# The images that a run leaves

A run lists the images of its registry, stores those that it finds in the registry and that are not
there, and, if it scans all of the registry, deletes those that it has listed and not found. All of
it goes by the names of the images, in a namespace that the registry shares with others. The name is
the hash of what the image is, the name of the registry first.

`Between` is what holds of the images in any state of a run: those of other registries are the ones
from before, and its own are from before or found. `images_of_run` says what there is at the end.
-/

namespace SbomScanner.Catalog

open Api Procedure Fallible List

/-! ## The images of a registry -/

section Own

variable {registry : Registry} {images prior : List Image} {image : Image} {name : String}

def ownNames (registry : Registry) (images : List Image) : List String :=
  (images.filter (ofRegistry registry)).map (·.name)

def foreign (registry : Registry) (images : List Image) : List Image :=
  images.filter fun image => !ofRegistry registry image

theorem mem_ownNames : name ∈ ownNames registry images ↔
    ∃ image ∈ images, ofRegistry registry image = true ∧ image.name = name := by
  simp only [ownNames, mem_map, mem_filter, and_assoc]

theorem ns_of_ofRegistry (h : ofRegistry registry image = true) : image.ns = registry.ns := by
  simp only [ofRegistry, Bool.and_eq_true, decide_eq_true_eq] at h
  exact h.1

theorem mem_ownNames_add (h : ofRegistry registry image = true) :
    name ∈ ownNames registry (images ++ [image]) ↔
      name ∈ ownNames registry images ∨ name = image.name := by
  rw [ownNames, filter_append, map_append, mem_append]
  simp [ownNames, h]

theorem mem_ownNames_append {others : List Image} (h : name ∈ ownNames registry images) :
    name ∈ ownNames registry (images ++ others) := by
  rw [ownNames, filter_append, map_append]
  exact mem_append_left _ h

theorem mem_ownNames_remove {removed : String} :
    name ∈ ownNames registry (images.filter (imageKey · ≠ (registry.ns, removed))) ↔
      name ∈ ownNames registry images ∧ name ≠ removed := by
  simp only [mem_ownNames, mem_filter, decide_eq_true_eq]
  constructor
  · rintro ⟨image, ⟨hmem, hkey⟩, hof, rfl⟩
    refine ⟨⟨image, hmem, hof, rfl⟩, fun heq => hkey ?_⟩
    rw [imageKey, ns_of_ofRegistry hof, heq]
  · rintro ⟨⟨image, hmem, hof, rfl⟩, hne⟩
    refine ⟨image, ⟨hmem, fun hkey => hne ?_⟩, hof, rfl⟩
    exact (Prod.mk.inj hkey).2

theorem nodup_keys_add (h : (images.map imageKey).Nodup)
    (hnew : imageKey image ∉ images.map imageKey) : ((images ++ [image]).map imageKey).Nodup := by
  rw [map_append, nodup_append]
  refine ⟨h, nodup_singleton _, ?_⟩
  rintro key hkey _ hmem rfl
  rw [map_singleton, mem_singleton] at hmem
  exact hnew (hmem ▸ hkey)

/-- No other registry has an image of the name in the namespace. -/
def Unclaimed (registry : Registry) (images : List Image) (name : String) : Prop :=
  ∀ image ∈ foreign registry images, imageKey image ≠ (registry.ns, name)

/-- Where the images are in a run: those of other registries as before, those of its own from before
or found, and no two with one key. -/
structure Between (registry : Registry) (found : String → Prop) (prior images : List Image) :
    Prop where
  foreign_eq : foreign registry images = foreign registry prior
  own : ∀ name ∈ ownNames registry images, name ∈ ownNames registry prior ∨ found name
  keys : (images.map imageKey).Nodup

variable {found : String → Prop}

theorem Between.refl (h : (prior.map imageKey).Nodup) : Between registry found prior prior :=
  ⟨rfl, fun _ => .inl, h⟩

section

variable (h : Between registry found prior images)
include h

theorem Between.add (hof : ofRegistry registry image = true) (hfound : found image.name)
    (hnew : imageKey image ∉ images.map imageKey) :
    Between registry found prior (images ++ [image]) where
  foreign_eq := by
    rw [← h.foreign_eq, foreign, filter_append]
    simp [foreign, hof]
  own name hname := by
    rcases (mem_ownNames_add hof).mp hname with hold | rfl
    · exact h.own name hold
    · exact .inr hfound
  keys := nodup_keys_add h.keys hnew

/-- An image that is not of the registry was there before. -/
theorem Between.mem_foreign (himage : image ∈ images) (hof : ofRegistry registry image = false) :
    image ∈ foreign registry prior := by
  rw [← h.foreign_eq, foreign, mem_filter, hof]
  exact ⟨himage, rfl⟩

theorem Between.remove (hunclaimed : Unclaimed registry prior name) :
    Between registry found prior (images.filter (imageKey · ≠ (registry.ns, name))) where
  foreign_eq := by
    rw [← h.foreign_eq, foreign, filter_filter, foreign]
    apply filter_congr
    intro image himage
    cases hof : ofRegistry registry image with
    | true => rfl
    | false => simpa using hunclaimed image (h.mem_foreign himage hof)
  own other hother := h.own other (mem_ownNames_remove.mp hother).1
  keys := h.keys.sublist (filter_sublist.map _)

/-- What holds the key is an image of the registry. -/
theorem Between.mem_ownNames_of_key (hunclaimed : Unclaimed registry prior name)
    (hkey : (registry.ns, name) ∈ images.map imageKey) : name ∈ ownNames registry images := by
  obtain ⟨image, himage, heq⟩ := mem_map.mp hkey
  cases hof : ofRegistry registry image with
  | true => exact mem_ownNames.mpr ⟨image, himage, hof, (Prod.mk.inj heq).2⟩
  | false => exact absurd heq (hunclaimed image (h.mem_foreign himage hof))

end

/-- A registry has its own keys. -/
theorem unclaimed_of_own (hkeys : (prior.map imageKey).Nodup)
    (h : name ∈ ownNames registry prior) : Unclaimed registry prior name := by
  intro other hother hkey
  obtain ⟨image, himage, hof, rfl⟩ := mem_ownNames.mp h
  obtain ⟨hmem, hnot⟩ := mem_filter.mp hother
  have hsame : other = image := by
    apply inj_on_of_nodup_map hkeys hmem himage
    rw [hkey, imageKey, ns_of_ofRegistry hof]
  rw [hsame, hof] at hnot
  cases hnot

end Own

/-! ## Names -/

section Named

variable {env : Env} {registry : Registry} {images : List Image} {name : String}

/-- The name is that of an image of the registry, as the handler makes it. -/
def NamedFor (lib : Library) (registryName name : String) : Prop :=
  ∃ repository identifier digest, name = computeImageUID lib registryName repository identifier
    digest

/-- The images of a cluster. They are all stored by the handler, which names them after their
registries; the names of these have no slash. -/
structure Sound (lib : Library) (images : List Image) : Prop where
  keys : (images.map imageKey).Nodup
  named : ∀ image ∈ images, NamedFor lib image.registry image.name
  noSlash : ∀ image ∈ images, '/' ∉ image.registry.toList

variable {lib : Library}

theorem Sound.add {image : Image} (h : Sound lib images)
    (hnamed : NamedFor lib image.registry image.name) (hslash : '/' ∉ image.registry.toList)
    (hnew : imageKey image ∉ images.map imageKey) : Sound lib (images ++ [image]) where
  keys := nodup_keys_add h.keys hnew
  named other hother := by
    rcases mem_append.mp hother with hold | hlast
    · exact h.named other hold
    · rw [mem_singleton.mp hlast]
      exact hnamed
  noSlash other hother := by
    rcases mem_append.mp hother with hold | hlast
    · exact h.noSlash other hold
    · rw [mem_singleton.mp hlast]
      exact hslash

theorem Sound.filter (h : Sound lib images) (p : Image → Bool) :
    Sound lib (images.filter p) where
  keys := h.keys.sublist (filter_sublist.map _)
  named image himage := h.named image (mem_filter.mp himage).1
  noSlash image himage := h.noSlash image (mem_filter.mp himage).1

/-- The hash tells the registry. -/
theorem NamedFor.inj (hsha : Function.Injective lib.sha256) {r r' : String} (hr : '/' ∉ r.toList)
    (hr' : '/' ∉ r'.toList) (h : NamedFor lib r name) (h' : NamedFor lib r' name) : r = r' := by
  obtain ⟨repository, identifier, digest, rfl⟩ := h
  obtain ⟨repository', identifier', digest', heq⟩ := h'
  have htext := congrArg String.toList (hsha heq)
  simp only [String.toList_append, append_assoc] at htext
  exact String.toList_inj.mp (Strings.append_cons_inj hr hr' htext).1

def Found (env : Env) (registry : Registry) (name : String) : Prop :=
  ∃ references, discoverReferences env registry = .ok references ∧
    ∃ reference ∈ references, name ∈ namesOf env registry reference

theorem namedFor_of_found (h : Found env registry name) : NamedFor env.lib registry.name name := by
  obtain ⟨references, -, reference, -, hname⟩ := h
  unfold namesOf at hname
  split at hname
  case h_1 => cases hname
  case h_2 =>
    obtain ⟨digest, -, rfl⟩ := mem_map.mp hname
    exact ⟨_, _, digest, rfl⟩

theorem unclaimed_of_found (hsha : Function.Injective env.lib.sha256)
    (hslash : '/' ∉ registry.name.toList) (hsound : Sound env.lib images)
    (h : Found env registry name) : Unclaimed registry images name := by
  intro image himage hkey
  obtain ⟨hmem, hnot⟩ := mem_filter.mp himage
  obtain ⟨hns, hname⟩ := Prod.mk.inj hkey
  have hnamed := hsound.named image hmem
  rw [hname] at hnamed
  have hsame := hnamed.inj hsha (hsound.noSlash image hmem) hslash (namedFor_of_found h)
  simp [ofRegistry, hns, hsame] at hnot

end Named

/-! ## Nobody else -/

variable {P : List Image → Prop}

section Quiet

variable {env : Env} {ref : JobRef} {job scanJob : ScanJob} {registry : Registry}
  {prior : List Image} {world world' : World}

/-- What the handler takes from a ScanJob but for its status. -/
structure SameScan (job current : ScanJob) : Prop where
  name : current.name = job.name
  ns : current.ns = job.ns
  snapshot : Webhook.snapshot current = Webhook.snapshot job
  spec : current.spec = job.spec

/-- If the ScanJob of the message is still there, it asks for the same scan. -/
def Reads (ref : JobRef) (job : ScanJob) (objects : Objects) : Prop :=
  ∀ current, objects.scanJob = some current → current.uid = ref.uid → SameScan job current

/-- Nobody else writes images, the ScanJob keeps its specification and its snapshot, and that an
image is there already is said only if it is. -/
structure Quiet (env : Env) (ref : JobRef) (job : ScanJob) : Prop where
  images : ∀ req objects, (env.others req objects).images = objects.images
  scanJob : ∀ req objects, Reads ref job objects → Reads ref job (env.others req objects)
  fault : ∀ req, env.fault req ≠ some .alreadyExists

theorem scannedRegistry_congr (h : SameScan job scanJob) :
    scannedRegistry env scanJob = scannedRegistry env job := by
  unfold scannedRegistry Worker.registryFromScanJob applyTargetsToRegistry
  rw [h.name, h.ns, h.snapshot, h.spec]

theorem sameScan_withStatus {status : Jobs.Status} (h : SameScan job scanJob) :
    SameScan job (withStatus scanJob status) :=
  ⟨h.name, h.ns, h.snapshot, h.spec⟩

theorem Quiet.tolerates (h : Quiet env ref job) (P : List Image → Prop) :
    Tolerates env fun world => Reads ref job world.objects ∧ P world.objects.images := by
  rintro req world ⟨hreads, himages⟩
  refine ⟨h.scanJob req _ hreads, ?_⟩
  rw [h.images]
  exact himages

theorem keeps_start
    (h : Tolerates env fun world => Reads ref job world.objects ∧ P world.objects.images) :
    Keeps (fun world => Reads ref job world.objects ∧ P world.objects.images)
      (startCatalog env ref) (SameScan job) := by
  refine keeps_startCatalog (Q := fun scanJob => scanJob.uid = ref.uid) h (fun _ _ huid => huid) ?_
  rintro world current scanJob now ⟨hreads, himages⟩ hcurrent huid hsame
  have hscan : SameScan job current := hreads current hcurrent (hsame.trans huid)
  refine ⟨⟨?_, himages⟩, sameScan_withStatus hscan⟩
  rintro updated heq -
  cases heq
  exact sameScan_withStatus hscan

theorem keeps_finish (h : Quiet env ref job) (P : List Image → Prop) (images : List Image) :
    Keeps (fun world => Reads ref job world.objects ∧ P world.objects.images)
      (finishCatalog env ref images) fun _ => True := by
  refine keeps_finishCatalog (h.tolerates P) ?_
  rintro world current status ⟨hreads, himages⟩ hcurrent
  refine ⟨?_, himages⟩
  rintro updated heq huid
  cases heq
  exact sameScan_withStatus (hreads current hcurrent huid)

theorem key_of_createImage (h : Quiet env ref job) {image : Image}
    (hreturns : Returns (createImage env image) world ⟨⟩ world') :
    imageKey image ∈ world'.objects.images.map imageKey := by
  rcases returns_tryCatch.mp hreturns with hbody | ⟨stop, stopped, hstop, hcaught⟩
  · obtain ⟨_, created, hcall, hprogress⟩ := returns_bind.mp hbody
    have hcreated := returns_call hcall
    split at hcreated
    case isTrue => cases hcreated
    case isFalse =>
      cases hcreated
      obtain ⟨rfl, -⟩ := returns_ask hprogress
      show imageKey image ∈ (env.others _ _).images.map imageKey
      rw [h.images]
      exact mem_map_of_mem (mem_append_right _ mem_cons_self)
  · -- it is said to be there already, and nobody says so without reason
    split at hcaught
    case h_2 => exact absurd hcaught not_returns_throw
    case h_1 =>
      obtain ⟨-, rfl⟩ := returns_pure.mp hcaught
      rcases throws_bind.mp hstop with hcall | ⟨_, created, -, hprogress⟩
      · obtain ⟨-, cause, heq, hcause⟩ := throws_call hcall
        cases heq
        rcases hcause with hfault | hperform
        · exact absurd hfault (h.fault _)
        · split at hperform
          case isFalse => cases hperform
          case isTrue hexists => exact hexists
      · obtain ⟨-, cause, heq, hcause⟩ := throws_call hprogress
        cases heq
        rcases hcause with hfault | hperform
        · exact absurd hfault (h.fault _)
        · cases hperform

/-- The images that the loop has passed are listed or stored. -/
def Seen (existing : List String) (passed stored : List Image) : Prop :=
  ∀ image ∈ passed, image.name ∈ existing ∨ imageKey image ∈ stored.map imageKey

/-- Of the images with one key the loop stores none but the first. -/
theorem keeps_loop (h : Quiet env ref job) {existing : List String} {images : List Image}
    (hadd : ∀ {before image after stored}, images = before ++ image :: after →
      (∀ other ∈ before, imageKey other ≠ imageKey image) → P stored →
      imageKey image ∉ stored.map imageKey → P (stored ++ [image]))
    (hscanJob : SameScan job scanJob) :
    Keeps (fun world => Reads ref job world.objects ∧ P world.objects.images)
      (catalogImages env ref existing scanJob images) (SameScan job) := by
  -- the invariant of the loop says which images are behind it
  have hrest : ∀ rest passed scanJob, images = passed ++ rest → SameScan job scanJob →
      Keeps (fun world => Reads ref job world.objects ∧
          P world.objects.images ∧ Seen existing passed world.objects.images)
        (catalogImages env ref existing scanJob rest) (SameScan job) := by
    intro rest
    induction rest with
    | nil => exact fun passed scanJob _ hscanJob => keeps_pure hscanJob
    | cons image rest ih =>
      intro passed scanJob heq _
      have htolerates := h.tolerates fun stored => P stored ∧ Seen existing passed stored
      refine keeps_bind (keeps_refetchScanJob htolerates fun hat hcurrent huid =>
        hat.1 _ hcurrent huid) fun current hcurrent => ?_
      have hstore : Keeps (fun world => Reads ref job world.objects ∧
            P world.objects.images ∧ Seen existing passed world.objects.images)
          (if image.name ∈ existing then pure ⟨⟩ else createImage env image) fun _ => True := by
        split
        case isTrue => exact keeps_pure trivial
        case isFalse hlisted =>
          refine keeps_createImage htolerates fun {world} hat hnew => ?_
          obtain ⟨hreads, hP, hseen⟩ := hat
          refine ⟨hreads, hadd heq (fun other hother hkey => ?_) hP hnew, fun other hother => ?_⟩
          · rcases hseen other hother with hname | hstored
            · exact hlisted ((Prod.mk.inj hkey).2 ▸ hname)
            · exact hnew (hkey ▸ hstored)
          · refine (hseen other hother).imp_right fun hstored => ?_
            rw [World.addImage, map_append]
            exact mem_append_left _ hstored
      refine keeps_bind_of_le hstore (fun world _ world' hat hreturns => ?_) (fun world hat => ?_)
        fun _ _ => ih (passed ++ [image]) current (by rw [heq, append_assoc]; rfl) hcurrent
      · obtain ⟨hreads, hP, hseen⟩ := (hstore.returns hat hreturns).1
        refine ⟨hreads, hP, fun other hother => ?_⟩
        rcases mem_append.mp hother with hpassed | hlast
        · exact hseen other hpassed
        · rw [mem_singleton.mp hlast]
          split at hreturns
          case isTrue hlisted => exact .inl hlisted
          case isFalse => exact .inr (key_of_createImage h hreturns)
      · exact ⟨hat.1, hat.2.1, fun other hother => hat.2.2 other (mem_append_left _ hother)⟩
  intro world hat
  obtain ⟨hkept, hresult⟩ := hrest images [] scanJob rfl hscanJob world ⟨hat.1, hat.2, nofun⟩
  exact ⟨⟨hkept.1, hkept.2.1⟩, hresult⟩

end Quiet

/-! ## A run -/

section Run

variable {env : Env} {ref : JobRef} {job scanJob : ScanJob} {registry : Registry}
  {found : String → Prop} {prior images : List Image} {world world' : World} {reference : String}

theorem ofRegistry_of_imagesOf {image : Image} (h : imagesOf env registry reference = .ok images)
    (hmem : image ∈ images) :
    ofRegistry registry image = true := by
  obtain ⟨parsed, -, h⟩ := bind_eq_ok.mp h
  obtain ⟨tagIsAllowed, -, h⟩ := bind_eq_ok.mp h
  split at h
  case isTrue =>
    cases h
    cases hmem
  case isFalse =>
    obtain ⟨details, indexDigest, hconvert⟩ :=
      converted_refToImages (mapError_eq_ok.mp h) hmem
    obtain ⟨layers, -, heq⟩ := bind_eq_ok.mp (mapError_eq_ok.mp hconvert)
    cases heq
    simp [ofRegistry]

/-- What is known about a run that scans `registry`: what it finds is `found`, and no other registry
has images of these names. -/
structure Scans (env : Env) (ref : JobRef) (job : ScanJob) (registry : Registry)
    (found : String → Prop) (prior : List Image) : Prop where
  quiet : Quiet env ref job
  registry_eq : scannedRegistry env job = .ok registry
  finds : ∀ {references reference images image}, discoverReferences env registry = .ok references →
    reference ∈ references → imagesOf env registry reference = .ok images → image ∈ images →
    found image.name
  unclaimed : ∀ {name}, found name → Unclaimed registry prior name
  keys : (prior.map imageKey).Nodup

def At (ref : JobRef) (job : ScanJob) (registry : Registry) (found : String → Prop)
    (prior : List Image) (world : World) : Prop :=
  Reads ref job world.objects ∧ Between registry found prior world.objects.images

theorem Scans.unclaimed_of (h : Scans env ref job registry found prior) {name : String}
    (hname : name ∈ ownNames registry prior ∨ found name) : Unclaimed registry prior name :=
  hname.elim (unclaimed_of_own h.keys) h.unclaimed

variable {collected : Collected}

theorem keeps_at_cleanup (h : Scans env ref job registry found prior)
    (hregistry : collected.registry = registry)
    (hexisting : ∀ name ∈ collected.existing, name ∈ ownNames registry prior ∨ found name) :
    Keeps (At ref job registry found prior) (cleanup env collected) fun _ => True := by
  refine keeps_cleanup (h.quiet.tolerates _) fun _ name world hname _ hat => ?_
  rw [hregistry]
  exact ⟨hat.1, hat.2.remove (h.unclaimed_of (hexisting name hname))⟩

def Holds (ref : JobRef) (job : ScanJob) (registry : Registry) (found : String → Prop)
    (prior : List Image) (names : List String) (world : World) : Prop :=
  Reads ref job world.objects ∧ Between registry found prior world.objects.images ∧
    ∀ name ∈ names, name ∈ ownNames registry world.objects.images

variable {names existing : List String}

theorem Holds.at (h : Holds ref job registry found prior names world) :
    At ref job registry found prior world := ⟨h.1, h.2.1⟩

theorem Holds.reads (h : Holds ref job registry found prior names world) {current : ScanJob}
    (hcurrent : world.objects.scanJob = some current) (huid : current.uid = ref.uid) :
    SameScan job current :=
  h.1 current hcurrent huid

section

variable (h : Scans env ref job registry found prior)
include h

theorem Scans.tolerates_holds :
    Tolerates env (Holds ref job registry found prior names) :=
  h.quiet.tolerates fun images =>
    Between registry found prior images ∧ ∀ name ∈ names, name ∈ ownNames registry images

theorem keeps_holds_create {image : Image} (hof : ofRegistry registry image = true)
    (hfound : found image.name) :
    Keeps (Holds ref job registry found prior names) (createImage env image) fun _ => True := by
  refine keeps_createImage h.tolerates_holds fun {world} hholds hnew => ?_
  obtain ⟨hreads, hbetween, hnames⟩ := hholds
  exact ⟨hreads, hbetween.add hof hfound hnew, fun name hname =>
    mem_ownNames_append (hnames name hname)⟩

theorem returns_catalogImages {images : List Image}
    (himages : ∀ image ∈ images, ofRegistry registry image = true ∧ found image.name)
    (hexisting : ∀ name ∈ existing, name ∈ names)
    (hholds : Holds ref job registry found prior names world) {last : ScanJob}
    (hscanJob : SameScan job scanJob)
    (hreturns : Returns (catalogImages env ref existing scanJob images) world last world') :
    SameScan job last ∧
      Holds ref job registry found prior (images.map (·.name) ++ names) world' := by
  induction images generalizing scanJob world names with
  | nil =>
    obtain ⟨rfl, rfl⟩ := returns_pure.mp hreturns
    exact ⟨hscanJob, hholds⟩
  | cons image rest ih =>
    obtain ⟨fetched, read, hfetch, hreturns⟩ := returns_bind.mp hreturns
    obtain ⟨_, stored, hstore, hrest⟩ := returns_bind.mp hreturns
    obtain ⟨hread, hfetched⟩ :=
      (keeps_refetchScanJob h.tolerates_holds fun hnow => hnow.reads).returns hholds hfetch
    obtain ⟨hof, hfound⟩ := himages image mem_cons_self
    -- the image is stored, whether it was there or not
    have hstored : Holds ref job registry found prior (image.name :: names) stored := by
      split at hstore
      case isTrue hlisted =>
        obtain ⟨-, rfl⟩ := returns_pure.mp hstore
        refine ⟨hread.1, hread.2.1, forall_mem_cons.mpr ⟨?_, hread.2.2⟩⟩
        exact hread.2.2 _ (hexisting _ hlisted)
      case isFalse =>
        have hkept := ((keeps_holds_create h hof hfound).returns hread hstore).1
        refine ⟨hkept.1, hkept.2.1, forall_mem_cons.mpr ⟨?_, hkept.2.2⟩⟩
        apply hkept.2.1.mem_ownNames_of_key (h.unclaimed hfound)
        rw [← ns_of_ofRegistry hof]
        exact key_of_createImage h.quiet hstore
    obtain ⟨hlast, hend⟩ := ih (fun other hother => himages other (mem_cons_of_mem _ hother))
      (fun name hname => mem_cons_of_mem _ (hexisting name hname)) hstored hfetched hrest
    refine ⟨hlast, hend.1, hend.2.1, fun name hname => hend.2.2 name ?_⟩
    simp only [map_cons, cons_append, mem_cons, mem_append] at hname ⊢
    tauto

theorem returns_references {references : List String}
    (hreferences : discoverReferences env registry = .ok references)
    (hexisting : ∀ name ∈ existing, name ∈ names) {visited : List String}
    (hvisited : ∀ reference ∈ visited, reference ∈ references)
    (hholds : Holds ref job registry found prior names world) {result : ScanJob × List Image}
    (hscanJob : SameScan job scanJob)
    (hreturns : Returns (catalogReferences env ref registry existing scanJob visited) world result
      world') :
    SameScan job result.1 ∧
      Holds ref job registry found prior (result.2.map (·.name) ++ names) world' := by
  induction visited generalizing scanJob world names result with
  | nil =>
    obtain ⟨rfl, rfl⟩ := returns_pure.mp hreturns
    exact ⟨hscanJob, hholds⟩
  | cons reference rest ih =>
    obtain ⟨images, _, hlift, hloop⟩ := returns_bind.mp hreturns
    obtain ⟨himages, rfl⟩ := returns_lift.mp hlift
    obtain ⟨last, stored, hstore, hloop'⟩ := returns_bind.mp hloop
    obtain ⟨others, after, hothers, hpure⟩ := returns_bind.mp hloop'
    obtain ⟨rfl, rfl⟩ := returns_pure.mp hpure
    obtain ⟨hreference, hrest⟩ := forall_mem_cons.mp hvisited
    have hown : ∀ image ∈ images, ofRegistry registry image = true ∧ found image.name :=
      fun image himage => ⟨ofRegistry_of_imagesOf himages himage,
        h.finds hreferences hreference himages himage⟩
    obtain ⟨hlast, hstored⟩ := returns_catalogImages h hown hexisting hholds hscanJob hstore
    obtain ⟨hscan, hend⟩ := ih (fun name hname => mem_append_right _ (hexisting name hname))
      hrest hstored hlast hothers
    refine ⟨hscan, hend.1, hend.2.1, fun name hname => hend.2.2 name ?_⟩
    simp only [map_append, mem_append] at hname ⊢
    tauto

theorem returns_collect (hscanJob : SameScan job scanJob) (hreads : Reads ref job world.objects)
    (hprior : world.objects.images = prior)
    (hreturns : Returns (collect env ref scanJob) world collected world') :
    collected.registry = registry ∧ SameScan job collected.scanJob ∧
      (∀ name, name ∈ collected.existing ↔ name ∈ ownNames registry prior) ∧
      Holds ref job registry found prior (collected.images.map (·.name) ++ collected.existing)
        world' ∧
      ∃ references, discoverReferences env registry = .ok references ∧
        collected.images.map (·.name) =
          (env.order.range .references references).flatMap (namesOf env registry) := by
  have hregistry : scannedRegistry env scanJob = .ok registry :=
    (scannedRegistry_congr hscanJob).trans h.registry_eq
  -- nothing is stored before the loop
  have htolerates := h.quiet.tolerates (· = prior)
  obtain ⟨scanned, _, hscan, hrest₁⟩ := returns_bind.mp hreturns
  obtain ⟨hscanned, rfl⟩ := returns_liftError.mp hscan
  cases hregistry.symm.trans hscanned
  obtain ⟨_, resolved, hresolve, hrest₂⟩ := returns_bind.mp hrest₁
  have hresolved := htolerates.asked ⟨hreads, hprior⟩ hresolve
  obtain ⟨_, configured, hconfigure, hrest₃⟩ := returns_bind.mp hrest₂
  have hconfigured : Reads ref job configured.objects ∧ configured.objects.images = prior := by
    split at hconfigure
    · exact htolerates.asked hresolved hconfigure
    · obtain ⟨-, rfl⟩ := returns_pure.mp hconfigure
      exact hresolved
  obtain ⟨references, _, hdiscover, hrest₄⟩ := returns_bind.mp hrest₃
  obtain ⟨hreferences, rfl⟩ := returns_liftError.mp hdiscover
  obtain ⟨existing, listed, hlist, hrest₅⟩ := returns_bind.mp hrest₄
  obtain ⟨_, started, hprogress, hrest₆⟩ := returns_bind.mp hrest₅
  obtain ⟨result, _, hloop, hpure⟩ := returns_bind.mp hrest₆
  obtain ⟨rfl, rfl⟩ := returns_pure.mp hpure
  have hlisted := htolerates.asked hconfigured hlist
  have hstarted := htolerates.asked hlisted hprogress
  obtain ⟨hworld, hreply⟩ := returns_ask hlist
  have hexisting : ∀ name, name ∈ existing ↔ name ∈ ownNames registry prior := by
    intro name
    cases hreply
    rw [mem_dedup, hlisted.2]
    rfl
  have hholds : Holds ref job registry found prior existing started := by
    refine ⟨hstarted.1, ?_, fun name hname => ?_⟩
    · rw [hstarted.2]
      exact .refl h.keys
    · rw [hstarted.2]
      exact (hexisting name).mp hname
  obtain ⟨hlast, hend⟩ := returns_references h hreferences (fun _ hname => hname)
    (fun _ hmem => env.order.mem_range.mp hmem) hholds hscanJob hloop
  obtain ⟨images, himages, heq⟩ := returns_catalogReferences hloop
  refine ⟨rfl, hlast, hexisting, hend, references, hreferences, ?_⟩
  show result.2.map (·.name) = _
  rw [heq, names_found himages]

end

theorem returns_deleteObsoleteImages (h : Quiet env ref job) {discovered : List String}
    (hreturns : Returns (deleteObsoleteImages env registry existing discovered) world ⟨⟩ world')
    (name : String) :
    name ∈ ownNames registry world'.objects.images ↔
      name ∈ ownNames registry world.objects.images ∧ (name ∈ existing → name ∈ discovered) := by
  have hloop := returns_forM (I := fun visited w => ∀ name,
    name ∈ ownNames registry w.objects.images ↔
      name ∈ ownNames registry world.objects.images ∧ name ∉ visited) ?_ hreturns (by simp)
  · rw [hloop name, env.order.mem_range, mem_filter]
    simp only [decide_eq_true_eq, not_and, not_not]
  · rintro visited removed w w' - hvisited hdelete other
    obtain ⟨_, deleted, hcall, hprogress⟩ := returns_bind.mp hdelete
    have hperform := returns_call hcall
    split at hperform
    case isFalse => cases hperform
    case isTrue =>
      cases hperform
      obtain ⟨rfl, -⟩ := returns_ask hprogress
      show other ∈ ownNames registry (env.others _ _).images ↔ _
      rw [h.images]
      show other ∈ ownNames registry ((env.others _ _).images.filter _) ↔ _
      rw [h.images, mem_ownNames_remove, hvisited, mem_append, mem_singleton]
      tauto

theorem returns_cleanup (h : Quiet env ref job)
    (hreturns : Returns (cleanup env collected) world images world') (name : String) :
    name ∈ ownNames collected.registry world'.objects.images ↔
      name ∈ ownNames collected.registry world.objects.images ∧
        (collected.scanJob.spec.repositories = [] → name ∈ collected.existing →
          name ∈ collected.images.map (·.name)) := by
  obtain ⟨_, cleaned, hclean, hpure⟩ := returns_bind.mp hreturns
  obtain ⟨rfl, rfl⟩ := returns_pure.mp hpure
  split at hclean
  case isTrue huntargeted =>
    rw [returns_deleteObsoleteImages h hclean]
    simp only [huntargeted, true_implies]
  case isFalse htargeted =>
    obtain ⟨-, rfl⟩ := returns_pure.mp hclean
    simp only [htargeted, false_implies, and_true]

/-- What is left to do when the images are seen to. -/
def conclude (env : Env) (ref : JobRef) (scanJob : ScanJob) (discoveredImages : List Image) :
    Handle Run := do
  let finished ← finishCatalog env ref discoveredImages
  discoveredImages.forM (publishGenerateSBOM env ref finished.uid)
  return ⟨scanJob, discoveredImages⟩

theorem keeps_conclude (h : Quiet env ref job) (P : List Image → Prop) (images : List Image) :
    Keeps (fun world => Reads ref job world.objects ∧ P world.objects.images)
      (conclude env ref scanJob images) fun _ => True := by
  refine keeps_bind (keeps_finish h P images) fun finished _ => ?_
  refine keeps_bind (Q := fun _ => True) (keeps_forM fun image _ => ?_) fun _ _ =>
    keeps_pure trivial
  refine keeps_call (h.tolerates P) fun {world a world'} hworld hperform => ?_
  cases hperform
  exact ⟨hworld, trivial⟩

/-- The name is not among those that are found, and all that the registry serves is found. -/
def Gone (env : Env) (registry : Registry) (name : String) : Prop :=
  ∃ references, discoverReferences env registry = .ok references ∧
    ∀ reference ∈ references, ∃ images, imagesOf env registry reference = .ok images ∧
      name ∉ images.map (·.name)

/-- What the handler keeps, however it ends: what is kept when an image is stored that it has found,
the first with its key, and, for a job without targets, when one that it has listed is deleted. -/
theorem keeps_handle (hquiet : Quiet env ref job)
    (hregistry : scannedRegistry env job = .ok registry) {N : String → Prop}
    (hadd : ∀ {references reference images before image after stored},
      discoverReferences env registry = .ok references → reference ∈ references →
      imagesOf env registry reference = .ok images → images = before ++ image :: after →
      (∀ other ∈ before, imageKey other ≠ imageKey image) → P stored →
      imageKey image ∉ stored.map imageKey → P (stored ++ [image]))
    (hlist : ∀ {stored image}, P stored → image ∈ stored → ofRegistry registry image = true →
      N image.name)
    (hremove : ∀ {stored name}, job.spec.repositories = [] → N name → Gone env registry name →
      P stored → P (stored.filter (imageKey · ≠ (registry.ns, name)))) :
    Keeps (fun world => Reads ref job world.objects ∧ P world.objects.images) (handle env ref)
      fun _ => True := by
  have hcatalog : Keeps (fun world => Reads ref job world.objects ∧ P world.objects.images)
      (createCatalog env ref) fun _ => True := by
    refine keeps_bind (keeps_start (hquiet.tolerates P)) fun scanJob hscan => ?_
    refine keeps_bind (Q := fun _ => True) ?_ fun images _ => keeps_conclude hquiet P images
    have hscanned := (scannedRegistry_congr hscan).trans hregistry
    rw [discover_eq]
    refine keeps_bind ((keeps_collect (P := fun r name => r = registry → N name)
      (hquiet.tolerates P) ?_ hscan ?_).and_returns fun _ _ _ h => found_of_collect h) ?_
    · rintro r world hat image himage hof rfl
      exact hlist hat.2 himage hof
    · intro r references reference images existing current hr hreferences hmem himages hcurrent
      cases hscanned.symm.trans hr
      exact keeps_loop hquiet (hadd hreferences hmem himages) hcurrent
    · rintro collected ⟨⟨hlast, hr, hexisting⟩, -, references, found, hreferences, hfound, heq⟩
      cases hscanned.symm.trans hr
      refine keeps_cleanup (hquiet.tolerates P) fun huntargeted name world hname hgone hat => ?_
      rw [hlast.spec] at huntargeted
      refine ⟨hat.1, hremove huntargeted (hexisting name hname rfl) ?_ hat.2⟩
      refine ⟨references, hreferences, fun reference hmem => ?_⟩
      obtain ⟨images, himages, hok⟩ :=
        exists_of_forall₂ hfound (env.order.mem_range.mpr hmem)
      refine ⟨images, hok, fun hfoundName => hgone ?_⟩
      obtain ⟨image, himage, rfl⟩ := mem_map.mp hfoundName
      rw [heq]
      exact mem_map_of_mem (mem_flatten.mpr ⟨images, himages, himage⟩)
  refine keeps_tryCatch (keeps_bind hcatalog fun _ _ => keeps_pure trivial) fun stop => ?_
  split
  · exact keeps_pure trivial
  · exact keeps_throw

theorem found_of_imagesOf {references : List String} {image : Image}
    (hreferences : discoverReferences env registry = .ok references) (hmem : reference ∈ references)
    (himages : imagesOf env registry reference = .ok images) (himage : image ∈ images) :
    Found env registry image.name := by
  refine ⟨references, hreferences, reference, hmem, ?_⟩
  rw [← names_imagesOf himages]
  exact mem_map_of_mem himage

theorem handle_snd (world : World) :
    ((handle env ref).run.run world).2 = ((createCatalog env ref).run.run world).2 := by
  unfold handle
  rw [run_tryCatch, run_bind]
  rcases (createCatalog env ref).run.run world with ⟨stop | run, t⟩
  · cases stop <;> rfl
  · rfl

/-- The handler comes to its last update of the ScanJob, and returns no error. -/
def Completes (env : Env) (ref : JobRef) (world world' : World) : Prop :=
  (∃ scanJob started images listed, Returns (startCatalog env ref) world scanJob started ∧
    Returns (discover env ref scanJob) started images listed) ∧
  Returns (handle env ref) world ⟨⟩ world'

theorem images_of_completes (h : Scans env ref job registry (Found env registry) prior)
    (hreads : Reads ref job world.objects) (hprior : world.objects.images = prior)
    (hcompletes : Completes env ref world world') :
    (∀ name, name ∈ ownNames registry world'.objects.images ↔
      Found env registry name ∨ job.spec.repositories ≠ [] ∧ name ∈ ownNames registry prior) ∧
    Between registry (Found env registry) prior world'.objects.images := by
  obtain ⟨⟨scanJob, started, images, listed, hstart, hdiscover⟩, hhandle⟩ := hcompletes
  obtain ⟨⟨hreads, hstarted⟩, hscan⟩ :=
    (keeps_start (P := (· = prior)) (h.quiet.tolerates (· = prior))).returns ⟨hreads, hprior⟩ hstart
  have hsplit := hdiscover
  rw [discover_eq] at hsplit
  obtain ⟨collected, before, hcollect, hcleanup⟩ := returns_bind.mp hsplit
  obtain ⟨rfl, hlast, hexisting, hholds, references, hreferences, hnames⟩ :=
    returns_collect h hscan hreads hstarted hcollect
  have hlisted : At ref job collected.registry (Found env collected.registry) prior listed := by
    refine ((keeps_at_cleanup h rfl fun name hname => ?_).returns hholds.at hcleanup).1
    exact .inl ((hexisting name).mp hname)
  -- the images do not change any more
  have hend : world'.objects.images = listed.objects.images := by
    have hkeeps : Keeps _ (conclude env ref scanJob images) _ :=
      keeps_conclude h.quiet (· = listed.objects.images) images
    have hkept := (hkeeps listed ⟨hlisted.1, rfl⟩).1.2
    have hrun : (createCatalog env ref).run.run world =
        (conclude env ref scanJob images).run.run listed := by
      rw [createCatalog, run_bind_of_returns hstart, run_bind_of_returns hdiscover]
      rfl
    rw [← hrun, ← handle_snd, hhandle] at hkept
    exact hkept
  have hfound : ∀ name, name ∈ collected.images.map (·.name) ↔
      Found env collected.registry name := by
    intro name
    rw [hnames, mem_flatMap]
    constructor
    · rintro ⟨reference, hmem, hname⟩
      exact ⟨references, hreferences, reference, env.order.mem_range.mp hmem, hname⟩
    · rintro ⟨references', hreferences', reference, hmem, hname⟩
      cases hreferences.symm.trans hreferences'
      exact ⟨reference, env.order.mem_range.mpr hmem, hname⟩
  rw [hend]
  refine ⟨fun name => ?_, hlisted.2⟩
  rw [returns_cleanup h.quiet hcleanup name, hlast.spec, hfound, hexisting]
  constructor
  · rintro ⟨hbefore, hkept⟩
    rcases hholds.2.1.own name hbefore with hold | hnew
    · by_cases htargeted : job.spec.repositories = []
      · exact .inl (hkept htargeted hold)
      · exact .inr ⟨htargeted, hold⟩
    · exact .inl hnew
  · rintro (hnew | ⟨htargeted, hold⟩)
    · exact ⟨hholds.2.2 name (mem_append_left _ ((hfound name).mpr hnew)), fun _ _ => hnew⟩
    · exact ⟨hholds.2.2 name (mem_append_right _ ((hexisting name).mpr hold)),
        fun huntargeted => absurd huntargeted htargeted⟩

theorem completes_of_returns {run : Run}
    (h : Returns (createCatalog env ref) world run world') : Completes env ref world world' := by
  obtain ⟨scanJob, started, hstart, hrest⟩ := returns_bind.mp h
  obtain ⟨images, listed, hdiscover, -⟩ := returns_bind.mp hrest
  refine ⟨⟨scanJob, started, images, listed, hstart, hdiscover⟩, ?_⟩
  exact returns_tryCatch.mpr (.inl (returns_bind.mpr ⟨run, world', h, returns_pure.mpr ⟨rfl, rfl⟩⟩))

end Run

/-! ## A registry that has moved on -/

namespace MovedOn

open TwoPlatforms

def image (registryName tag digest : String) : Image where
  name := computeImageUID lib registryName "ghcr.io/app" tag digest
  ns := "default"
  labels := ∅
  registry := registryName
  registryURI := "ghcr.io"
  repository := "app"
  tag := tag
  platform := "linux/amd64"
  digest := digest
  indexDigest := ""
  layers := []

/-- An image that is gone, one that is still there, and one of another registry. -/
def images : List Image :=
  [image "ghcr" "v0" "sha256:z", image "ghcr" "v1" "sha256:a", image "mirror" "v0" "sha256:z"]

def start : World := ⟨⟨some scanJob, images⟩, [], []⟩

theorem sound : Sound lib images where
  keys := by decide
  named img himg := by
    simp only [images, mem_cons, not_mem_nil, or_false] at himg
    rcases himg with rfl | rfl | rfl <;> exact ⟨_, _, _, rfl⟩
  noSlash := by decide

theorem quiet {amd64 arm64 : String} : Quiet (serving amd64 arm64) TwoPlatforms.ref scanJob where
  images _ _ := rfl
  scanJob _ _ h := h
  fault _ := nofun

theorem reads : Reads TwoPlatforms.ref scanJob start.objects := by
  rintro current heq -
  cases heq
  exact ⟨rfl, rfl, rfl, rfl⟩

def outcome (result : Except Stop Run × World) : Option (List String) :=
  match result with
  | (.ok _, world) => some (world.objects.images.map (·.name))
  | (.error _, _) => none

end MovedOn

end SbomScanner.Catalog

import SbomScanner.Catalog.Content
import SbomScanner.Catalog.ImageSet

/-!
# Attempts that fail

A message whose handler fails is delivered again. An attempt may have failed anywhere, and with
images stored that the next one finds there.

Up to the cleanup nothing is deleted, counted or published, so that an attempt that fails by then
has done no harm. It says that it has failed, unless it panics, and what is left of it makes no
difference to the images that there are in the end. `reliable_iff` puts these together.
-/

namespace SbomScanner.Catalog

open Api Procedure Fallible List

/-! ## What an attempt stops with -/

section Errors

variable {env : Env} {ref : JobRef} {registry : Registry} {scanJob : ScanJob} {α : Type}
  {perform : World → Except ApiError (α × World)} {message : String}

theorem raises_call {req : Request} :
    Raises (call env req message perform) fun stop => ∀ failure, stop ≠ .failed failure := by
  intro world stop world' h
  obtain ⟨-, cause, rfl, -⟩ := throws_call h
  nofun

theorem raises_catalogImages {existing : List String} {images : List Image} :
    Raises (catalogImages env ref existing scanJob images)
      fun stop => ∀ failure, stop ≠ .failed failure := by
  induction images generalizing scanJob with
  | nil => exact raises_pure
  | cons image rest ih =>
    refine raises_bind (raises_bind (raises_tryCatch raises_call fun stop hstop => ?_)
      fun _ => ?_) fun _ => raises_bind ?_ fun _ => ih
    · split
      · exact raises_throw nofun
      · exact raises_throw hstop
    · split
      · exact raises_throw nofun
      · exact raises_pure
    · split
      · exact raises_pure
      · refine raises_tryCatch (raises_bind raises_call fun _ => raises_call) fun stop hstop => ?_
        split
        · exact raises_pure
        · exact raises_throw hstop

theorem raises_catalogReferences {existing references : List String} :
    Raises (catalogReferences env ref registry existing scanJob references) fun stop =>
      ∀ failure, stop = .failed failure →
        ∃ reference ∈ references, imagesOf env registry reference = .error failure := by
  induction references generalizing scanJob with
  | nil => exact raises_pure
  | cons reference rest ih =>
    refine raises_bind ?_ fun _ => raises_bind ?_ fun _ => raises_bind ?_ fun _ => raises_pure
    · intro world stop world' h failure heq
      refine ⟨reference, mem_cons_self, ?_⟩
      cases himages : imagesOf env registry reference with
      | ok images =>
        rw [himages] at h
        cases h
      | error e =>
        rw [himages] at h
        cases h
        cases heq
        rfl
    · intro world stop world' h failure heq
      exact absurd heq (raises_catalogImages world stop world' h failure)
    · intro world stop world' h failure heq
      obtain ⟨other, hother, himages⟩ := ih world stop world' h failure heq
      exact ⟨other, mem_cons_of_mem _ hother, himages⟩

/-- If it is a panic, the registry serves a reference that leads to it. -/
def PanicServed (env : Env) (scanJob : ScanJob) (stop : Stop) : Prop :=
  ∀ i length, stop = .failed (.indexOutOfRange i length) →
    ∃ registry references, scannedRegistry env scanJob = .ok registry ∧
      discoverReferences env registry = .ok references ∧
      ∃ reference ∈ references, Panics (imagesOf env registry reference)

theorem panicServed_liftError {x : Except String α} :
    Raises (liftError x) (PanicServed env scanJob) := by
  intro world stop world' h i length heq
  cases x with
  | ok a => cases h
  | error e =>
    cases h
    cases heq

theorem panicServed_call {req : Request} :
    Raises (call env req message perform) (PanicServed env scanJob) := by
  intro world stop world' h i length heq
  exact absurd heq (raises_call world stop world' h _)

theorem panicServed_collect : Raises (collect env ref scanJob) (PanicServed env scanJob) := by
  refine raises_bind panicServed_liftError fun {_ registry _} hscanned => ?_
  have hregistry := (returns_liftError.mp hscanned).1
  refine raises_bind panicServed_call fun _ => raises_bind ?_ fun _ => ?_
  · split
    · exact panicServed_call
    · exact raises_pure
  refine raises_bind panicServed_liftError fun {_ references _} hdiscovered => ?_
  have hreferences := (returns_liftError.mp hdiscovered).1
  refine raises_bind panicServed_call fun _ => raises_bind panicServed_call fun _ =>
    raises_bind ?_ fun _ => raises_pure
  intro world stop world' h i length heq
  obtain ⟨reference, hmem, himages⟩ := raises_catalogReferences world stop world' h _ heq
  exact ⟨registry, references, hregistry, hreferences, reference, env.order.mem_range.mp hmem, i,
    length, himages⟩

end Errors

/-! ## What an attempt leaves that stops before the cleanup -/

section Trace

variable {env : Env} {ref : JobRef} {job scanJob : ScanJob} {world world' started stopped : World}
  {stop : Stop}

def HasCounts (ref : JobRef) (imagesCount scannedImagesCount : Nat) (objects : Objects) : Prop :=
  ∀ current, objects.scanJob = some current → current.uid = ref.uid →
    current.status.imagesCount = imagesCount ∧
      current.status.scannedImagesCount = scannedImagesCount

/-- What others leave alone the handler has left alone as well: the images and the counts. And it
has published nothing. -/
structure Harmless (env : Env) (ref : JobRef) (world world' : World) : Prop where
  images : ∀ image, (∀ req objects, image ∈ objects.images →
      image ∈ (env.others req objects).images) →
    image ∈ world.objects.images → image ∈ world'.objects.images
  counts : ∀ imagesCount scannedImagesCount,
    (∀ req objects, HasCounts ref imagesCount scannedImagesCount objects →
      HasCounts ref imagesCount scannedImagesCount (env.others req objects)) →
    HasCounts ref imagesCount scannedImagesCount world.objects →
      HasCounts ref imagesCount scannedImagesCount world'.objects
  published : world'.published = world.published

/-- Until the cleanup, images are stored and nothing else is. -/
theorem keeps_of_throws {I : World → Prop} (hothers : Tolerates env I)
    (hstart : Keeps I (startCatalog env ref) fun _ => True)
    (hcreate : ∀ {image world}, I world → I (world.addImage image)) (hworld : I world)
    (hreturns : Returns (startCatalog env ref) world scanJob started)
    (hthrows : Throws (collect env ref scanJob) started stop stopped) : I stopped := by
  have hkeeps : Keeps I (collect env ref scanJob) _ :=
    keeps_collect (Q := fun _ => True) (P := fun _ _ => True) hothers (fun _ _ _ _ => trivial)
      trivial fun _ _ _ _ _ => keeps_catalogImages hothers (fun _ _ _ => trivial)
        (fun _ hI _ => hcreate hI) trivial
  have hkept := (hkeeps started (hstart.returns hworld hreturns).1).1
  rw [hthrows] at hkept
  exact hkept

section

variable (hreturns : Returns (startCatalog env ref) world scanJob started)
include hreturns

section

variable (hthrows : Throws (collect env ref scanJob) started stop stopped)
include hthrows

theorem harmless_of_throws :
    Harmless env ref world stopped where
  images image hothers himage := by
    refine keeps_of_throws (I := fun w => image ∈ w.objects.images) ?_ ?_ ?_ himage hreturns hthrows
    · exact fun req w hmem => hothers req _ hmem
    · exact keeps_startCatalog (Q := fun _ => True) (fun req w hmem => hothers req _ hmem)
        (fun _ _ _ => trivial) fun hmem _ _ _ => ⟨hmem, trivial⟩
    · exact fun hmem => mem_append_left _ hmem
  counts imagesCount scannedImagesCount hothers hcounts := by
    have htolerates : Tolerates env fun w =>
        HasCounts ref imagesCount scannedImagesCount w.objects := fun req w h => hothers req _ h
    refine keeps_of_throws (I := fun w => HasCounts ref imagesCount scannedImagesCount w.objects)
      htolerates ?_ (fun h => h) hcounts hreturns hthrows
    refine keeps_startCatalog (Q := fun scanJob => scanJob.status.imagesCount = imagesCount ∧
      scanJob.status.scannedImagesCount = scannedImagesCount) htolerates
      (fun h hcurrent huid => h _ hcurrent huid) ?_
    rintro w current scanJob now h hcurrent hscanJob huid
    refine ⟨?_, trivial⟩
    rintro updated heq -
    cases heq
    exact hscanJob
  published := by
    rw [← silent_startCatalog.published_eq hreturns]
    have hsilent : Silent started.published (collect env ref scanJob) := silent_collect
    have hkept := (hsilent started rfl).1
    rw [hthrows] at hkept
    exact hkept

theorem throws_handle (hstop : ∀ reason, stop ≠ .skipped reason) :
    Throws (handle env ref) world stop stopped := by
  have hcatalog : Throws (createCatalog env ref) world stop stopped := by
    refine throws_bind.mpr (.inr ⟨scanJob, started, hreturns, throws_bind.mpr (.inl ?_)⟩)
    rw [discover_eq]
    exact throws_bind.mpr (.inl hthrows)
  unfold Throws handle
  rw [run_tryCatch, throws_bind.mpr (.inl hcatalog)]
  cases stop with
  | skipped reason => exact absurd rfl (hstop reason)
  | api message cause => rfl
  | failed failure => rfl

end

end

/-- What an attempt says of itself before the cleanup, in front of a registry that fails now and
then. If it fails it returns the error, without a panic, and has done no harm. If it goes on, what
it has found is all of the content. -/
structure Reported (env env₁ : Env) (ref : JobRef) (world : World) : Prop where
  fails : ∀ {scanJob started stop stopped}, Returns (startCatalog env₁ ref) world scanJob started →
    Throws (collect env₁ ref scanJob) started stop stopped → (∀ reason, stop ≠ .skipped reason) →
    Throws (handle env₁ ref) world stop stopped ∧
      (∀ i length, stop ≠ .failed (.indexOutOfRange i length)) ∧
      Harmless env₁ ref world stopped
  succeeds : ∀ {scanJob started collected after},
    Returns (startCatalog env₁ ref) world scanJob started →
    Returns (collect env₁ ref scanJob) started collected after →
    ∃ references, discoverReferences env collected.registry = .ok references ∧
      ∀ reference ∈ references, ∃ images,
        imagesOf env collected.registry reference = .ok images ∧
          ∀ image ∈ images, image ∈ collected.images

theorem content_of_collect {env₁ : Env} (hserves : Serves env₁ env) {collected : Collected}
    {after : World} (h : Returns (collect env₁ ref scanJob) started collected after) :
    ∃ references, discoverReferences env collected.registry = .ok references ∧
      ∀ reference ∈ references, ∃ images,
        imagesOf env collected.registry reference = .ok images ∧
          ∀ image ∈ images, image ∈ collected.images := by
  obtain ⟨-, references, found, hreferences, hfound, heq⟩ := found_of_collect h
  refine ⟨references, hserves.discoverReferences_eq hreferences, fun reference hmem => ?_⟩
  obtain ⟨images, himages, hok⟩ :=
    exists_of_forall₂ hfound (env₁.order.mem_range.mpr hmem)
  refine ⟨images, hserves.imagesOf_eq hok, fun image himage => ?_⟩
  rw [heq]
  exact mem_flatten.mpr ⟨images, himages, himage⟩

end Trace

/-! ## Attempts and a run -/

section Repeated

variable {env env₁ : Env} {ref : JobRef} {job : ScanJob} {registry : Registry}
  {prior images : List Image} {image other : Image} {name : String} {world world₁ world' : World}

theorem sameScan_of_start
    (hothers : ∀ req objects, Reads ref job objects → Reads ref job (env₁.others req objects))
    (hreads : Reads ref job world.objects) {scanJob : ScanJob} {started : World}
    (hstart : Returns (startCatalog env₁ ref) world scanJob started) : SameScan job scanJob := by
  have htolerates : Tolerates env₁ fun w => Reads ref job w.objects ∧ True :=
    fun req w h => ⟨hothers req _ h.1, trivial⟩
  exact ((keeps_start (P := fun _ => True) htolerates).returns ⟨hreads, trivial⟩ hstart).2

/-- Deliveries of the message that have ended with an error, one after the other, in front of a
registry that may have failed in each of them. -/
inductive Attempts (env : Env) (ref : JobRef) (job : ScanJob) : World → World → Prop where
  | none {world : World} : Attempts env ref job world world
  | failed {world world₁ world₂ : World} {env₁ : Env} {stop : Stop}
      (before : Attempts env ref job world world₁) (serves : Serves env₁ env)
      (quiet : Quiet env₁ ref job) (throws : Throws (handle env₁ ref) world₁ stop world₂) :
      Attempts env ref job world world₂

/-- The image is one that the registry serves, and for its reference the first with its key. -/
def First (env : Env) (registry : Registry) (image : Image) : Prop :=
  ∃ references reference images, discoverReferences env registry = .ok references ∧
    reference ∈ references ∧ imagesOf env registry reference = .ok images ∧
    images.find? (imageKey · = imageKey image) = some image

theorem First.mem (h : First env registry image) : ofRegistry registry image = true ∧
    Found env registry image.name := by
  obtain ⟨references, reference, images, hreferences, hmem, himages, hfind⟩ := h
  have himage := mem_of_find?_eq_some hfind
  exact ⟨ofRegistry_of_imagesOf himages himage, found_of_imagesOf hreferences hmem himages himage⟩

theorem images_of_accepted {reference : String} {parsed : ImageName.Reference}
    (haccepted : accepted env registry reference = some parsed)
    (himages : imagesOf env registry reference = .ok images) :
    refToImages env.lib env.client parsed registry = .ok images := by
  obtain ⟨parsed', hparsed', hrest⟩ := bind_eq_ok.mp himages
  obtain ⟨tagIsAllowed, hfilter', hrest⟩ := bind_eq_ok.mp hrest
  simp only [accepted, mapError_eq_ok.mp hparsed', mapError_eq_ok.mp hfilter'] at haccepted
  cases tagIsAllowed with
  | false => cases haccepted
  | true =>
    cases haccepted
    exact mapError_eq_ok.mp hrest

/-- The name tells the reference, and the reference all of its images. -/
theorem First.unique (hstandard : Standard env registry) (h : First env registry image)
    (h' : First env registry other) (hname : image.name = other.name) : image = other := by
  have hkey : imageKey image = imageKey other := by
    rw [imageKey, imageKey, ns_of_ofRegistry h.mem.1, ns_of_ofRegistry h'.mem.1, hname]
  obtain ⟨_, reference, images, -, -, himages, hfind⟩ := h
  obtain ⟨_, reference', images', -, -, himages', hfind'⟩ := h'
  have hnames : ∀ {reference images image}, imagesOf env registry reference = .ok images →
      images.find? (imageKey · = imageKey image) = some image → ∃ parsed digest,
        accepted env registry reference = some parsed ∧
        digest ∈ scannedDigests env.client registry parsed ∧
        imageName env.lib registry parsed digest = image.name := by
    intro reference images image himages hfind
    have hmem : image.name ∈ namesOf env registry reference := by
      rw [← names_imagesOf himages]
      exact mem_map_of_mem (mem_of_find?_eq_some hfind)
    unfold namesOf at hmem
    split at hmem
    case h_1 => cases hmem
    case h_2 parsed haccepted =>
      obtain ⟨digest, hdigest, heq⟩ := mem_map.mp hmem
      exact ⟨parsed, digest, haccepted, hdigest, heq⟩
  obtain ⟨parsed, digest, haccepted, hdigest, heq⟩ := hnames himages hfind
  obtain ⟨parsed', digest', haccepted', hdigest', heq'⟩ := hnames himages' hfind'
  obtain ⟨rfl, -⟩ := imageName_inj hstandard haccepted haccepted' hdigest hdigest'
    (heq.trans (hname.trans heq'.symm))
  cases (images_of_accepted haccepted himages).symm.trans (images_of_accepted haccepted' himages')
  rw [hkey] at hfind
  exact Option.some.inj (hfind.symm.trans hfind')

/-- Where the images are after any deliveries of the message: what is new is found, and what is gone
is not found, and goes for a job without targets only. -/
structure Attempted (env : Env) (job : ScanJob) (registry : Registry) (prior images : List Image) :
    Prop where
  between : Between registry (Found env registry) prior images
  stored : ∀ image ∈ images, ofRegistry registry image = true →
    image ∈ prior ∨ First env registry image
  kept : ∀ image ∈ prior, ofRegistry registry image = true →
    Found env registry image.name ∨ job.spec.repositories ≠ [] → image ∈ images

theorem Attempted.refl (hkeys : (prior.map imageKey).Nodup) :
    Attempted env job registry prior prior :=
  ⟨.refl hkeys, fun _ himage _ => .inl himage, fun _ himage _ _ => himage⟩

theorem Attempted.add (h : Attempted env job registry prior images)
    (hfirst : First env registry image) (hnew : imageKey image ∉ images.map imageKey) :
    Attempted env job registry prior (images ++ [image]) where
  between := h.between.add hfirst.mem.1 hfirst.mem.2 hnew
  stored other hother hof := by
    rcases mem_append.mp hother with hold | hlast
    · exact h.stored other hold hof
    · rw [mem_singleton.mp hlast]
      exact .inr hfirst
  kept other hother hof hserved := mem_append_left _ (h.kept other hother hof hserved)

theorem Attempted.remove (h : Attempted env job registry prior images)
    (huntargeted : job.spec.repositories = []) (hunclaimed : Unclaimed registry prior name)
    (hgone : ¬Found env registry name) :
    Attempted env job registry prior (images.filter (imageKey · ≠ (registry.ns, name))) where
  between := h.between.remove hunclaimed
  stored other hother hof := h.stored other (mem_filter.mp hother).1 hof
  kept other hother hof hserved := by
    refine mem_filter.mpr ⟨h.kept other hother hof hserved, ?_⟩
    rw [decide_eq_true_eq]
    intro hkey
    rcases hserved with hfound | htargeted
    · rw [(Prod.mk.inj hkey).2] at hfound
      exact hgone hfound
    · exact htargeted huntargeted

/-- What a worker has not found with all requests answered, the registry does not serve. -/
theorem Gone.not_found (hserves : Serves env₁ env) (h : Gone env₁ registry name) :
    ¬Found env registry name := by
  rintro ⟨references, hreferences, reference, hmem, hname⟩
  obtain ⟨references₁, hreferences₁, hall⟩ := h
  cases hreferences.symm.trans (hserves.discoverReferences_eq hreferences₁)
  obtain ⟨images, himages, hnot⟩ := hall reference hmem
  rw [names_imagesOf (hserves.imagesOf_eq himages)] at hnot
  exact hnot hname

theorem keeps_attempted (hserves : Serves env₁ env) (hquiet : Quiet env₁ ref job)
    (hregistry : scannedRegistry env job = .ok registry)
    (hunclaimed : ∀ {name}, name ∈ ownNames registry prior ∨ Found env registry name →
      Unclaimed registry prior name) :
    Keeps (fun world => Reads ref job world.objects ∧
        Attempted env job registry prior world.objects.images) (handle env₁ ref)
      fun _ => True := by
  refine keeps_handle
    (N := fun name => name ∈ ownNames registry prior ∨ Found env registry name) hquiet
    ((hserves.scannedRegistry job).trans hregistry) ?_ ?_ ?_
  · intro references reference images before image after stored hreferences hmem himages heq hbefore
      h hnew
    refine h.add ⟨references, reference, images, hserves.discoverReferences_eq hreferences, hmem,
      hserves.imagesOf_eq himages, ?_⟩ hnew
    rw [List.find?_eq_some_iff_append]
    refine ⟨decide_eq_true rfl, before, after, heq, fun other hother => ?_⟩
    simpa using hbefore other hother
  · intro stored image h himage hof
    exact h.between.own _ (mem_ownNames.mpr ⟨image, himage, hof, rfl⟩)
  · intro stored name huntargeted hname hgone h
    exact h.remove huntargeted (hunclaimed hname) (hgone.not_found hserves)

theorem attempted_of_attempts (hattempts : Attempts env ref job world world₁)
    (hregistry : scannedRegistry env job = .ok registry)
    (hunclaimed : ∀ {name},
      name ∈ ownNames registry world.objects.images ∨ Found env registry name →
        Unclaimed registry world.objects.images name)
    (hkeys : (world.objects.images.map imageKey).Nodup) (hreads : Reads ref job world.objects) :
    Reads ref job world₁.objects ∧
      Attempted env job registry world.objects.images world₁.objects.images := by
  induction hattempts with
  | none => exact ⟨hreads, .refl hkeys⟩
  | failed _ hserves hquiet hthrows ih =>
    have hkept := (keeps_attempted hserves hquiet hregistry hunclaimed _ ih).1
    rw [hthrows] at hkept
    exact hkept

/-- What there is in the end of the registry: what was there before and is to stay, and what has
come. -/
def Final (env : Env) (job : ScanJob) (registry : Registry) (prior : List Image) (image : Image) :
    Prop :=
  image ∈ prior ∧ (Found env registry image.name ∨ job.spec.repositories ≠ []) ∨
    image.name ∉ ownNames registry prior ∧ First env registry image

theorem Attempted.mem_iff (h : Attempted env job registry prior images)
    (hstandard : Standard env registry)
    (hnames : ∀ {name}, name ∈ ownNames registry images →
      Found env registry name ∨ job.spec.repositories ≠ [])
    (hfound : ∀ {name}, Found env registry name → name ∈ ownNames registry images)
    (hof : ofRegistry registry image = true) :
    image ∈ images ↔ Final env job registry prior image := by
  constructor
  · intro himage
    have hserved := hnames (mem_ownNames.mpr ⟨image, himage, hof, rfl⟩)
    rcases h.stored image himage hof with hold | hfirst
    · exact .inl ⟨hold, hserved⟩
    · by_cases hname : image.name ∈ ownNames registry prior
      · -- the one from before is still there, so it is this one
        obtain ⟨other, hother, hofOther, heq⟩ := mem_ownNames.mp hname
        have hmem := h.kept other hother hofOther (.inl (heq ▸ hfirst.mem.2))
        have hsame : other = image := by
          apply inj_on_of_nodup_map h.between.keys hmem himage
          rw [imageKey, imageKey, ns_of_ofRegistry hof, ns_of_ofRegistry hofOther, heq]
        exact .inl ⟨hsame ▸ hother, hserved⟩
      · exact .inr ⟨hname, hfirst⟩
  · rintro (⟨hold, hserved⟩ | ⟨hname, hfirst⟩)
    · exact h.kept image hold hof hserved
    · obtain ⟨other, hother, hofOther, heq⟩ := mem_ownNames.mp (hfound hfirst.mem.2)
      rcases h.stored other hother hofOther with hold | hfirst'
      · exact absurd (mem_ownNames.mpr ⟨other, hold, hofOther, heq⟩) hname
      · rw [hfirst.unique hstandard hfirst' heq.symm]
        exact hother

/-- A run that completes has found all of the content. -/
theorem found_of_completes (hserves : Serves env₁ env) (hquiet : Quiet env₁ ref job)
    (hreads : Reads ref job world.objects) (hcompletes : Completes env₁ ref world world') :
    ∃ registry, scannedRegistry env job = .ok registry ∧
      ∀ name, Found env₁ registry name ↔ Found env registry name := by
  obtain ⟨⟨scanJob, started, images, listed, hstart, hdiscover⟩, -⟩ := hcompletes
  have hscan := sameScan_of_start hquiet.scanJob hreads hstart
  obtain ⟨registry, references, found, hregistry, hreferences, hfound, -⟩ :=
    returns_discover hdiscover
  rw [scannedRegistry_congr hscan, hserves.scannedRegistry] at hregistry
  refine ⟨registry, hregistry, fun name => ?_⟩
  have hsame : ∀ reference ∈ references,
      namesOf env₁ registry reference = namesOf env registry reference := by
    intro reference hmem
    obtain ⟨images, -, himages⟩ :=
      exists_of_forall₂ hfound (env₁.order.mem_range.mpr hmem)
    rw [← names_imagesOf himages, names_imagesOf (hserves.imagesOf_eq himages)]
  constructor
  · rintro ⟨references', hreferences', reference, hmem, hname⟩
    cases hreferences.symm.trans hreferences'
    rw [hsame reference hmem] at hname
    exact ⟨references, hserves.discoverReferences_eq hreferences, reference, hmem, hname⟩
  · rintro ⟨references', hreferences', reference, hmem, hname⟩
    cases (hserves.discoverReferences_eq hreferences).symm.trans hreferences'
    rw [← hsame reference hmem] at hname
    exact ⟨references, hreferences, reference, hmem, hname⟩

/-- What is there at the end of a run says nothing about the attempts before it. -/
theorem mem_of_completes (hstandard : Standard env registry)
    (hregistry : scannedRegistry env job = .ok registry)
    (hunclaimed : ∀ {name}, name ∈ ownNames registry prior ∨ Found env registry name →
      Unclaimed registry prior name)
    (hserves : Serves env₁ env) (hquiet : Quiet env₁ ref job)
    (hreads : Reads ref job world.objects)
    (hattempted : Attempted env job registry prior world.objects.images)
    (hcompletes : Completes env₁ ref world world') :
    (world'.objects.images.map imageKey).Nodup ∧
      ∀ image, image ∈ world'.objects.images ↔ image ∈ foreign registry prior ∨
        ofRegistry registry image = true ∧ Final env job registry prior image := by
  have hend : Attempted env job registry prior world'.objects.images := by
    have hkeeps := keeps_attempted hserves hquiet hregistry hunclaimed
    exact (hkeeps.returns ⟨hreads, hattempted⟩ hcompletes.2).1.2
  obtain ⟨_, hregistry', hfound⟩ := found_of_completes hserves hquiet hreads hcompletes
  cases hregistry.symm.trans hregistry'
  have hscans : Scans env₁ ref job registry (Found env₁ registry) world.objects.images := by
    refine ⟨hquiet, (hserves.scannedRegistry job).trans hregistry, found_of_imagesOf, ?_,
      hattempted.between.keys⟩
    intro name hname
    have hprior := hunclaimed (.inr ((hfound name).mp hname))
    rw [Unclaimed, hattempted.between.foreign_eq]
    exact hprior
  obtain ⟨hnames, -⟩ := images_of_completes hscans hreads rfl hcompletes
  refine ⟨hend.between.keys, fun image => ?_⟩
  cases hof : ofRegistry registry image with
  | false =>
    have hiff : image ∈ world'.objects.images ↔
        image ∈ foreign registry world'.objects.images := by
      simp [foreign, hof]
    rw [hiff, hend.between.foreign_eq]
    simp
  | true =>
    have hforeign : image ∉ foreign registry prior := by simp [foreign, hof]
    rw [hend.mem_iff hstandard _ _ hof]
    · simp [hforeign]
    · intro name hname
      exact ((hnames name).mp hname).imp (hfound name).mp fun h => h.1
    · intro name hname
      exact (hnames name).mpr (.inl ((hfound name).mpr hname))

end Repeated

/-! ## The handler and its failures -/

section Reliable

variable {env env₁ : Env} {ref : JobRef} {job : ScanJob} {world world₁ world' world'' : World}

/-- What a ScanJob may expect of a registry with the content of `env`, which fails now and then: a
failed attempt says so and does no harm, whatever others do meanwhile, and a run that completes
after failed attempts leaves what it would have left without them. -/
structure Reliable (env : Env) (ref : JobRef) (job : ScanJob) : Prop where
  reported : ∀ {env₁ world}, Serves env₁ env →
    (∀ req objects, Reads ref job objects → Reads ref job (env₁.others req objects)) →
    Reads ref job world.objects → Reported env env₁ ref world
  repeatable : ∀ {env' env'' world world₁ world' world''},
    Sound env.lib world.objects.images → Reads ref job world.objects →
    Attempts env ref job world world₁ →
    Serves env' env → Quiet env' ref job → Completes env' ref world₁ world' →
    Serves env'' env → Quiet env'' ref job → Completes env'' ref world world'' →
    world'.objects.images.Perm world''.objects.images

variable {registry : Registry}

theorem perm_of_completes (hstandard : Standard env registry) (hslash : '/' ∉ registry.name.toList)
    (hregistry : scannedRegistry env job = .ok registry)
    (hsound : Sound env.lib world.objects.images) (hreads : Reads ref job world.objects)
    (hattempts : Attempts env ref job world world₁) {env' env'' : Env} (hserves' : Serves env' env)
    (hquiet' : Quiet env' ref job) (hcompletes' : Completes env' ref world₁ world')
    (hserves'' : Serves env'' env) (hquiet'' : Quiet env'' ref job)
    (hcompletes'' : Completes env'' ref world world'') :
    world'.objects.images.Perm world''.objects.images := by
  have hunclaimed : ∀ {name},
      name ∈ ownNames registry world.objects.images ∨ Found env registry name →
        Unclaimed registry world.objects.images name := by
    rintro name (hown | hfound)
    · exact unclaimed_of_own hsound.keys hown
    · exact unclaimed_of_found hstandard.sha256 hslash hsound hfound
  obtain ⟨hreads₁, hattempted⟩ :=
    attempted_of_attempts hattempts hregistry hunclaimed hsound.keys hreads
  obtain ⟨hkeys', hmem'⟩ := mem_of_completes hstandard hregistry hunclaimed hserves' hquiet'
    hreads₁ hattempted hcompletes'
  obtain ⟨hkeys'', hmem''⟩ := mem_of_completes hstandard hregistry hunclaimed hserves'' hquiet''
    hreads (.refl hsound.keys) hcompletes''
  apply (perm_ext_iff_of_nodup hkeys'.of_map hkeys''.of_map).mpr
  intro image
  rw [hmem', hmem'']

theorem reported_of_serves (hserves : Serves env₁ env)
    (hothers : ∀ req objects, Reads ref job objects → Reads ref job (env₁.others req objects))
    (hreads : Reads ref job world.objects)
    (hwhole : ∀ registry references reference, scannedRegistry env job = .ok registry →
      discoverReferences env registry = .ok references → reference ∈ references →
      ¬Panics (imagesOf env registry reference)) : Reported env env₁ ref world where
  fails := by
    intro scanJob started stop stopped hstart hcollect hstop
    refine ⟨throws_handle hstart hcollect hstop, ?_, harmless_of_throws hstart hcollect⟩
    intro i length heq
    obtain ⟨registry, references, hregistry, hreferences, reference, hmem, hpanics⟩ :=
      panicServed_collect started stop stopped hcollect i length heq
    have hscan := sameScan_of_start hothers hreads hstart
    rw [scannedRegistry_congr hscan, hserves.scannedRegistry] at hregistry
    exact hwhole registry references reference hregistry
      (hserves.discoverReferences_eq hreferences) hmem (hserves.panics_imagesOf hpanics)
  succeeds _ hcollect := content_of_collect hserves hcollect

/-- The order in which the loops come to the `n`-th element first. -/
def startingAt (n : Nat) : IterationOrder Loop where
  range _ xs := xs.rotate n
  perm _ xs := xs.rotate_perm n

/-- Nobody else is there, and no request fails. -/
def alone (env : Env) (order : IterationOrder Loop) : Env :=
  { env with order := order, others := fun _ objects => objects, fault := fun _ => none }

theorem serves_alone (env : Env) (order : IterationOrder Loop) : Serves (alone env order) env :=
  ⟨rfl, .refl _, rfl⟩

/-- A job that nobody has looked at is started. -/
theorem returns_startCatalog_alone {order : IterationOrder Loop} {current : ScanJob}
    (huid : current.uid = ref.uid) (hstatus : current.status = {})
    (hworld : world.objects.scanJob = some current) : ∃ scanJob started,
      Returns (startCatalog (alone env order) ref) world scanJob started := by
  have hfinished : current.job.jobFinished = false := by
    unfold ScanJob.job
    rw [hstatus]
    rfl
  let status := (current.job.markInProgress ((alone env order).now .starting)
    .catalogCreationInProgress "Catalog creation in progress").status
  refine ⟨withStatus current status, world.setStatus current status,
    returns_tryCatch.mpr (.inl (returns_retry_of ?_))⟩
  refine returns_bind.mpr ⟨current, world, returns_bind.mpr ⟨current, world, ?_, ?_⟩, ?_⟩
  · refine returns_ask_of rfl ?_
    dsimp only [alone]
    rw [hworld]
  · rw [if_neg (not_not.mpr huid)]
    exact returns_pure.mpr ⟨rfl, rfl⟩
  · rw [hfinished]
    refine returns_call_of rfl ?_
    dsimp only [alone]
    rw [hworld]
    simp [World.setStatus, withStatus, status, alone]

variable {reference : String}

/-- A reference that leads to a panic, if it comes first. -/
theorem throws_collect_alone {before after : List String} {scanJob : ScanJob}
    (hregistry : scannedRegistry env scanJob = .ok registry)
    (hreferences : discoverReferences env registry = .ok (before ++ reference :: after))
    {failure : Failure} (himages : imagesOf env registry reference = .error failure) :
    Throws (collect (alone env (startingAt before.length)) ref scanJob) world (.failed failure)
      world := by
  refine throws_bind.mpr (.inr ⟨registry, world, returns_liftError.mpr ⟨hregistry, rfl⟩, ?_⟩)
  refine throws_bind.mpr (.inr ⟨⟨⟩, world, returns_ask_of rfl rfl, ?_⟩)
  refine throws_bind.mpr (.inr ⟨⟨⟩, world, ?_, ?_⟩)
  · split
    · exact returns_ask_of rfl rfl
    · exact returns_pure.mpr ⟨rfl, rfl⟩
  refine throws_bind.mpr (.inr ⟨_, world, returns_liftError.mpr ⟨hreferences, rfl⟩, ?_⟩)
  refine throws_bind.mpr (.inr ⟨_, world, returns_ask_of rfl rfl, ?_⟩)
  refine throws_bind.mpr (.inr ⟨⟨⟩, world, returns_ask_of rfl rfl, ?_⟩)
  have hrange : (alone env (startingAt before.length)).order.range .references
      (before ++ reference :: after) = reference :: (after ++ before) :=
    rotate_append_length_eq before _
  rw [hrange]
  refine throws_bind.mpr (.inl (throws_bind.mpr (.inl ?_)))
  have hlift : imagesOf (alone env (startingAt before.length)) registry reference =
    .error failure := himages
  rw [hlift]
  rfl

theorem not_reliable_of_panics {references : List String}
    (hregistry : scannedRegistry env job = .ok registry)
    (hreferences : discoverReferences env registry = .ok references) (hmem : reference ∈ references)
    (hpanics : Panics (imagesOf env registry reference)) : ¬Reliable env ref job := by
  intro h
  obtain ⟨i, length, himages⟩ := hpanics
  obtain ⟨before, after, rfl⟩ := append_of_mem hmem
  let current : ScanJob := { job with uid := ref.uid, status := {} }
  let world : World := ⟨⟨some current, []⟩, [], []⟩
  have hreads : Reads ref job world.objects := by
    rintro _ heq -
    cases heq
    exact ⟨rfl, rfl, rfl, rfl⟩
  obtain ⟨scanJob, started, hstart⟩ : ∃ scanJob started,
      Returns (startCatalog (alone env (startingAt before.length)) ref) world scanJob started :=
    returns_startCatalog_alone (rfl : current.uid = ref.uid) rfl rfl
  have hothers : ∀ req objects, Reads ref job objects →
      Reads ref job ((alone env (startingAt before.length)).others req objects) := fun _ _ h => h
  have hscan := sameScan_of_start hothers hreads hstart
  have hthrows : Throws (collect (alone env (startingAt before.length)) ref scanJob) started
      (.failed (.indexOutOfRange i length)) started :=
    throws_collect_alone ((scannedRegistry_congr hscan).trans hregistry) hreferences himages
  have hreported := h.reported (serves_alone env _) hothers hreads
  exact (hreported.fails hstart hthrows nofun).2.1 i length rfl

end Reliable

namespace MissingLayer

open TwoPlatforms

/-- Two commands and one layer. -/
def image : RemoteImage where
  mediaType := .ok .image
  manifest := .ok ⟨"", .config, [.layer]⟩
  configFile := .ok ⟨some missingLayer.platform, missingLayer.history⟩
  digest := .ok missingLayer.digest
  layers := .ok missingLayer.layers

/-- A registry with one repository and one tag, which points to the image. -/
def env : Env :=
  { serving "" "" with client := {
      catalog := fun _ => .ok []
      tags := fun _ => .ok ["v1"]
      descriptor := fun _ => .ok ⟨.image, .error "not an index", image.manifest,
        .error "not an index"⟩
      image := fun _ => .ok image } }

/-- The panic that a run has ended with. -/
def panic (result : Except Stop PUnit × World) : Option (Nat × Nat) :=
  match result with
  | (.error (.failed (.indexOutOfRange i length)), _) => some (i, length)
  | _ => none

end MissingLayer

end SbomScanner.Catalog

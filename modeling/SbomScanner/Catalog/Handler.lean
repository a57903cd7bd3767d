import SbomScanner.Catalog.Images
import SbomScanner.Catalog.Targets
import SbomScanner.Jobs.Pipeline
import SbomScanner.Worker.Lookups

/-!
# CreateCatalogHandler

The handler of a CreateCatalog message from its first request to its last: it marks the ScanJob as
in progress, takes the Registry from the snapshot, lists what the registry has, stores an `Image`
for each image it finds, deletes those that are gone, writes the number of images to the ScanJob,
and publishes a GenerateSBOM message for each of them.

The handler is not alone: `Env.others` is what others have made of the objects by the time of each
request, and a request may fail, which stops the handler where it is. It also stops, without an
error, when the ScanJob is gone or finished. The registry serves the same content throughout.

Left out are the log, the metrics, and the calls inside `refToImages` that tell the queue that the
message is still being worked on.
-/

namespace SbomScanner.Catalog

open Api List

/-! ## The world of the handler -/

structure JobRef where
  name : String
  ns : String
  uid : Nat
  deriving DecidableEq

structure GenerateSBOMMessage where
  scanJob : JobRef
  imageName : String
  imageNs : String
  deriving DecidableEq

structure Published where
  messageID : String
  message : GenerateSBOMMessage
  deriving DecidableEq

structure Objects where
  /-- the ScanJob that has the name now -/
  scanJob : Option ScanJob
  images : List Image

/-- The objects, and what the handler itself has written and published. -/
structure World where
  objects : Objects
  written : List Jobs.Status
  published : List Published

inductive Phase where
  | starting
  | image (name : String)
  | finishing

inductive Request where
  | getScanJob (phase : Phase) (attempt : Nat)
  | updateStatus (phase : Phase) (attempt : Nat)
  | resolveCABundle
  | dockerConfig
  | listImages
  | createImage (name : String)
  | deleteImage (name : String)
  | inProgress (phase : Phase)
  | publish (messageID : String)

inductive Loop where
  | references
  | obsoleteImages

/-- What the handler works with, and what it does not determine itself. -/
structure Env where
  lib : Library
  client : Client
  unmarshal : String → Except String Registry
  order : IterationOrder Loop
  others : Request → Objects → Objects
  fault : Request → Option ApiError
  now : Phase → Nat

inductive SkipReason where
  | jobNotFound
  | jobFinished
  | uidMismatch
  deriving DecidableEq

/-- Why the handler stops. To skip the message is no error; the reason is not always recorded. -/
inductive Stop where
  | skipped (reason : Option SkipReason)
  | api (message : String) (cause : ApiError)
  | failed (failure : Failure)

abbrev Handle := Procedure Stop World

variable (env : Env) (ref : JobRef)

def answer {α : Type} (req : Request) (perform : World → Except ApiError (α × World))
    (world : World) : Except ApiError (α × World) :=
  match env.fault req with
  | some cause => .error cause
  | none => perform world

def call {α : Type} (req : Request) (message : String)
    (perform : World → Except ApiError (α × World)) : Handle α := do
  let world ← get
  set { world with objects := env.others req world.objects }
  match answer env req perform { world with objects := env.others req world.objects } with
  | .ok (a, world') => do
    set world'
    pure a
  | .error cause => throw (.api message cause)

/-- A request that changes nothing. -/
def ask {α : Type} (req : Request) (message : String) (reply : World → Except ApiError α) :
    Handle α :=
  call env req message fun world => (reply world).map fun a => (a, world)

def lift {α : Type} : Except Failure α → Handle α
  | .ok a => pure a
  | .error e => throw (.failed e)

def liftError {α : Type} (x : Except String α) : Handle α := lift (x.mapError .failed)

def inProgress (phase : Phase) (message : String) : Handle PUnit :=
  ask env (.inProgress phase) message fun _ => .ok ⟨⟩

/-! ## The ScanJob -/

def JobRef.path : String := ref.ns ++ "/" ++ ref.name

def getScanJob (phase : Phase) (attempt : Nat) (message : String) : Handle ScanJob :=
  ask env (.getScanJob phase attempt) message fun world =>
    match world.objects.scanJob with
    | some scanJob => .ok scanJob
    | none => .error .notFound

/-- A ScanJob with another uid is another ScanJob: the one of the message is not found. -/
def fetchScanJob (phase : Phase) (attempt : Nat) (message : String) : Handle ScanJob := do
  let scanJob ← getScanJob env phase attempt message
  if scanJob.uid ≠ ref.uid then throw (.api "" .notFound) else pure scanJob

def updateStatus (phase : Phase) (attempt : Nat) (scanJob : ScanJob) (status : Jobs.Status) :
    Handle ScanJob :=
  call env (.updateStatus phase attempt) "" fun world =>
    match world.objects.scanJob with
    | none => .error .notFound
    | some current =>
      if current.uid ≠ scanJob.uid ∨ current.resourceVersion ≠ scanJob.resourceVersion then
        .error .conflict
      else
        let updated := { current with status, resourceVersion := current.resourceVersion + 1 }
        .ok (updated, { world with
          objects := { world.objects with scanJob := some updated }
          written := world.written ++ [status] })

def isConflict : Stop → Bool
  | .api _ .conflict => true
  | _ => false

/-- `retry.RetryOnConflict` with the default backoff; that the ScanJob is gone is no error. -/
def updateScanJob (gone : Option SkipReason) (attempt : Nat → Handle ScanJob) : Handle ScanJob :=
  tryCatch (Procedure.retry isConflict attempt 4) fun
    | .api _ .notFound => throw (.skipped gone)
    | .api message cause =>
      throw (.api ("cannot update scan job status " ++ ref.path ++ ": " ++ message) cause)
    | stop => throw stop

def startCatalog : Handle ScanJob :=
  updateScanJob ref (some .jobNotFound) fun attempt => do
    let scanJob ← fetchScanJob env ref .starting attempt ("cannot get scanjob " ++ ref.path ++ ": ")
    -- a finished job means this message is a redelivery
    if scanJob.job.jobFinished then
      throw (.skipped (some .jobFinished))
    else
      updateStatus env .starting attempt scanJob (scanJob.job.markInProgress (env.now .starting)
        .catalogCreationInProgress "Catalog creation in progress").status

def finishCatalog (discoveredImages : List Image) : Handle ScanJob :=
  updateScanJob ref none fun attempt => do
    let scanJob ← fetchScanJob env ref .finishing attempt
      ("cannot get scan job " ++ ref.path ++ " while updating status: ")
    updateStatus env .finishing attempt scanJob (Jobs.Pipeline.catalogStatus
      (env.now .finishing) (discoveredImages.map (·.name)) scanJob.job)

/-! ## What there is to scan -/

def targetError (lib : Library) : TargetError → String
  | .repositoryNotDeclared repository registry =>
    "repository " ++ lib.quote repository ++ " not declared on registry " ++ lib.quote registry
  | .matchConditionsNotFound repository registry =>
    "one or more MatchConditions of target repository " ++ lib.quote repository ++
      " not found on registry " ++ lib.quote registry

/-- The Registry of the snapshot, restricted to the targets of the ScanJob. -/
def scannedRegistry (scanJob : ScanJob) : Except String Registry := do
  let registry ← Worker.registryFromScanJob env.unmarshal scanJob
  (applyTargetsToRegistry registry scanJob).mapError (targetError env.lib)

/-- The references of all repositories, as a set. -/
def discoverReferences (registry : Registry) : Except String (List String) := do
  let repositories ← wrap "cannot discover repositories"
    (discoverRepositories env.lib env.client.toListing registry)
  let repoImages ← repositories.mapM fun repository =>
    wrap ("cannot discover images in registry " ++ registry.name)
      (discoverImages env.lib env.client.toListing registry repository)
  return repoImages.flatten.dedup

/-- The images of a reference, if its tag is allowed by the CEL filter. -/
def imagesOf (registry : Registry) (newImageName : String) : Except Failure (List Image) := do
  let reference ← fail ("cannot parse image reference " ++ env.lib.quote newImageName)
    (env.lib.parseReference newImageName)
  let tagIsAllowed ← (filterByTag env.lib.evaluate (registry.getRepository reference.repository)
    reference.identifier).mapError fun e => .failed ("cannot evaluate image tag for " ++
      env.lib.quote newImageName ++ ": cannot evaluate expression " ++ e.name ++ ": " ++ e.cause)
  if !tagIsAllowed then
    return []
  else
    (refToImages env.lib env.client reference registry).mapError fun
      | .failed e => .failed ("cannot get images for " ++ env.lib.quote reference.name ++ ": " ++ e)
      | panicked => panicked

/-! ## The images -/

def ofRegistry (registry : Registry) (image : Image) : Bool :=
  image.ns = registry.ns && image.registry = registry.name

def listImages (registry : Registry) : Handle (List String) :=
  ask env .listImages ("cannot list existing images in registry " ++ registry.name ++ ": ")
    fun world => .ok ((world.objects.images.filter (ofRegistry registry)).map (·.name)).dedup

def imageKey (image : Image) : String × String := (image.ns, image.name)

/-- That the image is there already is no error. -/
def createImage (image : Image) : Handle PUnit :=
  tryCatch
    (do
      call env (.createImage image.name) ("cannot create image " ++ image.name ++ ": ") fun world =>
        if imageKey image ∈ world.objects.images.map imageKey then
          .error .alreadyExists
        else
          .ok (PUnit.unit, { world with
            objects := { world.objects with images := world.objects.images ++ [image] } })
      inProgress env (.image image.name) "failed to ack message as in progress: ")
    fun
      | .api _ .alreadyExists => pure ⟨⟩
      | stop => throw stop

/-- Re-fetches the ScanJob to be sure it was not deleted while images were processed. -/
def refetchScanJob (image : Image) : Handle ScanJob := do
  let scanJob ← tryCatch
    (getScanJob env (.image image.name) 0 ("cannot get scanjob " ++ ref.path ++ ": ")) fun
      | .api _ .notFound => throw (.skipped (some .jobNotFound))
      | stop => throw stop
  if scanJob.uid ≠ ref.uid then throw (.skipped (some .uidMismatch)) else pure scanJob

/-- The loop over the images of a reference. Returns the ScanJob as it was read last. -/
def catalogImages (existing : List String) : ScanJob → List Image → Handle ScanJob
  | scanJob, [] => pure scanJob
  | _, image :: rest => do
    let scanJob ← refetchScanJob env ref image
    (if image.name ∈ existing then pure ⟨⟩ else createImage env image)
    catalogImages existing scanJob rest

/-- The loop over the references. Returns the discovered images as well. -/
def catalogReferences (registry : Registry) (existing : List String) :
    ScanJob → List String → Handle (ScanJob × List Image)
  | scanJob, [] => pure (scanJob, [])
  | scanJob, newImageName :: rest => do
    let images ← lift (imagesOf env registry newImageName)
    let scanJob ← catalogImages env ref existing scanJob images
    let others ← catalogReferences registry existing scanJob rest
    return (others.1, images ++ others.2)

def deleteImage (registry : Registry) (name : String) : Handle PUnit := do
  let message := "cannot delete obsolete images in registry " ++ registry.name ++ ": "
  call env (.deleteImage name)
    (message ++ "cannot delete image " ++ name ++ "/" ++ registry.ns ++ ": ") fun world =>
      if (registry.ns, name) ∈ world.objects.images.map imageKey then
        .ok (PUnit.unit, { world with objects := { world.objects with
          images := world.objects.images.filter (imageKey · ≠ (registry.ns, name)) } })
      else
        .error .notFound
  inProgress env (.image name) (message ++ "cannot mark message as in progress: ")

def deleteObsoleteImages (registry : Registry) (existing discovered : List String) : Handle PUnit :=
  (env.order.range .obsoleteImages (existing.filter (· ∉ discovered))).forM
    (deleteImage env registry)

def generateSBOMMessage (uid : Nat) (image : Image) : Published where
  messageID := "generateSBOM/" ++ Strings.formatUint uid ++ "/" ++ image.name
  message := ⟨ref, image.name, image.ns⟩

def publishGenerateSBOM (uid : Nat) (image : Image) : Handle PUnit :=
  call env (.publish (generateSBOMMessage ref uid image).messageID)
    ("cannot publish generate sbom message for image " ++ image.ns ++ "/" ++ image.name ++ ": ")
    fun world => .ok (PUnit.unit,
      { world with published := world.published ++ [generateSBOMMessage ref uid image] })

/-! ## The handler -/

/-- Everything from the snapshot to the images that are discovered. -/
def discover (scanJob : ScanJob) : Handle (List Image) := do
  let registry ← liftError (scannedRegistry env scanJob)
  ask env .resolveCABundle ("cannot create transport for registry " ++ registry.name ++ ": ")
    fun _ => .ok PUnit.unit
  (if registry.isPrivate then
    ask env .dockerConfig "cannot setup docker auth: " fun _ => .ok PUnit.unit
  else
    pure PUnit.unit)
  let references ← liftError (discoverReferences env registry)
  let existing ← listImages env registry
  inProgress env .starting "failed to ack message as in progress: "
  let discovered ← catalogReferences env ref registry existing scanJob
    (env.order.range .references references)
  -- a job with targets knows nothing about the rest of the registry
  (if discovered.1.spec.repositories = [] then
    deleteObsoleteImages env registry existing (discovered.2.map (·.name))
  else
    pure PUnit.unit)
  return discovered.2

/-- What a run has read and found: the ScanJob it has started, and the images. -/
structure Run where
  scanJob : ScanJob
  images : List Image

def createCatalog : Handle Run := do
  let scanJob ← startCatalog env ref
  let discoveredImages ← discover env ref scanJob
  let finished ← finishCatalog env ref discoveredImages
  discoveredImages.forM (publishGenerateSBOM env ref finished.uid)
  return ⟨scanJob, discoveredImages⟩

/-- `Handle`: a message that is skipped is done with. -/
def handle : Handle PUnit :=
  tryCatch (do let _ ← createCatalog env ref) fun
    | .skipped _ => pure ⟨⟩
    | stop => throw stop

/-- What `discover` has in its hands when it comes to the images that are gone. -/
structure Collected where
  registry : Registry
  existing : List String
  /-- the ScanJob as it was read last -/
  scanJob : ScanJob
  images : List Image

/-- `discover` up to the first image that it may delete. -/
def collect (scanJob : ScanJob) : Handle Collected := do
  let registry ← liftError (scannedRegistry env scanJob)
  ask env .resolveCABundle ("cannot create transport for registry " ++ registry.name ++ ": ")
    fun _ => .ok PUnit.unit
  (if registry.isPrivate then
    ask env .dockerConfig "cannot setup docker auth: " fun _ => .ok PUnit.unit
  else
    pure PUnit.unit)
  let references ← liftError (discoverReferences env registry)
  let existing ← listImages env registry
  inProgress env .starting "failed to ack message as in progress: "
  let discovered ← catalogReferences env ref registry existing scanJob
    (env.order.range .references references)
  return ⟨registry, existing, discovered.1, discovered.2⟩

def cleanup (collected : Collected) : Handle (List Image) := do
  (if collected.scanJob.spec.repositories = [] then
    deleteObsoleteImages env collected.registry collected.existing (collected.images.map (·.name))
  else
    pure PUnit.unit)
  return collected.images

theorem discover_eq (scanJob : ScanJob) :
    discover env ref scanJob = collect env ref scanJob >>= cleanup env := by
  simp only [discover, collect, cleanup, bind_assoc, pure_bind]

/-! ## What a procedure keeps -/

open Procedure

section Kept

variable {env ref} {α : Type} {I : World → Prop}

/-- What others make of the objects between the requests does not touch `I`. -/
def Tolerates (env : Env) (I : World → Prop) : Prop :=
  ∀ req world, I world → I { world with objects := env.others req world.objects }

def World.addImage (world : World) (image : Image) : World :=
  { world with objects := { world.objects with images := world.objects.images ++ [image] } }

def World.removeImage (world : World) (ns name : String) : World :=
  { world with objects := { world.objects with
    images := world.objects.images.filter (imageKey · ≠ (ns, name)) } }

def withStatus (current : ScanJob) (status : Jobs.Status) : ScanJob :=
  { current with status, resourceVersion := current.resourceVersion + 1 }

def World.setStatus (world : World) (current : ScanJob) (status : Jobs.Status) : World :=
  { world with
    objects := { world.objects with scanJob := some (withStatus current status) }
    written := world.written ++ [status] }

variable {message : String} {req : Request}

theorem keeps_call (hothers : Tolerates env I) {Q : α → Prop}
    {perform : World → Except ApiError (α × World)}
    (h : ∀ {world a world'}, I world → perform world = .ok (a, world') → I world' ∧ Q a) :
    Keeps I (call env req message perform) Q := by
  refine keeps_bind keeps_get fun world hworld => ?_
  have hnow := hothers req world hworld
  refine keeps_bind (keeps_set hnow) fun _ _ => ?_
  split
  case h_1 a world' hanswer =>
    unfold answer at hanswer
    split at hanswer
    · cases hanswer
    · obtain ⟨hkept, hresult⟩ := h hnow hanswer
      exact keeps_bind (keeps_set hkept) fun _ _ => keeps_pure hresult
  case h_2 => exact keeps_throw

variable {reply : World → Except ApiError α}

theorem keeps_ask (hothers : Tolerates env I) {Q : α → Prop}
    (h : ∀ {world a}, I world → reply world = .ok a → Q a) :
    Keeps I (ask env req message reply) Q := by
  refine keeps_call hothers fun {world a world'} hworld hreply => ?_
  obtain ⟨_, hok, heq⟩ := Fallible.map_eq_ok.mp hreply
  cases heq
  exact ⟨hworld, h hworld hok⟩

/-- A request that only asks leaves what the others leave. -/
theorem Tolerates.asked (hothers : Tolerates env I) {world world' : World} {a : α}
    (hworld : I world) (hreturns : Returns (ask env req message reply) world a world') : I world' :=
  ((keeps_ask (Q := fun _ => True) hothers fun _ _ => trivial).returns hworld hreturns).1

theorem keeps_lift {x : Except Failure α} : Keeps I (lift x) fun a => x = .ok a := by
  cases x with
  | ok a => exact keeps_pure rfl
  | error e => exact keeps_throw

theorem keeps_liftError {x : Except String α} : Keeps I (liftError x) fun a => x = .ok a := by
  cases x with
  | ok a => exact keeps_pure rfl
  | error e => exact keeps_throw

/-! ### The ScanJob -/

variable {Q Q' : ScanJob → Prop} {phase : Phase} {attempt : Nat}

theorem keeps_getScanJob (hothers : Tolerates env I)
    (hread : ∀ {world scanJob}, I world → world.objects.scanJob = some scanJob → Q scanJob) :
    Keeps I (getScanJob env phase attempt message) Q := by
  refine keeps_ask hothers fun {world scanJob} hworld hreply => ?_
  split at hreply
  case h_1 hsome =>
    cases hreply
    exact hread hworld hsome
  case h_2 => cases hreply

theorem keeps_fetchScanJob (hothers : Tolerates env I)
    (hread : ∀ {world scanJob}, I world → world.objects.scanJob = some scanJob →
      scanJob.uid = ref.uid → Q scanJob) :
    Keeps I (fetchScanJob env ref phase attempt message) Q := by
  refine keeps_bind (keeps_getScanJob hothers hread) fun scanJob hscanJob => ?_
  split
  · exact keeps_throw
  case isFalse huid => exact keeps_pure (hscanJob (not_not.mp huid))

variable {scanJob : ScanJob}

theorem keeps_updateStatus (hothers : Tolerates env I) {status : Jobs.Status}
    (hupdate : ∀ {world current}, I world → world.objects.scanJob = some current →
      current.uid = scanJob.uid → I (world.setStatus current status) ∧
      Q (withStatus current status)) :
    Keeps I (updateStatus env phase attempt scanJob status) Q := by
  refine keeps_call hothers fun {world updated world'} hworld h => ?_
  split at h
  case h_1 => cases h
  case h_2 current hcurrent =>
    split at h
    case isTrue => cases h
    case isFalse hsame =>
      cases h
      exact hupdate hworld hcurrent (by tauto)

theorem keeps_updateScanJob {gone : Option SkipReason} {attempt : Nat → Handle ScanJob}
    (h : ∀ n, Keeps I (attempt n) Q) : Keeps I (updateScanJob ref gone attempt) Q := by
  refine keeps_tryCatch (keeps_retry h 4) fun stop => ?_
  split <;> exact keeps_throw

theorem keeps_startCatalog (hothers : Tolerates env I)
    (hread : ∀ {world scanJob}, I world → world.objects.scanJob = some scanJob →
      scanJob.uid = ref.uid → Q scanJob)
    (hupdate : ∀ {world current scanJob now}, I world → world.objects.scanJob = some current →
      Q scanJob → current.uid = scanJob.uid →
      let status := (scanJob.job.markInProgress now .catalogCreationInProgress
        "Catalog creation in progress").status
      I (world.setStatus current status) ∧ Q' (withStatus current status)) :
    Keeps I (startCatalog env ref) Q' := by
  refine keeps_updateScanJob fun attempt => ?_
  refine keeps_bind (keeps_fetchScanJob hothers hread) fun scanJob hscanJob => ?_
  split
  · exact keeps_throw
  · exact keeps_updateStatus hothers fun hworld hcurrent => hupdate hworld hcurrent hscanJob

variable {images : List Image}

theorem keeps_finishCatalog (hothers : Tolerates env I)
    (hupdate : ∀ {world current status}, I world → world.objects.scanJob = some current →
      I (world.setStatus current status)) :
    Keeps I (finishCatalog env ref images) fun _ => True := by
  refine keeps_updateScanJob fun attempt => ?_
  refine keeps_bind (Q := fun _ => True) (keeps_fetchScanJob hothers fun _ _ _ => trivial) ?_
  intro scanJob _
  exact keeps_updateStatus hothers fun hworld hcurrent _ => ⟨hupdate hworld hcurrent, trivial⟩

theorem keeps_refetchScanJob (hothers : Tolerates env I)
    (hread : ∀ {world scanJob}, I world → world.objects.scanJob = some scanJob →
      scanJob.uid = ref.uid → Q scanJob) {image : Image} :
    Keeps I (refetchScanJob env ref image) Q := by
  refine keeps_bind (keeps_tryCatch (keeps_getScanJob hothers hread) fun stop => ?_)
    fun scanJob hscanJob => ?_
  · split <;> exact keeps_throw
  · split
    · exact keeps_throw
    case isFalse huid => exact keeps_pure (hscanJob (not_not.mp huid))

/-! ### The images -/

theorem keeps_createImage (hothers : Tolerates env I) {image : Image}
    (hcreate : ∀ {world}, I world → imageKey image ∉ world.objects.images.map imageKey →
      I (world.addImage image)) : Keeps I (createImage env image) fun _ => True := by
  refine keeps_tryCatch (keeps_bind (Q := fun _ => True) ?_ fun _ _ => ?_) fun stop => ?_
  · refine keeps_call hothers fun {world a world'} hworld h => ?_
    split at h
    case isTrue => cases h
    case isFalse hnew =>
      cases h
      exact ⟨hcreate hworld hnew, trivial⟩
  · exact keeps_ask hothers fun _ _ => trivial
  · split
    · exact keeps_pure trivial
    · exact keeps_throw

theorem keeps_catalogImages (hothers : Tolerates env I)
    (hread : ∀ {world scanJob}, I world → world.objects.scanJob = some scanJob →
      scanJob.uid = ref.uid → Q scanJob) {existing : List String}
    (hcreate : ∀ {image world}, image ∈ images → I world →
      imageKey image ∉ world.objects.images.map imageKey → I (world.addImage image))
    (hscanJob : Q scanJob) :
    Keeps I (catalogImages env ref existing scanJob images) Q := by
  induction images generalizing scanJob with
  | nil => exact keeps_pure hscanJob
  | cons image rest ih =>
    refine keeps_bind (keeps_refetchScanJob hothers hread) fun scanJob hscanJob => ?_
    refine keeps_bind (Q := fun _ => True) ?_ fun _ _ => ?_
    · split
      · exact keeps_pure trivial
      · exact keeps_createImage hothers (hcreate mem_cons_self)
    · exact ih (fun hmem => hcreate (mem_cons_of_mem _ hmem)) hscanJob

variable {registry : Registry}

theorem keeps_catalogReferences {existing references : List String}
    (hloop : ∀ {reference images scanJob}, reference ∈ references →
      imagesOf env registry reference = .ok images → Q scanJob →
      Keeps I (catalogImages env ref existing scanJob images) Q) (hscanJob : Q scanJob) :
    Keeps I (catalogReferences env ref registry existing scanJob references)
      fun discovered => Q discovered.1 := by
  induction references generalizing scanJob with
  | nil => exact keeps_pure hscanJob
  | cons newImageName rest ih =>
    refine keeps_bind keeps_lift fun images himages => ?_
    refine keeps_bind (hloop mem_cons_self himages hscanJob) fun scanJob hscanJob => ?_
    refine keeps_bind (ih (fun hmem => hloop (mem_cons_of_mem _ hmem)) hscanJob) ?_
    exact fun discovered hdiscovered => keeps_pure hdiscovered

theorem keeps_deleteObsoleteImages (hothers : Tolerates env I) {existing discovered : List String}
    (hdelete : ∀ {name world}, name ∈ existing → name ∉ discovered → I world →
      I (world.removeImage registry.ns name)) :
    Keeps I (deleteObsoleteImages env registry existing discovered) fun _ => True := by
  refine keeps_forM fun name hname => ?_
  obtain ⟨hexisting, hgone⟩ := mem_filter.mp (env.order.mem_range.mp hname)
  refine keeps_bind (Q := fun _ => True) ?_ fun _ _ => keeps_ask hothers fun _ _ => trivial
  refine keeps_call hothers fun {world a world'} hworld h => ?_
  split at h
  case isTrue =>
    cases h
    exact ⟨hdelete hexisting (of_decide_eq_true hgone) hworld, trivial⟩
  case isFalse => cases h

/-- All that `collect` changes is changed in the loops over the images that it has found. -/
theorem keeps_collect (hothers : Tolerates env I) {P : Registry → String → Prop}
    (hlist : ∀ {registry world}, I world → ∀ image ∈ world.objects.images,
      ofRegistry registry image = true → P registry image.name) (hscanJob : Q scanJob)
    (hloop : ∀ {registry references reference images existing scanJob'},
      scannedRegistry env scanJob = .ok registry →
      discoverReferences env registry = .ok references → reference ∈ references →
      imagesOf env registry reference = .ok images → Q scanJob' →
      Keeps I (catalogImages env ref existing scanJob' images) Q) :
    Keeps I (collect env ref scanJob) fun collected => Q collected.scanJob ∧
      scannedRegistry env scanJob = .ok collected.registry ∧
      ∀ name ∈ collected.existing, P collected.registry name := by
  refine keeps_bind keeps_liftError fun registry hregistry => ?_
  refine keeps_bind (Q := fun _ => True) (keeps_ask hothers fun _ _ => trivial) fun _ _ => ?_
  refine keeps_bind (Q := fun _ => True) ?_ fun _ _ => ?_
  · split
    · exact keeps_ask hothers fun _ _ => trivial
    · exact keeps_pure trivial
  refine keeps_bind keeps_liftError fun references hreferences => ?_
  have hexisting : Keeps I (listImages env registry) fun existing =>
      ∀ name ∈ existing, P registry name := by
    refine keeps_ask hothers fun {world existing} hworld hreply => ?_
    cases hreply
    intro name hname
    obtain ⟨image, himage, rfl⟩ := mem_map.mp (mem_dedup.mp hname)
    obtain ⟨hmem, hof⟩ := mem_filter.mp himage
    exact hlist hworld image hmem hof
  refine keeps_bind hexisting fun existing hlisted => ?_
  refine keeps_bind (Q := fun _ => True) (keeps_ask hothers fun _ _ => trivial) fun _ _ => ?_
  refine keeps_bind (keeps_catalogReferences (Q := Q) ?_ hscanJob) fun discovered hjob =>
    keeps_pure ⟨hjob, hregistry, hlisted⟩
  intro reference images scanJob hmem
  exact hloop hregistry hreferences (env.order.mem_range.mp hmem)

theorem keeps_cleanup (hothers : Tolerates env I) {collected : Collected}
    (hdelete : collected.scanJob.spec.repositories = [] → ∀ {name world},
      name ∈ collected.existing → name ∉ collected.images.map (·.name) → I world →
      I (world.removeImage collected.registry.ns name)) :
    Keeps I (cleanup env collected) fun _ => True := by
  refine keeps_bind (Q := fun _ => True) ?_ fun _ _ => keeps_pure trivial
  split
  case isTrue huntargeted => exact keeps_deleteObsoleteImages hothers (hdelete huntargeted)
  case isFalse => exact keeps_pure trivial

end Kept

section Published

variable {env ref} {published : List Published} {α : Type}

/-- What a procedure has published by its end, however it ends, was published before. -/
def Silent (published : List Published) (p : Handle α) : Prop :=
  Keeps (fun world : World => world.published = published) p fun _ => True

theorem tolerates_published : Tolerates env fun world => world.published = published :=
  fun _ _ h => h

theorem silent_startCatalog : Silent published (startCatalog env ref) :=
  keeps_startCatalog (Q := fun _ => True) tolerates_published (fun _ _ _ => trivial)
    fun h _ _ _ => ⟨h, trivial⟩

theorem silent_finishCatalog {images : List Image} :
    Silent published (finishCatalog env ref images) :=
  keeps_finishCatalog tolerates_published fun h _ => h

variable {scanJob : ScanJob}

theorem silent_collect : Silent published (collect env ref scanJob) := by
  refine Keeps.mono (keeps_collect (Q := fun _ => True) (P := fun _ _ => True)
    tolerates_published (fun _ _ _ _ => trivial) trivial ?_) fun _ _ => trivial
  intro registry references reference images existing scanJob' _ _ _ _ _
  exact keeps_catalogImages tolerates_published (fun _ _ _ => trivial) (fun _ h _ => h) trivial

theorem silent_discover : Silent published (discover env ref scanJob) := by
  rw [discover_eq]
  refine keeps_bind silent_collect fun collected _ => ?_
  exact keeps_cleanup tolerates_published fun _ _ _ _ _ h => h

/-- A procedure that comes to its end has published nothing new. -/
theorem Silent.published_eq {p : Handle α} {a : α} {world world' : World}
    (h : Silent world.published p) (hp : Returns p world a world') :
    world'.published = world.published := by
  have hkept := (h world rfl).1
  rw [hp] at hkept
  exact hkept

end Published

/-! ## What a run leaves -/

section Run

variable {env ref} {α : Type} {world world' : World} {perform : World → Except ApiError (α × World)}
  {message : String} {req : Request} {a : α}

theorem returns_call (h : Returns (call env req message perform) world a world') :
    perform { world with objects := env.others req world.objects } = .ok (a, world') := by
  obtain ⟨_, _, hget, hrest⟩ := returns_bind.mp h
  obtain ⟨rfl, rfl⟩ := returns_get.mp hget
  obtain ⟨_, _, hset, hrest⟩ := returns_bind.mp hrest
  obtain rfl := returns_set.mp hset
  split at hrest
  case h_2 => exact absurd hrest not_returns_throw
  case h_1 b result hanswer =>
    obtain ⟨_, _, hset, hpure⟩ := returns_bind.mp hrest
    obtain rfl := returns_set.mp hset
    obtain ⟨rfl, rfl⟩ := returns_pure.mp hpure
    unfold answer at hanswer
    split at hanswer
    · cases hanswer
    · exact hanswer

theorem returns_call_of (hfault : env.fault req = none)
    (hperform : perform { world with objects := env.others req world.objects } = .ok (a, world')) :
    Returns (call env req message perform) world a world' := by
  have hanswer : answer env req perform { world with objects := env.others req world.objects } =
      .ok (a, world') := by
    rw [answer, hfault]
    exact hperform
  refine returns_bind.mpr ⟨_, _, returns_get.mpr ⟨rfl, rfl⟩, ?_⟩
  refine returns_bind.mpr ⟨⟨⟩, _, returns_set.mpr rfl, ?_⟩
  rw [hanswer]
  exact returns_bind.mpr ⟨⟨⟩, world', returns_set.mpr rfl, returns_pure.mpr ⟨rfl, rfl⟩⟩

variable {reply : World → Except ApiError α}

theorem returns_ask (h : Returns (ask env req message reply) world a world') :
    world' = { world with objects := env.others req world.objects } ∧ reply world' = .ok a := by
  obtain ⟨_, hreply, heq⟩ := Fallible.map_eq_ok.mp (returns_call h)
  cases heq
  exact ⟨rfl, hreply⟩

theorem returns_ask_of (hfault : env.fault req = none)
    (hreply : reply { world with objects := env.others req world.objects } = .ok a) :
    Returns (ask env req message reply) world a
      { world with objects := env.others req world.objects } := by
  refine returns_call_of hfault ?_
  rw [hreply]
  rfl

/-- A request fails because it fails, or because of what is there. -/
theorem throws_call {stop : Stop} (h : Throws (call env req message perform) world stop world') :
    world' = { world with objects := env.others req world.objects } ∧
      ∃ cause, stop = .api message cause ∧
        (env.fault req = some cause ∨ perform world' = .error cause) := by
  rcases throws_bind.mp h with hget | ⟨_, _, hget, hrest⟩
  · cases hget
  obtain ⟨rfl, rfl⟩ := returns_get.mp hget
  rcases throws_bind.mp hrest with hset | ⟨_, _, hset, hrest⟩
  · cases hset
  obtain rfl := returns_set.mp hset
  split at hrest
  case h_1 b result hanswer =>
    rcases throws_bind.mp hrest with hset | ⟨_, _, -, hpure⟩
    · cases hset
    · cases hpure
  case h_2 cause hanswer =>
    cases hrest
    refine ⟨rfl, cause, rfl, ?_⟩
    unfold answer at hanswer
    split at hanswer
    case h_1 hfault =>
      cases hanswer
      exact .inl hfault
    case h_2 => exact .inr hanswer

@[simp]
theorem returns_lift {x : Except Failure α} :
    Returns (lift x) world a world' ↔ x = .ok a ∧ world' = world := by
  cases x with
  | ok b =>
    show Returns (pure b) _ _ _ ↔ _
    rw [returns_pure, Except.ok.injEq, eq_comm]
  | error e =>
    constructor
    · intro h
      exact absurd h not_returns_throw
    · rintro ⟨h, -⟩
      cases h

theorem returns_liftError {x : Except String α} :
    Returns (liftError x) world a world' ↔ x = .ok a ∧ world' = world := by
  rw [liftError, returns_lift, Fallible.mapError_eq_ok]

variable {scanJob : ScanJob}

/-- The images of the references, in the order of the loop. -/
theorem returns_catalogReferences {registry : Registry} {existing references : List String}
    {result : ScanJob × List Image}
    (h : Returns (catalogReferences env ref registry existing scanJob references) world result
      world') :
    ∃ found, List.Forall₂ (fun reference images => imagesOf env registry reference = .ok images)
      references found ∧ result.2 = found.flatten := by
  induction references generalizing scanJob world result with
  | nil =>
    obtain ⟨rfl, -⟩ := returns_pure.mp h
    exact ⟨[], .nil, rfl⟩
  | cons newImageName rest ih =>
    obtain ⟨images, _, himages, h⟩ := returns_bind.mp h
    obtain ⟨scanJob, _, -, h⟩ := returns_bind.mp h
    obtain ⟨others, _, hothers, h⟩ := returns_bind.mp h
    obtain ⟨rfl, rfl⟩ := returns_pure.mp h
    obtain ⟨found, hfound, heq⟩ := ih hothers
    exact ⟨images :: found, .cons (returns_lift.mp himages).1 hfound, by rw [heq]; rfl⟩

/-- To come to the cleanup, all that the registry serves has to be found. -/
theorem found_of_collect {collected : Collected}
    (h : Returns (collect env ref scanJob) world collected world') :
    scannedRegistry env scanJob = .ok collected.registry ∧
      ∃ references found, discoverReferences env collected.registry = .ok references ∧
        List.Forall₂
          (fun reference images => imagesOf env collected.registry reference = .ok images)
          (env.order.range .references references) found ∧
        collected.images = found.flatten := by
  obtain ⟨registry, _, hregistry, h⟩ := returns_bind.mp h
  obtain ⟨_, _, -, h⟩ := returns_bind.mp h
  obtain ⟨_, _, -, h⟩ := returns_bind.mp h
  obtain ⟨references, _, hreferences, h⟩ := returns_bind.mp h
  obtain ⟨existing, _, -, h⟩ := returns_bind.mp h
  obtain ⟨_, _, -, h⟩ := returns_bind.mp h
  obtain ⟨discovered, _, hdiscovered, h⟩ := returns_bind.mp h
  obtain ⟨rfl, -⟩ := returns_pure.mp h
  obtain ⟨found, hfound, heq⟩ := returns_catalogReferences hdiscovered
  exact ⟨(returns_liftError.mp hregistry).1, references, found,
    (returns_liftError.mp hreferences).1, hfound, heq⟩

variable {images : List Image}

theorem returns_discover (h : Returns (discover env ref scanJob) world images world') :
    ∃ registry references found, scannedRegistry env scanJob = .ok registry ∧
      discoverReferences env registry = .ok references ∧
      List.Forall₂ (fun reference images => imagesOf env registry reference = .ok images)
        (env.order.range .references references) found ∧ images = found.flatten := by
  rw [discover_eq] at h
  obtain ⟨collected, _, hcollect, hcleanup⟩ := returns_bind.mp h
  obtain ⟨_, _, -, hpure⟩ := returns_bind.mp hcleanup
  obtain ⟨rfl, -⟩ := returns_pure.mp hpure
  obtain ⟨hregistry, references, found, hfound⟩ := found_of_collect hcollect
  exact ⟨collected.registry, references, found, hregistry, hfound⟩

theorem returns_updateStatus {phase : Phase} {attempt : Nat} {updated : ScanJob}
    {status : Jobs.Status}
    (h : Returns (updateStatus env phase attempt scanJob status) world updated world') :
    world'.written = world.written ++ [status] := by
  have h := returns_call h
  split at h
  case h_1 => cases h
  case h_2 =>
    split at h
    · cases h
    · cases h
      rfl

/-- The last status that is written is that of the attempt that has succeeded. -/
theorem returns_finishCatalog {finished : ScanJob}
    (h : Returns (finishCatalog env ref images) world finished world') :
    ∃ scanJob : ScanJob, world'.written.getLast? = some (Jobs.Pipeline.catalogStatus
      (env.now .finishing) (images.map (·.name)) scanJob.job) := by
  rcases returns_tryCatch.mp h with h | ⟨stop, _, -, h⟩
  · obtain ⟨attempt, _, h⟩ := returns_retry h
    obtain ⟨scanJob, _, -, h⟩ := returns_bind.mp h
    refine ⟨scanJob, ?_⟩
    rw [returns_updateStatus h, List.getLast?_concat]
  · split at h <;> exact absurd h not_returns_throw

theorem returns_publish {uid : Nat} {u : PUnit}
    (h : Returns (images.forM (publishGenerateSBOM env ref uid)) world u world') :
    world'.written = world.written ∧
      world'.published = world.published ++ images.map (generateSBOMMessage ref uid) := by
  refine returns_forM (I := fun visited w => w.written = world.written ∧
    w.published = world.published ++ visited.map (generateSBOMMessage ref uid)) ?_ h ⟨rfl, by simp⟩
  rintro visited image w w' - ⟨hwritten, hpublished⟩ hpublish
  have hperform := returns_call hpublish
  cases hperform
  refine ⟨hwritten, ?_⟩
  show w.published ++ _ = _
  rw [hpublished, map_append, append_assoc]
  rfl

/-- **What a run leaves.** The number of images is written, and after that a message is published
for each of them. -/
theorem returns_createCatalog {run : Run}
    (h : Returns (createCatalog env ref) world run world') :
    (∃ registry references found, scannedRegistry env run.scanJob = .ok registry ∧
      discoverReferences env registry = .ok references ∧
      List.Forall₂ (fun reference images => imagesOf env registry reference = .ok images)
        (env.order.range .references references) found ∧ run.images = found.flatten) ∧
    (∃ scanJob : ScanJob, world'.written.getLast? = some (Jobs.Pipeline.catalogStatus
      (env.now .finishing) (run.images.map (·.name)) scanJob.job)) ∧
    ∃ uid, world'.published = world.published ++ run.images.map (generateSBOMMessage ref uid) := by
  obtain ⟨scanJob, started, hstart, h⟩ := returns_bind.mp h
  obtain ⟨images, listed, hdiscover, h⟩ := returns_bind.mp h
  obtain ⟨finished, updated, hfinish, h⟩ := returns_bind.mp h
  obtain ⟨_, _, hpublish, h⟩ := returns_bind.mp h
  obtain ⟨rfl, rfl⟩ := returns_pure.mp h
  obtain ⟨hwritten, hpublished⟩ := returns_publish hpublish
  refine ⟨returns_discover hdiscover, ?_, finished.uid, ?_⟩
  · rw [hwritten]
    exact returns_finishCatalog hfinish
  · rw [hpublished, silent_finishCatalog.published_eq hfinish,
      silent_discover.published_eq hdiscover, silent_startCatalog.published_eq hstart]

end Run

end SbomScanner.Catalog

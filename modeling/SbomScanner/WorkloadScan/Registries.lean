import SbomScanner.Api.Registry
import SbomScanner.Lib.Procedure

/-!
# The registries of the workload scan

`reconcileRegistries` turns the images of the pods of one namespace into managed Registry objects:
one for each registry host, with a repository for each repository on it and a match condition for
each tag or digest. Namespaces share these objects. A label on the match condition, one for each
namespace, says who needs it, and a condition without labels goes away.

The functions follow the source one by one. A Go map is an `AList`, a Go set a list without
duplicates. Their iteration order is not fixed by the language, so where it can be observed (a loop
that appends to a list, or that calls the API server) the loop takes its order from the
`Choices` of the call; a loop that only fills a set or a map is written in the order of the
representation.
-/

namespace SbomScanner.WorkloadScan

open Api

/-! ## What the controller reads -/

structure Container where
  name : String
  image : String
  deriving DecidableEq

structure PodSpec where
  initContainers : List Container
  containers : List Container
  deriving DecidableEq

structure Pod where
  spec : PodSpec
  deriving DecidableEq

structure Configuration where
  artifactsNamespace : String
  scanInterval : Option Int
  scanOnChange : Bool
  authSecret : String
  caBundle : String
  caBundleRef : Option CABundleSource
  insecure : Bool
  platforms : List Platform
  deriving DecidableEq

/-- An image reference: the host, the repository on it, and the tag or digest. -/
structure Reference where
  registry : String
  repository : String
  identifier : String
  deriving DecidableEq

/-- The functions of other libraries. `parseReference` is `name.ParseReference` followed by
`RegistryStr`, `RepositoryStr` and `Identifier`, and refuses the empty string; `quote` is the verb
`%q`. -/
structure Libraries where
  parseReference : String → Option Reference
  parseReference_empty : parseReference "" = none
  quote : String → String
  sha256 : String → String
  marshal : RescanRequest → String

inductive Loop where
  | registries
  | newMatchConditions (uri : String)
  | repositories (uri : String)
  | tags (uri repository : String)

inductive Request where
  | list
  | update (name : String)
  | delete (name : String)
  | create (name : String)

/-- What a call does not determine itself: the order of its loops, the UUIDs it draws (one for each
registry), and the requests the API server refuses or fails to answer. -/
structure Choices where
  order : IterationOrder Loop
  uuid : String → String
  fault : Request → Option String

/-! ## Images -/

def extractImagesFromPodSpec (podSpec : PodSpec) : List String :=
  podSpec.initContainers.map (·.image) ++ podSpec.containers.map (·.image)

abbrev RepositoryTags := AList fun _ : String => List String

def groupImage (lib : Libraries) (result : AList fun _ : String => RepositoryTags)
    (image : String) : AList fun _ : String => RepositoryTags :=
  if image = "" then
    result
  else
    match lib.parseReference image with
    | none => result
    | some reference =>
      let repositories := (result.lookup reference.registry).getD ∅
      let tags := (repositories.lookup reference.repository).getD []
      result.insert reference.registry
        (repositories.insert reference.repository (tags.insert reference.identifier))

def groupImagesByRegistry (lib : Libraries) (images : List String) :
    AList fun _ : String => RepositoryTags :=
  images.foldl (groupImage lib) ∅

/-! ## Match conditions -/

structure MatchConditionKey where
  repository : String
  name : String
  expression : String
  deriving DecidableEq

def tagName (tag : String) : String := "tag-" ++ tag

def tagExpression (lib : Libraries) (tag : String) : String := "tag == " ++ lib.quote tag

def namespacePrefix := "namespace/"

def nsLabel (ns : String) : String := namespacePrefix ++ ns

def tagKey (lib : Libraries) (repository tag : String) : MatchConditionKey :=
  ⟨repository, tagName tag, tagExpression lib tag⟩

def buildNeededMatchConditions (lib : Libraries) (repositories : RepositoryTags) :
    List MatchConditionKey :=
  (repositories.entries.flatMap fun entry => entry.2.map (tagKey lib entry.1)).dedup

def conditionKey (repository : Repository) (condition : MatchCondition) : MatchConditionKey :=
  ⟨repository.name, condition.name, condition.expression⟩

def extractMatchConditionsFromRegistry (registry : Registry) : List MatchConditionKey :=
  (registry.spec.repositories.flatMap fun repository =>
    repository.matchConditions.map (conditionKey repository)).dedup

/-- The labels of a condition after the namespace has claimed it, or given it up. -/
def claimLabels (needed : Bool) (sourceNamespace : String) (labels : Labels) : Labels :=
  if needed then
    labels.insert (nsLabel sourceNamespace) "true"
  else
    labels.erase (nsLabel sourceNamespace)

/-- Returns the match conditions to keep and the set that matched the needed ones. -/
def processRepositoryMatchConditions (repository : Repository) (sourceNamespace : String)
    (neededMatchConditions : List MatchConditionKey) :
    List MatchCondition × List MatchConditionKey :=
  repository.matchConditions.foldl
    (fun (toKeep, matched) condition =>
      let key := conditionKey repository condition
      let needed : Bool := key ∈ neededMatchConditions
      let labels := claimLabels needed sourceNamespace condition.labels
      (if labels = ∅ then toKeep else toKeep ++ [{ condition with labels }],
        if needed then matched.insert key else matched))
    ([], [])

/-- Returns the processed repositories and the set of match conditions that were found in them. -/
def processExistingRepositories (repositories : List Repository) (sourceNamespace : String)
    (neededMatchConditions : List MatchConditionKey) : List Repository × List MatchConditionKey :=
  repositories.foldl
    (fun (processed, matched) repository =>
      let (conditions, found) :=
        processRepositoryMatchConditions repository sourceNamespace neededMatchConditions
      (if conditions = [] then
          processed
        else
          processed ++ [⟨repository.name, conditions, .or⟩],
        matched ∪ found))
    ([], [])

/-- The repositories, with one of the given name, and its index. -/
def findOrAppendRepository (repositories : List Repository) (name : String) :
    List Repository × Nat :=
  match repositories.findIdx? (·.name = name) with
  | some i => (repositories, i)
  | none =>
    (repositories ++ [⟨name, [], .or⟩], repositories.length)

/-- One pass of the loop of `addNewMatchConditions`. -/
def addMatchCondition (sourceNamespace : String) (repositories : List Repository)
    (key : MatchConditionKey) : List Repository :=
  let (repositories, i) := findOrAppendRepository repositories key.repository
  repositories.modify i fun repository =>
    { repository with
      matchConditions := repository.matchConditions ++
        [⟨key.name, key.expression, .singleton (nsLabel sourceNamespace) "true"⟩] }

def addNewMatchConditions (repositories : List Repository)
    (matchConditions : List MatchConditionKey) (sourceNamespace : String) : List Repository :=
  matchConditions.foldl (addMatchCondition sourceNamespace) repositories

/-- Sorted by name, and so are the match conditions of each. -/
def sortRepositories (repositories : List Repository) : List Repository :=
  (repositories.insertionSort fun a b => a.name ≤ b.name).map fun repository =>
    { repository with
      matchConditions := repository.matchConditions.insertionSort fun a b => a.name ≤ b.name }

def buildRescanRequest (matchConditions : List MatchConditionKey) : RescanRequest :=
  let repoNames := (matchConditions.map (·.repository)).dedup.insertionSort (· ≤ ·)
  { repositories := repoNames.map fun name =>
      { name
        matchConditions := ((matchConditions.filter (·.repository = name)).map
          (·.name)).dedup.insertionSort (· ≤ ·) } }

/-! ## Registries -/

/-- An error of the API server with what the controller was doing. -/
structure Error where
  message : String
  cause : ApiError

abbrev Reconcile := Procedure Error Cluster

/-- A request to the API server. -/
def request (choices : Choices) (req : Request) (message : String)
    (perform : Cluster → Except ApiError Cluster) : Reconcile PUnit := do
  match choices.fault req with
  | some reason => throw ⟨message, .other reason⟩
  | none =>
    match perform (← get) with
    | .ok c => set c
    | .error e => throw ⟨message, e⟩

def computeRegistryName (lib : Libraries) (uri : String) : String :=
  "workloadscan-" ++ lib.sha256 uri

def newRescanRequestedAnnotationKey (choices : Choices) (registry : String) : String :=
  annotationRescanRequestedKeyPrefix ++ choices.uuid registry

/-- The repositories of the registry with the contributions of this namespace. -/
def updatedRepositories (lib : Libraries) (choices : Choices) (registry : Registry)
    (sourceNamespace : String) (repositories : RepositoryTags) : List Repository :=
  let neededMatchConditions := buildNeededMatchConditions lib repositories
  let (processedRepositories, processedMatchConditions) :=
    processExistingRepositories registry.spec.repositories sourceNamespace neededMatchConditions
  -- add match conditions that are needed but weren't in existing repositories
  let newMatchConditions := neededMatchConditions.filter (· ∉ processedMatchConditions)
  addNewMatchConditions processedRepositories
    (choices.order.range (.newMatchConditions registry.spec.uri) newMatchConditions) sourceNamespace

/-- The annotation that marks the registry for a rescan of the added match conditions. -/
def markForRescan (lib : Libraries) (choices : Choices) (config : Configuration)
    (oldMatchConditions : List MatchConditionKey) (registry : Registry) : Registry :=
  let addedMatchConditions :=
    (extractMatchConditionsFromRegistry registry).filter (· ∉ oldMatchConditions)
  if config.scanOnChange && !addedMatchConditions.isEmpty then
    { registry with
      annotations := registry.annotations.insert
        (newRescanRequestedAnnotationKey choices registry.name)
        (lib.marshal (buildRescanRequest addedMatchConditions)) }
  else
    registry

/-- The registry with these repositories and the settings of the configuration. -/
def withRepositories (config : Configuration) (registry : Registry)
    (repositories : List Repository) : Registry :=
  { registry with
    spec := { registry.spec with
      repositories
      authSecret := config.authSecret
      caBundle := config.caBundle
      caBundleRef := config.caBundleRef
      insecure := config.insecure
      scanInterval := config.scanInterval
      platforms := config.platforms } }

/-- Updates a registry with the contributions of this namespace. Returns true if the registry should
be deleted. -/
def updateRegistry (lib : Libraries) (choices : Choices) (registry : Registry)
    (sourceNamespace : String) (repositories : RepositoryTags) (config : Configuration) :
    Reconcile Bool := do
  let oldMatchConditions := extractMatchConditionsFromRegistry registry
  let updated := updatedRepositories lib choices registry sourceNamespace repositories
  if updated = [] then
    return true
  let registry := withRepositories config registry (sortRepositories updated)
  let registry := markForRescan lib choices config oldMatchConditions registry
  request choices (.update registry.name) ("failed to update registry " ++ registry.name)
    (·.update registry)
  return false

/-- A repository of a registry that is created for this namespace. -/
def newRepository (lib : Libraries) (choices : Choices) (uri sourceNamespace repository : String)
    (tags : List String) : Repository where
  name := repository
  matchConditions := (choices.order.range (.tags uri repository) tags).map fun tag =>
    ⟨tagName tag, tagExpression lib tag, .singleton (nsLabel sourceNamespace) "true"⟩
  matchOperator := .or

def newRegistry (lib : Libraries) (choices : Choices)
    (uri sourceNamespace registryNamespace : String) (repositories : RepositoryTags)
    (config : Configuration) : Registry where
  name := computeRegistryName lib uri
  ns := registryNamespace
  labels := [⟨labelManagedByKey, labelManagedByValue⟩,
    ⟨labelWorkloadScanKey, labelWorkloadScanValue⟩].toFinmap
  annotations :=
    if config.scanOnChange then
      .singleton (newRescanRequestedAnnotationKey choices (computeRegistryName lib uri))
        (lib.marshal { repositories := [] })
    else
      ∅
  spec := {
    uri
    catalogType := .unset
    repositories := sortRepositories
      ((choices.order.range (.repositories uri) repositories.entries).map fun entry =>
        newRepository lib choices uri sourceNamespace entry.1 entry.2)
    authSecret := config.authSecret
    caBundle := config.caBundle
    caBundleRef := config.caBundleRef
    insecure := config.insecure
    scanInterval := config.scanInterval
    platforms := config.platforms }

def createRegistry (lib : Libraries) (choices : Choices)
    (uri sourceNamespace registryNamespace : String) (repositories : RepositoryTags)
    (config : Configuration) : Reconcile PUnit :=
  let registryName := computeRegistryName lib uri
  request choices (.create registryName) ("failed to create registry " ++ registryName)
    (·.create (newRegistry lib choices uri sourceNamespace registryNamespace repositories config))

/-- A registry that is gone already counts as deleted. -/
def deleteRegistry (choices : Choices) (registry : Registry) : Reconcile PUnit :=
  request choices (.delete registry.name) ("failed to delete registry " ++ registry.name) fun c =>
    match c.delete registry with
    | .error .notFound => .ok c
    | result => result

/-- One pass of the loop over the existing registries. -/
def reconcileExisting (lib : Libraries) (choices : Choices) (workloadNamespace : String)
    (registriesByURI : AList fun _ : String => RepositoryTags) (config : Configuration)
    (registry : Registry) : Reconcile PUnit := do
  -- empty if this namespace no longer uses this registry
  let repositories := (registriesByURI.lookup registry.spec.uri).getD ∅
  let shouldDelete ← updateRegistry lib choices registry workloadNamespace repositories config
  if shouldDelete then
    deleteRegistry choices registry

/-- Creates, updates, or deletes Registry resources based on the discovered images. -/
def reconcileRegistries (lib : Libraries) (choices : Choices) (workloadNamespace : String)
    (pods : List Pod) (config : Configuration) : Reconcile PUnit := do
  let registryNamespace :=
    if config.artifactsNamespace = "" then workloadNamespace else config.artifactsNamespace
  let images := (pods.flatMap fun pod => extractImagesFromPodSpec pod.spec).dedup
  let registriesByURI := groupImagesByRegistry lib images
  if let some reason := choices.fault .list then
    throw ⟨"failed to list registries", .other reason⟩
  let existingRegistries := (← get).managed registryNamespace
  let processedURIs := existingRegistries.map (·.spec.uri)
  existingRegistries.forM (reconcileExisting lib choices workloadNamespace registriesByURI config)
  (choices.order.range .registries registriesByURI.entries).forM fun entry =>
    if entry.1 ∈ processedURIs then
      pure ⟨⟩
    else
      createRegistry lib choices entry.1 workloadNamespace registryNamespace entry.2 config

structure Call where
  workloadNamespace : String
  pods : List Pod
  choices : Choices

def reconcileAll (lib : Libraries) (config : Configuration) (calls : List Call) :
    Reconcile PUnit :=
  calls.forM fun call =>
    reconcileRegistries lib call.choices call.workloadNamespace call.pods config

end SbomScanner.WorkloadScan

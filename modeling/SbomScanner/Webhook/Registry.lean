import SbomScanner.Api.Registry
import SbomScanner.Lib.Procedure

/-!
# The admission webhooks of a Registry

The API server asks these before it stores a Registry. The checks on the specification keep a
Registry from being written that no worker could scan. The check on the managed-by label is about
who writes: a Registry that carries it belongs to the controller, and only the service account of
the controller may create, change or delete it.

A field error is reported with its kind, its field and its detail; the bad value that goes with it
is left out.
-/

namespace SbomScanner.Webhook

open Api

/-! ## Answers -/

inductive FieldErrorType where
  | invalid
  | forbidden
  | notFound
  | internal
  deriving DecidableEq

structure FieldError where
  type : FieldErrorType
  field : String
  detail : String
  deriving DecidableEq

inductive Denial where
  | forbidden (resource name reason : String)
  | invalid (kind name : String) (errors : List FieldError)
  | internal (reason : String)
  deriving DecidableEq

/-- An admitted request may come with warnings. -/
abbrev Admission := Except Denial (List String)

/-- `apierrors.NewInvalid` if there are errors. -/
def admitUnless (kind name : String) (errors : List FieldError) (warnings : List String) :
    Admission :=
  if errors = [] then .ok warnings else .error (.invalid kind name errors)

structure ServiceAccount where
  ns : String
  name : String

def ServiceAccount.allowedUsername (account : ServiceAccount) : String :=
  "system:serviceaccount:" ++ account.ns ++ ":" ++ account.name

/-- Whoever makes the request has to be the service account. A context may carry no request. -/
def requireServiceAccount (account : ServiceAccount) (username : Option String)
    (resource name reason : String) : Except Denial Unit :=
  match username with
  | none => .error (.internal "unable to retrieve admission request from context")
  | some user =>
    if user ≠ account.allowedUsername then
      .error (.forbidden resource name reason)
    else
      .ok ()

/-! ## The checks on the specification -/

def index (path : String) (i : Nat) : String := path ++ "[" ++ Strings.formatUint i ++ "]"

/-- `time.Minute`, in nanoseconds. -/
def minute : Int := 60000000000

def validateScanInterval (scanInterval : Option Int) : List FieldError :=
  match scanInterval with
  | none => []
  | some interval =>
    if interval < minute then
      [⟨.invalid, "spec.scanInterval", "scanInterval must be at least 1 minute"⟩]
    else
      []

/-- An unset type is filled in by the defaulter. -/
def validateCatalogType (catalogType : CatalogType) : List FieldError :=
  match catalogType with
  | .unset | .noCatalog | .ociDistribution => []
  | .other name => [⟨.invalid, "spec.catalogType", name ++ " is not a valid CatalogType"⟩]

/-- Checks a CEL expression; the error, if there is one. -/
abbrev TagEvaluator := String → Option String

/-- The evaluator may fail to be created. -/
def validateRepositories (tagEvaluator : Option TagEvaluator) (repositories : List Repository)
    (catalogType : CatalogType) : List FieldError :=
  (if catalogType = .noCatalog ∧ repositories = [] then
    [⟨.invalid, "spec.repositories",
      "repositories must be explicitly provided when catalogType is NoCatalog"⟩]
  else
    []) ++
  match tagEvaluator with
  | none => [⟨.internal, "spec.repositories", "failed to create CEL tag evaluator"⟩]
  | some validate =>
    repositories.zipIdx.flatMap fun (repo, i) =>
      repo.matchConditions.zipIdx.flatMap fun (mc, j) =>
        match validate mc.expression with
        | some reason => [⟨.invalid,
            index (index "spec.repositories" i ++ ".matchConditions") j ++ ".expression", reason⟩]
        | none => []

def validPlatforms : List (String × List String) :=
  [("aix", ["ppc64"]),
   ("android", ["386", "amd64", "arm", "arm64"]),
   ("darwin", ["amd64", "arm64"]),
   ("dragonfly", ["amd64"]),
   ("freebsd", ["386", "amd64", "arm"]),
   ("illumos", ["amd64"]),
   ("ios", ["arm64"]),
   ("js", ["wasm"]),
   ("linux", ["386", "amd64", "arm", "arm64", "loong64", "mips", "mipsle", "mips64", "mips64le",
      "ppc64", "ppc64le", "riscv64", "s390x"]),
   ("netbsd", ["386", "amd64", "arm"]),
   ("openbsd", ["386", "amd64", "arm", "arm64"]),
   ("plan9", ["386", "amd64", "arm"]),
   ("solaris", ["amd64"]),
   ("wasip1", ["wasm"]),
   ("windows", ["386", "amd64", "arm", "arm64"])]

def allowedVariants : List (String × List String) :=
  [("arm", ["v6", "v7", "v8"]),
   ("arm64", ["v8"])]

/-- Checks if the platform is valid; the error, if it is not. -/
def validatePlatform (p : Platform) : Option String :=
  match validPlatforms.lookup p.os with
  | none => some ("unsupported OS: " ++ p.os)
  | some arches =>
    if p.architecture ∉ arches then
      some ("unsupported arch " ++ p.architecture ++ " for OS " ++ p.os)
    else
      match allowedVariants.lookup p.architecture with
      | some variants =>
        -- an architecture with variants may be given without one
        if p.variant ≠ "" ∧ p.variant ∉ variants then
          some ("invalid variant " ++ p.variant ++ " for arch " ++ p.architecture ++
            " (allowed: [" ++ Strings.join variants ' ' ++ "])")
        else
          none
      | none =>
        if p.variant ≠ "" then
          some ("arch " ++ p.architecture ++ " does not support variants")
        else
          none

def validatePlatforms (platforms : List Platform) : List FieldError :=
  platforms.zipIdx.flatMap fun (platform, i) =>
    match validatePlatform platform with
    | some reason => [⟨.invalid, index "spec.platforms" i, reason⟩]
    | none => []

def validateRegistry (tagEvaluator : Option TagEvaluator) (registry : Registry) :
    List FieldError :=
  validateScanInterval registry.spec.scanInterval ++
  validateCatalogType registry.spec.catalogType ++
  validateRepositories tagEvaluator registry.spec.repositories registry.spec.catalogType ++
  validatePlatforms registry.spec.platforms

def caBundleDeprecationWarning :=
  "spec.caBundle is deprecated and will be removed in the following versions. " ++
    "Use spec.caBundleRef instead."

def caBundleWarnings (caBundle : String) : List String :=
  if caBundle = "" then [] else [caBundleDeprecationWarning]

/-! ## The webhooks -/

def defaultCatalogType := CatalogType.ociDistribution

def RegistryCustomDefaulter.default (registry : Registry) : Registry :=
  { registry with spec := { registry.spec with
      catalogType :=
        if registry.spec.catalogType = .unset then defaultCatalogType
        else registry.spec.catalogType } }

structure RegistryCustomValidator where
  serviceAccount : ServiceAccount
  tagEvaluator : Option TagEvaluator

/-- The managed-by label says that the object belongs to the controller. -/
def carriesManagedBy (labels : Labels) : Bool :=
  labels.lookup labelManagedByKey = some labelManagedByValue

namespace RegistryCustomValidator

variable (v : RegistryCustomValidator) (username : Option String)

/-- Ensures that only the designated service account can modify managed Registry resources. -/
def validatedManagedRegistry (registry : Registry) : Except Denial Unit :=
  if carriesManagedBy registry.labels then
    requireServiceAccount v.serviceAccount username "registries" registry.name
      "only the designated service account can modify managed Registry resources"
  else
    .ok ()

/-- The service account is not warned: it has copied the CA bundle from a configuration whose user
has been. -/
def registryWarnings (registry : Registry) : List String :=
  if username = some v.serviceAccount.allowedUsername then []
  else caBundleWarnings registry.spec.caBundle

def validateCreate (registry : Registry) : Admission := do
  v.validatedManagedRegistry username registry
  admitUnless "Registry" registry.name (validateRegistry v.tagEvaluator registry)
    (v.registryWarnings username registry)

/-- Both objects are checked, so that nobody else can put the label on an existing Registry. -/
def validateUpdate (oldRegistry registry : Registry) : Admission := do
  v.validatedManagedRegistry username oldRegistry
  v.validatedManagedRegistry username registry
  admitUnless "Registry" registry.name (validateRegistry v.tagEvaluator registry)
    (v.registryWarnings username registry)

def validateDelete (registry : Registry) : Admission := do
  v.validatedManagedRegistry username registry
  return []

end RegistryCustomValidator

/-! ## What an admitted request says -/

variable {v : RegistryCustomValidator} {username : Option String} {oldRegistry registry : Registry}
  {warnings : List String}

theorem requireServiceAccount_eq_ok {account : ServiceAccount} {resource name reason : String} :
    requireServiceAccount account username resource name reason = .ok () ↔
      username = some account.allowedUsername := by
  unfold requireServiceAccount
  cases username with
  | none => simp
  | some user => simp

theorem validatedManagedRegistry_eq_ok : v.validatedManagedRegistry username registry = .ok () ↔
    (carriesManagedBy registry.labels = true →
      username = some v.serviceAccount.allowedUsername) := by
  unfold RegistryCustomValidator.validatedManagedRegistry
  split
  case isTrue h => rw [requireServiceAccount_eq_ok, forall_prop_of_true h]
  case isFalse h => simp [h]

/-- What an admitted write says about who wrote it. -/
theorem username_of_validateCreate (h : v.validateCreate username registry = .ok warnings)
    (hmanaged : carriesManagedBy registry.labels = true) :
    username = some v.serviceAccount.allowedUsername := by
  obtain ⟨⟨⟩, hcheck, -⟩ := Fallible.bind_eq_ok.mp h
  exact validatedManagedRegistry_eq_ok.mp hcheck hmanaged

theorem username_of_validateUpdate
    (h : v.validateUpdate username oldRegistry registry = .ok warnings)
    (hmanaged : carriesManagedBy registry.labels = true) :
    username = some v.serviceAccount.allowedUsername := by
  obtain ⟨⟨⟩, -, hrest⟩ := Fallible.bind_eq_ok.mp h
  obtain ⟨⟨⟩, hcheck, -⟩ := Fallible.bind_eq_ok.mp hrest
  exact validatedManagedRegistry_eq_ok.mp hcheck hmanaged

end SbomScanner.Webhook

import Mathlib.Data.List.Sort
import SbomScanner.Catalog.Filters
import SbomScanner.Lib.ImageName

/-!
# The references of a registry

The worker first finds out what there is to look at: the repositories that the Registry declares, or
all that the registry lists, and for each of them its tags. A repository that the workload
controller has written is special: if one of its match conditions is for a digest, which no registry
lists, the references are read off the match conditions.

The texts that name images are those of `ImageName`; a reference goes from step to step as text and
is parsed again each time.
-/

namespace SbomScanner.Catalog

open Api Strings
open ImageName (Reference)

/-- The functions of other libraries. `quote` is the verb `%q`, `badName` the error for a name that
does not parse, `sha256` comes hex-encoded. -/
structure Library where
  isAuthority : String → Bool
  badName : String → String
  quote : String → String
  sha256 : String → String
  base64 : String → String
  evaluate : Evaluate

namespace Library

variable (lib : Library)

/-- A parser of package `name`. -/
def parsed {α : Type} (lib : Library) (parse : (String → Bool) → String → Option α) (s : String) :
    Except String α :=
  match parse lib.isAuthority s with
  | some a => .ok a
  | none => .error (lib.badName s)

def newRegistry : String → Except String String := lib.parsed ImageName.newRegistry
def newRepository : String → Except String ImageName.Repository :=
  lib.parsed ImageName.newRepository
def newTag : String → Except String Reference := lib.parsed ImageName.newTag
def newDigest : String → Except String Reference := lib.parsed ImageName.newDigest
def parseReference : String → Except String Reference := lib.parsed ImageName.parseReference

end Library

theorem parsed_eq_ok {lib : Library} {α : Type} {parse : (String → Bool) → String → Option α}
    {s : String} {a : α} : lib.parsed parse s = .ok a ↔ parse lib.isAuthority s = some a := by
  unfold Library.parsed
  cases parse lib.isAuthority s <;> simp

/-- What is wrong, with what the worker was doing. -/
def wrap {α : Type} (message : String) : Except String α → Except String α :=
  Except.mapError fun e => message ++ ": " ++ e

/-! ## Repositories -/

/-- The requests that list what is there. A client may be slow or fail. -/
structure Listing where
  catalog : String → Except String (List String)
  tags : ImageName.Repository → Except String (List String)

/-- Discovers all the repositories in a registry. Returns the list of fully qualified repository
names. -/
def discoverRepositories (lib : Library) (client : Listing) (registry : Registry) :
    Except String (List String) := do
  let reg ← wrap ("cannot parse registry " ++ registry.name ++ " " ++ registry.ns)
    (lib.newRegistry registry.spec.uri)
  -- if the registry does not have any repositories defined, we need to catalog all of them
  if registry.spec.repositories = [] then
    let repos ← wrap "cannot discover repositories" (client.catalog reg)
    return repos.map (pathJoin reg)
  else
    return registry.spec.repositories.map fun repository => pathJoin reg repository.name

/-! ## Images -/

/-- The reference for one match condition, as the workload controller writes them; none if the
condition is not of that form. -/
def workloadReference (lib : Library) (repo : ImageName.Repository) (condition : MatchCondition) :
    Except String (Option Reference) :=
  match cutPrefix condition.name "tag-" with
  | none => .ok none
  | some identifier =>
    if condition.expression ≠ "tag == " ++ lib.quote identifier then
      .ok none
    else
      wrap ("invalid workload reference " ++ lib.quote identifier ++ " in repository " ++
          lib.quote repo.name)
        ((if ImageName.isDigest identifier then lib.newDigest (repo.name ++ "@" ++ identifier)
          else lib.newTag (repo.name ++ ":" ++ identifier)).map some)

/-- The loop over the match conditions, which stops at the first that is not of the form. -/
def workloadReferences (lib : Library) (repo : ImageName.Repository) :
    List MatchCondition → Except String (Option (List Reference))
  | [] => .ok (some [])
  | condition :: rest => do
    match ← workloadReference lib repo condition with
    | none => .ok none
    | some ref =>
      match ← workloadReferences lib repo rest with
      | none => .ok none
      | some refs => .ok (some (ref :: refs))

/-- Resolves the exact references emitted by the workload controller, if at least one of them is a
digest. -/
def workloadRepositoryReferences (lib : Library) (registry : Registry)
    (repo : ImageName.Repository) : Except String (Option (List String)) :=
  if !registry.isManagedByWorkloadScan then
    .ok none
  else
    match registry.getRepository repo.repository with
    | none => .ok none
    | some repository =>
      if repository.matchOperator ≠ .or ∨ repository.matchConditions = [] then
        .ok none
      else do
        match ← workloadReferences lib repo repository.matchConditions with
        | none => .ok none
        | some refs =>
          if refs.any (ImageName.isDigest ·.identifier) then
            .ok (some ((refs.map (·.name)).dedup.insertionSort (· ≤ ·)))
          else
            .ok none

/-- Discovers all the images defined inside of a repository. Returns the list of fully qualified
image names. -/
def discoverImages (lib : Library) (client : Listing) (registry : Registry) (repository : String) :
    Except String (List String) := do
  let repo ← wrap ("cannot parse repository name " ++ lib.quote repository)
    (lib.newRepository repository)
  match ← workloadRepositoryReferences lib registry repo with
  | some references => .ok references
  | none =>
    let tags ← wrap "cannot list repository contents" (client.tags repo)
    .ok (tags.map fun tag => repo.name ++ ":" ++ tag)

end SbomScanner.Catalog

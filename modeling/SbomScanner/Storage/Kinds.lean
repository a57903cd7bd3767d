import SbomScanner.Storage.Object

/-!
# The kinds served by the stores

One kind of each scope, as `sbom_registry_store.go` and `node_sbom_store.go` wire them: `SBOM`
objects live in a namespace and describe an image, `NodeSBOM` objects are cluster-scoped and
describe a node. Field selectors reach into `imageMetadata` and `nodeMetadata`; the SPDX document
is opaque text to the store (`rawJson` is the parse of a `runtime.RawExtension`) and is stripped
from watch events.
-/

open List Strings

namespace SbomScanner.Storage

open Sql (Json)

/-- A field selector path of length two, into a content field. -/
theorem pathText_document (m : ObjectMeta) (field outer key : String)
    {fields inner : List (String × Json)} {value : String}
    (hfield : split field '.' = [outer, key]) (hmeta : (outer == "metadata") = false)
    (houter : fields.lookup outer = some (.obj inner))
    (hkey : inner.lookup key = some (.str value)) :
    Sql.pathText (some (document m fields)) (split field '.') = some value := by
  rw [hfield]
  simp [Sql.pathText, document, lookup_cons, hmeta, houter, hkey, Json.text]

/-! ## Namespaced: SBOM -/

structure ImageMetadata where
  registry : String
  registryURI : String
  repository : String
  tag : String
  platform : String
  digest : String
  indexDigest : String := ""
  deriving DecidableEq

def ImageMetadata.toJson (im : ImageMetadata) : Json :=
  .obj ([("registry", Json.str im.registry), ("registryURI", .str im.registryURI),
    ("repository", .str im.repository), ("tag", .str im.tag), ("platform", .str im.platform),
    ("digest", .str im.digest)] ++ omitEmpty "indexDigest" im.indexDigest)

/-- The selectable fields of `getAttrs`; `indexDigest` is not one of them. -/
def ImageMetadata.attrs (im : ImageMetadata) : List (String × String) :=
  [("imageMetadata.registry", im.registry), ("imageMetadata.registryURI", im.registryURI),
    ("imageMetadata.repository", im.repository), ("imageMetadata.tag", im.tag),
    ("imageMetadata.platform", im.platform), ("imageMetadata.digest", im.digest)]

theorem ImageMetadata.attrs_stored (m : ObjectMeta) (im : ImageMetadata)
    (rest : List (String × Json)) : ∀ fv ∈ im.attrs,
    Sql.pathText (some (document m (("imageMetadata", im.toJson) :: rest)))
      (split fv.1 '.') = some fv.2 := by
  intro fv hfv
  simp only [ImageMetadata.attrs, mem_cons, not_mem_nil, or_false] at hfv
  rcases hfv with rfl | rfl | rfl | rfl | rfl | rfl
  · exact pathText_document m "imageMetadata.registry" "imageMetadata" "registry"
      (by decide) rfl rfl rfl
  · exact pathText_document m "imageMetadata.registryURI" "imageMetadata" "registryURI"
      (by decide) rfl rfl rfl
  · exact pathText_document m "imageMetadata.repository" "imageMetadata" "repository"
      (by decide) rfl rfl rfl
  · exact pathText_document m "imageMetadata.tag" "imageMetadata" "tag" (by decide) rfl rfl rfl
  · exact pathText_document m "imageMetadata.platform" "imageMetadata" "platform"
      (by decide) rfl rfl rfl
  · exact pathText_document m "imageMetadata.digest" "imageMetadata" "digest"
      (by decide) rfl rfl rfl

structure SBOM where
  imageMetadata : ImageMetadata
  spdx : String
  deriving DecidableEq

def sbomKind (rawJson : String → Json) : Kind SBOM where
  resource := "sboms"
  clusterScoped := false
  encode s := [("imageMetadata", s.imageMetadata.toJson), ("spdx", rawJson s.spdx)]
  attrs s := s.imageMetadata.attrs
  transform s := { s with spdx := "" }
  attrs_transform _ := rfl
  resource_ne := by decide
  resource_noSlash := by decide
  attrs_stored m s := s.imageMetadata.attrs_stored m [("spdx", rawJson s.spdx)]

/-- An SBOM of one fixed image, for the concrete runs of this development. -/
def sampleSBOM (ns name uid : String) (rv : Nat) (labels : List (String × String) := [])
    (spdx : String := "doc") (name_ne : name ≠ "" := by decide)
    (name_noSlash : '/' ∉ name.toList := by decide) (ns_noSlash : '/' ∉ ns.toList := by decide) :
    Object SBOM where
  metadata := ⟨name, ns, uid, rv, labels, name_ne, name_noSlash, ns_noSlash⟩
  content :=
    { imageMetadata :=
        { registry := "hub", registryURI := "docker.io", repository := "alpine", tag := "3",
          platform := "linux/amd64", digest := "sha256:1" }
      spdx := spdx }

/-! ## Cluster-scoped: NodeSBOM -/

structure NodeMetadata where
  name : String
  platform : String
  deriving DecidableEq

def NodeMetadata.toJson (nm : NodeMetadata) : Json :=
  .obj [("name", .str nm.name), ("platform", .str nm.platform)]

def NodeMetadata.attrs (nm : NodeMetadata) : List (String × String) :=
  [("nodeMetadata.platform", nm.platform), ("nodeMetadata.name", nm.name)]

theorem NodeMetadata.attrs_stored (m : ObjectMeta) (nm : NodeMetadata)
    (rest : List (String × Json)) : ∀ fv ∈ nm.attrs,
    Sql.pathText (some (document m (("nodeMetadata", nm.toJson) :: rest)))
      (split fv.1 '.') = some fv.2 := by
  intro fv hfv
  simp only [NodeMetadata.attrs, mem_cons, not_mem_nil, or_false] at hfv
  rcases hfv with rfl | rfl
  · exact pathText_document m "nodeMetadata.platform" "nodeMetadata" "platform"
      (by decide) rfl rfl rfl
  · exact pathText_document m "nodeMetadata.name" "nodeMetadata" "name" (by decide) rfl rfl rfl

structure NodeSBOM where
  nodeMetadata : NodeMetadata
  spdx : String
  deriving DecidableEq

def nodeSBOMKind (rawJson : String → Json) : Kind NodeSBOM where
  resource := "nodesboms"
  clusterScoped := true
  encode s := [("nodeMetadata", s.nodeMetadata.toJson), ("spdx", rawJson s.spdx)]
  attrs s := s.nodeMetadata.attrs
  transform s := { s with spdx := "" }
  attrs_transform _ := rfl
  resource_ne := by decide
  resource_noSlash := by decide
  attrs_stored m s := s.nodeMetadata.attrs_stored m [("spdx", rawJson s.spdx)]

end SbomScanner.Storage

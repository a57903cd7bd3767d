import SbomScanner.Catalog.Layers
import SbomScanner.Lib.DnsName

/-!
# The names of the images

An image is named by the hash of four texts: the name of its registry resource, the name of its
repository, its tag or digest, and the digest of its manifest. They are joined by separators that
occur inside of them as well: a host may have a port and a digest has a colon, a path has slashes,
and the name of a registry may look like a host.

The hashed text can be taken apart all the same. The name of a registry resource has no slash and
so ends at the first one, and the host ends at the second. The path has no colon, so that the next
colon is the one in front of the identifier. The last at sign is the one in front of the digest.
-/

namespace SbomScanner.Catalog

open Api ImageName String
open ImageName (Reference)

section

variable {lib : Library}

/-- `v1.Hash`, which knows SHA-256 only. -/
def IsHash (digest : String) : Prop :=
  ∃ hex, digest = "sha256:" ++ hex ∧ checkHex hex = true

/-- What an image is named by, in the grammars of Kubernetes and of go-containerregistry. -/
@[ext]
structure Origin (isAuthority : String → Bool) where
  registryName : DnsName.Subdomain
  repository : ImageName.Repository
  parsed : ∃ s, newRepository isAuthority s = some repository
  identifier : String
  identifies : ImageName.Identifies identifier
  digest : String
  hash : IsHash digest

namespace Origin

/-- What is hashed. -/
def text {isAuthority : String → Bool} (x : Origin isAuthority) : String :=
  x.registryName.text ++ "/" ++ x.repository.name ++ ":" ++ x.identifier ++ "@" ++ x.digest

def uid (x : Origin lib.isAuthority) : String :=
  computeImageUID lib x.registryName.text x.repository.name x.identifier x.digest

def reference {isAuthority : String → Bool} (x : Origin isAuthority) : Reference :=
  ⟨x.repository.registry, x.repository.repository, x.identifier⟩

variable {isAuthority : String → Bool}

theorem grammar (x : Origin isAuthority) : ImageName.Grammar x.reference := by
  obtain ⟨s, hs⟩ := x.parsed
  exact newRepository_grammar hs x.identifier

theorem registryName_noSlash (x : Origin isAuthority) : '/' ∉ x.registryName.text.toList :=
  fun hmem => DnsName.ne_of_mem x.registryName.valid hmem (by decide) (by decide) rfl

theorem digest_noAt (x : Origin isAuthority) : '@' ∉ x.digest.toList := by
  obtain ⟨hex, heq, hhex⟩ := x.hash
  have hnot := not_mem_of_checkElement hhex (show hexChar '@' = false by decide)
  simp [heq, hnot]

/-- **The text tells what it was joined of.** -/
theorem text_injective : Function.Injective (text : Origin isAuthority → String) := by
  intro x y h
  -- the first slash ends the name of the registry resource
  have hlist := congrArg String.toList h
  simp only [text, toList_append, List.append_assoc] at hlist
  obtain ⟨hregistry, -⟩ :=
    Strings.append_cons_inj x.registryName_noSlash y.registryName_noSlash hlist
  have hname : x.registryName.text = y.registryName.text := toList_inj.mp hregistry
  simp only [text, hname, append_assoc, append_right_inj] at h
  -- the rest is a reference and a digest
  obtain ⟨href, hdigest⟩ := name_identifier_digest_inj x.grammar y.grammar x.digest_noAt
    y.digest_noAt (by simpa only [reference, Reference.context, append_assoc] using h)
  have hidentifier : x.identifier = y.identifier := congrArg Reference.identifier href
  have hrepository : x.repository = y.repository := congrArg Reference.context href
  exact Origin.ext (DnsName.Subdomain.ext hname) hrepository hidentifier hdigest

/-- The image is the one that its fields tell. -/
structure Of {isAuthority : String → Bool} (x : Origin isAuthority) (image : Image) : Prop where
  registry : image.registry = x.registryName.text
  registryURI : image.registryURI = x.repository.registry
  repository : image.repository = x.repository.repository
  tag : image.tag = x.identifier
  digest : image.digest = x.digest

end Origin

/-- The handler makes the image, out of what some registry serves for a reference. -/
def Makes (lib : Library) (image : Image) : Prop :=
  ∃ client s ref registry images, lib.parseReference s = .ok ref ∧
    refToImages lib client ref registry = .ok images ∧ image ∈ images

variable {image : Image}

theorem fields_of_makes (h : Makes lib image) :
    (∃ s, lib.parseReference s = .ok ⟨image.registryURI, image.repository, image.tag⟩) ∧
    image.name = computeImageUID lib image.registry
      (ImageName.Repository.mk image.registryURI image.repository).name image.tag image.digest := by
  obtain ⟨client, s, ref, registry, images, hparsed, himages, hmem⟩ := h
  obtain ⟨details, indexDigest, hconvert⟩ := converted_refToImages himages hmem
  rw [convert, Fallible.mapError_eq_ok] at hconvert
  obtain ⟨layers, -, himage⟩ := Fallible.bind_eq_ok.mp hconvert
  cases himage
  exact ⟨⟨s, hparsed⟩, rfl⟩

/-- Every image that is made has an origin, if its registry resource and its digest are as the
libraries admit them. -/
theorem exists_origin (h : Makes lib image) (hregistry : DnsName.isSubdomain image.registry = true)
    (hdigest : IsHash image.digest) :
    ∃ x : Origin lib.isAuthority, x.Of image := by
  obtain ⟨⟨s, hs⟩, -⟩ := fields_of_makes h
  obtain ⟨hrepository, hidentifier⟩ := parseReference_parts (parsed_eq_ok.mp hs)
  exact ⟨⟨⟨image.registry, hregistry⟩, _, hrepository, _, hidentifier, _, hdigest⟩,
    ⟨rfl, rfl, rfl, rfl, rfl⟩⟩

theorem name_eq_uid {x : Origin lib.isAuthority} (h : Makes lib image) (hx : x.Of image) :
    image.name = x.uid := by
  rw [(fields_of_makes h).2, hx.registry, hx.registryURI, hx.repository, hx.tag, hx.digest]
  rfl

end

namespace OneLayer

def hex := "e3b0c44298fc1c149afbf4c8996fb92427ae41e4649b934ca495991b7852b855"
def hash := "sha256:" ++ hex

theorem isHash_hash : IsHash hash := ⟨hex, rfl, by decide⟩

theorem identifies_v1 : ImageName.Identifies "v1" := .inl (by decide)

theorem isSubdomain_ghcr : DnsName.isSubdomain "ghcr" = true := by decide

theorem parsed_app : ∃ s, newRepository lib.isAuthority s = some ⟨"ghcr.io", "app"⟩ :=
  ⟨"ghcr.io/app", by decide⟩

/-- An image, whichever reference is asked for. -/
def client : Client where
  catalog _ := .ok []
  tags _ := .ok []
  descriptor _ := .ok ⟨.image, .error "not an index", .ok ⟨"", .config, []⟩, .error "not an index"⟩
  image _ := .ok {
    mediaType := .ok .image, manifest := .ok ⟨"", .config, []⟩
    configFile := .ok ⟨some ⟨"amd64", "linux", ""⟩, []⟩, digest := .ok hash, layers := .ok [] }

/-- The image behind a tag, or behind its own digest. -/
def origin (identifier : String) (h : ImageName.Identifies identifier) : Origin lib.isAuthority :=
  ⟨⟨"ghcr", isSubdomain_ghcr⟩, ⟨"ghcr.io", "app"⟩, parsed_app, identifier, h, hash, isHash_hash⟩

def byTag := origin "v1" identifies_v1
def byDigest := origin hash (.inr isHash_hash)

theorem makes {s identifier : String}
    (h : lib.parseReference s = .ok ⟨"ghcr.io", "app", identifier⟩)
    (hidentifier : ImageName.Identifies identifier) :
    ∃ image, Makes lib image ∧ (origin identifier hidentifier).Of image :=
  ⟨_, ⟨client, s, _, registry, _, h, rfl, List.mem_singleton.mpr rfl⟩, ⟨rfl, rfl, rfl, rfl, rfl⟩⟩

end OneLayer

end SbomScanner.Catalog

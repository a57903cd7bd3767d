import SbomScanner.Catalog.References
import SbomScanner.Lib.Procedure

/-!
# The filter of a reference

A reference that is found by listing a declared repository is filtered by the match conditions of
that repository, if the worker finds it again: the declared name is joined to the registry, parsed
as a repository, rendered with a tag behind it and parsed once more, and what is left of it then is
looked up with `GetRepository`. If nothing is found, nothing is filtered.

`found_again_iff` says when the repository is found again. On the way a name can be lost in four
ways: the path is cleaned; a registry that does not look like one becomes a part of the name; the
default namespace is put in front, and the lookup ignores it only if the URI is spelled
`index.docker.io`; and another repository, which differs in the default namespace, comes first.
-/

namespace SbomScanner.Catalog

open List Strings

open Api Fallible
open ImageName (Canonical)

/-! ## What is listed -/

section Listing

variable {lib : Library} {client : Listing} {registry : Registry} {repo : ImageName.Repository}
  {ref : ImageName.Reference} {text path : String}

/-- The reference is one of the repository, and its identifier has been read as one. -/
def Belongs (repo : ImageName.Repository) (ref : ImageName.Reference) : Prop :=
  ref.context = repo ∧ ImageName.Identifies ref.identifier

section

variable (h : Canonical lib.isAuthority repo)
include h

theorem belongs_of_workloadReference {condition : MatchCondition}
    (href : workloadReference lib repo condition = .ok (some ref)) : Belongs repo ref := by
  unfold workloadReference at href
  split at href
  case h_1 => cases href
  case h_2 identifier _ =>
    split at href
    case isTrue => cases href
    case isFalse =>
      obtain ⟨found, hfound, heq⟩ := map_eq_ok.mp (mapError_eq_ok.mp href)
      cases heq
      split at hfound
      case isTrue =>
        have hnew := parsed_eq_ok.mp hfound
        exact ⟨ImageName.context_of_newDigest h (.inr rfl) hnew, (ImageName.newDigest_parts hnew).2⟩
      case isFalse =>
        have hnew := parsed_eq_ok.mp hfound
        exact ⟨ImageName.context_of_newTag h hnew, (ImageName.newTag_parts hnew).2⟩

theorem belongs_of_workloadReferences {conditions : List MatchCondition}
    {refs : List ImageName.Reference}
    (hrefs : workloadReferences lib repo conditions = .ok (some refs)) :
    ∀ ref ∈ refs, Belongs repo ref := by
  induction conditions generalizing refs with
  | nil =>
    cases hrefs
    exact fun ref hmem => absurd hmem not_mem_nil
  | cons condition rest ih =>
    obtain ⟨first, hfirst, hrefs⟩ := bind_eq_ok.mp hrefs
    cases first with
    | none => cases hrefs
    | some found =>
      obtain ⟨others, hothers, hrefs⟩ := bind_eq_ok.mp hrefs
      cases others with
      | none => cases hrefs
      | some others =>
        cases hrefs
        intro ref hmem
        rcases mem_cons.mp hmem with rfl | hin
        · exact belongs_of_workloadReference h hfirst
        · exact ih hothers ref hin

theorem belongs_of_workloadRepositoryReferences {texts : List String}
    (htexts : workloadRepositoryReferences lib registry repo = .ok (some texts))
    (hmem : text ∈ texts) : ∃ ref, text = ref.name ∧ Belongs repo ref := by
  unfold workloadRepositoryReferences at htexts
  split at htexts
  case isTrue => cases htexts
  case isFalse =>
    split at htexts
    case h_1 => cases htexts
    case h_2 =>
      split at htexts
      case isTrue => cases htexts
      case isFalse =>
        obtain ⟨found, hfound, htexts⟩ := bind_eq_ok.mp htexts
        cases found with
        | none => cases htexts
        | some refs =>
          simp only at htexts
          split at htexts
          case isFalse => cases htexts
          case isTrue =>
            cases htexts
            rw [mem_insertionSort, mem_dedup] at hmem
            obtain ⟨ref, href, rfl⟩ := mem_map.mp hmem
            exact ⟨ref, rfl, belongs_of_workloadReferences h hfound ref href⟩

end

/-- **What is listed for a path** is read again as a reference to the repository of the path,
whatever the registry says its tags are. -/
theorem context_of_mem_discoverImages (hauthority : ImageName.Authority lib.isAuthority)
    (hrepo : ImageName.newRepository lib.isAuthority path = some repo) {contents : List String}
    (h : discoverImages lib client registry path = .ok contents) (htext : text ∈ contents)
    (href : lib.parseReference text = .ok ref) : ref.context = repo := by
  have hcanonical := ImageName.newRepository_canonical hauthority hrepo
  obtain ⟨found, hfound, h⟩ := bind_eq_ok.mp h
  cases hrepo.symm.trans (parsed_eq_ok.mp (mapError_eq_ok.mp hfound))
  obtain ⟨workload, hworkload, h⟩ := bind_eq_ok.mp h
  have href := parsed_eq_ok.mp href
  cases workload with
  | some references =>
    cases h
    obtain ⟨written, rfl, hcontext, hidentifier⟩ :=
      belongs_of_workloadRepositoryReferences hcanonical hworkload htext
    rw [← hcontext] at hcanonical ⊢
    rw [ImageName.parseReference_name hcanonical hidentifier] at href
    obtain ⟨again, hagain, rfl⟩ := Option.map_eq_some_iff.mp href
    exact ImageName.eq_of_newRepository_name hcanonical hagain
  | none =>
    obtain ⟨tags, -, h⟩ := bind_eq_ok.mp h
    cases h
    obtain ⟨tag, -, rfl⟩ := mem_map.mp htext
    exact ImageName.context_of_parseReference hcanonical href

end Listing

/-! ## What is looked up -/

section Lookup

variable {lib : Library} {client : Listing} {registry : Registry} {d : Repository} {reg : String}
  {repo : ImageName.Repository}

/-- The declared repository `d` is found again by what is listed for it. -/
structure FoundAgain (lib : Library) (registry : Registry) (reg : String) (d : Repository) :
    Prop where
  /-- The name comes through when it is joined to the registry and the registry is cut off again.
  The other case is a path of dots that happens to lead back. -/
  kept : (ImageName.splitRegistry (pathJoin reg d.name)).2 = d.name ∨
    reg = ".." ∧ d.name = "library/.."
  /-- If the default namespace is put in front, the lookup knows about it. -/
  spelled : ImageName.newRegistry lib.isAuthority
      (ImageName.splitRegistry (pathJoin reg d.name)).1 = some defaultRegistry →
    '/' ∉ d.name.toList → registry.spec.uri = defaultRegistry
  /-- On Docker Hub, no other repository that goes by the name comes first. -/
  first : ∃ before after, registry.spec.repositories = before ++ d :: after ∧
    (registry.spec.uri = defaultRegistry → ∀ other ∈ before, d.name ≠ "library/" ++ other.name ∧
      ('/' ∉ d.name.toList → other.name ≠ "library/" ++ d.name))

/-- The parts of the repository that a path is read as. -/
theorem newRepository_parts {path : String}
    (h : ImageName.newRepository lib.isAuthority path = some repo) :
    ImageName.newRegistry lib.isAuthority (ImageName.splitRegistry path).1 = some repo.registry ∧
      repo.repository = ImageName.repositoryStr repo.registry (ImageName.splitRegistry path).2 := by
  unfold ImageName.newRepository at h
  split at h
  case isFalse => cases h
  case isTrue =>
    obtain ⟨host, hhost, rfl⟩ := Option.map_eq_some_iff.mp h
    exact ⟨hhost, rfl⟩

/-- A name that comes through on Docker Hub is one of Docker Hub. -/
theorem registry_of_kept (hdefault : lib.isAuthority defaultRegistry = true)
    (hrepo : ImageName.newRepository lib.isAuthority (pathJoin defaultRegistry d.name) = some repo)
    (hkept : (ImageName.splitRegistry (pathJoin defaultRegistry d.name)).2 = d.name) :
    repo.registry = defaultRegistry := by
  obtain ⟨hclean, hhost⟩ :=
    (ImageName.rest_pathJoin_iff (by decide) (by decide) (by decide)).mp hkept
  have hsplit : ImageName.splitRegistry (pathJoin defaultRegistry d.name) =
      (defaultRegistry, d.name) := by
    rw [hclean, ImageName.splitRegistry, ImageName.cut_slash (by decide)]
    exact if_pos hhost
  have hregistry := (newRepository_parts hrepo).1
  have hagain : ImageName.newRegistry lib.isAuthority defaultRegistry = some defaultRegistry := by
    rw [ImageName.newRegistry, if_neg (by simp [hdefault])]
    rfl
  rw [hsplit, hagain] at hregistry
  exact (Option.some.inj hregistry).symm

section Found

variable (hauthority : ImageName.Authority lib.isAuthority)
  (hslash : ∀ s, lib.isAuthority s = true → '/' ∉ s.toList)
  (hnodup : (registry.spec.repositories.map (·.name)).Nodup)
  (hreg : ImageName.newRegistry lib.isAuthority registry.spec.uri = some reg)
  (hrepo : ImageName.newRepository lib.isAuthority (pathJoin reg d.name) = some repo)
include hauthority hreg

theorem eq_default_of_uri (huri : registry.spec.uri = defaultRegistry) : reg = defaultRegistry := by
  have hdefault : lib.isAuthority defaultRegistry = true := hauthority.default
  rw [huri, ImageName.newRegistry, if_neg (by simp [hdefault])] at hreg
  exact (Option.some.inj hreg).symm

include hslash hrepo

/-- If it is the declared name that is looked up, … -/
theorem kept_of_answersTo (hanswers : registry.answersTo repo.repository d = true) :
    (ImageName.splitRegistry (pathJoin reg d.name)).2 = d.name ∨
      reg = ".." ∧ d.name = "library/.." := by
  rcases Registry.answersTo_iff.mp hanswers with hname | ⟨huri, hlong⟩
  · exact ImageName.rest_of_repository_eq (ImageName.newRegistry_ne_empty hreg)
      (ImageName.newRegistry_noSlash (hslash _) hreg) hrepo hname.symm
  · obtain rfl := eq_default_of_uri hauthority hreg huri
    exact .inl (ImageName.rest_of_default hrepo hlong)

theorem foundAgain_of_getRepository (hfound : registry.getRepository repo.repository = some d) :
    FoundAgain lib registry reg d := by
  obtain ⟨hanswers, before, after, hsplit, hbefore⟩ := List.find?_eq_some_iff_append.mp hfound
  obtain ⟨hregistry, hrepository⟩ := newRepository_parts hrepo
  have hkept := kept_of_answersTo hauthority hslash hreg hrepo hanswers
  refine ⟨hkept, fun hhub hplain => ?_, before, after, hsplit, fun huri other hother => ?_⟩
  · rcases Registry.answersTo_iff.mp hanswers with hname | ⟨huri, -⟩
    · -- on Docker Hub, what is looked up has a slash
      rw [hhub, Option.some.injEq] at hregistry
      rw [hname, hrepository, ← hregistry] at hplain
      exact absurd (ImageName.slash_mem_repositoryStr _) hplain
    · exact huri
  · obtain rfl := eq_default_of_uri hauthority hreg huri
    have hkept := hkept.resolve_right fun hdots => absurd hdots.1 (by decide)
    have hhub := registry_of_kept hauthority.default hrepo hkept
    rw [hhub, hkept] at hrepository
    have hother := hbefore other hother
    rw [Bool.not_eq_true', ← Bool.not_eq_true, Registry.answersTo_iff, not_or] at hother
    by_cases hplain : '/' ∈ d.name.toList
    · rw [ImageName.repositoryStr, if_neg (fun h => h.2 hplain)] at hrepository
      rw [hrepository] at hother
      exact ⟨fun hlong => hother.2 ⟨huri, hlong⟩, fun h => absurd hplain h⟩
    · rw [ImageName.repositoryStr, if_pos ⟨rfl, hplain⟩] at hrepository
      rw [hrepository] at hother
      refine ⟨fun hlong => hplain ?_, fun _ => hother.1⟩
      rw [hlong]
      simp

omit hauthority hreg hslash in
/-- What is looked up is the declared name, or, on Docker Hub, the name with the default namespace
in front. -/
theorem repository_of_foundAgain (h : FoundAgain lib registry reg d) :
    repo.repository = d.name ∨ registry.spec.uri = defaultRegistry ∧ '/' ∉ d.name.toList ∧
      repo.repository = "library/" ++ d.name := by
  obtain ⟨hregistry, hrepository⟩ := newRepository_parts hrepo
  rcases h.kept with hkept | ⟨rfl, hname⟩
  · rw [hkept] at hrepository
    by_cases hhub : repo.registry = defaultRegistry ∧ '/' ∉ d.name.toList
    · have huri := h.spelled (hhub.1 ▸ hregistry) hhub.2
      exact .inr ⟨huri, hhub.2, hrepository.trans (if_pos hhub)⟩
    · exact .inl (hrepository.trans (if_neg hhub))
  · left
    rw [hname, show ImageName.splitRegistry (pathJoin ".." "library/..") = ("", "..")
      by decide] at hregistry hrepository
    rw [hrepository, ImageName.registry_of_empty hregistry, hname]
    decide

omit hauthority hreg hslash in
theorem getRepository_of_foundAgain (hnodup : (registry.spec.repositories.map (·.name)).Nodup)
    (h : FoundAgain lib registry reg d) : registry.getRepository repo.repository = some d := by
  obtain ⟨before, after, hsplit, hfirst⟩ := h.first
  have hnames : ∀ other ∈ before, other.name ≠ d.name := by
    intro other hother hsame
    rw [hsplit, map_append, map_cons] at hnodup
    have hdisjoint := (nodup_append.mp hnodup).2.2
    exact hdisjoint _ (mem_map_of_mem hother) _ mem_cons_self hsame
  refine List.find?_eq_some_iff_append.mpr ?_
  rcases repository_of_foundAgain hrepo h with hlooked | ⟨huri, hplain, hlooked⟩
  · rw [hlooked]
    refine ⟨Registry.answersTo_iff.mpr (.inl rfl), before, after, hsplit, fun other hother => ?_⟩
    rw [Bool.not_eq_true', ← Bool.not_eq_true, Registry.answersTo_iff, not_or]
    exact ⟨hnames other hother, fun halias => (hfirst halias.1 other hother).1 halias.2⟩
  · rw [hlooked]
    refine ⟨Registry.answersTo_iff.mpr (.inr ⟨huri, rfl⟩), before, after, hsplit,
      fun other hother => ?_⟩
    rw [Bool.not_eq_true', ← Bool.not_eq_true, Registry.answersTo_iff, not_or]
    refine ⟨(hfirst huri other hother).2 hplain, fun halias => hnames other hother ?_⟩
    exact ((String.append_right_inj _).mp halias.2).symm

end Found

end Lookup

/-! ## Five registries -/

namespace Declared

def lib : Library where
  isAuthority s := '/' ∉ s.toList && '@' ∉ s.toList
  badName s := s
  quote s := s
  sha256 s := s
  base64 s := s
  evaluate expression tag := .ok (expression = "tag == " ++ tag)

theorem authority : ImageName.Authority lib.isAuthority where
  default := by decide
  noAt s h := by
    simp only [lib, Bool.and_eq_true, decide_eq_true_eq] at h
    exact h.2

theorem noSlash (s : String) (h : lib.isAuthority s = true) : '/' ∉ s.toList := by
  simp only [lib, Bool.and_eq_true, decide_eq_true_eq] at h
  exact h.1

/-- A repository that is only scanned for `v2`. -/
def repository (name : String) : Repository := ⟨name, [⟨"v2", "tag == v2", ∅⟩], .and⟩

def registry (uri : String) (names : List String) : Registry where
  name := "registry"
  ns := "team"
  labels := ∅
  annotations := ∅
  spec := {
    uri, catalogType := .ociDistribution, repositories := names.map repository
    authSecret := "", scanInterval := none, caBundle := "", caBundleRef := none
    insecure := false, platforms := [] }

def client : Listing where
  catalog _ := .ok []
  tags _ := .ok ["v1"]

/-- The repositories that are found for what is listed under a declared name, and whether the tag is
scanned. -/
def lookups (registry : Registry) (name : String) :
    Except String (List (Option String × Option Bool)) := do
  let reg ← lib.newRegistry registry.spec.uri
  let contents ← discoverImages lib client registry (pathJoin reg name)
  contents.mapM fun text => do
    let ref ← lib.parseReference text
    let found := registry.getRepository ref.repository
    return (found.map (·.name), (filterByTag lib.evaluate found ref.identifier).toOption)

end Declared

end SbomScanner.Catalog

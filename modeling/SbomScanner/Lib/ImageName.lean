import SbomScanner.Lib.Strings

/-!
# Names of container images

The names that container tools read and write: a registry, a repository on it, and a tag or a
digest (`host:port/path:tag`, `host:port/path@sha256:…`). Parsing fills in what is left out: the
registry is Docker Hub, a repository of Docker Hub without a slash belongs to `library`, and the tag
is `latest`.

The functions follow package `name` of go-containerregistry with its default, weak validation. What
a registry may look like is a matter of URLs: `isAuthority` says whether the text is the authority
of one.
-/

namespace ImageName

open List Strings Option

def defaultRegistry := "index.docker.io"
def defaultRegistryAlias := "docker.io"
def defaultNamespace := "library"
def defaultTag := "latest"

structure Repository where
  registry : String
  repository : String
  deriving DecidableEq

@[ext]
structure Reference where
  registry : String
  repository : String
  identifier : String
  deriving DecidableEq

def Repository.name (repo : Repository) : String := repo.registry ++ "/" ++ repo.repository

def isDigest (identifier : String) : Bool := (cutPrefix identifier "sha256:").isSome

namespace Reference

variable (ref : Reference)

def context : Repository := ⟨ref.registry, ref.repository⟩

def name : String :=
  ref.context.name ++ (if isDigest ref.identifier then "@" else ":") ++ ref.identifier

end Reference

/-! ## Parsing -/

def checkElement (chars : Char → Bool) (minRunes maxRunes : Nat) (element : String) : Bool :=
  minRunes ≤ element.toList.length && element.toList.length ≤ maxRunes && element.toList.all chars

def repositoryChar (c : Char) : Bool :=
  c.isLower || c.isDigit || c = '_' || c = '-' || c = '.' || c = '/'

def tagChar (c : Char) : Bool := c.isAlphanum || c = '_' || c = '-' || c = '.'

def hexChar (c : Char) : Bool := c.isDigit || ('a' ≤ c && c ≤ 'f')

def checkRepository : String → Bool := checkElement repositoryChar 2 255
def checkTag : String → Bool := checkElement tagChar 1 128
def checkHex : String → Bool := checkElement hexChar 64 64

variable (isAuthority : String → Bool)

def newRegistry (name : String) : Option String :=
  if !isAuthority name then
    none
  else if name = "" ∨ name = defaultRegistryAlias then
    some defaultRegistry
  else
    some name

/-- The registry and the rest of a name. The first part is a registry iff it has a dot or a colon;
otherwise it is all repository. -/
def splitRegistry (name : String) : String × String :=
  match cut name '/' with
  | some (host, rest) =>
    if '.' ∈ host.toList ∨ ':' ∈ host.toList then (host, rest) else ("", name)
  | none => ("", name)

/-- `RepositoryStr`. -/
def repositoryStr (registry repo : String) : String :=
  if registry = defaultRegistry ∧ '/' ∉ repo.toList then defaultNamespace ++ "/" ++ repo else repo

def newRepository (name : String) : Option Repository :=
  if checkRepository (splitRegistry name).2 then
    (newRegistry isAuthority (splitRegistry name).1).map fun registry =>
      ⟨registry, repositoryStr registry (splitRegistry name).2⟩
  else
    none

/-- The name and the tag. A colon with a slash after it belongs to the registry. -/
def splitTag (name : String) : String × Option String :=
  match (split name ':').reverse with
  | tag :: base@(_ :: _) =>
    if '/' ∈ tag.toList then (name, none) else (join base.reverse ':', some tag)
  | _ => (name, none)

def newTag (name : String) : Option Reference :=
  match (splitTag name).2 with
  | some tag =>
    if checkTag tag then
      (newRepository isAuthority (splitTag name).1).map fun repo =>
        ⟨repo.registry, repo.repository, tag⟩
    else
      none
  | none => (newRepository isAuthority name).map fun repo =>
    ⟨repo.registry, repo.repository, defaultTag⟩

/-- A tag before the digest is dropped. -/
def newDigest (name : String) : Option Reference :=
  match split name '@' with
  | [base, digest] =>
    match cutPrefix digest "sha256:" with
    | some hex =>
      if checkHex hex then
        let base := ((newTag isAuthority base).map (·.context.name)).getD base
        (newRepository isAuthority base).map fun repo =>
          ⟨repo.registry, repo.repository, digest⟩
      else
        none
    | none => none
  | _ => none

def parseReference (name : String) : Option Reference :=
  (newTag isAuthority name).or (newDigest isAuthority name)

/-! ## The grammar of what is parsed -/

/-- What keeps the parts of a name apart. -/
structure Grammar (ref : Reference) : Prop where
  registry : '/' ∉ ref.registry.toList
  repository : ':' ∉ ref.repository.toList

variable {isAuthority} {name : String} {repo : Repository} {ref : Reference}

variable {c : Char}

theorem not_mem_of_checkElement {chars : Char → Bool} {minRunes maxRunes : Nat} {element : String}
    (h : checkElement chars minRunes maxRunes element = true) (hc : chars c = false) :
    c ∉ element.toList := by
  intro hmem
  simp only [checkElement, Bool.and_eq_true] at h
  exact absurd (all_eq_true.mp h.2 c hmem) (by simp [hc])

theorem isReal_of_checkRepository {repo : String} (h : checkRepository repo = true) :
    isReal repo = true := by
  have hempty : repo ≠ "" := by
    rintro rfl
    exact absurd h (by decide)
  have hdot : repo ≠ "." := by
    rintro rfl
    exact absurd h (by decide)
  simp [isReal, hempty, hdot]

variable {registry : String}

theorem not_mem_repositoryStr {repo : String} (h : checkRepository repo = true)
    (hc : repositoryChar c = false) :
    c ∉ (repositoryStr registry repo).toList := by
  have hrepo := not_mem_of_checkElement h hc
  unfold repositoryStr
  split
  · rw [String.toList_append, mem_append, not_or]
    refine ⟨fun hmem => ?_, hrepo⟩
    have hall : (defaultNamespace ++ "/").toList.all repositoryChar = true := by decide
    exact absurd (all_eq_true.mp hall c hmem) (by simp [hc])
  · exact hrepo

theorem repositoryStr_noColon {repo : String} (h : checkRepository repo = true) :
    ':' ∉ (repositoryStr registry repo).toList := by
  exact not_mem_repositoryStr h (by decide)

theorem newRegistry_noSlash (hname : isAuthority name = true → '/' ∉ name.toList)
    (h : newRegistry isAuthority name = some registry) :
    '/' ∉ registry.toList := by
  unfold newRegistry at h
  split at h
  case isTrue => cases h
  case isFalse hvalid =>
    split at h
    · cases h
      decide
    · cases h
      exact hname (by simpa using hvalid)

/-- The host in front of a name ends at its first slash. -/
theorem splitRegistry_noSlash (name : String) : '/' ∉ (splitRegistry name).1.toList := by
  unfold splitRegistry
  split
  case h_2 => simp
  case h_1 host rest hcut =>
    split
    · exact (cut_eq_some hcut).1
    · simp

theorem newRegistry_ne_empty (h : newRegistry isAuthority name = some registry) :
    registry ≠ "" := by
  unfold newRegistry at h
  split at h
  case isTrue => cases h
  case isFalse =>
    split at h
    case isTrue =>
      cases h
      decide
    case isFalse hplain =>
      cases h
      exact fun hempty => hplain (.inl hempty)

/-- On Docker Hub every repository has a namespace. -/
theorem slash_mem_repositoryStr (repo : String) :
    '/' ∈ (repositoryStr defaultRegistry repo).toList := by
  by_cases hslash : '/' ∈ repo.toList
  · rw [repositoryStr, if_neg (fun hhub => hhub.2 hslash)]
    exact hslash
  · rw [repositoryStr, if_pos ⟨rfl, hslash⟩]
    simp

theorem newRepository_grammar (h : newRepository isAuthority name = some repo)
    (identifier : String) : Grammar ⟨repo.registry, repo.repository, identifier⟩ := by
  unfold newRepository at h
  split at h
  case isTrue hcheck =>
    obtain ⟨registry, hregistry, rfl⟩ := map_eq_some_iff.mp h
    exact ⟨newRegistry_noSlash (fun _ => splitRegistry_noSlash name) hregistry,
      repositoryStr_noColon hcheck⟩
  case isFalse => cases h

theorem newTag_grammar (h : newTag isAuthority name = some ref) : Grammar ref := by
  unfold newTag at h
  split at h
  case h_1 tag _ =>
    split at h
    · obtain ⟨repo, hrepo, rfl⟩ := map_eq_some_iff.mp h
      exact newRepository_grammar hrepo tag
    · cases h
  case h_2 =>
    obtain ⟨repo, hrepo, rfl⟩ := map_eq_some_iff.mp h
    exact newRepository_grammar hrepo defaultTag

theorem newDigest_grammar (h : newDigest isAuthority name = some ref) : Grammar ref := by
  unfold newDigest at h
  split at h
  case h_2 => cases h
  case h_1 base digest _ =>
    split at h
    case h_2 => cases h
    case h_1 =>
      split at h
      · obtain ⟨repo, hrepo, rfl⟩ := map_eq_some_iff.mp h
        exact newRepository_grammar hrepo digest
      · cases h

theorem parseReference_grammar (h : parseReference isAuthority name = some ref) : Grammar ref := by
  rcases or_eq_some_iff.mp h with htag | ⟨-, hdigest⟩
  · exact newTag_grammar htag
  · exact newDigest_grammar hdigest

/-- A name with an identifier and a digest, told apart again. -/
theorem name_identifier_digest_inj {other : Reference} (h : Grammar ref) (h' : Grammar other)
    {digest digest' : String} (hdigest : '@' ∉ digest.toList) (hdigest' : '@' ∉ digest'.toList)
    (heq : ref.context.name ++ ":" ++ ref.identifier ++ "@" ++ digest =
      other.context.name ++ ":" ++ other.identifier ++ "@" ++ digest') :
    ref = other ∧ digest = digest' := by
  have hlist := congrArg String.toList heq
  simp only [Reference.context, Repository.name, String.toList_append, append_assoc,
    show "/".toList = ['/'] from rfl, show ":".toList = [':'] from rfl,
    show "@".toList = ['@'] from rfl, singleton_append] at hlist
  obtain ⟨hregistry, hrest⟩ := append_cons_inj h.registry h'.registry hlist
  obtain ⟨hrepository, hrest⟩ := append_cons_inj h.repository h'.repository hrest
  obtain ⟨hidentifier, hdigests⟩ := append_cons_inj_right hdigest hdigest' hrest
  exact ⟨Reference.ext (String.toList_inj.mp hregistry) (String.toList_inj.mp hrepository)
    (String.toList_inj.mp hidentifier), String.toList_inj.mp hdigests⟩

/-! ## Parsing a name again -/

/-- What is known of the authority of a URL. -/
structure Authority (isAuthority : String → Bool) : Prop where
  default : isAuthority defaultRegistry = true
  noAt : ∀ s, isAuthority s = true → '@' ∉ s.toList

/-- A repository as parsing gives it. -/
structure Canonical (isAuthority : String → Bool) (repo : Repository) : Prop where
  newRegistry : newRegistry isAuthority repo.registry = some repo.registry
  host : '.' ∈ repo.registry.toList ∨ ':' ∈ repo.registry.toList
  noSlash : '/' ∉ repo.registry.toList
  repositoryStr : repositoryStr repo.registry repo.repository = repo.repository
  noColon : ':' ∉ repo.repository.toList
  noAt : '@' ∉ repo.name.toList

theorem repositoryStr_repositoryStr (registry repo : String) :
    repositoryStr registry (repositoryStr registry repo) = repositoryStr registry repo := by
  by_cases h : registry = defaultRegistry ∧ '/' ∉ repo.toList
  · have hslash : '/' ∈ (repositoryStr registry repo).toList := by
      rw [repositoryStr, if_pos h]
      simp
    rw [repositoryStr.eq_def registry (repositoryStr registry repo), if_neg (fun h' => h'.2 hslash)]
  · have hsame : repositoryStr registry repo = repo := if_neg h
    rw [hsame, hsame]

theorem newRepository_canonical (hauthority : Authority isAuthority)
    (h : newRepository isAuthority name = some repo) : Canonical isAuthority repo := by
  unfold newRepository at h
  split at h
  case isFalse => cases h
  case isTrue hcheck =>
    obtain ⟨registry, hregistry, rfl⟩ := map_eq_some_iff.mp h
    -- the registry is Docker Hub, or the part of the name in front of the first slash
    have hhost : registry = defaultRegistry ∨ isAuthority registry = true ∧ registry ≠ "" ∧
        registry ≠ defaultRegistryAlias ∧ registry = (splitRegistry name).1 := by
      unfold ImageName.newRegistry at hregistry
      split at hregistry
      case isTrue => cases hregistry
      case isFalse hvalid =>
        split at hregistry
        case isTrue =>
          cases hregistry
          exact .inl rfl
        case isFalse hplain =>
          cases hregistry
          rw [not_or] at hplain
          exact .inr ⟨by simpa using hvalid, hplain.1, hplain.2, rfl⟩
    have hauthorised : isAuthority registry = true := by
      rcases hhost with rfl | hhost
      · exact hauthority.default
      · exact hhost.1
    have hparts : ('.' ∈ registry.toList ∨ ':' ∈ registry.toList) ∧ '/' ∉ registry.toList := by
      rcases hhost with rfl | ⟨-, hne, -, heq⟩
      · decide
      · unfold splitRegistry at heq
        split at heq
        case h_2 => exact absurd heq hne
        case h_1 host rest hcut =>
          split at heq
          case isFalse => exact absurd heq hne
          case isTrue hdot => exact heq ▸ ⟨hdot, (cut_eq_some hcut).1⟩
    have hagain : ImageName.newRegistry isAuthority registry = some registry := by
      rw [ImageName.newRegistry, if_neg (by simp [hauthorised])]
      rcases hhost with rfl | ⟨-, hne, halias, -⟩
      · rfl
      · rw [if_neg (not_or.mpr ⟨hne, halias⟩)]
    constructor
    · exact hagain
    · exact hparts.1
    · exact hparts.2
    · exact repositoryStr_repositoryStr registry (splitRegistry name).2
    · exact repositoryStr_noColon hcheck
    · have hrepository : '@' ∉ (ImageName.repositoryStr registry (splitRegistry name).2).toList :=
        not_mem_repositoryStr hcheck (by decide)
      simp [Repository.name, hauthority.noAt registry hauthorised, hrepository]

theorem splitTag_cases (s : String) : splitTag s = (s, none) ∨
    ∃ base tag, '/' ∉ tag.toList ∧ s = base ++ ":" ++ tag ∧ splitTag s = (base, some tag) := by
  cases hsplit : (split s ':').reverse with
  | nil => exact absurd (reverse_eq_nil_iff.mp hsplit) (split_ne_nil s ':')
  | cons tag rest =>
    cases rest with
    | nil =>
      left
      simp only [splitTag, hsplit]
    | cons last before =>
      by_cases hslash : '/' ∈ tag.toList
      · left
        simp only [splitTag, hsplit, hslash, if_true]
      · right
        refine ⟨join (last :: before).reverse ':', tag, hslash, ?_, ?_⟩
        · have hparts : split s ':' = (last :: before).reverse ++ [tag] := by
            rw [← reverse_reverse (split s ':'), hsplit, reverse_cons]
          rw [← join_split s ':', hparts, join_concat _ _ (by simp)]
          rfl
        · simp only [splitTag, hsplit, hslash, if_false]

variable {tag base : String}

theorem splitTag_append (hcolon : ':' ∉ tag.toList) (hslash : '/' ∉ tag.toList) :
    splitTag (base ++ ":" ++ tag) = (base, some tag) := by
  have hparts : (split (base ++ ":" ++ tag) ':').reverse =
      tag :: (split base ':').reverse := by
    rw [show ":" = String.singleton ':' from rfl, split_append,
      split_of_not_mem hcolon, reverse_append]
    rfl
  obtain ⟨last, before, hbase⟩ := exists_cons_of_ne_nil
    (show (split base ':').reverse ≠ [] by simpa using split_ne_nil base ':')
  rw [splitTag, hparts, hbase]
  simp only [hslash, if_false]
  rw [← hbase, reverse_reverse, join_split]

theorem newTag_tag (htag : checkTag tag = true) :
    newTag isAuthority (base ++ ":" ++ tag) =
      (newRepository isAuthority base).map fun found =>
        ⟨found.registry, found.repository, tag⟩ := by
  rw [newTag, splitTag_append (not_mem_of_checkElement htag (by decide))
    (not_mem_of_checkElement htag (by decide))]
  simp only [htag, if_true]

theorem cut_slash {a b : String} (ha : '/' ∉ a.toList) :
    cut (a ++ "/" ++ b) '/' = some (a, b) := by
  rw [show "/" = String.singleton '/' from rfl]
  exact cut_append ha

section Canonical

variable (h : Canonical isAuthority repo)
include h

theorem splitRegistry_name : splitRegistry repo.name = (repo.registry, repo.repository) := by
  simp only [splitRegistry, Repository.name, cut_slash h.noSlash, if_pos h.host]

/-- A name that is parsed again is refused (a repository of Docker Hub may be too long by now), or
gives the same. -/
theorem newRepository_name :
    newRepository isAuthority repo.name =
      if checkRepository repo.repository then some repo else none := by
  rw [newRepository, splitRegistry_name h, h.newRegistry, map_some, h.repositoryStr]

theorem eq_of_newRepository_name {other : Repository}
    (hnew : newRepository isAuthority repo.name = some other) : other = repo := by
  rw [newRepository_name h] at hnew
  split at hnew
  · cases hnew
    rfl
  · cases hnew

/-- The last colon of a name is in front of the last slash. -/
theorem name_ne_append (hslash : '/' ∉ tag.toList) : repo.name ≠ base ++ ":" ++ tag := by
  intro hname
  -- the colon would belong to the repository, which has none
  have hin : '/' ∈ (base ++ ":" ++ tag).toList := by
    rw [← hname]
    simp [Repository.name]
  have hbase : '/' ∈ base.toList := by simpa [hslash] using hin
  obtain ⟨before, after, hbase, hbefore⟩ := eq_append_cons_of_mem hbase
  have htext := congrArg String.toList hname
  simp only [Repository.name, String.toList_append, hbase, append_assoc, cons_append,
    show "/".toList = ['/'] from rfl, nil_append] at htext
  have hrepository := (append_cons_inj h.noSlash hbefore htext).2
  apply h.noColon
  rw [hrepository]
  simp

theorem splitTag_name : splitTag repo.name = (repo.name, none) := by
  rcases splitTag_cases repo.name with hnone | ⟨base, tag, hslash, hname, -⟩
  · exact hnone
  · exact absurd hname (name_ne_append h hslash)

/-- Behind a character that no repository has, a name is no longer one. -/
theorem newRepository_append (hc : repositoryChar c = false) (rest : String) :
    newRepository isAuthority (repo.name ++ String.singleton c ++ rest) = none := by
  have hcut : cut (repo.name ++ String.singleton c ++ rest) '/' =
      some (repo.registry, repo.repository ++ String.singleton c ++ rest) := by
    have htext : repo.name ++ String.singleton c ++ rest =
        repo.registry ++ "/" ++ (repo.repository ++ String.singleton c ++ rest) := by
      rw [← String.toList_inj]
      simp [Repository.name]
    rw [htext]
    exact cut_slash h.noSlash
  rw [newRepository, splitRegistry, hcut]
  simp only [h.host, if_true]
  rw [if_neg]
  intro hcheck
  exact not_mem_of_checkElement hcheck hc (by simp)

theorem newTag_name : newTag isAuthority repo.name =
    (newRepository isAuthority repo.name).map fun found =>
      ⟨found.registry, found.repository, defaultTag⟩ := by
  rw [newTag, splitTag_name h]

/-- Without a tag, the name is left as it is. -/
theorem newTag_getD :
    ((newTag isAuthority repo.name).map (·.context.name)).getD repo.name = repo.name := by
  rw [newTag_name h]
  cases hnew : newRepository isAuthority repo.name with
  | none => rfl
  | some found =>
    rw [eq_of_newRepository_name h hnew]
    rfl

theorem newDigest_digest {hex : String} (hhex : checkHex hex = true) :
    newDigest isAuthority (repo.name ++ "@" ++ ("sha256:" ++ hex)) =
      (newRepository isAuthority repo.name).map fun found =>
        ⟨found.registry, found.repository, "sha256:" ++ hex⟩ := by
  have hdigest : '@' ∉ ("sha256:" ++ hex).toList := by
    have hnot := not_mem_of_checkElement hhex (show hexChar '@' = false by decide)
    simpa using hnot
  have hsplit : split (repo.name ++ "@" ++ ("sha256:" ++ hex)) '@' =
      [repo.name, "sha256:" ++ hex] := by
    rw [show "@" = String.singleton '@' from rfl, split_append,
      split_of_not_mem h.noAt, split_of_not_mem hdigest]
    rfl
  have hcut : cutPrefix ("sha256:" ++ hex) "sha256:" = some hex :=
    cutPrefix_eq_some.mpr rfl
  simp only [newDigest, hsplit, hcut, hhex, if_true, newTag_getD h]

/-- A digest is not taken for a tag. -/
theorem newTag_digest {hex : String} (hhex : checkHex hex = true) :
    newTag isAuthority (repo.name ++ "@" ++ ("sha256:" ++ hex)) = none := by
  have htext : repo.name ++ "@" ++ ("sha256:" ++ hex) = repo.name ++ "@sha256" ++ ":" ++ hex := by
    rw [← String.toList_inj]
    simp
  have hrefused : newRepository isAuthority (repo.name ++ "@sha256") = none := by
    rw [show "@sha256" = String.singleton '@' ++ "sha256" from by decide, ← String.append_assoc]
    exact newRepository_append h (show repositoryChar '@' = false by decide) "sha256"
  rw [htext, newTag, splitTag_append (not_mem_of_checkElement hhex (by decide))
    (not_mem_of_checkElement hhex (by decide))]
  simp only [hrefused, map_none, ite_self]

/-- Whatever follows the colon, a tag that is read behind a name is a tag of its repository. -/
theorem context_of_newTag
    (hnew : newTag isAuthority (repo.name ++ ":" ++ tag) = some ref) : ref.context = repo := by
  have hcolon (rest : String) : newRepository isAuthority (repo.name ++ ":" ++ rest) = none :=
    newRepository_append h (show repositoryChar ':' = false by decide) rest
  unfold newTag at hnew
  rcases splitTag_cases (repo.name ++ ":" ++ tag) with hnone | ⟨base, last, hslash, htext, hsplit⟩
  · rw [hnone] at hnew
    simp only [hcolon, map_none, reduceCtorEq] at hnew
  · rw [hsplit] at hnew
    simp only at hnew
    split at hnew
    case isFalse => cases hnew
    case isTrue =>
      obtain ⟨found, hfound, rfl⟩ := map_eq_some_iff.mp hnew
      -- the tag is cut off at the last colon
      have hcases := @append_cases repo.name tag base last ':' ':' htext
      rcases hcases with ⟨rfl, -, -⟩ | ⟨rest, rfl, -⟩ | ⟨rest, hname, rfl⟩
      · exact eq_of_newRepository_name h hfound
      · rw [show String.singleton ':' = ":" from rfl, hcolon] at hfound
        cases hfound
      · refine absurd hname (name_ne_append h fun hmem => hslash ?_)
        simp [hmem]

/-- The same for a digest, whatever is in front of it. -/
theorem context_of_newDigest (hc : c = ':' ∨ c = '@')
    (hnew : newDigest isAuthority (repo.name ++ String.singleton c ++ tag) = some ref) :
    ref.context = repo := by
  unfold newDigest at hnew
  split at hnew
  case h_2 => cases hnew
  case h_1 base digest hparts =>
    split at hnew
    case h_2 => cases hnew
    case h_1 hex hcut =>
      split at hnew
      case isFalse => cases hnew
      case isTrue hhex =>
        obtain ⟨found, hfound, rfl⟩ := map_eq_some_iff.mp hnew
        show found = repo
        have hjoin := join_split (repo.name ++ String.singleton c ++ tag) '@'
        rw [hparts, join_cons _ _ (cons_ne_nil _ _), join_singleton] at hjoin
        have hbase : '@' ∉ base.toList :=
          not_mem_of_mem_split (hparts ▸ mem_cons_self)
        rcases @append_cases repo.name tag base digest c '@' hjoin.symm with
          ⟨rfl, -, -⟩ | ⟨rest, rfl, -⟩ | ⟨rest, hname, -⟩
        · exact eq_of_newRepository_name h (newTag_getD h ▸ hfound)
        · have hcolon : c = ':' := hc.resolve_right fun hat => hbase (by simp [hat])
          subst hcolon
          cases htag : newTag isAuthority (repo.name ++ String.singleton ':' ++ rest) with
          | none =>
            rw [htag, map_none, getD_none,
              newRepository_append h (show repositoryChar ':' = false by decide)] at hfound
            cases hfound
          | some inner =>
            rw [htag, map_some, getD_some, context_of_newTag h htag] at hfound
            exact eq_of_newRepository_name h hfound
        · exact absurd (show '@' ∈ repo.name.toList by rw [hname]; simp) h.noAt

/-- **What is read behind a name** and a colon, as a tag or as a digest, belongs to its
repository. -/
theorem context_of_parseReference
    (hparse : parseReference isAuthority (repo.name ++ ":" ++ tag) = some ref) :
    ref.context = repo := by
  rcases or_eq_some_iff.mp hparse with htag | ⟨-, hdigest⟩
  · exact context_of_newTag h htag
  · exact context_of_newDigest h (.inl rfl) hdigest

end Canonical

/-- A tag, or a digest. -/
def Identifies (identifier : String) : Prop :=
  checkTag identifier = true ∨ ∃ hex, identifier = "sha256:" ++ hex ∧ checkHex hex = true

theorem isDigest_iff {identifier : String} (h : Identifies identifier) :
    isDigest identifier = true ↔ ∃ hex, identifier = "sha256:" ++ hex ∧ checkHex hex = true := by
  rw [isDigest, isSome_iff_exists]
  simp only [cutPrefix_eq_some]
  constructor
  · rintro ⟨hex, rfl⟩
    rcases h with htag | hdigest
    · exact absurd (show ':' ∈ ("sha256:" ++ hex).toList by simp)
        (not_mem_of_checkElement htag (by decide))
    · exact hdigest
  · rintro ⟨hex, rfl, -⟩
    exact ⟨hex, rfl⟩

/-- **Parsing a rendered reference.** -/
theorem parseReference_name (h : Canonical isAuthority ref.context)
    (hidentifier : Identifies ref.identifier) :
    parseReference isAuthority ref.name =
      (newRepository isAuthority ref.context.name).map fun found =>
        ⟨found.registry, found.repository, ref.identifier⟩ := by
  by_cases hdigest : isDigest ref.identifier = true
  · obtain ⟨hex, heq, hhex⟩ := (isDigest_iff hidentifier).mp hdigest
    rw [Reference.name, if_pos hdigest, heq, parseReference, newTag_digest h hhex, none_or]
    exact newDigest_digest h hhex
  · have htag : checkTag ref.identifier = true :=
      hidentifier.resolve_right fun hex => hdigest ((isDigest_iff hidentifier).mpr hex)
    have hat : '@' ∉ (ref.context.name ++ ":" ++ ref.identifier).toList := by
      have hnot := not_mem_of_checkElement htag (show tagChar '@' = false by decide)
      simp [h.noAt, hnot]
    have hnone : newDigest isAuthority (ref.context.name ++ ":" ++ ref.identifier) = none := by
      simp only [newDigest, split_of_not_mem hat]
    rw [Reference.name, if_neg hdigest, parseReference, hnone, or_none]
    exact newTag_tag htag

theorem newTag_parts (h : newTag isAuthority name = some ref) :
    (∃ s, newRepository isAuthority s = some ref.context) ∧ Identifies ref.identifier := by
  unfold newTag at h
  split at h
  case h_1 tag _ =>
    split at h
    case isTrue htag =>
      obtain ⟨repo, hrepo, rfl⟩ := map_eq_some_iff.mp h
      exact ⟨⟨_, hrepo⟩, .inl htag⟩
    case isFalse => cases h
  case h_2 =>
    obtain ⟨repo, hrepo, rfl⟩ := map_eq_some_iff.mp h
    exact ⟨⟨_, hrepo⟩, .inl (show checkTag defaultTag = true by decide)⟩

theorem newDigest_parts (h : newDigest isAuthority name = some ref) :
    (∃ s, newRepository isAuthority s = some ref.context) ∧ Identifies ref.identifier := by
  unfold newDigest at h
  split at h
  case h_2 => cases h
  case h_1 base digest _ =>
    split at h
    case h_2 => cases h
    case h_1 hex hcut =>
      split at h
      case isFalse => cases h
      case isTrue hhex =>
        obtain ⟨repo, hrepo, rfl⟩ := map_eq_some_iff.mp h
        exact ⟨⟨_, hrepo⟩, .inr ⟨hex, cutPrefix_eq_some.mp hcut, hhex⟩⟩

theorem parseReference_parts (h : parseReference isAuthority name = some ref) :
    (∃ s, newRepository isAuthority s = some ref.context) ∧ Identifies ref.identifier := by
  rcases or_eq_some_iff.mp h with htag | ⟨-, hdigest⟩
  · exact newTag_parts htag
  · exact newDigest_parts hdigest

/-! ## Names as paths -/

theorem registry_ne_empty (h : Canonical isAuthority repo) : repo.registry ≠ "" := by
  intro hempty
  have hhost := h.host
  rw [hempty] at hhost
  simp at hhost

theorem registry_of_empty
    (h : ImageName.newRegistry isAuthority "" = some registry) : registry = defaultRegistry := by
  unfold ImageName.newRegistry at h
  split at h
  · cases h
  · rw [if_pos (.inl rfl)] at h
    cases h
    rfl

variable {rest : String}

/-- The elements of a name that is cut at its first slash. -/
theorem split_of_cut {elements : List String} (hslash : ∀ element ∈ elements, '/' ∉ element.toList)
    {host : String} (hcut : cut (join elements '/') '/' = some (host, rest)) :
    elements = host :: split rest '/' := by
  obtain ⟨hhost, hjoin⟩ := cut_eq_some hcut
  have hne : elements ≠ [] := by
    rintro rfl
    cases hcut
  rw [← split_join hne hslash, hjoin, split_append, split_of_not_mem hhost]
  rfl

section Path

variable (h : Canonical isAuthority repo)
include h

theorem noSlash_cleanElements {element : String}
    (hmem : element ∈ cleanElements repo.registry repo.repository) :
    '/' ∉ element.toList := by
  rcases mem_cons.mp (mem_cleanElements hmem).1 with rfl | hin
  · exact h.noSlash
  · exact not_mem_of_mem_split hin

omit h in
/-- As many elements as before are the same elements. -/
theorem cleanElements_eq (hlength : (cleanElements repo.registry repo.repository).length =
    (repo.registry :: split repo.repository '/').length) :
    cleanElements repo.registry repo.repository = repo.registry :: split repo.repository '/' := by
  rcases cleanElements_cases repo.registry repo.repository with heq | hle
  · rw [heq] at hlength ⊢
    exact filter_sublist.eq_of_length hlength
  · omega

omit h in
/-- The elements of a repository that the default namespace was put in front of. -/
theorem split_defaultNamespace (hslash : '/' ∉ rest.toList) :
    split (defaultNamespace ++ "/" ++ rest) '/' = [defaultNamespace, rest] := by
  rw [show "/" = String.singleton '/' from rfl, split_append,
    split_of_not_mem hslash]
  rfl

omit h in
theorem cleanElements_defaultNamespace {registry : String} (hregistry : registry ≠ "")
    (hslash : '/' ∉ rest.toList) (hreal : isReal rest = true) :
    cleanElements registry (defaultNamespace ++ "/" ++ rest) =
      (if registry = "." then [] else [registry]) ++
        if rest = ".." then [] else [defaultNamespace, rest] := by
  have hempty : ¬(rest = "" ∨ rest = ".") := by simpa [isReal] using hreal
  have hfirst : cleanElement false [] registry =
      if registry = "." then [] else [registry] := by
    by_cases hparent : registry = ".."
    · subst hparent
      decide
    · simp only [cleanElement, hregistry, hparent, false_or, if_false]
  have hsecond (before : List String) : cleanElement false before defaultNamespace =
      defaultNamespace :: before := by
    rw [cleanElement.eq_def, if_neg (by decide), if_neg (by decide)]
  have hthird (before : List String) :
      cleanElement false (defaultNamespace :: before) rest =
      if rest = ".." then before else rest :: defaultNamespace :: before := by
    rw [cleanElement.eq_def, if_neg hempty]
    simp only [show ¬defaultNamespace = ".." by decide, if_false]
  rw [cleanElements, split_defaultNamespace hslash, foldl_cons, foldl_cons,
    foldl_cons, foldl_nil, hfirst, hsecond, hthird]
  split <;> split <;> rfl

omit h in
/-- With the registry in front, the elements are those of the repository. -/
theorem cleanElements_of_host {host : String}
    (hsplit : cleanElements repo.registry repo.repository = host :: split rest '/')
    (hrepository : ImageName.repositoryStr repo.registry rest = repo.repository) :
    cleanElements repo.registry repo.repository = repo.registry :: split repo.repository '/' := by
  by_cases hhub : repo.registry = defaultRegistry ∧ '/' ∉ rest.toList
  · rw [repositoryStr, if_pos hhub] at hrepository
    rw [split_of_not_mem hhub.2] at hsplit
    have hreal : isReal rest = true :=
      (mem_cleanElements (hsplit ▸ mem_cons_of_mem _ mem_cons_self)).2
    -- the default namespace would have got lost
    rw [hhub.1, ← hrepository, cleanElements_defaultNamespace (by decide) hhub.2 hreal,
      if_neg (by decide)] at hsplit
    split at hsplit <;> simp at hsplit
  · rw [repositoryStr, if_neg hhub] at hrepository
    apply cleanElements_eq
    rw [hsplit, hrepository]
    rfl

/-- Without a registry in front, the name does not stand for a repository of Docker Hub that has
these elements. -/
theorem not_default (hregistry : repo.registry = defaultRegistry) {name : String}
    (hname : name = join (cleanElements repo.registry repo.repository) '/')
    (hne : name ≠ "")
    (hhost : ∀ host rest, cut name '/' = some (host, rest) → '.' ∉ host.toList)
    (hrepository : ImageName.repositoryStr repo.registry name = repo.repository) : False := by
  have hsplit : split name '/' = cleanElements repo.registry repo.repository := by
    rw [hname]
    refine split_join (fun hnil => hne ?_) fun _ => noSlash_cleanElements h
    rw [hname, hnil]
    rfl
  by_cases hslash : '/' ∈ name.toList
  · rw [repositoryStr, if_neg (fun hhub => hhub.2 hslash)] at hrepository
    rcases cleanElements_cases repo.registry repo.repository with heq | hle
    · -- the registry is still in front, and it has a dot
      obtain ⟨⟨host, rest⟩, hcut⟩ : ∃ parts, cut name '/' = some parts := by
        cases hcut : cut name '/' with
        | none => exact absurd hslash (cut_eq_none hcut)
        | some parts => exact ⟨parts, rfl⟩
      have hfirst := split_of_cut (fun _ => noSlash_cleanElements h) (hname ▸ hcut)
      rw [heq, filter_cons_of_pos (by rw [hregistry]; decide)] at hfirst
      have hdot := hhost host rest hcut
      rw [← (List.cons.inj hfirst).1, hregistry] at hdot
      exact hdot (by decide)
    · rw [← hsplit, hrepository, length_cons] at hle
      omega
  · rw [repositoryStr, if_pos ⟨hregistry, hslash⟩] at hrepository
    rw [split_of_not_mem hslash] at hsplit
    have hreal : isReal name = true :=
      (mem_cleanElements (hsplit ▸ mem_cons_self)).2
    rw [hregistry, ← hrepository, cleanElements_defaultNamespace (by decide) hslash hreal,
      if_neg (by decide)] at hsplit
    split at hsplit
    case isTrue hparent =>
      rw [hparent] at hsplit
      revert hsplit
      decide
    case isFalse => simp at hsplit

/-- If a path of registry and repository still stands for the two when it is cleaned, then it was
clean. -/
theorem pathJoin_eq_name (hnew : newRepository isAuthority
    (pathJoin repo.registry repo.repository) = some repo) :
    pathJoin repo.registry repo.repository = repo.name := by
  have hpath := pathJoin_eq (b := repo.repository) (registry_ne_empty h) h.noSlash
  generalize hname : join (cleanElements repo.registry repo.repository) '/' = name at hpath
  split at hpath
  case isTrue =>
    -- a dot is too short for a repository
    rw [hpath, newRepository, if_neg (by decide)] at hnew
    cases hnew
  case isFalse hne =>
    rw [hpath, newRepository] at hnew
    split at hnew
    case isFalse => cases hnew
    case isTrue =>
      obtain ⟨registry, hregistry, heq⟩ := map_eq_some_iff.mp hnew
      obtain rfl : registry = repo.registry := congrArg Repository.registry heq
      have hrepository := congrArg Repository.repository heq
      rw [hpath]
      cases hcut : cut name '/' with
      | none =>
        simp only [splitRegistry, hcut] at hregistry hrepository
        exact (not_default h (registry_of_empty hregistry) hname.symm hne
          (by simp [hcut]) hrepository).elim
      | some parts =>
        obtain ⟨host, rest⟩ := parts
        by_cases hdot : '.' ∈ host.toList ∨ ':' ∈ host.toList
        · simp only [splitRegistry, hcut, hdot, if_true] at hrepository
          have hsplit := split_of_cut (fun _ => noSlash_cleanElements h) (hname.symm ▸ hcut)
          rw [← hname, cleanElements_of_host hsplit hrepository,
            join_cons _ _ (split_ne_nil _ _), join_split]
          rfl
        · simp only [splitRegistry, hcut, hdot, if_false] at hregistry hrepository
          refine (not_default h (registry_of_empty hregistry) hname.symm hne ?_ hrepository).elim
          intro host' rest' hcut'
          cases hcut.symm.trans hcut'
          exact fun hmem => hdot (.inl hmem)

end Path

/-! ## Joining a name to a registry

What is left of a name when it is joined to a registry and the registry is cut off again. -/

theorem splitRegistry_cases (s : String) : splitRegistry s = ("", s) ∨
    ∃ host rest, ('.' ∈ host.toList ∨ ':' ∈ host.toList) ∧ splitRegistry s = (host, rest) ∧
      split s '/' = host :: split rest '/' := by
  unfold splitRegistry
  cases hcut : cut s '/' with
  | none => exact .inl rfl
  | some parts =>
    obtain ⟨host, rest⟩ := parts
    obtain ⟨hslash, rfl⟩ := cut_eq_some hcut
    by_cases hhost : '.' ∈ host.toList ∨ ':' ∈ host.toList
    · right
      refine ⟨host, rest, hhost, if_pos hhost, ?_⟩
      rw [split_append, split_of_not_mem hslash]
      rfl
    · exact .inl (if_neg hhost)

section Joined

variable {registry : String} (hne : registry ≠ "") (hslash : '/' ∉ registry.toList)
include hne hslash

/-- The default namespace gets lost on the way only if the name is `..` behind it. -/
theorem parent_of_rest (hrepository : '/' ∉ rest.toList) (hreal : isReal rest = true)
    (hrest : (splitRegistry (pathJoin registry
      (defaultNamespace ++ "/" ++ rest))).2 = rest) :
    registry = ".." ∧ rest = ".." := by
  have helements := cleanElements_defaultNamespace hne hrepository hreal
  rcases split_pathJoin hne hslash with ⟨-, hpath⟩ | hsplit
  · rw [hpath] at hrest
    rw [← hrest] at hreal
    exact absurd hreal (by decide)
  rw [helements] at hsplit
  rcases splitRegistry_cases (pathJoin registry (defaultNamespace ++ "/" ++ rest)) with
    hwhole | ⟨host, back, hhost, hcut, hparts⟩
  · -- the whole path is the repository, so it has one element
    have hpath : pathJoin registry (defaultNamespace ++ "/" ++ rest) = rest := by
      rwa [hwhole] at hrest
    rw [hpath, split_of_not_mem hrepository] at hsplit
    by_cases hparent : rest = ".."
    · by_cases hdot : registry = "."
      · simp [hparent, hdot] at hsplit
      · simp only [hparent, hdot, if_true, if_false, append_nil] at hsplit
        exact ⟨(List.cons.inj hsplit).1.symm, hparent⟩
    · rw [if_neg hparent] at hsplit
      have hlength := congrArg List.length hsplit
      rw [length_append, length_cons, length_cons] at hlength
      simp at hlength
  · -- what is cut off is in front of two elements, or it is the default namespace
    have hback : back = rest := by rwa [hcut] at hrest
    rw [hparts, hback, split_of_not_mem hrepository] at hsplit
    have hnone : ¬('.' ∈ defaultNamespace.toList ∨ ':' ∈ defaultNamespace.toList) := by decide
    by_cases hparent : rest = ".."
    · by_cases hdot : registry = "." <;> simp [hparent, hdot] at hsplit
    · by_cases hdot : registry = "."
      · simp only [hparent, hdot, if_true, if_false, nil_append] at hsplit
        exact absurd ((List.cons.inj hsplit).1 ▸ hhost) hnone
      · simp [hparent, hdot] at hsplit

/-- A repository that is called as the name was before: the name has come through, or it is lost but
for two dots, which are put into the default namespace again. -/
theorem rest_of_repository_eq
    (hnew : newRepository isAuthority (pathJoin registry name) = some repo)
    (hrepository : repo.repository = name) :
    (splitRegistry (pathJoin registry name)).2 = name ∨
      registry = ".." ∧ name = defaultNamespace ++ "/" ++ ".." := by
  unfold newRepository at hnew
  split at hnew
  case isFalse => cases hnew
  case isTrue hcheck =>
    obtain ⟨host, -, rfl⟩ := map_eq_some_iff.mp hnew
    generalize hrest : (splitRegistry (pathJoin registry name)).2 = rest at *
    by_cases hhub : host = defaultRegistry ∧ '/' ∉ rest.toList
    case neg =>
      left
      rw [← hrepository]
      exact (if_neg hhub).symm
    case pos =>
      obtain rfl : defaultNamespace ++ "/" ++ rest = name := by
        rw [← hrepository]
        exact (if_pos hhub).symm
      have hreal : isReal rest = true := isReal_of_checkRepository hcheck
      obtain ⟨hregistry, hparent⟩ := parent_of_rest hne hslash hhub.2 hreal hrest
      exact .inr ⟨hregistry, by rw [hparent]⟩

omit hne hslash in
/-- On Docker Hub, a repository that is called as the name with the default namespace in front. -/
theorem rest_of_default
    (hnew : newRepository isAuthority (pathJoin defaultRegistry name) = some repo)
    (hrepository : repo.repository = defaultNamespace ++ "/" ++ name) :
    (splitRegistry (pathJoin defaultRegistry name)).2 = name := by
  unfold newRepository at hnew
  split at hnew
  case isFalse => cases hnew
  case isTrue hcheck =>
    obtain ⟨host, -, rfl⟩ := map_eq_some_iff.mp hnew
    generalize hrest : (splitRegistry (pathJoin defaultRegistry name)).2 = rest at *
    by_cases hhub : host = defaultRegistry ∧ '/' ∉ rest.toList
    case pos =>
      have hsame : defaultNamespace ++ "/" ++ rest = defaultNamespace ++ "/" ++ name := by
        rw [← hrepository]
        exact (if_pos hhub).symm
      exact (String.append_right_inj _).mp hsame
    case neg =>
      -- the path would have an element more than what has been joined
      have hname : rest = defaultNamespace ++ "/" ++ name := by
        rw [← hrepository]
        exact (if_neg hhub).symm
      have hmore : split rest '/' = defaultNamespace :: split name '/' := by
        rw [hname, show "/" = String.singleton '/' from rfl, split_append]
        rfl
      exfalso
      rcases split_pathJoin (b := name) (show defaultRegistry ≠ "" by decide)
        (by decide) with ⟨-, hpath⟩ | hsplit
      · rw [hpath] at hrest
        rw [← hrest] at hcheck
        exact absurd hcheck (by decide)
      have hlength : (cleanElements defaultRegistry name).length ≤
          (split name '/').length + 1 := by
        rcases cleanElements_cases defaultRegistry name with heq | hle
        · rw [heq]
          exact length_filter_le _ _
        · rw [length_cons] at hle
          omega
      rcases splitRegistry_cases (pathJoin defaultRegistry name) with
        hwhole | ⟨front, back, -, hcut, hparts⟩
      · have hpath : pathJoin defaultRegistry name = rest := by
          rw [hwhole] at hrest
          exact hrest
        rw [hpath, hmore] at hsplit
        have hclean := @cleanElements_eq ⟨defaultRegistry, name⟩ (by rw [← hsplit]; rfl)
        rw [← hsplit] at hclean
        exact absurd (List.cons.inj hclean).1 (show defaultNamespace ≠ defaultRegistry by decide)
      · have hback : back = rest := by
          rw [hcut] at hrest
          exact hrest
        rw [← hsplit, hparts, hback, hmore, length_cons, length_cons] at hlength
        omega

/-- **A name comes through** iff its path is clean and the registry looks like one. -/
theorem rest_pathJoin_iff (hdot : registry ≠ ".") :
    (splitRegistry (pathJoin registry name)).2 = name ↔
      pathJoin registry name = registry ++ "/" ++ name ∧
        ('.' ∈ registry.toList ∨ ':' ∈ registry.toList) := by
  constructor
  · intro hrest
    have hreal : isReal registry = true := by simp [isReal, hne, hdot]
    rcases split_pathJoin hne hslash with ⟨hnil, hpath⟩ | hsplit
    · -- nothing is left of the path, although the registry cannot have been dropped
      rw [hpath] at hrest
      subst hrest
      have hkept : (cleanElement false [] registry).length = 1 := by
        by_cases hparent : registry = ".." <;> simp [cleanElement, hne, hdot, hparent]
      have hlength := congrArg List.length hnil
      rw [cleanElements, length_reverse] at hlength
      exact absurd (hkept.symm.trans hlength) (by decide)
    rcases splitRegistry_cases (pathJoin registry name) with
      hwhole | ⟨host, back, hhost, hcut, hparts⟩
    · have hpath : pathJoin registry name = name := by rwa [hwhole] at hrest
      rw [hpath] at hsplit
      rcases cleanElements_cases registry name with heq | hle
      · have hall : (split name '/').filter isReal = split name '/' := by
          refine filter_eq_self.mpr fun element hmem => ?_
          exact (mem_cleanElements (hsplit ▸ hmem)).2
        rw [filter_cons_of_pos hreal, hall, ← hsplit] at heq
        exact absurd (congrArg List.length heq) (by simp)
      · rw [← hsplit, length_cons] at hle
        omega
    · have hback : back = name := by rwa [hcut] at hrest
      rw [hparts, hback] at hsplit
      have hclean := @cleanElements_eq ⟨registry, name⟩ (by rw [← hsplit]; rfl)
      rw [← hsplit] at hclean
      obtain rfl : host = registry := (List.cons.inj hclean).1
      refine ⟨?_, hhost⟩
      rw [← join_split (pathJoin host name) '/', hparts, hback,
        join_cons _ _ (split_ne_nil _ _), join_split]
      rfl
  · rintro ⟨hclean, hhost⟩
    rw [hclean, splitRegistry, cut_slash hslash]
    exact congrArg Prod.snd (if_pos hhost)

end Joined

end ImageName

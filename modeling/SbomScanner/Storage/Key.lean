import SbomScanner.Storage.Object

/-!
# Storage keys

The apiserver addresses storage by slash-separated text. `RestOptionsGetter` sets the root of a
resource to `/<group>/<resource>`; below it a namespaced resource has the keys `…/<ns>` and
`…/<ns>/<name>`, a cluster-scoped one only `…/<name>`.

The store recovers namespace and name by *counting segments*, in two functions that disagree about
which counts they know. Both are translated here, over the segments of the key, and
`keyParts_render` says what they see of a key that was rendered from its segments.
-/

open Strings

namespace SbomScanner.Storage

/-! ## Rendering -/

structure Segment where
  text : String
  ne : text ≠ ""
  noSlash : '/' ∉ text.toList

/-- The resource of a kind is a segment of its keys. -/
def Kind.segment {α : Type} (k : Kind α) : Segment :=
  ⟨k.resource, k.resource_ne, k.resource_noSlash⟩

structure Key where
  group : Segment
  resource : Segment
  path : List Segment

namespace Key

/-- The segments below `/<group>/<resource>`. -/
def names (key : Key) : List String := key.path.map Segment.text

def parts (key : Key) : List String := key.group.text :: key.resource.text :: key.names

def render (key : Key) : String := String.ofList ('/' :: (join key.parts '/').toList)

end Key

/-! ## Parsing -/

def keyParts (key : String) : List String := split (trimPrefix key '/') '/'

def extractKeyNameAndNamespace (clusterScoped : Bool) (key : String) : String × String :=
  if clusterScoped then
    match keyParts key with
    | [_, _, name] => (name, "")
    | _ => ("", "")
  else
    match keyParts key with
    | [_, _, ns, name] => (name, ns)
    | _ => ("", "")

/-- `store.extractKeyNamespace`. Any shape it does not recognise gives the empty namespace, which
the repository reads as "all namespaces". -/
def extractKeyNamespace (clusterScoped : Bool) (key : String) : String :=
  if clusterScoped then ""
  else
    match keyParts key with
    | [_, _, ns] => ns
    | _ => ""

theorem Key.noSlash_of_mem_parts (key : Key) : ∀ p ∈ key.parts, '/' ∉ p.toList := by
  intro p hp
  simp only [Key.parts, Key.names, List.mem_cons, List.mem_map] at hp
  rcases hp with rfl | rfl | ⟨s, -, rfl⟩
  · exact key.group.noSlash
  · exact key.resource.noSlash
  · exact s.noSlash

theorem keyParts_render (key : Key) : keyParts key.render = key.parts := by
  unfold keyParts Key.render
  rw [trimPrefix_cons]
  exact split_join (by simp [Key.parts]) key.noSlash_of_mem_parts

theorem extractKeyNamespace_render (key : Key) :
    extractKeyNamespace false key.render =
      match key.names with
      | [ns] => ns
      | _ => "" := by
  unfold extractKeyNamespace
  rw [keyParts_render]
  unfold Key.parts
  rcases key.names with _ | ⟨a, _ | ⟨b, rest⟩⟩ <;> rfl

/-! ## What lies under a key -/

/-- The address of an object within its resource. -/
structure ObjectKey where
  ns : String
  name : String
  deriving DecidableEq

variable {α : Type}

def Object.key (o : Object α) : ObjectKey := ⟨o.metadata.ns, o.metadata.name⟩

/-- The segments an object's own key has below its resource. -/
def ObjectKey.names (clusterScoped : Bool) (key : ObjectKey) : List String :=
  if clusterScoped then [key.name] else [key.ns, key.name]

/-- The object lives under the key: the key's segments start the object's own. -/
def Key.Covers (key : Key) (clusterScoped : Bool) (o : ObjectKey) : Prop :=
  key.names <+: o.names clusterScoped

instance (key : Key) (clusterScoped : Bool) (o : ObjectKey) :
    Decidable (key.Covers clusterScoped o) :=
  inferInstanceAs (Decidable (_ <+: _))

/-- `extractKeyNameAndNamespace` finds a name only in keys of the object form, and then the one the
key has. -/
theorem names_of_extractKeyNameAndNamespace {key : Key} {clusterScoped : Bool}
    {name ns : String} (h : extractKeyNameAndNamespace clusterScoped key.render = (name, ns))
    (hname : name ≠ "") : key.names = (ObjectKey.mk ns name).names clusterScoped := by
  unfold extractKeyNameAndNamespace at h
  rw [keyParts_render] at h
  unfold Key.parts at h
  generalize key.names = names at h ⊢
  cases clusterScoped with
  | true =>
    rcases names with _ | ⟨a, _ | ⟨b, rest⟩⟩
    · cases h
      exact absurd rfl hname
    · cases h
      rfl
    · cases h
      exact absurd rfl hname
  | false =>
    rcases names with _ | ⟨a, _ | ⟨b, _ | ⟨c, rest⟩⟩⟩
    · cases h
      exact absurd rfl hname
    · cases h
      exact absurd rfl hname
    · cases h
      rfl
    · cases h
      exact absurd rfl hname

end SbomScanner.Storage

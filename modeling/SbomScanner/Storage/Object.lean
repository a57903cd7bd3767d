import SbomScanner.Lib.Sql
import SbomScanner.Lib.Strings

/-!
# API objects and the documents they are stored as

The storage layer handles `runtime.Object`s of several kinds through one code path. What it looks
at is the object's metadata; everything else is the kind's own content, which it only encodes,
decodes and (for watch events) strips.

* `Object α` — metadata plus content of type `α`.
* `Kind α` — what a store knows about its kind: the plural resource name, the scope, the JSON
  encoding of the content, the content fields that field selectors may name, and the transform
  applied before an object is published.
* `Kind.toJson` — the document `json.Marshal` writes into the `object` column.
-/

open List Strings

namespace SbomScanner.Storage

open Sql (Json)

/-! ## Metadata -/

/-- The part of `metav1.ObjectMeta` the storage layer reads or writes. Names come from admitted API
objects, so they are non-empty and, like namespaces, contain no slash. A cluster-scoped object has
the empty namespace; a version of `0` is the unset one. -/
structure ObjectMeta where
  name : String
  ns : String
  uid : String
  resourceVersion : Nat
  labels : List (String × String)
  name_ne : name ≠ ""
  name_noSlash : '/' ∉ name.toList
  ns_noSlash : '/' ∉ ns.toList
  deriving DecidableEq

structure Object (α : Type) where
  metadata : ObjectMeta
  content : α
  deriving DecidableEq

variable {α : Type}

def updateObject (o : Object α) (rv : Nat) : Object α :=
  { o with metadata := { o.metadata with resourceVersion := rv } }

/-! ## The stored document -/

/-- A string field with `omitempty`. -/
def omitEmpty (key value : String) : List (String × Json) :=
  if value = "" then [] else [(key, .str value)]

/-- `metadata.labels`, also `omitempty`: an object without labels has no such field at all. -/
def labelsJson (labels : List (String × String)) : List (String × Json) :=
  if labels = [] then [] else [("labels", .obj (labels.map fun kv => (kv.1, .str kv.2)))]

def ObjectMeta.toJson (m : ObjectMeta) : Json :=
  .obj (("name", .str m.name) :: omitEmpty "namespace" m.ns ++ omitEmpty "uid" m.uid ++
    (if m.resourceVersion = 0 then []
      else [("resourceVersion", .str (formatUint m.resourceVersion))]) ++
    labelsJson m.labels)

/-- The document of an object whose content encodes to `fields`. -/
def document (m : ObjectMeta) (fields : List (String × Json)) : Json :=
  .obj (("metadata", m.toJson) :: fields)

/-- What a store knows about the kind it serves. -/
structure Kind (α : Type) where
  /-- the plural resource name, e.g. `sboms` -/
  resource : String
  clusterScoped : Bool
  /-- the content's top-level JSON fields -/
  encode : α → List (String × Json)
  /-- the content fields `GetAttrs` reports, by their field-selector name -/
  attrs : α → List (String × String)
  /-- what is stripped before an object is published -/
  transform : α → α
  /-- stripping leaves the selectable fields alone -/
  attrs_transform : ∀ c, attrs (transform c) = attrs c
  resource_ne : resource ≠ ""
  resource_noSlash : '/' ∉ resource.toList
  /-- a reported field is the string found at its path in the document -/
  attrs_stored : ∀ (m : ObjectMeta) (c : α), ∀ fv ∈ attrs c,
    Sql.pathText (some (document m (encode c))) (split fv.1 '.') = some fv.2

/-- `json.Marshal(obj)`, the value of the `object` column. -/
def Kind.toJson (k : Kind α) (o : Object α) : Json := document o.metadata (k.encode o.content)

/-- The transform of the publishing side. It changes the content only. -/
def Kind.strip (k : Kind α) (o : Object α) : Object α := { o with content := k.transform o.content }

/-! ## Reading the document back -/

/-- Looking a key up among string-valued fields. -/
theorem lookup_map_str (labels : List (String × String)) (key : String) :
    (labels.map fun kv => (kv.1, Json.str kv.2)).lookup key = (labels.lookup key).map Json.str := by
  induction labels with
  | nil => rfl
  | cons kv rest ih =>
    obtain ⟨k, v⟩ := kv
    simp only [map_cons, lookup_cons]
    cases key == k with
    | true => rfl
    | false => exact ih

theorem lookup_omitEmpty_ne {key field value : String} (h : key ≠ field) :
    (omitEmpty field value).lookup key = none := by
  have hb : (key == field) = false := by simpa using h
  unfold omitEmpty
  split
  · rfl
  · simp [lookup_cons, hb]

theorem lookup_append_none {xs ys : List (String × Json)} {key : String}
    (h : xs.lookup key = none) : (xs ++ ys).lookup key = ys.lookup key := by
  rw [lookup_append, h, Option.none_or]

/-- **`object->'metadata'->'labels'`.** It is the label map as an object, and `NULL` when the
object has no labels. -/
theorem Kind.labels_toJson (k : Kind α) (o : Object α) :
    Sql.arrow (Sql.arrow (some (k.toJson o)) "metadata") "labels" =
      if o.metadata.labels = [] then none
      else some (.obj (o.metadata.labels.map fun kv => (kv.1, .str kv.2))) := by
  have hmeta : Sql.arrow (some (k.toJson o)) "metadata" = some o.metadata.toJson := by
    simp [Kind.toJson, document]
  rw [hmeta, ObjectMeta.toJson, Sql.arrow_obj]
  have hrv : (if o.metadata.resourceVersion = 0 then ([] : List (String × Json))
      else [("resourceVersion", .str (formatUint o.metadata.resourceVersion))]).lookup
        "labels" = none := by
    split <;> rfl
  rw [cons_append, cons_append, cons_append, lookup_cons]
  simp only [show ("labels" == "name") = false from rfl]
  rw [lookup_append_none, labelsJson]
  · split <;> rfl
  · rw [lookup_append_none, hrv]
    rw [lookup_append_none (lookup_omitEmpty_ne (by decide))]
    exact lookup_omitEmpty_ne (by decide)

end SbomScanner.Storage

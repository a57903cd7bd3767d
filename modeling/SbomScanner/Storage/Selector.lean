import SbomScanner.Storage.Object

/-!
# Kubernetes selectors and list options

The in-memory meaning of label and field selectors, as `k8s.io/apimachinery` defines it, and the
`storage.ListOptions` a list or watch request carries. This is the semantics the SQL that
`repository.list` builds has to agree with.
-/

open Strings

namespace SbomScanner.Storage

inductive Operator where
  | equals
  | doubleEquals
  | notEquals
  | in_
  | notIn
  | exists_
  | doesNotExist
  | greaterThan
  | lessThan
  deriving DecidableEq

def Operator.text : Operator → String
  | .equals => "="
  | .doubleEquals => "=="
  | .notEquals => "!="
  | .in_ => "in"
  | .notIn => "notin"
  | .exists_ => "exists"
  | .doesNotExist => "!"
  | .greaterThan => "gt"
  | .lessThan => "lt"

/-- The number of values `labels.NewRequirement` insists on. -/
def Operator.Arity (op : Operator) (values : List String) : Prop :=
  match op with
  | .equals | .doubleEquals | .notEquals | .greaterThan | .lessThan => values.length = 1
  | .in_ | .notIn => values ≠ []
  | .exists_ | .doesNotExist => values = []

/-! ## Label selectors -/

/-- A `labels.Requirement`, as `NewRequirement` admits it. -/
structure Requirement where
  key : String
  operator : Operator
  values : List String
  arity : operator.Arity values

/-- `Requirement.Matches`. A missing key satisfies `!=` and `notin`. -/
def Requirement.matches (r : Requirement) (labels : List (String × String)) : Bool :=
  match r.operator with
  | .in_ | .equals | .doubleEquals =>
    match labels.lookup r.key with
    | some v => r.values.contains v
    | none => false
  | .notIn | .notEquals =>
    match labels.lookup r.key with
    | some v => !r.values.contains v
    | none => true
  | .exists_ => (labels.lookup r.key).isSome
  | .doesNotExist => !(labels.lookup r.key).isSome
  | .greaterThan =>
    match (labels.lookup r.key).bind (parseInt · 64),
        r.values.head?.bind (parseInt · 64) with
    | some l, some v => decide (l > v)
    | _, _ => false
  | .lessThan =>
    match (labels.lookup r.key).bind (parseInt · 64),
        r.values.head?.bind (parseInt · 64) with
    | some l, some v => decide (l < v)
    | _, _ => false

/-- A `labels.Selector`: `labels.Nothing()`, or a conjunction of requirements (the empty one is
`labels.Everything()`). -/
inductive LabelSelector where
  | nothing
  | requirements (reqs : List Requirement)

def LabelSelector.matches (sel : LabelSelector) (labels : List (String × String)) : Bool :=
  match sel with
  | .nothing => false
  | .requirements reqs => reqs.all (·.matches labels)

/-! ## Field selectors -/

structure FieldRequirement where
  field : String
  operator : Operator
  value : String

/-- `hasTerm.Matches` and `notHasTerm.Matches`; a field the set does not have reads as `""`. Terms
with other operators cannot be built. -/
def FieldRequirement.matches (r : FieldRequirement) (fields : List (String × String)) : Bool :=
  match r.operator with
  | .equals | .doubleEquals => (fields.lookup r.field).getD "" == r.value
  | .notEquals => (fields.lookup r.field).getD "" != r.value
  | _ => false

inductive FieldSelector where
  | nothing
  | terms (reqs : List FieldRequirement)

def FieldSelector.matches (sel : FieldSelector) (fields : List (String × String)) : Bool :=
  match sel with
  | .nothing => false
  | .terms reqs => reqs.all (·.matches fields)

variable {α : Type}

/-- `getAttrs` and its node counterparts: the field set of an object. -/
def Kind.getAttrs (k : Kind α) (o : Object α) : List (String × String) :=
  ("metadata.name", o.metadata.name) ::
    (if k.clusterScoped then [] else [("metadata.namespace", o.metadata.ns)]) ++
    k.attrs o.content

/-! ## Predicates and list options -/

structure SelectionPredicate where
  label : Option LabelSelector := some (.requirements [])
  field : Option FieldSelector := some (.terms [])
  limit : Int := 0
  continueToken : String := ""
  allowWatchBookmarks : Bool := false

def SelectionPredicate.matches (p : SelectionPredicate) (k : Kind α) (o : Object α) : Bool :=
  p.label.all (·.matches o.metadata.labels) && p.field.all (·.matches (k.getAttrs o))

structure ListOptions where
  resourceVersion : String := ""
  sendInitialEvents : Option Bool := none
  predicate : SelectionPredicate := {}

end SbomScanner.Storage

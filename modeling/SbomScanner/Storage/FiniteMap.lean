import Mathlib.Data.Finmap
import SbomScanner.Storage.Store

/-!
# What a store is for

A finite map from namespace and name to an object, with a version counter. The replies of
`Spec.Step` are determined by the map, up to the order in which a list shows its objects. Nothing
here knows of rows, columns or the text of a key.
-/

open List

namespace SbomScanner.Storage.Store

open GuaranteedUpdate (Preconditions TryResult)

variable {α : Type}

/-! ## The map -/

structure Spec (α : Type) where
  objects : Finmap fun _ : ObjectKey => Object α
  version : Nat

/-- The answer of the first call that is not to be retried. -/
def Call.settled (call : Call α) (obj : Object α) : TryResult α :=
  call.tryUpdate (Nat.find (call.settles obj)) obj

/-- The object satisfies the label, field and version conditions of the request. -/
def Selects (k : Kind α) (opts : ListOptions) (obj : Object α) : Prop :=
  ∃ conds, optionsClause (opts.continuing "") = .ok conds ∧
    ∀ id, keeps k conds ⟨id, obj⟩ = true

namespace Spec

def create {clusterScoped : Bool} (m : Spec α) (path : ObjectPath clusterScoped)
    (obj : Object α) : Reply α × Spec α :=
  match nextResourceVersion m.version with
  | none => (.failed .internal, m)
  | some rv =>
    match m.objects.lookup path.address with
    | some _ => (.failed (.keyExists path.key.render), { m with version := rv })
    | none =>
      (.object (updateObject obj rv), ⟨m.objects.insert path.address (updateObject obj rv), rv⟩)

def guaranteedUpdate {clusterScoped : Bool} (m : Spec α) (path : ObjectPath clusterScoped)
    (call : Call α) : Reply α × Spec α :=
  match m.objects.lookup path.address with
  | none => (if call.ignoreNotFound then .zero else .failed (.keyNotFound path.key.render), m)
  | some obj =>
    if call.preconditions.check obj then
      match call.settled obj with
      | .failed e => (.failed (.tryUpdateFailed e), m)
      | .updated updatedObj =>
        match nextResourceVersion m.version with
        | none => (.failed .internal, m)
        | some rv =>
          (.object (updateObject updatedObj rv),
            ⟨m.objects.insert path.address (updateObject updatedObj rv), rv⟩)
    else (.failed (.preconditionFailed path.key.render), m)

def delete {clusterScoped : Bool} (m : Spec α) (path : ObjectPath clusterScoped)
    (preconditions : Preconditions) (validateDeletion : Object α → Option String) :
    Reply α × Spec α :=
  match m.objects.lookup path.address with
  | none => (.failed (.keyNotFound path.key.render), m)
  | some obj =>
    if preconditions.check obj then
      match validateDeletion obj with
      | some message => (.failed (.deletionInvalid message), m)
      | none => (.object obj, { m with objects := m.objects.erase path.address })
    else (.failed (.preconditionFailed path.key.render), m)

def get {clusterScoped : Bool} (m : Spec α) (path : ObjectPath clusterScoped)
    (ignoreNotFound : Bool) : Reply α :=
  match m.objects.lookup path.address with
  | some obj => .object obj
  | none => if ignoreNotFound then .zero else .failed (.keyNotFound path.key.render)

def under {clusterScoped : Bool} (m : Spec α) (path : CollectionPath clusterScoped) :
    Finset ObjectKey :=
  m.objects.keys.filter fun address => path.key.Covers clusterScoped address

/-- What a list of the map shows: selected objects under the key, each once, and all of them when
it starts at the beginning and returns no token. -/
structure Lists (k : Kind α) (m : Spec α) (path : CollectionPath k.clusterScoped)
    (opts : ListOptions) (listObj : ListResult α) : Prop where
  stored : ∀ obj ∈ listObj.items, m.objects.lookup obj.key = some obj ∧
    path.key.Covers k.clusterScoped obj.key ∧ Selects k opts obj
  distinct : (listObj.items.map Object.key).Nodup
  limited : 0 < opts.predicate.limit → listObj.items.length ≤ opts.predicate.limit
  unlimited : opts.predicate.limit ≤ 0 → listObj.continueToken = ""
  complete : opts.predicate.continueToken = "" → listObj.continueToken = "" →
    ∀ obj, m.objects.lookup obj.key = some obj → path.key.Covers k.clusterScoped obj.key →
      Selects k opts obj → obj ∈ listObj.items

/-- Whether a list is refused, and the version it gets, do not depend on the objects: they are as
for the empty store. -/
def ListStep (k : Kind α) (m : Spec α) (path : CollectionPath k.clusterScoped) (opts : ListOptions)
    (reply : Reply α) (m' : Spec α) : Prop :=
  match Storage.getList k Table.empty m.version path.key.render opts with
  | .error e => (reply, m') = (.failed (.list e), m)
  | .ok (listObj₀, version) =>
    m' = { m with version := version } ∧
      ∃ listObj, reply = .list listObj ∧
        listObj.resourceVersion = listObj₀.resourceVersion ∧ m.Lists k path opts listObj

/-- One operation on the map. -/
def Step (k : Kind α) (m : Spec α) : Operation k → Reply α → Spec α → Prop
  | .create path obj _, reply, m' => (reply, m') = m.create path obj
  | .guaranteedUpdate path call, reply, m' => (reply, m') = m.guaranteedUpdate path call
  | .delete path preconditions validateDeletion, reply, m' =>
    (reply, m') = m.delete path preconditions validateDeletion
  | .get path ignoreNotFound, reply, m' => (reply, m') = (m.get path ignoreNotFound, m)
  | .getList path opts, reply, m' => m.ListStep k path opts reply m'
  | .count path, reply, m' => (reply, m') = (.count (m.under path).card, m)

inductive Run (k : Kind α) : Spec α → List (Operation k) → List (Reply α) → Spec α → Prop where
  | nil (m : Spec α) : Run k m [] [] m
  | cons {m m₁ m₂ : Spec α} {op : Operation k} {ops : List (Operation k)} {reply : Reply α}
      {replies : List (Reply α)} (hstep : m.Step k op reply m₁) (hrun : Run k m₁ ops replies m₂) :
      Run k m (op :: ops) (reply :: replies) m₂

end Spec

/-! ## Versions -/

/-- The version that a successful write returns. -/
def writtenVersion {k : Kind α} : Operation k → Reply α → Option Nat
  | .create _ _ _, .object obj => some obj.metadata.resourceVersion
  | .guaranteedUpdate _ _, .object obj => some obj.metadata.resourceVersion
  | _, _ => none

def writtenVersions {k : Kind α} (ops : List (Operation k)) (replies : List (Reply α)) : List Nat :=
  (ops.zip replies).filterMap fun call => writtenVersion call.1 call.2

theorem seq_le_of_getList {k : Kind α} {t : Table α} {seq seq' : Nat} {key : String}
    {opts : ListOptions} {listObj : ListResult α}
    (h : Storage.getList k t seq key opts = .ok (listObj, seq')) : seq ≤ seq' := by
  unfold Storage.getList at h
  split at h
  · cases h
  · split at h
    · cases h
    · split at h
      · cases h
      · split at h
        · split at h
          · next hnext =>
            cases h
            exact (lt_of_nextResourceVersion hnext).le
          · cases h
        · cases h
          exact le_rfl

namespace Spec

variable {k : Kind α} {m m' : Spec α} {reply : Reply α}

variable {path : ObjectPath k.clusterScoped}

theorem version_create {obj : Object α} (h : (reply, m') = m.create path obj) :
    m.version ≤ m'.version ∧ ∀ o, reply = .object o →
      m.version < o.metadata.resourceVersion ∧ o.metadata.resourceVersion ≤ m'.version := by
  unfold create at h
  split at h
  · cases h
    exact ⟨le_rfl, fun o ho => by cases ho⟩
  · next rv hnext =>
    have hlt := lt_of_nextResourceVersion hnext
    split at h
    · cases h
      exact ⟨hlt.le, fun o ho => by cases ho⟩
    · cases h
      refine ⟨hlt.le, fun o ho => ?_⟩
      cases ho
      exact ⟨hlt, le_rfl⟩

theorem version_guaranteedUpdate {call : Call α} (h : (reply, m') = m.guaranteedUpdate path call) :
    m.version ≤ m'.version ∧ ∀ o, reply = .object o →
      m.version < o.metadata.resourceVersion ∧ o.metadata.resourceVersion ≤ m'.version := by
  have hsame : ∀ r : Reply α, (∀ o, r ≠ .object o) → (reply, m') = (r, m) →
      m.version ≤ m'.version ∧ ∀ o, reply = .object o →
        m.version < o.metadata.resourceVersion ∧ o.metadata.resourceVersion ≤ m'.version := by
    intro r hr heq
    cases heq
    exact ⟨le_rfl, fun o ho => absurd ho (hr o)⟩
  unfold guaranteedUpdate at h
  split at h
  · refine hsame _ (fun o => ?_) h
    split <;> simp
  · split at h
    · split at h
      · exact hsame _ (by simp) h
      · split at h
        · exact hsame _ (by simp) h
        · next rv hnext =>
          have hlt := lt_of_nextResourceVersion hnext
          cases h
          refine ⟨hlt.le, fun o ho => ?_⟩
          cases ho
          exact ⟨hlt, le_rfl⟩
    · exact hsame _ (by simp) h

theorem version_delete {preconditions : Preconditions} {validateDeletion : Object α → Option String}
    (h : (reply, m') = m.delete path preconditions validateDeletion) : m'.version = m.version := by
  unfold delete at h
  split at h
  · cases h
    rfl
  · split at h
    · split at h <;> cases h <;> rfl
    · cases h
      rfl

/-- A write returns a version above all before it. -/
theorem Step.version {op : Operation k} (h : m.Step k op reply m') :
    m.version ≤ m'.version ∧ ∀ v, writtenVersion op reply = some v →
      m.version < v ∧ v ≤ m'.version := by
  cases op with
  | create path obj agrees =>
    obtain ⟨hle, hobj⟩ := version_create h
    refine ⟨hle, fun v hv => ?_⟩
    cases reply <;> cases hv
    exact hobj _ rfl
  | guaranteedUpdate path call =>
    obtain ⟨hle, hobj⟩ := version_guaranteedUpdate h
    refine ⟨hle, fun v hv => ?_⟩
    cases reply <;> cases hv
    exact hobj _ rfl
  | delete path preconditions validateDeletion =>
    refine ⟨(version_delete h).ge, fun v hv => ?_⟩
    cases hv
  | get path ignoreNotFound | count path =>
    cases h
    exact ⟨le_rfl, fun v hv => by cases hv⟩
  | getList path opts =>
    refine ⟨?_, fun v hv => by cases hv⟩
    have hstep : m.ListStep k path opts reply m' := h
    unfold ListStep at hstep
    split at hstep
    · cases hstep
      exact le_rfl
    · next hlist =>
      rw [hstep.1]
      exact seq_le_of_getList hlist

/-- **The versions that the writes of a run return strictly increase.** -/
theorem Run.versions {ops : List (Operation k)} {replies : List (Reply α)}
    (h : Run k m ops replies m') :
    (∀ v ∈ writtenVersions ops replies, m.version < v) ∧
      (writtenVersions ops replies).Pairwise (· < ·) := by
  induction h with
  | nil m => exact ⟨fun v hv => absurd hv not_mem_nil, List.Pairwise.nil⟩
  | @cons m m₁ m₂ op ops reply replies hstep _ ih =>
    obtain ⟨habove, hpairwise⟩ := ih
    obtain ⟨hle, hwritten⟩ := hstep.version
    have hlater : ∀ v ∈ writtenVersions ops replies, m.version < v :=
      fun v hv => lt_of_le_of_lt hle (habove v hv)
    cases hv : writtenVersion op reply with
    | none =>
      have hcons : writtenVersions (op :: ops) (reply :: replies) =
          writtenVersions ops replies := filterMap_cons_none hv
      rw [hcons]
      exact ⟨hlater, hpairwise⟩
    | some v =>
      have hcons : writtenVersions (op :: ops) (reply :: replies) =
          v :: writtenVersions ops replies := filterMap_cons_some hv
      obtain ⟨hlt, hle'⟩ := hwritten v hv
      rw [hcons]
      refine ⟨?_, pairwise_cons.mpr ⟨?_, hpairwise⟩⟩
      · intro w hw
        rcases mem_cons.mp hw with rfl | hw
        · exact hlt
        · exact hlater w hw
      · intro w hw
        exact lt_of_le_of_lt hle' (habove w hw)

end Spec

end SbomScanner.Storage.Store

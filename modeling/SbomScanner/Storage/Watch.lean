import SbomScanner.Lib.Changelog
import SbomScanner.Storage.List

/-!
# Watch events

The functions of `store.go` and `watcher.go` that make up a watch, each on the table it reads:

* `watch` — `store.Watch`: the events a new watch starts with;
* `publish` — the message `natsBroadcaster.publish` sends for a committed write;
* `processMessage` — what a replica broadcasts locally for a message, with the `rehydrate` read.

`rehydrate` goes through `store.Get` and so through the text of a key; `rehydrate_eq` reduces it
to a lookup.
-/

open Strings

namespace SbomScanner.Storage

variable {α : Type}

inductive EventType where
  | added
  | modified
  | deleted
  deriving DecidableEq

/-- A `watch.Event`. The object of a bookmark is blank but for its version. -/
inductive Event (α : Type) where
  | change (type : EventType) (object : Object α)
  | bookmark (resourceVersion : Nat)
  deriving DecidableEq

def Event.key : Event α → Option ObjectKey
  | .change _ o => some o.key
  | .bookmark _ => none

/-- What a client that keeps a copy of the store makes of an event. -/
def Event.effect : Event α → Option (Object α)
  | .change .deleted _ => none
  | .change _ o => some o
  | .bookmark _ => none

/-! ## `store.Get` -/

def get (k : Kind α) (t : Table α) (key : String) : Except StoreError (Object α) :=
  let (name, ns) := extractKeyNameAndNamespace k.clusterScoped key
  if name = "" then .error (.invalidKey key)
  else
    match t.lookup ⟨ns, name⟩ with
    | some obj => .ok obj
    | none => .error (.keyNotFound key)

/-! ## `store.Watch` -/

def addedEvents (items : List (Object α)) : List (Event α) := items.map (.change .added)

/-- `store.Watch` and `store.watchList`: the prefix of a new watch, and the version sequence after
it. What follows the prefix is every event of the local broadcaster, whatever the key and the
options are. -/
def watch (k : Kind α) (t : Table α) (seq : Nat) (key : String) (opts : ListOptions) :
    Except StoreError (List (Event α) × Nat) :=
  if opts.sendInitialEvents = some true ∧ opts.predicate.allowWatchBookmarks then
    match getList k t seq key opts with
    | .ok (listObj, seq') =>
      .ok (addedEvents listObj.items ++ [.bookmark listObj.resourceVersion], seq')
    | .error e => .error e
  else if opts.resourceVersion = "" then .ok ([], seq)
  else if opts.resourceVersion = "0" then
    match get k t key with
    | .ok obj => .ok ([.change .added obj], seq)
    | .error e => .error e
  else
    match getList k t seq key opts with
    | .ok (listObj, seq') => .ok (addedEvents listObj.items, seq')
    | .error e => .error e

/-! ## Publishing and processing -/

/-- The `event` payload on the wire. -/
structure Message (α : Type) where
  eventType : EventType
  object : Object α
  deriving DecidableEq

def Message.key (m : Message α) : Option ObjectKey := some m.object.key

def publish (k : Kind α) (eventType : EventType) (obj : Object α) : Message α :=
  ⟨eventType, k.strip obj⟩

def groupName : String := "storage.sbomscanner.kubewarden.io"

def rehydrateKey (k : Kind α) (o : Object α) : String :=
  if k.clusterScoped then join [groupName, k.resource, o.metadata.name] '/'
  else join [groupName, k.resource, o.metadata.ns, o.metadata.name] '/'

def rehydrate (k : Kind α) (t : Table α) (payloadObj : Object α) : Except StoreError (Object α) :=
  match get k t (rehydrateKey k payloadObj) with
  | .error (.keyNotFound _) => .ok payloadObj
  | .error e => .error e
  | .ok fetched =>
    .ok (if fetched.metadata.uid ≠ payloadObj.metadata.uid then payloadObj else fetched)

/-- `natsWatcher.processMessage`, up to the local broadcast. -/
def processMessage (k : Kind α) (t : Table α) (m : Message α) : Except StoreError (Event α) :=
  if m.eventType ≠ .deleted then
    match rehydrate k t m.object with
    | .ok obj => .ok (.change m.eventType obj)
    | .error e => .error e
  else .ok (.change m.eventType m.object)

/-! ## What `rehydrate` reads -/

/-- The apiserver admits objects of a cluster-scoped kind without a namespace only. -/
def Kind.Scoped (k : Kind α) (key : ObjectKey) : Prop := k.clusterScoped = true → key.ns = ""

instance (k : Kind α) (key : ObjectKey) : Decidable (k.Scoped key) :=
  inferInstanceAs (Decidable (_ → _))

theorem keyParts_join {parts : List String} (h : ∀ p ∈ parts, '/' ∉ p.toList) :
    keyParts (join (groupName :: parts) '/') = groupName :: parts := by
  have hgroup : '/' ∉ groupName.toList := by decide
  unfold keyParts
  rw [trimPrefix_join (by decide) hgroup, split_join (by simp)]
  intro p hp
  rcases List.mem_cons.mp hp with rfl | hp
  · exact hgroup
  · exact h p hp

theorem get_rehydrateKey (k : Kind α) (t : Table α) (o : Object α) (h : k.Scoped o.key) :
    get k t (rehydrateKey k o) =
      match t.lookup o.key with
      | some obj => .ok obj
      | none => .error (.keyNotFound (rehydrateKey k o)) := by
  have hextract : extractKeyNameAndNamespace k.clusterScoped (rehydrateKey k o) =
      (o.metadata.name, o.metadata.ns) := by
    unfold extractKeyNameAndNamespace rehydrateKey
    cases hk : k.clusterScoped with
    | true =>
      simp only [if_true]
      rw [keyParts_join (by simp [k.resource_noSlash, o.metadata.name_noSlash])]
      have : o.metadata.ns = "" := h hk
      rw [this]
    | false =>
      simp only [Bool.false_eq_true, if_false]
      rw [keyParts_join
        (by simp [k.resource_noSlash, o.metadata.name_noSlash, o.metadata.ns_noSlash])]
  unfold get
  rw [hextract]
  simp only [o.metadata.name_ne, if_false]
  rfl

/-- **`rehydrate` as a lookup.** The stored object when it has the payload's uid, else the
payload. -/
theorem rehydrate_eq (k : Kind α) (t : Table α) (o : Object α) (h : k.Scoped o.key) :
    rehydrate k t o =
      .ok (match t.lookup o.key with
        | some obj => if obj.metadata.uid ≠ o.metadata.uid then o else obj
        | none => o) := by
  unfold rehydrate
  rw [get_rehydrateKey k t o h]
  cases t.lookup o.key with
  | some obj => rfl
  | none => rfl

end SbomScanner.Storage

import SbomScanner.Lib.Transition
import SbomScanner.Storage.Watch

/-!
# Storage replicas and the event stream

Several storage replicas serve one database. A write commits in the database first and is announced
on NATS afterwards, by the replica that made it; every replica receives every message in
publication order and rebroadcasts it to its local watchers, reading the current row once more on
the way.

The state keeps the steps apart that the code keeps apart:

* `drawn` — versions taken from the sequence by writes that have not committed;
* `unpublished` — committed writes whose announcement is still to come, in commit order; any of
  them may be published next, since they belong to different goroutines and replicas;
* `inbox`, `handling` — a replica's messages, and the event it has rehydrated but not broadcast;
* `log` — everything a replica has broadcast; a local watcher receives the part after the moment it
  subscribed, behind its own initial events;
* `sessions` — clients: a plain watch, or a list followed by a watch from the list's version.

`GuaranteedUpdate` writes whatever its callback made of some earlier read, so an update may store
any object at an existing key. What replicas and clients can rely on is proved in the modules that
follow; this one ends with the inversion of a step, which they share.
-/

namespace SbomScanner.Storage.Replication

open List Function Option

variable {α : Type}

/-! ## State -/

structure Replica (α : Type) where
  inbox : List (Message α)
  handling : Option (Event α)
  log : List (Event α)

/-- A watch that has read its initial events. -/
structure WatchCall (α : Type) where
  replica : Nat
  key : Key
  opts : ListOptions
  /-- the list the client starts from, when it took one -/
  items : Option (List (Object α))
  initial : List (Event α)

inductive Session (α : Type) where
  | idle
  | listed (key : Key) (items : List (Object α))
  | stamped (key : Key) (items : List (Object α)) (rv : Nat)
  | opening (w : WatchCall α)
  | watching (w : WatchCall α) (start : Nat)

structure State (α : Type) where
  table : Table α
  seq : Nat
  drawn : List Nat
  unpublished : List (Message α)
  replicas : Nat → Replica α
  sessions : Nat → Session α

def init (t : Table α) (seq : Nat) : State α :=
  { table := t
    seq := seq
    drawn := []
    unpublished := []
    replicas := fun _ => ⟨[], none, []⟩
    sessions := fun _ => .idle }

/-! ## Steps -/

inductive Write (α : Type) where
  | create (o : Object α)
  | update (o : Object α)
  | delete (key : ObjectKey)

inductive Action (α : Type) where
  /-- a write draws its version -/
  | nextval
  | commit (w : Write α)
  | publish (i : Nat)
  /-- publishing fails; the store logs the error and goes on -/
  | publishFailed (i : Nat)
  /-- a replica takes its next message and rehydrates it -/
  | handle (r : Nat)
  /-- the rehydrate read fails; the watcher logs the error and drops the message -/
  | handleFailed (r : Nat)
  | broadcast (r : Nat)
  /-- the `SELECT` of a `GetList` without resource version -/
  | listSelect (c : Nat) (key : Key)
  /-- the `nextval` of that `GetList` -/
  | listVersion (c : Nat)
  /-- the read of a `Watch` on replica `r` -/
  | watchRead (c r : Nat) (key : Key) (opts : ListOptions)
  /-- the read of a `Watch` from the version of the list taken before -/
  | watchFromList (c r : Nat)
  | subscribe (c : Nat)

/-- The object a write is about, as the store sees it when it commits. -/
def Write.object (t : Table α) : Write α → Option (Object α)
  | .create o => some o
  | .update o => some o
  | .delete key => t.lookup key

def commitWrite (k : Kind α) (s : State α) : Write α → Option (State α)
  | .create o =>
    if o.metadata.resourceVersion ∈ s.drawn ∧ k.Scoped o.key then
      (s.table.insert o).map fun t =>
        { s with
          table := t
          drawn := s.drawn.erase o.metadata.resourceVersion
          unpublished := s.unpublished ++ [publish k .added o] }
    else none
  | .update o =>
    if o.metadata.resourceVersion ∈ s.drawn ∧ k.Scoped o.key then
      (s.table.update o).map fun t =>
        { s with
          table := t
          drawn := s.drawn.erase o.metadata.resourceVersion
          unpublished := s.unpublished ++ [publish k .modified o] }
    else none
  | .delete key =>
    if k.Scoped key then
      (s.table.delete key).map fun (o, t) =>
        { s with
          table := t
          unpublished := s.unpublished ++ [publish k .deleted o] }
    else none

def State.setReplica (s : State α) (r : Nat) (rep : Replica α) : State α :=
  { s with replicas := update s.replicas r rep }

def State.setSession (s : State α) (c : Nat) (session : Session α) : State α :=
  { s with sessions := update s.sessions c session }

/-- The options of a watch from version `rv`. -/
def fromVersion (rv : Nat) : ListOptions := { resourceVersion := Strings.formatUint rv }

def step (k : Kind α) (s : State α) : Action α → Option (State α)
  | .nextval =>
    (nextResourceVersion s.seq).map fun rv => { s with seq := rv, drawn := rv :: s.drawn }
  | .commit w => commitWrite k s w
  | .publish i =>
    (s.unpublished[i]?).map fun m =>
      { s with
        unpublished := s.unpublished.eraseIdx i
        replicas := fun r => { s.replicas r with inbox := (s.replicas r).inbox ++ [m] } }
  | .publishFailed i =>
    (s.unpublished[i]?).map fun _ => { s with unpublished := s.unpublished.eraseIdx i }
  | .handle r =>
    match (s.replicas r).handling, (s.replicas r).inbox with
    | none, m :: rest =>
      match processMessage k s.table m with
      | .ok e => some (s.setReplica r { s.replicas r with inbox := rest, handling := some e })
      | .error _ => none
    | _, _ => none
  | .handleFailed r =>
    match (s.replicas r).handling, (s.replicas r).inbox with
    | none, _ :: rest => some (s.setReplica r { s.replicas r with inbox := rest })
    | _, _ => none
  | .broadcast r =>
    match (s.replicas r).handling with
    | some e =>
      some (s.setReplica r { s.replicas r with handling := none, log := (s.replicas r).log ++ [e] })
    | none => none
  | .listSelect c key =>
    match s.sessions c with
    | .idle =>
      match list k s.table (extractKeyNamespace k.clusterScoped key.render) {} with
      | .ok (items, _) => some (s.setSession c (.listed key items))
      | .error _ => none
    | _ => none
  | .listVersion c =>
    match s.sessions c with
    | .listed key items =>
      (nextResourceVersion s.seq).map fun rv =>
        { s.setSession c (.stamped key items rv) with seq := rv }
    | _ => none
  | .watchRead c r key opts =>
    match s.sessions c with
    | .idle =>
      match watch k s.table s.seq key.render opts with
      | .ok (initial, seq) =>
        some { s.setSession c (.opening ⟨r, key, opts, none, initial⟩) with seq := seq }
      | .error _ => none
    | _ => none
  | .watchFromList c r =>
    match s.sessions c with
    | .stamped key items rv =>
      match watch k s.table s.seq key.render (fromVersion rv) with
      | .ok (initial, seq) =>
        some { s.setSession c (.opening ⟨r, key, fromVersion rv, some items, initial⟩) with
          seq := seq }
      | .error _ => none
    | _ => none
  | .subscribe c =>
    match s.sessions c with
    | .opening w => some (s.setSession c (.watching w (s.replicas w.replica).log.length))
    | _ => none

/-! ## What a step does to the stream

Every invariant below is about the table, the unpublished messages and the replicas. This is the
one place where the step function is taken apart for them. -/

/-- The steps of clients and the draws of writers leave the stream alone. -/
def Action.quiet : Action α → Prop
  | .nextval | .listSelect _ _ | .listVersion _ | .watchRead _ _ _ _ | .watchFromList _ _
  | .subscribe _ => True
  | _ => False

inductive StreamStep (k : Kind α) (s s' : State α) : Action α → Prop where
  | quiet {a : Action α} (ha : a.quiet) (htable : s'.table = s.table)
      (hunpublished : s'.unpublished = s.unpublished) (hreplicas : s'.replicas = s.replicas) :
      StreamStep k s s' a
  | commit {w : Write α} (type : EventType) {o : Object α} (hobject : w.object s.table = some o)
      (hscoped : k.Scoped o.key)
      (hlookup : s'.table.lookup =
        update s.table.lookup o.key (if type = .deleted then none else some o))
      (hunpublished : s'.unpublished = s.unpublished ++ [publish k type o])
      (hreplicas : s'.replicas = s.replicas) : StreamStep k s s' (.commit w)
  | publish {i : Nat} {m : Message α} (hm : s.unpublished[i]? = some m)
      (htable : s'.table = s.table) (hunpublished : s'.unpublished = s.unpublished.eraseIdx i)
      (hreplicas : ∀ r, s'.replicas r =
        { s.replicas r with inbox := (s.replicas r).inbox ++ [m] }) : StreamStep k s s' (.publish i)
  | publishFailed {i : Nat} (htable : s'.table = s.table)
      (hunpublished : s'.unpublished = s.unpublished.eraseIdx i)
      (hreplicas : s'.replicas = s.replicas) : StreamStep k s s' (.publishFailed i)
  | handle {r : Nat} {m : Message α} {rest : List (Message α)} {e : Event α}
      (hidle : (s.replicas r).handling = none) (hinbox : (s.replicas r).inbox = m :: rest)
      (he : processMessage k s.table m = .ok e) (htable : s'.table = s.table)
      (hunpublished : s'.unpublished = s.unpublished)
      (hreplicas : s'.replicas = update s.replicas r
        { s.replicas r with inbox := rest, handling := some e }) : StreamStep k s s' (.handle r)
  | handleFailed {r : Nat} {m : Message α} {rest : List (Message α)}
      (hinbox : (s.replicas r).inbox = m :: rest) (htable : s'.table = s.table)
      (hunpublished : s'.unpublished = s.unpublished)
      (hreplicas : s'.replicas = update s.replicas r
        { s.replicas r with inbox := rest }) : StreamStep k s s' (.handleFailed r)
  | broadcast {r : Nat} {e : Event α} (hhandling : (s.replicas r).handling = some e)
      (htable : s'.table = s.table) (hunpublished : s'.unpublished = s.unpublished)
      (hreplicas : s'.replicas = update s.replicas r
        { s.replicas r with handling := none, log := (s.replicas r).log ++ [e] }) :
      StreamStep k s s' (.broadcast r)

variable {k : Kind α} {s s' : State α}

theorem commitWrite_stream {w : Write α} (h : commitWrite k s w = some s') :
    StreamStep k s s' (.commit w) ∧ s'.sessions = s.sessions := by
  cases w with
  | create o =>
    simp only [commitWrite] at h
    split at h
    · next hguard =>
      obtain ⟨t, ht, rfl⟩ := map_eq_some_iff.mp h
      obtain ⟨-, hlookup⟩ := Table.lookup_insert ht
      exact ⟨.commit .added rfl hguard.2 hlookup rfl rfl, rfl⟩
    · cases h
  | update o =>
    simp only [commitWrite] at h
    split at h
    · next hguard =>
      obtain ⟨t, ht, rfl⟩ := map_eq_some_iff.mp h
      obtain ⟨-, hlookup⟩ := Table.lookup_update ht
      exact ⟨.commit .modified rfl hguard.2 hlookup rfl rfl, rfl⟩
    · cases h
  | delete key =>
    simp only [commitWrite] at h
    split at h
    · next hguard =>
      obtain ⟨⟨o, t⟩, ht, rfl⟩ := map_eq_some_iff.mp h
      obtain ⟨hold, hlookup⟩ := Table.lookup_delete ht
      have hkey := s.table.key_of_lookup hold
      subst hkey
      exact ⟨.commit .deleted hold hguard hlookup rfl rfl, rfl⟩
    · cases h

variable {a : Action α}

theorem step_stream (h : step k s a = some s') : StreamStep k s s' a := by
  cases a with
  | nextval =>
    obtain ⟨rv, -, rfl⟩ := map_eq_some_iff.mp h
    exact .quiet trivial rfl rfl rfl
  | commit w => exact (commitWrite_stream h).1
  | publish i =>
    obtain ⟨m, hm, rfl⟩ := map_eq_some_iff.mp h
    exact .publish hm rfl rfl fun _ => rfl
  | publishFailed i =>
    obtain ⟨m, -, rfl⟩ := map_eq_some_iff.mp h
    exact .publishFailed rfl rfl rfl
  | handle r =>
    simp only [step] at h
    split at h
    · next m rest hidle hinbox =>
      split at h
      · next e he =>
        cases h
        exact .handle hidle hinbox he rfl rfl rfl
      · cases h
    · cases h
  | handleFailed r =>
    simp only [step] at h
    split at h
    · next m rest hidle hinbox =>
      cases h
      exact .handleFailed hinbox rfl rfl rfl
    · cases h
  | broadcast r =>
    simp only [step] at h
    split at h
    · next e he =>
      cases h
      exact .broadcast he rfl rfl rfl
    · cases h
  | listSelect c key | watchRead c r key opts | watchFromList c r =>
    simp only [step] at h
    split at h
    · split at h
      · cases h
        exact .quiet trivial rfl rfl rfl
      · cases h
    · cases h
  | listVersion c =>
    simp only [step] at h
    split at h
    · obtain ⟨rv, -, rfl⟩ := map_eq_some_iff.mp h
      exact .quiet trivial rfl rfl rfl
    · cases h
  | subscribe c =>
    simp only [step] at h
    split at h
    · cases h
      exact .quiet trivial rfl rfl rfl
    · cases h

/-- The messages a replica has not taken up yet. -/
def State.pending (s : State α) (r : Nat) : List (Message α) :=
  (s.replicas r).inbox ++ s.unpublished

/-! The same, seen from one pending message, one event in the making and one log. -/

section

variable (hs : StreamStep k s s' a)
include hs

/-- A pending message was pending before, or announces the write that has just committed; then the
object it announces is what its key holds, if anything. -/
theorem mem_pending_cases {r : Nat} {m : Message α} (hm : m ∈ s'.pending r) :
    m ∈ s.pending r ∨
      ∃ w type o, a = .commit w ∧ w.object s.table = some o ∧ k.Scoped o.key ∧
        m = publish k type o ∧ ∀ o', s'.table.lookup o.key = some o' → o' = o := by
  unfold State.pending at hm ⊢
  cases hs with
  | quiet _ _ hunpublished hreplicas =>
    rw [hunpublished, hreplicas] at hm
    exact .inl hm
  | @commit w type o hobject hscoped hlookup hunpublished hreplicas =>
    rw [hunpublished, hreplicas, ← append_assoc] at hm
    rcases mem_append.mp hm with hm | hm
    · exact .inl hm
    · right
      refine ⟨w, type, o, rfl, hobject, hscoped, mem_singleton.mp hm, ?_⟩
      intro o' ho'
      rw [hlookup, update_self] at ho'
      split at ho'
      · cases ho'
      · exact (Option.some.inj ho').symm
  | @publish i m' hm' _ hunpublished hreplicas =>
    left
    rw [hunpublished, hreplicas r] at hm
    rcases mem_append.mp hm with hm | hm
    · rcases mem_append.mp hm with hm | hm
      · exact mem_append_left _ hm
      · rw [mem_singleton.mp hm]
        exact mem_append_right _ (mem_of_getElem? hm')
    · exact mem_append_right _ (mem_of_mem_eraseIdx hm)
  | publishFailed _ hunpublished hreplicas =>
    left
    rw [hunpublished, hreplicas] at hm
    rcases mem_append.mp hm with hm | hm
    · exact mem_append_left _ hm
    · exact mem_append_right _ (mem_of_mem_eraseIdx hm)
  | @handle r' m' rest _ _ hinbox _ _ hunpublished hreplicas
  | @handleFailed r' m' rest hinbox _ hunpublished hreplicas =>
    left
    rw [hunpublished, hreplicas] at hm
    by_cases hr : r = r'
    · subst hr
      rw [update_self] at hm
      rw [hinbox]
      exact mem_cons_of_mem _ hm
    · rw [update_of_ne hr] at hm
      exact hm
  | @broadcast r' _ _ _ hunpublished hreplicas =>
    left
    rw [hunpublished, hreplicas] at hm
    by_cases hr : r = r'
    · subst hr
      rw [update_self] at hm
      exact hm
    · rw [update_of_ne hr] at hm
      exact hm

/-- A stored object was stored before, or has just been committed. -/
theorem lookup_cases {key : ObjectKey} {o : Object α} (h : s'.table.lookup key = some o) :
    s.table.lookup key = some o ∨ ∃ w, a = .commit w ∧ w.object s.table = some o := by
  cases hs with
  | @commit w type o' hobject _ hlookup _ _ =>
    rw [hlookup] at h
    by_cases hk : key = o'.key
    · subst hk
      rw [update_self] at h
      split at h
      · cases h
      · cases h
        exact .inr ⟨w, rfl, hobject⟩
    · rw [update_of_ne hk] at h
      exact .inl h
  | quiet _ htable _ _ | publish _ htable _ _ | publishFailed htable _ _
  | handle _ _ _ htable _ _ | handleFailed _ htable _ _ | broadcast _ htable _ _ =>
    rw [htable] at h
    exact .inl h

/-- An event in the making was so before, or comes from a message that was pending. -/
theorem handling_cases {r : Nat} {e : Event α} (h : (s'.replicas r).handling = some e) :
    (s.replicas r).handling = some e ∨ ∃ m ∈ s.pending r, processMessage k s.table m = .ok e := by
  cases hs with
  | quiet _ _ _ hreplicas | commit _ _ _ _ _ hreplicas | publishFailed _ _ hreplicas
  | publish _ _ _ hreplicas =>
    rw [hreplicas] at h
    exact .inl h
  | @handle r' m rest e' _ hinbox he _ _ hreplicas =>
    rw [hreplicas] at h
    by_cases hr : r = r'
    · subst hr
      rw [update_self] at h
      cases h
      refine .inr ⟨m, ?_, he⟩
      unfold State.pending
      rw [hinbox]
      exact mem_cons_self
    · rw [update_of_ne hr] at h
      exact .inl h
  | @handleFailed r' _ _ _ _ _ hreplicas =>
    rw [hreplicas] at h
    by_cases hr : r = r'
    · subst hr
      rw [update_self] at h
      exact .inl h
    · rw [update_of_ne hr] at h
      exact .inl h
  | @broadcast r' _ _ _ _ hreplicas =>
    rw [hreplicas] at h
    by_cases hr : r = r'
    · subst hr
      rw [update_self] at h
      cases h
    · rw [update_of_ne hr] at h
      exact .inl h

theorem log_append (r : Nat) :
    (s'.replicas r).log = (s.replicas r).log ∨
      ∃ e, (s.replicas r).handling = some e ∧ (s'.replicas r).log = (s.replicas r).log ++ [e] := by
  cases hs with
  | quiet _ _ _ hreplicas | commit _ _ _ _ _ hreplicas | publish _ _ _ hreplicas
  | publishFailed _ _ hreplicas => exact .inl (by rw [hreplicas])
  | @handle r' _ _ _ _ _ _ _ _ hreplicas | @handleFailed r' _ _ _ _ _ hreplicas =>
    left
    rw [hreplicas]
    by_cases hr : r = r'
    · subst hr
      rw [update_self]
    · rw [update_of_ne hr]
  | @broadcast r' e hhandling _ _ hreplicas =>
    by_cases hr : r = r'
    · subst hr
      right
      exact ⟨e, hhandling, by rw [hreplicas, update_self]⟩
    · left
      rw [hreplicas, update_of_ne hr]

end

/-! ## What a step does to the clients -/

/-- The session has no watch yet. -/
def Session.Early : Session α → Prop
  | .opening _ | .watching _ _ => False
  | .idle | .listed _ _ | .stamped _ _ _ => True

/-- The action reads the initial events of a watch for session `c`. -/
def Action.Reads (s : State α) (c : Nat) (key : Key) (opts : ListOptions) (a : Action α) : Prop :=
  (∃ r, a = .watchRead c r key opts) ∨
    ∃ r items rv, a = .watchFromList c r ∧ s.sessions c = .stamped key items rv ∧
      opts = fromVersion rv

inductive SessionMove (k : Kind α) (s : State α) : Action α → Nat → Session α → Prop where
  | early {a : Action α} {c : Nat} {session : Session α} (h : session.Early) :
      SessionMove k s a c session
  | read {a : Action α} {c seq : Nat} {w : WatchCall α} (ha : a.Reads s c w.key w.opts)
      (hread : watch k s.table s.seq w.key.render w.opts = .ok (w.initial, seq)) :
      SessionMove k s a c (.opening w)
  | subscribe {c : Nat} {w : WatchCall α} (h : s.sessions c = .opening w) :
      SessionMove k s (.subscribe c) c (.watching w (s.replicas w.replica).log.length)

theorem step_sessions (h : step k s a = some s') :
    s'.sessions = s.sessions ∨
      ∃ c session, s'.sessions = update s.sessions c session ∧ SessionMove k s a c session := by
  cases a with
  | nextval =>
    obtain ⟨rv, -, rfl⟩ := map_eq_some_iff.mp h
    exact .inl rfl
  | commit w => exact .inl (commitWrite_stream h).2
  | publish i | publishFailed i =>
    obtain ⟨m, -, rfl⟩ := map_eq_some_iff.mp h
    exact .inl rfl
  | handle r =>
    simp only [step] at h
    split at h
    · split at h
      · cases h
        exact .inl rfl
      · cases h
    · cases h
  | handleFailed r | broadcast r =>
    simp only [step] at h
    split at h
    · cases h
      exact .inl rfl
    · cases h
  | listSelect c key =>
    simp only [step] at h
    split at h
    · split at h
      · cases h
        exact .inr ⟨c, _, rfl, .early trivial⟩
      · cases h
    · cases h
  | listVersion c =>
    simp only [step] at h
    split at h
    · obtain ⟨rv, -, rfl⟩ := map_eq_some_iff.mp h
      exact .inr ⟨c, _, rfl, .early trivial⟩
    · cases h
  | watchRead c r key opts =>
    simp only [step] at h
    split at h
    · split at h
      · next initial seq hread =>
        cases h
        exact .inr ⟨c, _, rfl, .read (.inl ⟨r, rfl⟩) hread⟩
      · cases h
    · cases h
  | watchFromList c r =>
    simp only [step] at h
    split at h
    · next key items rv hsession =>
      split at h
      · next initial seq hread =>
        cases h
        exact .inr ⟨c, _, rfl, .read (.inr ⟨r, items, rv, rfl, hsession, rfl⟩) hread⟩
      · cases h
    · cases h
  | subscribe c =>
    simp only [step] at h
    split at h
    · next w hsession =>
      cases h
      exact .inr ⟨c, _, rfl, .subscribe hsession⟩
    · cases h

/-- A session that is watching after a step either was before it, or has just subscribed. -/
theorem watching_cases (h : step k s a = some s') {c start : Nat} {w : WatchCall α}
    (hw : s'.sessions c = .watching w start) :
    s.sessions c = .watching w start ∨
      (a = .subscribe c ∧ s.sessions c = .opening w ∧
        start = (s.replicas w.replica).log.length) := by
  rcases step_sessions h with hsame | ⟨c', session, hupdate, hmove⟩
  · rw [hsame] at hw
    exact .inl hw
  · by_cases hc : c = c'
    · subst hc
      rw [hupdate, update_self] at hw
      subst hw
      cases hmove with
      | early hearly => exact hearly.elim
      | subscribe hopen => exact .inr ⟨rfl, hopen, rfl⟩
    · rw [hupdate, update_of_ne hc] at hw
      exact .inl hw

end SbomScanner.Storage.Replication

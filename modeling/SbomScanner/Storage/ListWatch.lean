import SbomScanner.Storage.Convergence

/-!
# List, then watch

A client reads a list and opens a watch from the version the list was stamped with. The comment in
`GetList` promises that "any subsequent watch from this RV won't miss events". The watch starts
with the rows whose version is at least that of the list and continues with what the replica
broadcasts from the moment of subscription on; four separate steps, between which writes commit and
events are broadcast.

An event broadcast before the subscription is gone. The promise holds exactly as far as the initial
events make up for it: `CaughtUp` asks that at the moment of subscription every key under the list's
key either shows its stored state in the list overlaid with the initial events, or still has an
undelivered message. Then replaying the watch over the list yields the store
(`replay_eq_store`).
-/

namespace SbomScanner.Storage.Replication

open Transition

open Changelog (last replay)

variable {α : Type}

def listView (items : List (Object α)) (key : ObjectKey) : Option (Object α) :=
  items.find? fun o => o.key == key

/-- The client's copy after the initial events of its watch. -/
def startView (items : List (Object α)) (w : WatchCall α) : ObjectKey → Option (Object α) :=
  replay Event.key Event.effect (listView items) w.initial

/-- At the moment a client subscribes, what it has missed is still to come. -/
def CaughtUp (k : Kind α) (s : State α) (c : Nat) : Prop :=
  ∀ w items, s.sessions c = .opening w → w.items = some items →
    ∀ key, w.key.Covers k.clusterScoped key →
      last Message.key key (s.pending w.replica) = none →
      (∀ e, (s.replicas w.replica).handling = some e → e.key ≠ some key) →
      startView items w key = s.table.lookup key

def NothingMissed (k : Kind α) (s : State α) (a : Action α) : Prop :=
  CommitOrder s a ∧
    match a with
    | .subscribe c => CaughtUp k s c
    | _ => True

structure ClientInv (k : Kind α) (s : State α) : Prop where
  tracks : ∀ r, Tracks k s r
  watching : ∀ c w start items, s.sessions c = .watching w start → w.items = some items →
    start ≤ (s.replicas w.replica).log.length ∧
    Settled s w.replica (startView items w) start (w.key.Covers k.clusterScoped)

theorem log_length_le {k : Kind α} {s s' : State α} {a : Action α} (hs : StreamStep k s s' a)
    (r : Nat) : (s.replicas r).log.length ≤ (s'.replicas r).log.length := by
  rcases log_append hs r with hlog | ⟨e, -, hlog⟩
  · rw [hlog]
  · rw [hlog, List.length_append]
    omega

theorem clientInv_step {k : Kind α} (s : State α) (a : Action α) (s' : State α)
    (h : ClientInv k s) (hG : NothingMissed k s a) (hs : step k s a = some s') :
    ClientInv k s' := by
  have hstream := step_stream hs
  refine ⟨fun r => tracks_step (h.tracks r) hG.1 hstream, ?_⟩
  intro c w start items hw hitems
  rcases watching_cases hs hw with hold | ⟨rfl, hopen, rfl⟩
  · obtain ⟨hle, hsettled⟩ := h.watching c w start items hold hitems
    refine ⟨le_trans hle (log_length_le hstream w.replica), ?_⟩
    exact settled_step (h.tracks w.replica) hsettled hle hG.1 hstream
  · -- subscribing: the client's copy is what the guard compares with the store
    have hinit : Settled s w.replica (startView items w) (s.replicas w.replica).log.length
        (w.key.Covers k.clusterScoped) := by
      intro key hcovers hnone hidle
      rw [List.drop_length]
      exact hG.2 w items hopen hitems key hcovers hnone hidle
    refine ⟨log_length_le hstream w.replica, ?_⟩
    exact settled_step (h.tracks w.replica) hinit (le_refl _) hG.1 hstream

theorem clientInv_init (k : Kind α) (t : Table α) (seq : Nat) : ClientInv k (init t seq) where
  tracks r := (converging_init k t seq r).tracks
  watching c w start items hw := by cases hw

def deleteBeforeSubscribe : List (Action SBOM) :=
  [.listSelect 0 (sbomKey [segmentA]), .listVersion 0, .commit (.delete ⟨"a", "x"⟩), .publish 0,
    .handle 0, .broadcast 0, .watchFromList 0 0, .subscribe 0]

def updateWithOlderVersion : List (Action SBOM) :=
  [.nextval, .listSelect 0 (sbomKey [segmentA]), .listVersion 0,
    .commit (.update (sampleAX 3 [("env", "b")])), .publish 0, .handle 0,
    .broadcast 0, .watchFromList 0 0, .subscribe 0]

/-- Everything is published and processed, and the client's copy of `a/x` is stale. -/
def Misses (as : List (Action SBOM)) (seen stored : Option (Object SBOM)) : Prop :=
  ∃ s w start items,
    exec (step (sbomKind Sql.Json.str)) (init twoTenants 2) as = some s ∧
    s.sessions 0 = .watching w start ∧ w.items = some items ∧ s.unpublished = [] ∧
    (s.replicas w.replica).inbox = [] ∧ (s.replicas w.replica).handling = none ∧
    w.key.Covers false ⟨"a", "x"⟩ ∧
    replay Event.key Event.effect (listView items)
      (w.initial ++ (s.replicas w.replica).log.drop start) ⟨"a", "x"⟩ = seen ∧
    s.table.lookup ⟨"a", "x"⟩ = stored

def createAfterSubscribe : List (Action SBOM) :=
  [.listSelect 0 (sbomKey [segmentA]), .listVersion 0, .watchFromList 0 0, .subscribe 0, .nextval,
    .commit (.create (sampleAX 2)), .publish 0, .handle 0, .broadcast 0]

theorem nothingMissed_createAfterSubscribe :
    Transition.Along (NothingMissed (sbomKind Sql.Json.str)) (step (sbomKind Sql.Json.str))
      (init .empty 0) createAfterSubscribe := by
  have hcaught : ∀ s' : State SBOM,
      (∀ w items, s'.sessions 0 = .opening w → w.items = some items →
        ∀ key, startView items w key = s'.table.lookup key) →
      CaughtUp (sbomKind Sql.Json.str) s' 0 := by
    intro s' h w items hw hitems key _ _ _
    exact h w items hw hitems key
  refine .cons ⟨trivial, trivial⟩ rfl
    (.cons ⟨trivial, trivial⟩ rfl (.cons ⟨trivial, trivial⟩ rfl ?_))
  refine .cons ⟨trivial, hcaught _ ?_⟩ rfl ?_
  · -- nothing is stored, listed or sent first
    intro w items hw hitems key
    cases hw
    cases hitems
    rfl
  · refine .cons ⟨trivial, trivial⟩ rfl (.cons ⟨trivial, trivial⟩ rfl ?_)
    refine .cons ⟨by decide, trivial⟩ rfl ?_
    exact .cons ⟨trivial, trivial⟩ rfl (.cons ⟨trivial, trivial⟩ rfl trivial)

end SbomScanner.Storage.Replication

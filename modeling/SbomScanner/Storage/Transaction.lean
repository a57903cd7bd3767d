import SbomScanner.Storage.Refinement
import SbomScanner.Storage.Watch

/-!
# The steps of a write

`Create`, `Delete` and `GuaranteedUpdate` step by step, each of which may fail: drawing a version,
opening the transaction, every statement, the commit, and what comes after it. The statements work
on the rows as the transaction sees them; others see what has been committed. Sequences are not part
of a transaction. A rollback is deferred, so it comes after everything else, and a commit that fails
has no effect.

`atomic` is what a caller can rely on: either nothing has happened, or there has been one commit and
one event about it. `answered_iff` is about the loop of `GuaranteedUpdate`, which has no end if
`tryUpdate` keeps rejecting the stored object with a conflict of its own.
-/

namespace SbomScanner.Storage.Transaction

open GuaranteedUpdate (Preconditions TryError TryResult)
open Store (StoredRow GenericObjectRepository retried)
open Procedure Option

variable {α β : Type}

/-! ## The database and the broadcaster -/

/-- The steps that can fail. Those of the loop of `GuaranteedUpdate` are numbered. -/
inductive Step where
  | nextResourceVersion (attempt : Nat)
  | updateObject (attempt : Nat)
  | begin
  | create
  | delete
  | setZeroValue (attempt : Nat)
  | get (attempt : Nat)
  | update (attempt : Nat)
  | commit
  | action
  | setValue

/-- The texts of the errors of the steps that fail. -/
abbrev Fault := Step → Option String

def noFault : Fault := fun _ => none

inductive Failure where
  | internal (message : String)
  | invalidKey (key : String)
  | keyExists (key : String)
  | keyNotFound (key : String)
  | preconditionFailed (key : String)
  | deletionInvalid (message : String)
  | tryUpdateFailed (e : TryError)
  /-- the object is committed but cannot be returned -/
  | setValue (message : String)

/-- The error says that the object has been written. -/
def Failure.committed : Failure → Bool
  | .setValue _ => true
  | _ => false

structure World (α : Type) where
  /-- what has been committed -/
  repository : GenericObjectRepository α
  /-- the rows of the open transaction -/
  tx : Option (List (StoredRow α))
  /-- the last value of the version sequence -/
  seq : Nat
  commits : Nat
  /-- the events that were published, with their objects before the transformation -/
  published : List (Event α)

abbrev Tx (α : Type) := Procedure Failure (World α)

variable (fault : Fault)

def check (step : Step) (failure : String → Failure) : Tx α PUnit :=
  match fault step with
  | some message => throw (failure message)
  | none => pure ⟨⟩

/-- `store.nextResourceVersion`; it does not go through the transaction. -/
def drawResourceVersion (attempt : Nat) : Tx α Nat := do
  check fault (.nextResourceVersion attempt) .internal
  let world ← MonadState.get
  match nextResourceVersion world.seq with
  | none => throw (.internal "nextval: reached maximum value of sequence")
  | some rv => do
    set { world with seq := rv }
    pure rv

def beginTx : Tx α PUnit := do
  check fault .begin .internal
  let world ← MonadState.get
  set { world with tx := some world.repository.rows }

/-- A statement on the rows of the transaction. -/
def statement (step : Step) (perform : GenericObjectRepository α → β × GenericObjectRepository α) :
    Tx α β := do
  check fault step .internal
  let world ← MonadState.get
  match world.tx with
  | none => throw (.internal "tx is closed")
  | some rows => do
    let (b, repository) := perform ⟨rows, world.repository.idSeq⟩
    set { world with
      tx := some repository.rows
      repository := { world.repository with idSeq := repository.idSeq } }
    pure b

def commit : Tx α PUnit := do
  let world ← MonadState.get
  match fault .commit, world.tx with
  | none, some rows =>
    set { world with
      repository := { world.repository with rows }
      tx := none
      commits := world.commits + 1 }
  | some message, _ => do
    set { world with tx := none }
    throw (.internal message)
  | none, none => throw (.internal "tx is closed")

/-- The deferred rollback; it does nothing if the transaction is closed. -/
def rollback : Tx α PUnit := do
  let world ← MonadState.get
  set { world with tx := none }

def transaction (body : Tx α β) : Tx α β := do
  beginTx fault
  let b ← tryCatch body fun failure => do
    rollback
    throw failure
  rollback
  pure b

/-- `broadcaster.Action`, whose error is only logged. -/
def action (eventType : EventType) (obj : Object α) : Tx α PUnit :=
  match fault .action with
  | some _ => pure ⟨⟩
  | none => do
    let world ← MonadState.get
    set { world with published := world.published ++ [Event.change eventType obj] }

/-! ## The calls -/

inductive Reply (α : Type) where
  | object (obj : Object α)
  /-- no error and a zero object: not found, and that was to be ignored -/
  | zero
  /-- the loop is still going round -/
  | unfinished

/-- The end of every call: the commit, the event, and the object for the caller. -/
def finish (eventType : EventType) (obj : Object α) : Tx α (Reply α) := do
  commit fault
  action fault eventType obj
  check fault .setValue .setValue
  pure (.object obj)

def create (key : String) (obj : Object α) : Tx α (Reply α) := do
  let rv ← drawResourceVersion fault 0
  check fault (.updateObject 0) .internal
  transaction fault do
    let created ← statement fault .create fun repository =>
      repository.create (updateObject obj rv)
    if created then finish fault .added (updateObject obj rv) else throw (.keyExists key)

/-- The row is deleted before the checks. -/
def delete (k : Kind α) (key : String) (preconditions : Preconditions)
    (validateDeletion : Object α → Option String) : Tx α (Reply α) :=
  let (name, ns) := extractKeyNameAndNamespace k.clusterScoped key
  if name = "" then throw (.invalidKey key)
  else
    transaction fault do
      let deleted ← statement fault .delete fun repository =>
        match repository.delete name ns with
        | some (obj, repository) => (some obj, repository)
        | none => (none, repository)
      match deleted with
      | none => throw (.keyNotFound key)
      | some obj =>
        if preconditions.check obj then
          match validateDeletion obj with
          | some message => throw (.deletionInvalid message)
          | none => finish fault .deleted obj
        else throw (.preconditionFailed key)

/-- The arguments of `GuaranteedUpdate`. The closure may answer each of its calls differently. -/
structure Update (α : Type) where
  ignoreNotFound : Bool
  preconditions : Preconditions
  tryUpdate : Nat → Object α → TryResult α

/-- Once there is an object to write. -/
def updateWith (key name ns : String) (attempt : Nat) (updatedObj : Object α) :
    Tx α (Reply α) := do
  let rv ← drawResourceVersion fault attempt
  check fault (.updateObject attempt) .internal
  let updated ← statement fault (.update attempt) fun repository =>
    match repository.update name ns (updateObject updatedObj rv) with
    | some repository => (true, repository)
    | none => (false, repository)
  if updated then finish fault .modified (updateObject updatedObj rv)
  else throw (.keyNotFound key)

/-- The loop from a given attempt on. -/
def updateLoop (key name ns : String) (update : Update α) :
    (fuel attempt : Nat) → Tx α (Reply α)
  | 0, _ => pure .unfinished
  | fuel + 1, attempt => do
    check fault (.setZeroValue attempt) .internal
    let found ← statement fault (.get attempt) fun repository =>
      (repository.get name ns, repository)
    match found with
    | none => if update.ignoreNotFound then pure .zero else throw (.keyNotFound key)
    | some obj =>
      if update.preconditions.check obj then
        match update.tryUpdate attempt obj with
        | .failed e =>
          if e.isConflict && e.optimisticLock then
            updateLoop key name ns update fuel (attempt + 1)
          else throw (.tryUpdateFailed e)
        | .updated updatedObj => updateWith fault key name ns attempt updatedObj
      else throw (.preconditionFailed key)

def guaranteedUpdate (k : Kind α) (fuel : Nat) (key : String) (update : Update α) :
    Tx α (Reply α) :=
  let (name, ns) := extractKeyNameAndNamespace k.clusterScoped key
  if name = "" then throw (.invalidKey key)
  else transaction fault (updateLoop fault key name ns update fuel 0)

inductive Operation (α : Type) where
  | create (key : String) (obj : Object α)
  | delete (key : String) (preconditions : Preconditions)
      (validateDeletion : Object α → Option String)
  | guaranteedUpdate (key : String) (update : Update α)

def perform (k : Kind α) (fuel : Nat) : Operation α → Tx α (Reply α)
  | .create key obj => create fault key obj
  | .delete key preconditions validateDeletion => delete fault k key preconditions validateDeletion
  | .guaranteedUpdate key update => guaranteedUpdate fault k fuel key update

/-! ## What the statements say to each other -/

section Statements

variable {repository repository' : GenericObjectRepository α} {obj : Object α} {name ns : String}

theorem get_create (h : repository.create obj = (true, repository')) :
    repository'.get obj.metadata.name obj.metadata.ns = some obj := by
  unfold GenericObjectRepository.create at h
  split at h
  case isTrue => cases h
  case isFalse hnone =>
    cases h
    have hbefore : repository.rows.find? (·.isAt obj.metadata.name obj.metadata.ns) = none := by
      simpa [List.find?_eq_none] using hnone
    rw [GenericObjectRepository.get, List.find?_append, hbefore, none_or]
    simp [StoredRow.isAt]

theorem get_update (h : repository.update name ns obj = some repository') :
    repository'.get name ns = some obj := by
  unfold GenericObjectRepository.update at h
  split at h
  case isFalse => cases h
  case isTrue hany =>
    cases h
    have hsame : (fun row : StoredRow α => row.isAt name ns) ∘
        (fun row : StoredRow α => if row.isAt name ns then { row with object := obj } else row) =
          fun row => row.isAt name ns := by
      funext row
      simp only [Function.comp_apply]
      split <;> rfl
    obtain ⟨row, hrow⟩ : ∃ row, repository.rows.find? (·.isAt name ns) = some row := by
      rw [← isSome_iff_exists, List.find?_isSome]
      exact List.any_eq_true.mp hany
    have hat := List.find?_some hrow
    rw [GenericObjectRepository.get, List.find?_map, hsame, hrow, map_some, map_some, if_pos hat]

theorem get_delete (h : repository.delete name ns = some (obj, repository')) :
    repository.get name ns = some obj ∧ repository'.get name ns = none := by
  obtain ⟨found, hfound, heq⟩ := map_eq_some_iff.mp h
  cases heq
  refine ⟨hfound, ?_⟩
  rw [GenericObjectRepository.get, map_eq_none_iff, List.find?_eq_none]
  intro row hrow
  simpa using (List.mem_filter.mp hrow).2

end Statements

/-! ## Nothing or all of it -/

section Atomic

variable {fault} {w w' : World α}

/-- Nothing has happened that anyone else could see. -/
structure Unchanged (w w' : World α) : Prop where
  rows : w'.repository.rows = w.repository.rows
  published : w'.published = w.published
  commits : w'.commits = w.commits

def Operation.eventType : Operation α → EventType
  | .create _ _ => .added
  | .delete _ _ _ => .deleted
  | .guaranteedUpdate _ _ => .modified

/-- The object is what the operation has written, as it is stored now; or the one it has removed, as
it was stored before. -/
def Written (k : Kind α) (op : Operation α) (w w' : World α) (obj : Object α) : Prop :=
  match op with
  | .create _ created => (∃ rv, obj = updateObject created rv) ∧
      w'.repository.get obj.metadata.name obj.metadata.ns = some obj
  | .delete key _ _ =>
    let (name, ns) := extractKeyNameAndNamespace k.clusterScoped key
    w.repository.get name ns = some obj ∧ w'.repository.get name ns = none
  | .guaranteedUpdate key update =>
    let (name, ns) := extractKeyNameAndNamespace k.clusterScoped key
    (∃ attempt stored updatedObj rv, w.repository.get name ns = some stored ∧
      update.tryUpdate attempt stored = .updated updatedObj ∧ obj = updateObject updatedObj rv) ∧
    w'.repository.get name ns = some obj

/-- How a call can end: nothing has happened, and it is not said that something has; or there was
one commit, with the event about it. -/
inductive Outcome (fault : Fault) (k : Kind α) (op : Operation α) (w : World α) :
    Except Failure (Reply α) → World α → Prop where
  | none {r : Except Failure (Reply α)} {w' : World α} (unchanged : Unchanged w w')
      (failed : ∀ e, r = .error e → e.committed = false) : Outcome fault k op w r w'
  | all {r : Except Failure (Reply α)} {w' : World α} {obj : Object α}
      (written : Written k op w w' obj) (commits : w'.commits = w.commits + 1)
      (published : w'.published = w.published ++
        if (fault .action).isNone then [.change op.eventType obj] else [])
      (returned : ∀ e, r = .error e → e.committed = true) : Outcome fault k op w r w'

/-! ### The steps -/

variable {R : Except Failure β → World α → Prop} {Q : Except Failure (Reply α) → World α → Prop}

theorem ends_check {step : Step} {failure : String → Failure}
    {Q : Except Failure PUnit → World α → Prop} :
    Ends (check fault step failure) w Q ↔
      match fault step with
      | some message => Q (.error (failure message)) w
      | none => Q (.ok ⟨⟩) w := by
  unfold check
  cases fault step <;> exact Iff.rfl

theorem ends_drawResourceVersion {attempt : Nat} {Q : Except Failure Nat → World α → Prop}
    (hfailed : ∀ message, fault (.nextResourceVersion attempt) = some message ∨
      nextResourceVersion w.seq = none → Q (.error (.internal message)) w)
    (hdrawn : ∀ rv, nextResourceVersion w.seq = some rv → Q (.ok rv) { w with seq := rv }) :
    Ends (drawResourceVersion fault attempt) w Q := by
  rw [drawResourceVersion, ends_bind, ends_check]
  cases hfault : fault (.nextResourceVersion attempt) with
  | some message => exact hfailed message (.inl hfault)
  | none =>
    rw [ends_bind, ends_get]
    simp only
    split
    case h_1 hrv => exact hfailed _ (.inr hrv)
    case h_2 rv hrv => exact hdrawn rv hrv

theorem ends_statement {step : Step}
    {perform : GenericObjectRepository α → β × GenericObjectRepository α}
    {rows : List (StoredRow α)} (htx : w.tx = some rows)
    (hfailed : ∀ message, fault step = some message → R (.error (.internal message)) w)
    (hdone : R (.ok (perform ⟨rows, w.repository.idSeq⟩).1) { w with
      tx := some (perform ⟨rows, w.repository.idSeq⟩).2.rows
      repository := { w.repository with
        idSeq := (perform ⟨rows, w.repository.idSeq⟩).2.idSeq } }) :
    Ends (statement fault step perform) w R := by
  rw [statement, ends_bind, ends_check]
  cases hfault : fault step with
  | some message => exact hfailed message hfault
  | none =>
    rw [ends_bind, ends_get]
    simp only [htx]
    exact hdone

/-- The deferred rollback comes after everything. -/
theorem ends_transaction {body : Tx α β}
    (hfailed : ∀ message, fault .begin = some message → R (.error (.internal message)) w)
    (hbody : Ends body { w with tx := some w.repository.rows }
      fun r w' => R r { w' with tx := none }) :
    Ends (transaction fault body) w R := by
  rw [transaction, ends_bind, beginTx, ends_bind, ends_check]
  cases hfault : fault .begin with
  | some message => exact hfailed message hfault
  | none =>
    show Ends (tryCatch body _ >>= _) { w with tx := some w.repository.rows } R
    rw [ends_bind, ends_tryCatch]
    refine hbody.mono fun r t h => ?_
    cases r with
    | ok b => exact h
    | error e => exact h

variable {obj : Object α} {eventType : EventType}

theorem ends_action {Q : Except Failure PUnit → World α → Prop} :
    Ends (action fault eventType obj) w Q ↔ Q (.ok ⟨⟩) { w with
      published := w.published ++
        if (fault .action).isNone then [.change eventType obj] else [] } := by
  unfold action
  cases fault .action with
  | none => exact Iff.rfl
  | some message =>
    simp

theorem ends_commit {rows : List (StoredRow α)} (htx : w.tx = some rows)
    {Q : Except Failure PUnit → World α → Prop}
    (hfailed : ∀ message, fault .commit = some message →
      Q (.error (.internal message)) { w with tx := none })
    (hdone : Q (.ok ⟨⟩) { w with
      repository := { w.repository with rows }, tx := none, commits := w.commits + 1 }) :
    Ends (commit fault) w Q := by
  rw [commit, ends_bind, ends_get]
  simp only [htx]
  cases hfault : fault .commit with
  | some message => exact hfailed message hfault
  | none => exact hdone

/-- What a call leaves that has come to its commit. -/
def World.finished (fault : Fault) (eventType : EventType) (obj : Object α)
    (rows : List (StoredRow α)) (w : World α) : World α :=
  { w with
    repository := { w.repository with rows }
    tx := none
    commits := w.commits + 1
    published := w.published ++ if (fault .action).isNone then [.change eventType obj] else [] }

def returned (fault : Fault) (obj : Object α) : Except Failure (Reply α) :=
  match fault .setValue with
  | some message => .error (.setValue message)
  | none => .ok (.object obj)

theorem committed_of_returned (e : Failure) (h : returned fault obj = .error e) :
    e.committed = true := by
  unfold returned at h
  split at h
  · cases h
    rfl
  · cases h

theorem ends_finish {rows : List (StoredRow α)} (htx : w.tx = some rows)
    (hfailed : ∀ message, fault .commit = some message →
      Q (.error (.internal message)) { w with tx := none })
    (hdone : Q (returned fault obj) (w.finished fault eventType obj rows)) :
    Ends (finish fault eventType obj) w Q := by
  rw [finish, ends_bind]
  refine ends_commit htx hfailed ?_
  rw [ends_bind, ends_action, ends_bind, ends_check]
  unfold returned at hdone
  cases hfault : fault .setValue with
  | some message | none =>
    rw [hfault] at hdone
    exact hdone

/-! ### The calls -/

variable {k : Kind α} {op : Operation α}

theorem Outcome.failed {e : Failure} (h : Unchanged w w') (he : e.committed = false) :
    Outcome fault k op w (.error e) w' :=
  .none h fun e' heq => by cases heq; exact he

theorem Outcome.internal {message : String} (h : Unchanged w w') :
    Outcome fault k op w (.error (.internal message)) w' :=
  .failed h rfl

theorem outcome_create (key : String) (obj : Object α) :
    Ends (create fault key obj) w (Outcome fault k (.create key obj) w) := by
  rw [create, ends_bind]
  refine ends_drawResourceVersion (fun _ _ => .internal ⟨rfl, rfl, rfl⟩) fun rv _ => ?_
  dsimp only
  rw [ends_bind, ends_check]
  split
  case h_1 => exact .internal ⟨rfl, rfl, rfl⟩
  case h_2 =>
    refine ends_transaction (fun _ _ => .internal ⟨rfl, rfl, rfl⟩) ?_
    rw [ends_bind]
    refine ends_statement rfl (fun _ _ => .internal ⟨rfl, rfl, rfl⟩) ?_
    dsimp only
    split
    case isFalse => exact .failed ⟨rfl, rfl, rfl⟩ rfl
    case isTrue hcreated =>
      refine ends_finish rfl (fun _ _ => .internal ⟨rfl, rfl, rfl⟩) ?_
      refine .all ⟨⟨rv, rfl⟩, ?_⟩ rfl rfl committed_of_returned
      exact get_create (Prod.ext hcreated rfl)

theorem outcome_delete (key : String) (preconditions : Preconditions)
    (validateDeletion : Object α → Option String) :
    Ends (delete fault k key preconditions validateDeletion) w
      (Outcome fault k (.delete key preconditions validateDeletion) w) := by
  rw [delete]
  split
  case h_1 name ns hkey =>
    split
    case isTrue => exact .failed ⟨rfl, rfl, rfl⟩ rfl
    case isFalse =>
      refine ends_transaction (fun _ _ => .internal ⟨rfl, rfl, rfl⟩) ?_
      rw [ends_bind]
      refine ends_statement rfl (fun _ _ => .internal ⟨rfl, rfl, rfl⟩) ?_
      cases hdeleted : GenericObjectRepository.delete
          ⟨w.repository.rows, w.repository.idSeq⟩ name ns with
      | none => exact .failed ⟨rfl, rfl, rfl⟩ rfl
      | some deleted =>
        dsimp only
        split
        case isFalse => exact .failed ⟨rfl, rfl, rfl⟩ rfl
        case isTrue =>
          split
          case h_1 => exact .failed ⟨rfl, rfl, rfl⟩ rfl
          case h_2 =>
            refine ends_finish rfl (fun _ _ => .internal ⟨rfl, rfl, rfl⟩) ?_
            refine .all ?_ rfl rfl committed_of_returned
            simp only [Written, hkey]
            exact get_delete hdeleted

section Update

variable {key name ns : String} {update : Update α} {v : World α}

/-- Until the commit of an update, its transaction is open and nobody has noticed. -/
structure Open (w v : World α) : Prop where
  tx : v.tx = some w.repository.rows
  unchanged : Unchanged w v

theorem Open.unnoticed (h : Open w v) {u : World α}
    (hrows : u.repository.rows = v.repository.rows) (hpublished : u.published = v.published)
    (hcommits : u.commits = v.commits) : Unchanged w u :=
  ⟨hrows.trans h.unchanged.rows, hpublished.trans h.unchanged.published,
    hcommits.trans h.unchanged.commits⟩

section

variable (hkey : extractKeyNameAndNamespace k.clusterScoped key = (name, ns))
include hkey

theorem outcome_updateWith {attempt : Nat} {stored updatedObj : Object α} (h : Open w v)
    (hstored : w.repository.get name ns = some stored)
    (htry : update.tryUpdate attempt stored = .updated updatedObj) :
    Ends (updateWith fault key name ns attempt updatedObj) v fun r w' =>
      Outcome fault k (.guaranteedUpdate key update) w r { w' with tx := none } := by
  rw [updateWith, ends_bind]
  refine ends_drawResourceVersion (fun _ _ => .internal (h.unnoticed rfl rfl rfl)) fun rv _ => ?_
  dsimp only
  rw [ends_bind, ends_check]
  split
  case h_1 => exact .internal (h.unnoticed rfl rfl rfl)
  case h_2 =>
    rw [ends_bind]
    refine ends_statement h.tx (fun _ _ => .internal (h.unnoticed rfl rfl rfl)) ?_
    cases hupdated : GenericObjectRepository.update
        ⟨w.repository.rows, v.repository.idSeq⟩ name ns (updateObject updatedObj rv) with
    | none => exact .failed (h.unnoticed rfl rfl rfl) rfl
    | some repository =>
      refine ends_finish rfl (fun _ _ => .internal (h.unnoticed rfl rfl rfl)) ?_
      refine .all ?_ (congrArg (· + 1) h.unchanged.commits)
        (congrArg (· ++ _) h.unchanged.published) committed_of_returned
      simp only [Written, hkey]
      exact ⟨⟨attempt, stored, updatedObj, rv, hstored, htry, rfl⟩, get_update hupdated⟩

theorem outcome_updateLoop (h : Open w v) (fuel attempt : Nat) :
    Ends (updateLoop fault key name ns update fuel attempt) v fun r w' =>
      Outcome fault k (.guaranteedUpdate key update) w r { w' with tx := none } := by
  induction fuel generalizing v attempt with
  | zero => exact .none (h.unnoticed rfl rfl rfl) fun e he => by cases he
  | succ fuel ih =>
    rw [updateLoop, ends_bind, ends_check]
    split
    case h_1 => exact .internal (h.unnoticed rfl rfl rfl)
    case h_2 =>
      rw [ends_bind]
      refine ends_statement h.tx (fun _ _ => .internal (h.unnoticed rfl rfl rfl)) ?_
      -- the transaction sees the committed rows
      have hopen : Open w { v with
          tx := some w.repository.rows
          repository := ⟨v.repository.rows, v.repository.idSeq⟩ } :=
        ⟨rfl, h.unnoticed rfl rfl rfl⟩
      cases hget : GenericObjectRepository.get
          ⟨w.repository.rows, v.repository.idSeq⟩ name ns with
      | none =>
        dsimp only
        split
        · exact .none (hopen.unnoticed rfl rfl rfl) fun e he => by cases he
        · exact .failed (hopen.unnoticed rfl rfl rfl) rfl
      | some stored =>
        dsimp only
        split
        case isFalse => exact .failed (hopen.unnoticed rfl rfl rfl) rfl
        case isTrue =>
          cases htry : update.tryUpdate attempt stored with
          | failed e =>
            dsimp only
            split
            · exact ih hopen (attempt + 1)
            · exact .failed (hopen.unnoticed rfl rfl rfl) rfl
          | updated updatedObj => exact outcome_updateWith hkey hopen hget htry

end

end Update

theorem outcome_guaranteedUpdate (fuel : Nat) (key : String) (update : Update α) :
    Ends (guaranteedUpdate fault k fuel key update) w
      (Outcome fault k (.guaranteedUpdate key update) w) := by
  rw [guaranteedUpdate]
  split
  case h_1 name ns hkey =>
    split
    case isTrue => exact .failed ⟨rfl, rfl, rfl⟩ rfl
    case isFalse =>
      refine ends_transaction (fun _ _ => .internal ⟨rfl, rfl, rfl⟩) ?_
      have hopen : Open w { w with tx := some w.repository.rows } := ⟨rfl, ⟨rfl, rfl, rfl⟩⟩
      exact outcome_updateLoop hkey hopen fuel 0

theorem outcome_perform (fault : Fault) (k : Kind α) (fuel : Nat) (op : Operation α)
    (w : World α) : Ends (perform fault k fuel op) w (Outcome fault k op w) := by
  cases op with
  | create key obj => exact outcome_create key obj
  | delete key preconditions validateDeletion =>
    exact outcome_delete key preconditions validateDeletion
  | guaranteedUpdate key update => exact outcome_guaranteedUpdate fuel key update

/-- **A write is atomic.** A call that fails with an error from before the commit has changed no row
and published nothing. A call that commits does so once, and if the broadcaster does not fail it
publishes one event: of the type of the operation, with the object that is stored now, or that was
removed. -/
theorem atomic (fault : Fault) (k : Kind α) (fuel : Nat) (op : Operation α) (w : World α)
    {r : Except Failure (Reply α)} {w' : World α}
    (h : (perform fault k fuel op).run.run w = (r, w')) :
    (∀ e, r = .error e → e.committed = false → Unchanged w w') ∧
    (w'.commits = w.commits → Unchanged w w') ∧
    (w'.commits ≠ w.commits → w'.commits = w.commits + 1 ∧ ∃ obj, Written k op w w' obj ∧
      (fault .action = none → w'.published = w.published ++ [.change op.eventType obj])) := by
  have hend : Outcome fault k op w ((perform fault k fuel op).run.run w).1
    ((perform fault k fuel op).run.run w).2 := outcome_perform fault k fuel op w
  rw [h] at hend
  cases hend with
  | none unchanged failed =>
    exact ⟨fun _ _ _ => unchanged, fun _ => unchanged, fun hne => absurd unchanged.commits hne⟩
  | @all obj written commits published returned =>
    refine ⟨fun e he hbefore => ?_, fun heq => ?_, fun _ => ⟨commits, obj, written, ?_⟩⟩
    · rw [returned e he] at hbefore
      cases hbefore
    · have hcommits : w'.commits = w.commits + 1 := commits
      omega
    · intro haction
      rw [published, haction]
      rfl

theorem rowName_ne : "x" ≠ "" := by decide

theorem rowName_noSlash : '/' ∉ "x".toList := by decide

theorem rowNs_noSlash : '/' ∉ "a".toList := by decide

def oneRow : World SBOM :=
  ⟨⟨[⟨1, "x", "a", sampleSBOM "a" "x" "u1" 2 [] "doc" rowName_ne rowName_noSlash rowNs_noSlash⟩],
    2⟩, none, 2, 0, []⟩

def rowKey : String := "/storage.sbomscanner.kubewarden.io/sboms/a/x"

theorem atomic_delete :
    ∃ w', (perform noFault (sbomKind .str) 0 (.delete rowKey {} fun _ => none)).run.run oneRow =
        (.ok (.object (sampleSBOM "a" "x" "u1" 2)), w') ∧
      w'.commits = 1 ∧
      ∃ obj, Written (sbomKind .str) (.delete rowKey {} fun _ => none) oneRow w' obj ∧
        w'.published = [.change .deleted obj] := by
  refine ⟨_, rfl, rfl, ?_⟩
  obtain ⟨-, -, hcommitted⟩ := atomic noFault (sbomKind .str) 0
    (.delete rowKey {} fun _ => none) oneRow rfl
  obtain ⟨-, obj, hwritten, hpublished⟩ := hcommitted (by decide)
  exact ⟨obj, hwritten, hpublished rfl⟩

end Atomic

/-! ## When no step fails -/

section NoFault

variable {k : Kind α} {w v : World α} {key name ns : String}

theorem not_fault {step : Step} {message : String} : noFault step ≠ some message := nofun

/-! ### The store -/

def Failure.asStore : Failure → Store.Failure
  | .internal _ | .setValue _ => .internal
  | .invalidKey key => .invalidKey key
  | .keyExists key => .keyExists key
  | .keyNotFound key => .keyNotFound key
  | .preconditionFailed key => .preconditionFailed key
  | .deletionInvalid message => .deletionInvalid message
  | .tryUpdateFailed e => .tryUpdateFailed e

/-- What a caller is told, if the call returns, and what the next one finds. -/
def asStore (r : Except Failure (Reply α)) (w : World α) : Option (Store.Reply α × Store.State α) :=
  match r with
  | .ok (.object obj) => some (.object obj, ⟨w.repository, w.seq⟩)
  | .ok .zero => some (.zero, ⟨w.repository, w.seq⟩)
  | .ok .unfinished => none
  | .error e => some (.failed e.asStore, ⟨w.repository, w.seq⟩)

theorem create_asStore (key : String) (obj : Object α) :
    Ends (create noFault key obj) w fun r w' =>
      asStore r w' = some (Store.create ⟨w.repository, w.seq⟩ key obj) := by
  rw [create, ends_bind, Store.create]
  refine ends_drawResourceVersion (fun message hfailed => ?_) fun rv hrv => ?_
  · rw [hfailed.resolve_left not_fault]
    rfl
  · rw [hrv]
    dsimp only
    rw [ends_bind, ends_check]
    refine ends_transaction (fun _ h => absurd h not_fault) ?_
    rw [ends_bind]
    refine ends_statement rfl (fun _ h => absurd h not_fault) ?_
    dsimp only
    unfold GenericObjectRepository.create
    split
    · rfl
    · exact ends_finish rfl (fun _ h => absurd h not_fault) rfl

theorem delete_asStore (key : String) (preconditions : Preconditions)
    (validateDeletion : Object α → Option String) :
    Ends (delete noFault k key preconditions validateDeletion) w fun r w' => asStore r w' =
      some (Store.delete k ⟨w.repository, w.seq⟩ key preconditions validateDeletion) := by
  rw [delete, Store.delete]
  generalize extractKeyNameAndNamespace k.clusterScoped key = extracted
  obtain ⟨name, ns⟩ := extracted
  dsimp only
  by_cases hname : name = ""
  · rw [if_pos hname, if_pos hname]
    rfl
  · rw [if_neg hname, if_neg hname]
    refine ends_transaction (fun _ h => absurd h not_fault) ?_
    rw [ends_bind]
    refine ends_statement rfl (fun _ h => absurd h not_fault) ?_
    cases hdeleted : w.repository.delete name ns with
    | none => rfl
    | some deleted =>
      obtain ⟨obj, repository⟩ := deleted
      obtain ⟨found, -, heq⟩ := map_eq_some_iff.mp hdeleted
      cases heq
      dsimp only
      split
      case isFalse => rfl
      case isTrue =>
        cases validateDeletion obj with
        | some message => rfl
        | none => exact ends_finish rfl (fun _ h => absurd h not_fault) rfl

/-- Going round leaves the rows and the sequences alone. -/
structure Around (w v : World α) : Prop where
  tx : v.tx = some w.repository.rows
  repository : v.repository = w.repository
  seq : v.seq = w.seq

variable {updatedObj : Object α}

theorem updateWith_asStore {attempt : Nat} (h : Around w v) :
    Ends (updateWith noFault key name ns attempt updatedObj) v fun r w' =>
      asStore r { w' with tx := none } =
        match nextResourceVersion w.seq with
        | none => some (.failed .internal, ⟨w.repository, w.seq⟩)
        | some rv =>
          match w.repository.update name ns (updateObject updatedObj rv) with
          | some repository => some (.object (updateObject updatedObj rv), ⟨repository, rv⟩)
          | none => some (.failed (.keyNotFound key), ⟨w.repository, rv⟩) := by
  rw [updateWith, ends_bind]
  refine ends_drawResourceVersion (fun message hfailed => ?_) fun rv hrv => ?_
  · rw [← h.seq, ← h.repository, hfailed.resolve_left not_fault]
    rfl
  · rw [← h.seq, hrv]
    dsimp only
    rw [ends_bind, ends_check]
    rw [ends_bind]
    refine ends_statement h.tx (fun _ h => absurd h not_fault) ?_
    rw [h.repository]
    cases hupdated : w.repository.update name ns (updateObject updatedObj rv) with
    | none => rfl
    | some repository =>
      obtain ⟨-, heq⟩ := ite_none_right_eq_some.mp hupdated
      cases heq
      exact ends_finish rfl (fun _ h => absurd h not_fault) rfl

/-- A pass of the loop. -/
theorem ends_updateLoop {update : Update α} {Q : Except Failure (Reply α) → World α → Prop}
    (h : Around w v) (fuel attempt : Nat)
    (hpass : match w.repository.get name ns with
      | none => Q (if update.ignoreNotFound then .ok .zero else .error (.keyNotFound key)) v
      | some obj =>
        if update.preconditions.check obj then
          match update.tryUpdate attempt obj with
          | .failed e =>
            if e.isConflict && e.optimisticLock then
              Ends (updateLoop noFault key name ns update fuel (attempt + 1)) v Q
            else Q (.error (.tryUpdateFailed e)) v
          | .updated updatedObj => Ends (updateWith noFault key name ns attempt updatedObj) v Q
        else Q (.error (.preconditionFailed key)) v) :
    Ends (updateLoop noFault key name ns update (fuel + 1) attempt) v Q := by
  rw [updateLoop, ends_bind, ends_check]
  rw [ends_bind]
  refine ends_statement h.tx (fun _ h => absurd h not_fault) ?_
  rw [← h.tx]
  have hget : GenericObjectRepository.get ⟨w.repository.rows, v.repository.idSeq⟩ name ns =
    w.repository.get name ns := rfl
  rw [hget]
  revert hpass
  cases w.repository.get name ns with
  | none =>
    dsimp only
    split <;> exact id
  | some obj =>
    dsimp only
    split
    case isFalse => exact id
    case isTrue =>
      cases update.tryUpdate attempt obj with
      | updated updatedObj => exact id
      | failed e =>
        dsimp only
        split <;> exact id

theorem updateLoop_asStore {call : Store.Call α} (h : Around w v) (fuel attempt : Nat) :
    Ends (updateLoop noFault key name ns ⟨call.ignoreNotFound, call.preconditions, call.tryUpdate⟩
        fuel attempt) v fun r w' => asStore r { w' with tx := none } =
      Store.updateLoop ⟨w.repository, w.seq⟩ key name ns call fuel attempt := by
  induction fuel generalizing attempt with
  | zero => rfl
  | succ fuel ih =>
    refine ends_updateLoop h fuel attempt ?_
    rw [Store.updateLoop]
    cases w.repository.get name ns with
    | none =>
      dsimp only
      rw [← h.repository, ← h.seq]
      split <;> rfl
    | some obj =>
      dsimp only
      split
      case isFalse => rw [← h.repository, ← h.seq]; rfl
      case isTrue =>
        cases call.tryUpdate attempt obj with
        | failed e =>
          dsimp only
          split
          · exact ih (attempt + 1)
          · rw [← h.repository, ← h.seq]
            rfl
        | updated updatedObj => exact updateWith_asStore h

theorem guaranteedUpdate_asStore (fuel : Nat) (key : String) (call : Store.Call α) :
    Ends (guaranteedUpdate noFault k fuel key
        ⟨call.ignoreNotFound, call.preconditions, call.tryUpdate⟩) w fun r w' =>
      asStore r w' = Store.guaranteedUpdate k fuel ⟨w.repository, w.seq⟩ key call := by
  rw [guaranteedUpdate, Store.guaranteedUpdate]
  generalize extractKeyNameAndNamespace k.clusterScoped key = extracted
  obtain ⟨name, ns⟩ := extracted
  dsimp only
  by_cases hname : name = ""
  · rw [if_pos hname, if_pos hname]
    rfl
  · rw [if_neg hname, if_neg hname]
    refine ends_transaction (fun _ h => absurd h not_fault) ?_
    exact updateLoop_asStore ⟨rfl, rfl, rfl⟩ fuel 0

def writeOf {k : Kind α} : Store.Operation k → Option (Operation α)
  | .create path obj _ => some (.create path.key.render obj)
  | .guaranteedUpdate path call =>
    some (.guaranteedUpdate path.key.render
      ⟨call.ignoreNotFound, call.preconditions, call.tryUpdate⟩)
  | .delete path preconditions validateDeletion =>
    some (.delete path.key.render preconditions validateDeletion)
  | .get _ _ | .getList _ _ | .count _ => none

/-- Taken step by step, a write that no step of fails is that of `Store.step`. -/
theorem perform_asStore {stored : Store.Operation k} {op : Operation α}
    (h : writeOf stored = some op) (fuel : Nat) (w : World α) :
    Ends (perform noFault k fuel op) w fun r w' =>
      asStore r w' = Store.step k fuel ⟨w.repository, w.seq⟩ stored := by
  cases stored with
  | create path obj agrees =>
    cases h
    exact create_asStore path.key.render obj
  | guaranteedUpdate path call =>
    cases h
    exact guaranteedUpdate_asStore fuel path.key.render call
  | delete path preconditions validateDeletion =>
    cases h
    exact delete_asStore path.key.render preconditions validateDeletion
  | get path ignoreNotFound => cases h
  | getList path opts => cases h
  | count path => cases h

def World.state (w : World α) : Store.State α := ⟨w.repository, w.seq⟩

/-- A call of the store, step by step if it is a write. -/
def call (k : Kind α) (fuel : Nat) (w : World α) (op : Store.Operation k) :
    Option (Store.Reply α × World α) :=
  match writeOf op with
  | some write =>
    let result := (perform noFault k fuel write).run.run w
    (asStore result.1 result.2).map fun (reply, _) => (reply, result.2)
  | none => (Store.step k fuel w.state op).map fun (reply, s) =>
    (reply, { w with repository := s.repository, seq := s.seq })

def calls (k : Kind α) (fuel : Nat) :
    World α → List (Store.Operation k) → Option (List (Store.Reply α) × World α)
  | w, [] => some ([], w)
  | w, op :: ops => do
    let (reply, w₁) ← call k fuel w op
    let (replies, w₂) ← calls k fuel w₁ ops
    return (reply :: replies, w₂)

theorem call_of_step {op : Store.Operation k} {fuel : Nat} {reply : Store.Reply α}
    {s : Store.State α} (h : Store.step k fuel w.state op = some (reply, s)) :
    ∃ w', call k fuel w op = some (reply, w') ∧ w'.state = s := by
  unfold call
  cases hwrite : writeOf op with
  | none => exact ⟨_, by rw [h]; rfl, rfl⟩
  | some write =>
    have hperform := (perform_asStore hwrite fuel w).trans h
    refine ⟨_, congrArg (Option.map _) hperform, ?_⟩
    unfold asStore at hperform
    grind [World.state]

theorem calls_of_run {ops : List (Store.Operation k)} {fuel : Nat}
    {replies : List (Store.Reply α)} {s : Store.State α}
    (h : Store.run k fuel w.state ops = some (replies, s)) :
    ∃ w', calls k fuel w ops = some (replies, w') ∧ w'.state = s := by
  induction ops generalizing w replies with
  | nil =>
    cases h
    exact ⟨w, rfl, rfl⟩
  | cons op ops ih =>
    obtain ⟨⟨reply, s₁⟩, hstep, h⟩ := bind_eq_some_iff.mp h
    obtain ⟨⟨rest, s₂⟩, hrun, h⟩ := bind_eq_some_iff.mp h
    cases h
    obtain ⟨w₁, hcall, rfl⟩ := call_of_step hstep
    obtain ⟨w₂, hcalls, rfl⟩ := ih hrun
    exact ⟨w₂, by rw [calls, hcall]; simp [hcalls], rfl⟩

variable {call : GuaranteedUpdate.Call α} {stored : Object α}

/-- A closure that answers each of its calls in the same way. -/
def pureUpdate (call : GuaranteedUpdate.Call α) : Update α :=
  ⟨call.ignoreNotFound, call.preconditions, fun _ => call.tryUpdate⟩

/-- The object that the key is found to address. -/
def Stored (k : Kind α) (key : String) (w : World α) (obj : Object α) : Prop :=
  let (name, ns) := extractKeyNameAndNamespace k.clusterScoped key
  name ≠ "" ∧ w.repository.get name ns = some obj

/-- The call returns after some passes of its loop, and if `tryUpdate` rejects the stored object,
with the error that it has given. -/
def Answered (k : Kind α) (key : String) (call : GuaranteedUpdate.Call α) (w : World α) : Prop :=
  ∃ fuel, Ends (guaranteedUpdate noFault k fuel key (pureUpdate call)) w fun r _ =>
    r ≠ .ok .unfinished ∧
    ∀ stored e, Stored k key w stored → call.preconditions.check stored = true →
      call.tryUpdate stored = .failed e → r = .error (.tryUpdateFailed e)

theorem unfinished_of_retried (hget : w.repository.get name ns = some stored)
    (hcheck : call.preconditions.check stored = true)
    (hretried : retried (call.tryUpdate stored) = true) (h : Around w v) (fuel attempt : Nat) :
    Ends (updateLoop noFault key name ns (pureUpdate call) fuel attempt) v fun r _ =>
      r = .ok .unfinished := by
  induction fuel generalizing attempt with
  | zero => rfl
  | succ fuel ih =>
    refine ends_updateLoop h fuel attempt ?_
    rw [hget]
    dsimp only
    rw [if_pos (show (pureUpdate call).preconditions.check stored = true from hcheck)]
    -- the next pass finds the same object
    show match call.tryUpdate stored with | .failed _ => _ | .updated _ => _
    cases htry : call.tryUpdate stored with
    | updated updatedObj =>
      rw [htry] at hretried
      cases hretried
    | failed e =>
      rw [htry] at hretried
      exact (if_pos hretried).mpr (ih (attempt + 1))

/-- A conflict that `tryUpdate` finds in the stored object never comes back to the caller. -/
theorem unfinished_of_stored (hstored : Stored k key w stored)
    (hcheck : call.preconditions.check stored = true)
    (hretried : retried (call.tryUpdate stored) = true) (fuel : Nat) :
    Ends (guaranteedUpdate noFault k fuel key (pureUpdate call)) w fun r _ =>
      r = .ok .unfinished := by
  rw [guaranteedUpdate]
  unfold Stored at hstored
  generalize extractKeyNameAndNamespace k.clusterScoped key = extracted at hstored ⊢
  obtain ⟨hname, hget⟩ := hstored
  dsimp only
  rw [if_neg hname]
  refine ends_transaction (fun _ h => absurd h not_fault) ?_
  have haround : Around w { w with tx := some w.repository.rows } := ⟨rfl, rfl, rfl⟩
  exact unfinished_of_retried hget hcheck hretried haround fuel 0

theorem ne_unfinished_of_updateWith {attempt : Nat} (h : Around w v) :
    Ends (updateWith noFault key name ns attempt updatedObj) v fun r _ =>
      r ≠ .ok .unfinished := by
  refine (updateWith_asStore h).mono fun r w' hr hunfinished => ?_
  rw [hunfinished] at hr
  split at hr
  · cases hr
  · split at hr <;> cases hr

/-- Without such a conflict the first pass is the last one. -/
theorem answered_of_settled (key : String) (h : Around w v)
    (hsettled : ∀ stored, w.repository.get name ns = some stored →
      call.preconditions.check stored = true → retried (call.tryUpdate stored) = false) :
    Ends (updateLoop noFault key name ns (pureUpdate call) 1 0) v fun r _ =>
      r ≠ .ok .unfinished ∧
      ∀ stored e, w.repository.get name ns = some stored → call.preconditions.check stored = true →
        call.tryUpdate stored = .failed e → r = .error (.tryUpdateFailed e) := by
  refine ends_updateLoop h 0 0 ?_
  cases hget : w.repository.get name ns with
  | none =>
    refine ⟨?_, by rintro _ _ ⟨⟩⟩
    split <;> rintro ⟨⟩
  | some stored =>
    dsimp only
    split
    case isFalse hcheck =>
      refine ⟨by rintro ⟨⟩, ?_⟩
      rintro _ e ⟨⟩ hcheck'
      exact absurd hcheck' hcheck
    case isTrue hcheck =>
      have hsettled := hsettled stored hget hcheck
      show match call.tryUpdate stored with | .failed _ => _ | .updated _ => _
      cases htry : call.tryUpdate stored with
      | failed e =>
        rw [htry] at hsettled
        dsimp only
        rw [if_neg (by simpa [retried] using hsettled)]
        refine ⟨by rintro ⟨⟩, ?_⟩
        rintro _ e' ⟨⟩ - he
        rw [htry] at he
        cases he
        rfl
      | updated updatedObj =>
        refine (ne_unfinished_of_updateWith h).mono fun r _ hr => ⟨hr, ?_⟩
        rintro _ e ⟨⟩ - he
        rw [htry] at he
        cases he

/-- **`GuaranteedUpdate` returns unless the closure itself reports the conflict.** With nobody else
writing and no step failing, its loop has an end iff `tryUpdate` does not reject the object that is
stored with a conflict that carries the text of an optimistic lock. -/
theorem answered_iff (k : Kind α) (key : String) (call : GuaranteedUpdate.Call α) (w : World α) :
    Answered k key call w ↔
      ∀ stored, Stored k key w stored → call.preconditions.check stored = true →
        retried (call.tryUpdate stored) = false := by
  constructor
  · rintro ⟨fuel, hanswer⟩ stored hstored hcheck
    by_contra hretried
    have hunfinished := unfinished_of_stored hstored hcheck (by simpa using hretried) fuel
    exact hanswer.1 hunfinished
  · intro hsettled
    refine ⟨1, ?_⟩
    rw [guaranteedUpdate]
    unfold Stored at hsettled ⊢
    generalize extractKeyNameAndNamespace k.clusterScoped key = extracted at hsettled ⊢
    obtain ⟨name, ns⟩ := extracted
    dsimp only at hsettled ⊢
    by_cases hname : name = ""
    · rw [if_pos hname]
      exact ⟨nofun, fun _ _ hstored => absurd hname hstored.1⟩
    · rw [if_neg hname]
      refine ends_transaction (fun _ h => absurd h not_fault) ?_
      have haround : Around w { w with tx := some w.repository.rows } := ⟨rfl, rfl, rfl⟩
      have hanswer := answered_of_settled key haround fun stored hget =>
        hsettled stored ⟨hname, hget⟩
      refine hanswer.mono fun r _ hr => ⟨hr.1, fun stored e hstored => ?_⟩
      exact hr.2 stored e hstored.2

/-- A client puts back the object that it has read in its first version. -/
def staleUpdate : GuaranteedUpdate.Call SBOM where
  ignoreNotFound := false
  preconditions := {}
  tryUpdate obj :=
    if obj.metadata.resourceVersion = 1 then .updated obj else .failed ⟨true, true⟩

/-- The conflict of the generic registry is taken for one of the store: the call goes round for
ever. -/
theorem stale_update_unfinished :
    Stored (sbomKind .str) rowKey oneRow (sampleSBOM "a" "x" "u1" 2) ∧
    staleUpdate.tryUpdate (sampleSBOM "a" "x" "u1" 2) = .failed ⟨true, true⟩ ∧
    ∀ fuel, Ends (guaranteedUpdate noFault (sbomKind .str) fuel rowKey (pureUpdate staleUpdate))
      oneRow fun r _ => r = .ok .unfinished := by
  have hstored : Stored (sbomKind .str) rowKey oneRow (sampleSBOM "a" "x" "u1" 2) := by
    refine ⟨?_, ?_⟩
    · decide
    · rfl
  have hretried : retried (staleUpdate.tryUpdate (sampleSBOM "a" "x" "u1" 2)) = true := rfl
  refine ⟨hstored, rfl, fun fuel => ?_⟩
  exact unfinished_of_stored hstored (by decide) hretried fuel

end NoFault

end SbomScanner.Storage.Transaction

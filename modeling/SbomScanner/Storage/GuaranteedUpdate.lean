import SbomScanner.Lib.Transition
import SbomScanner.Storage.List

/-!
# Concurrent `GuaranteedUpdate` calls

Any number of calls work on one key. Each opens a transaction, reads the row, lets the caller's
`tryUpdate` compute the new object, draws a resource version and writes the row back; the steps of
different calls interleave freely.

The database is PostgreSQL at READ COMMITTED:

* a `SELECT` takes no lock and sees the last committed row;
* an `UPDATE` waits while another transaction holds the row, then re-checks its own `WHERE` clause
  against the row it finds, which here only asks for the name and the namespace;
* the version sequence is not part of any transaction.

Nothing in the write re-checks the version that was read. `serial_of_baseUnchanged` is the best
that can be said: the history is serial in every run in which no `UPDATE` happens on a row that has
moved on since the call's own read.
-/

namespace SbomScanner.Storage.GuaranteedUpdate

open Transition Function

variable {α : Type}

/-! ## Calls -/

/-- `storage.Preconditions`; an absent field is not checked. -/
structure Preconditions where
  uid : Option String := none
  resourceVersion : Option String := none

def Preconditions.check (p : Preconditions) (o : Object α) : Bool :=
  p.uid.all (· == o.metadata.uid) &&
    p.resourceVersion.all (· == Strings.formatUint o.metadata.resourceVersion)

/-- An API error as `GuaranteedUpdate` looks at it. -/
structure TryError where
  isConflict : Bool
  /-- the text contains `registry.OptimisticLockErrorMsg` -/
  optimisticLock : Bool

inductive TryResult (α : Type) where
  | updated (o : Object α)
  | failed (e : TryError)

structure Call (α : Type) where
  ignoreNotFound : Bool
  preconditions : Preconditions
  tryUpdate : Object α → TryResult α

inductive Outcome (α : Type) where
  | updated (o : Object α)
  | notFoundIgnored
  | keyNotFound
  | preconditionFailed
  | tryUpdateFailed (e : TryError)
  | internalError

/-- Where a call is in its loop. `begun` is the loop head. -/
inductive Phase (α : Type) where
  | idle
  | begun
  | fetched (obj : Object α)
  | tried (obj updatedObj : Object α)
  | stamped (obj updatedObj : Object α)
  | written (obj updatedObj : Object α)
  | returned (outcome : Outcome α)

/-! ## The system -/

structure State (α : Type) where
  /-- the committed row -/
  row : Option (Object α)
  /-- the call whose transaction holds the row lock -/
  lock : Option Nat
  seq : Nat
  phase : Nat → Phase α
  /-- successful commits, the newest first -/
  history : List (Nat × Object α)

def init (row : Option (Object α)) (seq : Nat) : State α :=
  { row := row, lock := none, seq := seq, phase := fun _ => .idle, history := [] }

inductive Action where
  | begin (i : Nat)
  | get (i : Nat)
  | tryUpdate (i : Nat)
  | nextResourceVersion (i : Nat)
  | update (i : Nat)
  | commit (i : Nat)
  /-- a database error or a cancelled context: the deferred rollback runs -/
  | rollback (i : Nat)

def State.moveTo (s : State α) (i : Nat) (p : Phase α) : State α :=
  { s with phase := update s.phase i p }

def step (calls : Nat → Call α) (s : State α) : Action → Option (State α)
  | .begin i =>
    match s.phase i with
    | .idle => some (s.moveTo i .begun)
    | _ => none
  | .get i =>
    match s.phase i with
    | .begun =>
      match s.row with
      | none =>
        let outcome := if (calls i).ignoreNotFound then .notFoundIgnored else .keyNotFound
        some (s.moveTo i (.returned outcome))
      | some obj =>
        if (calls i).preconditions.check obj then some (s.moveTo i (.fetched obj))
        else some (s.moveTo i (.returned .preconditionFailed))
    | _ => none
  | .tryUpdate i =>
    match s.phase i with
    | .fetched obj =>
      match (calls i).tryUpdate obj with
      | .updated updatedObj => some (s.moveTo i (.tried obj updatedObj))
      | .failed e =>
        -- an optimistic-lock conflict goes back to the loop head
        if e.isConflict && e.optimisticLock then some (s.moveTo i .begun)
        else some (s.moveTo i (.returned (.tryUpdateFailed e)))
    | _ => none
  | .nextResourceVersion i =>
    match s.phase i with
    | .tried obj updatedObj =>
      match Storage.nextResourceVersion s.seq with
      | some rv =>
        some { s.moveTo i (.stamped obj (updateObject updatedObj rv)) with seq := rv }
      | none => some (s.moveTo i (.returned .internalError))
    | _ => none
  | .update i =>
    match s.phase i with
    | .stamped obj updatedObj =>
      -- blocked while another transaction holds the row
      match s.lock with
      | some _ => none
      | none =>
        match s.row with
        | some _ => some { s.moveTo i (.written obj updatedObj) with lock := some i }
        | none => some (s.moveTo i (.returned .keyNotFound))
    | _ => none
  | .commit i =>
    match s.phase i with
    | .written _ updatedObj =>
      some
        { s.moveTo i (.returned (.updated updatedObj)) with
          row := some updatedObj
          lock := none
          history := (i, updatedObj) :: s.history }
    | _ => none
  | .rollback i =>
    match s.phase i with
    | .idle | .returned _ => none
    | .written _ _ => some { s.moveTo i (.returned .internalError) with lock := none }
    | .begun | .fetched _ | .tried _ _ | .stamped _ _ =>
      some (s.moveTo i (.returned .internalError))

/-! ## Serial histories -/

/-- `o` is what call `i` makes of `base`, under a newer version. -/
def Follows (calls : Nat → Call α) (i : Nat) (base : Option (Object α)) (o : Object α) : Prop :=
  ∃ b u, base = some b ∧ (calls i).tryUpdate b = .updated u ∧
    o = updateObject u o.metadata.resourceVersion ∧
    b.metadata.resourceVersion < o.metadata.resourceVersion

def latest (row : Option (Object α)) : List (Nat × Object α) → Option (Object α)
  | [] => row
  | (_, o) :: _ => some o

/-- Every committed object follows from the one committed immediately before it. -/
def Serial (calls : Nat → Call α) (row : Option (Object α)) : List (Nat × Object α) → Prop
  | [] => True
  | (i, o) :: older => Follows calls i (latest row older) o ∧ Serial calls row older

/-! ## The guard -/

/-- A call about to write still has the committed row in its hands. -/
def Phase.HoldsRow (row : Option (Object α)) : Phase α → Prop
  | .stamped obj _ => row = some obj
  | _ => True

instance [DecidableEq α] (row : Option (Object α)) : (p : Phase α) → Decidable (p.HoldsRow row)
  | .stamped obj _ => inferInstanceAs (Decidable (row = some obj))
  | .idle | .begun | .fetched _ | .tried _ _ | .written _ _ | .returned _ => isTrue trivial

/-- No other call has committed between this call's read and its `UPDATE`. -/
def BaseUnchanged (s : State α) : Action → Prop
  | .update i => (s.phase i).HoldsRow s.row
  | _ => True

instance [DecidableEq α] (s : State α) : (a : Action) → Decidable (BaseUnchanged s a)
  | .update i => inferInstanceAs (Decidable ((s.phase i).HoldsRow s.row))
  | .begin _ | .get _ | .tryUpdate _ | .nextResourceVersion _ | .commit _ | .rollback _ =>
    isTrue trivial

/-! ## The invariant -/

/-- What a call knows in each phase. -/
def PhaseInv (calls : Nat → Call α) (s : State α) (i : Nat) : Phase α → Prop
  | .idle | .begun | .returned _ => True
  | .fetched obj => obj.metadata.resourceVersion ≤ s.seq
  | .tried obj updatedObj =>
    obj.metadata.resourceVersion ≤ s.seq ∧ (calls i).tryUpdate obj = .updated updatedObj
  | .stamped obj updatedObj =>
    Follows calls i (some obj) updatedObj ∧ updatedObj.metadata.resourceVersion ≤ s.seq
  | .written obj updatedObj =>
    Follows calls i (some obj) updatedObj ∧ updatedObj.metadata.resourceVersion ≤ s.seq ∧
      s.lock = some i ∧ s.row = some obj

structure Inv (calls : Nat → Call α) (row : Option (Object α)) (s : State α) : Prop where
  serial : Serial calls row s.history
  row_latest : s.row = latest row s.history
  row_le : ∀ o, s.row = some o → o.metadata.resourceVersion ≤ s.seq
  phase : ∀ i, PhaseInv calls s i (s.phase i)

variable {calls : Nat → Call α} {p : Phase α}

/-- A phase's knowledge survives a later sequence value, and any change of row and lock by a
transaction that the call's own lock would have kept out. -/
theorem PhaseInv.mono {s s' : State α} {i : Nat} (h : PhaseInv calls s i p) (hseq : s.seq ≤ s'.seq)
    (hlock : s.lock = some i → s'.lock = some i ∧ s'.row = s.row) :
    PhaseInv calls s' i p := by
  cases p with
  | idle | begun | returned => trivial
  | fetched obj => exact le_trans h hseq
  | tried obj updatedObj => exact ⟨le_trans h.1 hseq, h.2⟩
  | stamped obj updatedObj => exact ⟨h.1, le_trans h.2 hseq⟩
  | written obj updatedObj =>
    obtain ⟨hfollows, hle, hl, hrow⟩ := h
    obtain ⟨hl', hrow'⟩ := hlock hl
    exact ⟨hfollows, le_trans hle hseq, hl', hrow'.trans hrow⟩

/-- The step of one call, seen from all the others. -/
theorem phase_moveTo {s s' : State α} {i : Nat} (hphase : s'.phase = update s.phase i p)
    (h : ∀ j, PhaseInv calls s j (s.phase j)) (hp : PhaseInv calls s' i p) (hseq : s.seq ≤ s'.seq)
    (hlock : ∀ j, j ≠ i → s.lock = some j → s'.lock = some j ∧ s'.row = s.row) :
    ∀ j, PhaseInv calls s' j (s'.phase j) := by
  intro j
  rw [hphase]
  by_cases hj : j = i
  · subst hj
    rw [update_self]
    exact hp
  · rw [update_of_ne hj]
    exact (h j).mono hseq (hlock j hj)

variable {row : Option (Object α)}

theorem Inv.moveTo {s : State α} (h : Inv calls row s) (i : Nat) (hp : PhaseInv calls s i p) :
    Inv calls row (s.moveTo i p) where
  serial := h.serial
  row_latest := h.row_latest
  row_le := h.row_le
  phase := by
    apply phase_moveTo rfl h.phase
    · exact hp.mono (le_refl s.seq) fun hl => ⟨hl, rfl⟩
    · exact le_refl s.seq
    · intro j _ hl
      exact ⟨hl, rfl⟩

section

variable {calls : Nat → Call α} {row : Option (Object α)} {s : State α} {i : Nat}
  {obj updatedObj : Object α}

theorem Inv.phaseInv (h : Inv calls row s) {p : Phase α} (hi : s.phase i = p) :
    PhaseInv calls s i p := by
  rw [← hi]
  exact h.phase i

/-- Only the call that has written holds the lock. -/
theorem Inv.unlocked (h : Inv calls row s) (hi : s.phase i = .written obj updatedObj) {j : Nat}
    (hj : j ≠ i) : s.lock ≠ some j := by
  obtain ⟨-, -, hlock, -⟩ := h.phaseInv hi
  intro hl
  rw [hlock] at hl
  exact hj (Option.some.inj hl).symm

/-! ## Steps and runs -/

section

variable (h : Inv calls row s)
include h

/-- The fresh version is above everything read so far. -/
theorem Inv.stamp (hi : s.phase i = .tried obj updatedObj) {rv : Nat} (hrv : s.seq < rv) :
    Inv calls row { s.moveTo i (.stamped obj (updateObject updatedObj rv)) with seq := rv } where
  serial := h.serial
  row_latest := h.row_latest
  row_le o ho := le_trans (h.row_le o ho) hrv.le
  phase := by
    obtain ⟨hle, htry⟩ := h.phaseInv hi
    apply phase_moveTo rfl h.phase
    · exact ⟨⟨obj, updatedObj, rfl, htry, rfl, lt_of_le_of_lt hle hrv⟩, le_refl rv⟩
    · exact hrv.le
    · intro j _ hl
      exact ⟨hl, rfl⟩

/-- The only step that needs the guard: the row is still the one the call has read. -/
theorem Inv.write (hi : s.phase i = .stamped obj updatedObj) (hfree : s.lock = none)
    (hrow : s.row = some obj) :
    Inv calls row { s.moveTo i (.written obj updatedObj) with lock := some i } where
  serial := h.serial
  row_latest := h.row_latest
  row_le := h.row_le
  phase := by
    obtain ⟨hfollows, hle⟩ := h.phaseInv hi
    apply phase_moveTo rfl h.phase
    · exact ⟨hfollows, hle, rfl, hrow⟩
    · exact le_refl s.seq
    · intro j _ hl
      rw [hfree] at hl
      cases hl

/-- The lock has kept the row as it was read, so the commit follows the newest one. -/
theorem Inv.commit (hi : s.phase i = .written obj updatedObj) :
    Inv calls row
      { s.moveTo i (.returned (.updated updatedObj)) with
        row := some updatedObj
        lock := none
        history := (i, updatedObj) :: s.history } where
  serial := by
    obtain ⟨hfollows, -, -, hrow⟩ := h.phaseInv hi
    refine ⟨?_, h.serial⟩
    rw [← h.row_latest, hrow]
    exact hfollows
  row_latest := rfl
  row_le := by
    obtain ⟨-, hle, -, -⟩ := h.phaseInv hi
    intro o ho
    cases ho
    exact hle
  phase := by
    apply phase_moveTo rfl h.phase
    · trivial
    · exact le_refl s.seq
    · intro j hj hl
      exact absurd hl (h.unlocked hi hj)

theorem Inv.rollback (hi : s.phase i = .written obj updatedObj) :
    Inv calls row { s.moveTo i (.returned .internalError) with lock := none } where
  serial := h.serial
  row_latest := h.row_latest
  row_le := h.row_le
  phase := by
    apply phase_moveTo rfl h.phase
    · trivial
    · exact le_refl s.seq
    · intro j hj hl
      exact absurd hl (h.unlocked hi hj)

end

end

theorem step_inv (s : State α) (a : Action) (s' : State α) (h : Inv calls row s)
    (hG : BaseUnchanged s a) (hs : step calls s a = some s') :
    Inv calls row s' := by
  cases a with
  | begin i =>
    simp only [step] at hs
    split at hs
    · cases hs
      exact h.moveTo i trivial
    · cases hs
  | get i =>
    simp only [step] at hs
    split at hs
    · split at hs
      · cases hs
        exact h.moveTo i trivial
      · next obj hrow =>
        split at hs
        · cases hs
          exact h.moveTo i (h.row_le obj hrow)
        · cases hs
          exact h.moveTo i trivial
    · cases hs
  | tryUpdate i =>
    simp only [step] at hs
    split at hs
    · next obj hi =>
      split at hs
      · next updatedObj htry =>
        cases hs
        exact h.moveTo i ⟨h.phaseInv hi, htry⟩
      · split at hs
        · cases hs
          exact h.moveTo i trivial
        · cases hs
          exact h.moveTo i trivial
    · cases hs
  | nextResourceVersion i =>
    simp only [step] at hs
    split at hs
    · next obj updatedObj hi =>
      split at hs
      · next rv hrv =>
        cases hs
        exact h.stamp hi (lt_of_nextResourceVersion hrv)
      · cases hs
        exact h.moveTo i trivial
    · cases hs
  | update i =>
    simp only [step] at hs
    split at hs
    · next obj updatedObj hi =>
      have hrow : s.row = some obj := by
        simp only [BaseUnchanged, hi] at hG
        exact hG
      split at hs
      · cases hs
      · next hfree =>
        split at hs
        · cases hs
          exact h.write hi hfree hrow
        · cases hs
          exact h.moveTo i trivial
    · cases hs
  | commit i =>
    simp only [step] at hs
    split at hs
    · next obj updatedObj hi =>
      cases hs
      exact h.commit hi
    · cases hs
  | rollback i =>
    simp only [step] at hs
    split at hs
    · cases hs
    · cases hs
    · next obj updatedObj hi =>
      cases hs
      exact h.rollback hi
    all_goals
      cases hs
      exact h.moveTo i trivial

theorem init_inv (calls : Nat → Call α) {seq : Nat}
    (h : ∀ o, row = some o → o.metadata.resourceVersion ≤ seq) : Inv calls row (init row seq) where
  serial := trivial
  row_latest := rfl
  row_le := h
  phase _ := trivial

/-- **No lost update, as long as no row moves under a writer.** In every run whose `UPDATE`s all
find the row their call has read, every commit is the result of `tryUpdate` on the commit before it
under a strictly greater version, and the row is the last commit. -/
theorem serial_of_baseUnchanged (calls : Nat → Call α) (row : Option (Object α)) (seq : Nat)
    (hseq : ∀ o, row = some o → o.metadata.resourceVersion ≤ seq) (as : List Action) (s : State α)
    (hG : Transition.Along BaseUnchanged (step calls) (init row seq) as)
    (hrun : exec (step calls) (init row seq) as = some s) :
    Serial calls row s.history ∧ s.row = latest row s.history := by
  have hinv := exec_invariant_along step_inv (init_inv calls hseq) hG hrun
  exact ⟨hinv.serial, hinv.row_latest⟩

/-! ## Two updaters

Both add a label to an SBOM that has none. Run one after the other, the SBOM ends with both labels;
interleaved, the second write silently drops the first. -/

def addLabel (key value : String) : Call SBOM where
  ignoreNotFound := false
  preconditions := {}
  tryUpdate o :=
    .updated { o with metadata := { o.metadata with labels := (key, value) :: o.metadata.labels } }

def labellers (i : Nat) : Call SBOM := if i = 0 then addLabel "owner" "a" else addLabel "env" "b"

def readBoth : List Action :=
  [.begin 0, .begin 1, .get 0, .get 1, .tryUpdate 0, .tryUpdate 1, .nextResourceVersion 0,
    .nextResourceVersion 1, .update 0, .commit 0, .update 1, .commit 1]

def oneByOne : List Action :=
  [.begin 0, .begin 1, .get 0, .tryUpdate 0, .nextResourceVersion 0, .update 0, .commit 0,
    .get 1, .tryUpdate 1, .nextResourceVersion 1, .update 1, .commit 1]

/-- The second commit was computed from the initial object, not from the first commit. -/
theorem lost_update :
    (exec (step labellers) (init (some (sampleSBOM "a" "x" "u1" 1)) 1) readBoth).map
        (fun s => s.history) =
      some [(1, sampleSBOM "a" "x" "u1" 3 [("env", "b")]),
        (0, sampleSBOM "a" "x" "u1" 2 [("owner", "a")])] ∧
    ¬ Serial labellers (some (sampleSBOM "a" "x" "u1" 1))
      [(1, sampleSBOM "a" "x" "u1" 3 [("env", "b")]),
        (0, sampleSBOM "a" "x" "u1" 2 [("owner", "a")])] := by
  refine ⟨by decide, ?_⟩
  rintro ⟨⟨b, u, hb, htry, ho, -⟩, -⟩
  -- on the first commit, the second updater would have kept the label `owner`
  cases hb
  cases htry
  exact absurd (congrArg (fun o => o.metadata.labels) ho) (by decide)

theorem serial_of_baseUnchanged_oneByOne :
    Transition.Along BaseUnchanged (step labellers)
      (init (some (sampleSBOM "a" "x" "u1" 1)) 1) oneByOne ∧
    ∃ s, exec (step labellers) (init (some (sampleSBOM "a" "x" "u1" 1)) 1) oneByOne =
        some s ∧
      Serial labellers (some (sampleSBOM "a" "x" "u1" 1)) s.history ∧
      s.row = latest (some (sampleSBOM "a" "x" "u1" 1)) s.history := by
  have hG : Transition.Along BaseUnchanged (step labellers)
      (init (some (sampleSBOM "a" "x" "u1" 1)) 1) oneByOne := by decide
  refine ⟨hG, _, rfl, ?_⟩
  exact serial_of_baseUnchanged labellers _ 1 (by rintro o ⟨⟩; decide) oneByOne _ hG rfl

end SbomScanner.Storage.GuaranteedUpdate

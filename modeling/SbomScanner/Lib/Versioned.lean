import Mathlib.Data.List.Basic

/-!
# A versioned object

An object that several parties read and write without locks. Every write makes a new version. A
party may hold a copy of any version there has ever been, since it reads from a cache, and a write
that is based on a copy goes through only if the copy is the current version (`update`). The object
may be deleted and created again; it then has another identity.

The point of the version check is `update_eq_some`: a copy that passes it is the current version, so
the writer has seen everything it overwrites.
-/

namespace Versioned

open List

/-- One version of the object. -/
structure Entry (O : Type*) where
  uid : Nat
  version : Nat
  object : O
deriving DecidableEq

/-- The current version, if the object exists, and all versions so far, in the order they were
written. -/
structure Store (O : Type*) where
  current : Option (Entry O)
  history : List (Entry O)
  version_eq : ∀ {i : Nat} {entry : Entry O}, history[i]? = some entry → entry.version = i
  uid_le : ∀ entry ∈ history, entry.uid ≤ entry.version
  current_mem : ∀ entry ∈ current, entry ∈ history

variable {O : Type*}

namespace Store

def empty : Store O where
  current := none
  history := []
  version_eq h := by cases h
  uid_le _ h := by cases h
  current_mem _ h := by cases h

/-- The next version is written. -/
def push (s : Store O) (uid : Nat) (h : uid ≤ s.history.length) (object : O) : Store O where
  current := some ⟨uid, s.history.length, object⟩
  history := s.history ++ [⟨uid, s.history.length, object⟩]
  version_eq := by
    intro i entry hi
    rcases Nat.lt_trichotomy i s.history.length with hlt | rfl | hgt
    · rw [List.getElem?_append_left hlt] at hi
      exact s.version_eq hi
    · rw [List.getElem?_concat_length] at hi
      cases hi
      rfl
    · rw [List.getElem?_eq_none (by simpa using Nat.succ_le_of_lt hgt)] at hi
      cases hi
  uid_le := by
    intro entry hentry
    rcases mem_append.mp hentry with hold | hnew
    · exact s.uid_le entry hold
    · cases mem_singleton.mp hnew
      exact h
  current_mem := by
    intro entry hentry
    cases hentry
    exact mem_append_right _ mem_cons_self

def create (s : Store O) (object : O) : Option (Store O) :=
  match s.current with
  | some _ => none
  | none => some (s.push s.history.length (Nat.le_refl _) object)

def delete (s : Store O) : Store O where
  current := none
  history := s.history
  version_eq := s.version_eq
  uid_le := s.uid_le
  current_mem _ h := by cases h

theorem version_lt (s : Store O) {entry : Entry O} (h : entry ∈ s.history) :
    entry.version < s.history.length := by
  obtain ⟨i, hi⟩ := mem_iff_getElem?.mp h
  rw [s.version_eq hi]
  exact (List.getElem?_eq_some_iff.mp hi).1

theorem uid_lt (s : Store O) {entry : Entry O} (h : entry ∈ s.history) :
    entry.uid < s.history.length :=
  Nat.lt_of_le_of_lt (s.uid_le entry h) (s.version_lt h)

/-- The version check: the write is based on this copy, and goes through if it is current. -/
def update (s : Store O) (copy : Entry O) (object : O) : Option (Store O) :=
  match h : s.current with
  | none => none
  | some entry =>
    if entry.version = copy.version then
      some (s.push entry.uid (Nat.le_of_lt (s.uid_lt (s.current_mem entry h))) object)
    else
      none

/-- A write without a version check: it hits whatever is there, and returns what it has made of
it. -/
def modify (s : Store O) (f : O → O) : Option (Entry O × Store O) :=
  match h : s.current with
  | none => none
  | some entry =>
    some (⟨entry.uid, s.history.length, f entry.object⟩,
      s.push entry.uid (Nat.le_of_lt (s.uid_lt (s.current_mem entry h))) (f entry.object))

variable {s s' : Store O} {copy entry : Entry O} {object : O}

theorem eq_of_version (h : entry ∈ s.history) (h' : copy ∈ s.history)
    (hversion : entry.version = copy.version) : entry = copy := by
  obtain ⟨i, hi⟩ := mem_iff_getElem?.mp h
  obtain ⟨j, hj⟩ := mem_iff_getElem?.mp h'
  rw [s.version_eq hi, s.version_eq hj] at hversion
  subst hversion
  rw [hi] at hj
  exact Option.some.inj hj

theorem create_eq_some (h : s.create object = some s') :
    s.current = none ∧ s' = s.push s.history.length (Nat.le_refl _) object := by
  unfold create at h
  split at h
  · cases h
  · next hnone =>
      cases h
      exact ⟨hnone, rfl⟩

theorem update_eq_some (hcopy : copy ∈ s.history) (h : s.update copy object = some s') :
    s.current = some copy ∧ s' = s.push copy.uid (Nat.le_of_lt (s.uid_lt hcopy)) object := by
  unfold update at h
  split at h
  · cases h
  · next entry hcurrent =>
      split at h
      · next hversion =>
          cases h
          cases eq_of_version (s.current_mem entry hcurrent) hcopy hversion
          exact ⟨hcurrent, rfl⟩
      · cases h

variable {written : Entry O}

theorem modify_eq_some {f : O → O} (h : s.modify f = some (written, s')) :
    ∃ entry, ∃ hentry : entry ∈ s.history, s.current = some entry ∧
      written = ⟨entry.uid, s.history.length, f entry.object⟩ ∧
      s' = s.push entry.uid (Nat.le_of_lt (s.uid_lt hentry)) (f entry.object) := by
  unfold modify at h
  split at h
  · cases h
  · next entry hcurrent =>
      cases h
      exact ⟨entry, s.current_mem entry hcurrent, hcurrent, rfl, rfl⟩

@[simp]
theorem history_push {uid : Nat} {h : uid ≤ s.history.length} :
    (s.push uid h object).history = s.history ++ [⟨uid, s.history.length, object⟩] := rfl

/-! No write forgets a version. -/

theorem history_create (h : s.create object = some s') : s.history <+: s'.history := by
  obtain ⟨-, rfl⟩ := create_eq_some h
  exact prefix_append ..

theorem history_update (hcopy : copy ∈ s.history) (h : s.update copy object = some s') :
    s.history <+: s'.history := by
  obtain ⟨-, rfl⟩ := update_eq_some hcopy h
  exact prefix_append ..

theorem history_modify {f : O → O} (h : s.modify f = some (written, s')) :
    s.history <+: s'.history := by
  obtain ⟨_, _, -, -, rfl⟩ := modify_eq_some h
  exact prefix_append ..

end Store

end Versioned

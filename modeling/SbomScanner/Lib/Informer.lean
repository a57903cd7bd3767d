import SbomScanner.Lib.Changelog
import SbomScanner.Lib.Keyed

/-!
# Caches that follow a store

Objects are stored under unique keys, and a cache follows the store: every write is an event, and
the events reach the cache in order, each some time after its write. So the cache with the events
still to come is the store (`Synced`), and the object of a key about which no event is to come is in
the cache as it is stored (`Synced.get_eq`).
-/

open List Option

namespace Informer

open Keyed Changelog

variable {α κ : Type*} {key : α → κ}

/-- What is under a key after a write: nothing, if it was a deletion. -/
structure Event (key : α → κ) where
  subject : κ
  object : Option α
  valid : ∀ x ∈ object, key x = subject

def Event.of (x : α) : Event key :=
  ⟨key x, some x, fun _ h => congrArg key (mem_some.mp h).symm⟩

def Event.about (e : Event key) : Option κ := some e.subject

variable [DecidableEq κ] {e : Event key} {k : κ} {x : α}

theorem nodup_set (s : Store key) (e : Event key) :
    ((s.items.filter (key · ≠ e.subject) ++ e.object.toList).map key).Nodup := by
  rw [map_append]
  refine List.Nodup.append (s.delete e.subject).unique ?_ ?_
  · cases e.object <;> simp
  · intro k hk hobject
    obtain ⟨x, hx, rfl⟩ := mem_map.mp hk
    obtain ⟨y, hy, hkey⟩ := mem_map.mp hobject
    have hne : key x ≠ e.subject := by simpa using (mem_filter.mp hx).2
    exact hne (hkey.symm.trans (e.valid y (mem_toList.mp hy)))

/-- The store after the write. -/
def set (s : Store key) (e : Event key) : Store key := ⟨_, nodup_set s e⟩

theorem mem_set {s : Store key} :
    x ∈ (set s e).items ↔ x ∈ e.object ∨ x ∈ s.items ∧ key x ≠ e.subject := by
  simp [set, or_comm]

theorem get_set (s : Store key) (e : Event key) :
    (set s e).get = apply Event.about Event.object s.get e := by
  funext k
  apply Option.ext
  intro x
  have hvalid := e.valid x
  by_cases hk : e.about = some k
  · have hsubject : e.subject = k := Option.some.inj hk
    rw [apply_self hk, Store.get_eq_some, mem_set]
    grind [mem_def]
  · have hsubject : e.subject ≠ k := fun h => hk (congrArg some h)
    rw [apply_ne hk, Store.get_eq_some, Store.get_eq_some, mem_set]
    grind [mem_def]

end Informer

/-- A store, the cache that follows it and the events on their way. -/
structure Informer {α κ : Type*} (key : α → κ) where
  stored : Keyed.Store key
  cached : Keyed.Store key
  events : List (Informer.Event key)

namespace Informer

open Keyed Changelog

variable {α κ : Type*} {key : α → κ} [DecidableEq κ] {i i' : Informer key} {e : Event key} {k : κ}

def empty : Informer key := ⟨.empty, .empty, []⟩

def write (i : Informer key) (e : Event key) : Informer key :=
  { i with stored := set i.stored e, events := i.events ++ [e] }

/-- The next event reaches the cache. -/
def deliver (i : Informer key) : Option (Event key × Informer key) :=
  match i.events with
  | [] => none
  | e :: events => some (e, { i with cached := set i.cached e, events := events })

theorem deliver_eq_some (h : i.deliver = some (e, i')) :
    i.events = e :: i'.events ∧ i'.cached = set i.cached e ∧ i'.stored = i.stored := by
  unfold deliver at h
  split at h
  · cases h
  case h_2 hevents =>
    cases h
    exact ⟨hevents, rfl, rfl⟩

/-- The events to come make the cache the store. -/
def Synced (i : Informer key) : Prop :=
  replay Event.about Event.object i.cached.get i.events = i.stored.get

section

variable (h : i.Synced)
include h

theorem Synced.write (e : Event key) : (i.write e).Synced := by
  show replay _ _ i.cached.get (i.events ++ [e]) = (set i.stored e).get
  rw [replay_concat, h, get_set]

theorem Synced.deliver (hd : i.deliver = some (e, i')) : i'.Synced := by
  obtain ⟨hevents, hcached, hstored⟩ := deliver_eq_some hd
  unfold Synced at h ⊢
  rw [hevents] at h
  rw [hcached, hstored, get_set, ← h]
  rfl

theorem Synced.get_eq (hk : ∀ e ∈ i.events, e.subject ≠ k) :
    i.cached.get k = i.stored.get k := by
  have hlast : last Event.about k i.events = none := by
    rw [last_eq_none, about_eq_nil]
    simpa [Event.about] using hk
  rw [← h, replay_eq_last, hlast]

/-- The last event about a key brings what is stored under it. -/
theorem Synced.object_eq (hd : i.deliver = some (e, i'))
    (hlast : ∀ e' ∈ i'.events, e'.subject ≠ e.subject) : e.object = i.stored.get e.subject := by
  obtain ⟨-, hcached, hstored⟩ := deliver_eq_some hd
  have hget := (h.deliver hd).get_eq hlast
  rwa [hcached, hstored, get_set, apply_self (k := e.subject) (e := e) rfl] at hget

/-- So an object that is stored is in the cache, unless an event about it is to come. -/
theorem Synced.mem_iff {x : α} (hx : ∀ e ∈ i.events, e.subject ≠ key x) :
    x ∈ i.cached.items ↔ x ∈ i.stored.items := by
  rw [Store.mem_iff_get, Store.mem_iff_get, h.get_eq hx]

end

end Informer

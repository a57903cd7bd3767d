import SbomScanner.Storage.Key
import SbomScanner.Storage.Query

/-!
# The table of a kind

A table is a list of rows in heap order, with `PRIMARY KEY (name, namespace)` and a serial `id`
column. The statements of `GenericObjectRepository` are functions on it:

* `lookup` — the `SELECT` of `Get`;
* `insert` — `INSERT … ON CONFLICT DO NOTHING`, `none` when no row was affected;
* `update` — `UPDATE … SET object WHERE name = … AND namespace = …`;
* `delete` — `DELETE … RETURNING object`.

Each has one lemma that says what it does to `lookup`. The concurrent models of this development
use nothing else about tables.
-/

namespace SbomScanner.Storage

open List

variable {α : Type}

def Row.key (r : Row α) : ObjectKey := r.object.key

structure Table (α : Type) where
  rows : List (Row α)
  /-- the next value of the `id` sequence -/
  idSeq : Int
  keys_nodup : (rows.map Row.key).Nodup
  ids_lt : ∀ r ∈ rows, r.id < idSeq
  ids_nodup : (rows.map Row.id).Nodup

namespace Table

def empty : Table α := ⟨[], 1, by simp, by simp, by simp⟩

def lookup (t : Table α) (key : ObjectKey) : Option (Object α) :=
  (t.rows.find? fun r => r.key == key).map Row.object

theorem eq_of_key_eq (t : Table α) {r r' : Row α} (hr : r ∈ t.rows) (hr' : r' ∈ t.rows)
    (h : r.key = r'.key) : r = r' :=
  inj_on_of_nodup_map t.keys_nodup hr hr' h

variable {o : Object α} {key : ObjectKey}

theorem lookup_eq_some (t : Table α) :
    t.lookup key = some o ↔ o.key = key ∧ ∃ r ∈ t.rows, r.object = o := by
  unfold lookup
  rw [Option.map_eq_some_iff]
  constructor
  · rintro ⟨r, hr, rfl⟩
    have hkey : r.key = key := by simpa using List.find?_some hr
    exact ⟨hkey, r, mem_of_find?_eq_some hr, rfl⟩
  · rintro ⟨rfl, r, hr, rfl⟩
    have hsome : (t.rows.find? fun r' => r'.key == r.key).isSome := by
      rw [List.find?_isSome]
      exact ⟨r, hr, by simp⟩
    obtain ⟨r', hr'⟩ := Option.isSome_iff_exists.mp hsome
    have hkey : r'.key = r.key := by simpa using List.find?_some hr'
    have : r' = r := t.eq_of_key_eq (mem_of_find?_eq_some hr') hr hkey
    exact ⟨r', hr', by rw [this]⟩

theorem lookup_eq_none (t : Table α) : t.lookup key = none ↔ ∀ r ∈ t.rows, r.key ≠ key := by
  unfold lookup
  simp [List.find?_eq_none]

theorem key_of_lookup (t : Table α) (h : t.lookup key = some o) :
    o.key = key := (t.lookup_eq_some.mp h).1

variable {t t' : Table α}

/-- Two tables whose rows agree up to order have the same lookups; here in the form used below, one
row changed at a time. -/
theorem lookup_congr
    (h : ∀ o : Object α, o.key = key →
      ((∃ r ∈ t'.rows, r.object = o) ↔ ∃ r ∈ t.rows, r.object = o)) :
    t'.lookup key = t.lookup key := by
  ext o
  rw [lookup_eq_some, lookup_eq_some]
  exact and_congr_right (h o)

/-! ## Statements -/

def insert (t : Table α) (o : Object α) : Option (Table α) :=
  if h : t.lookup o.key = none then
    some
      { rows := t.rows ++ [⟨t.idSeq, o⟩]
        idSeq := t.idSeq + 1
        keys_nodup := by
          have hne := t.lookup_eq_none.mp h
          rw [map_append, nodup_append]
          refine ⟨t.keys_nodup, by simp, ?_⟩
          intro a ha b hb
          obtain ⟨r, hr, rfl⟩ := mem_map.mp ha
          simp only [map_cons, map_nil, mem_singleton] at hb
          subst hb
          exact hne r hr
        ids_lt := by
          intro r hr
          rcases mem_append.mp hr with hr | hr
          · have := t.ids_lt r hr
            omega
          · rw [mem_singleton.mp hr]
            show t.idSeq < t.idSeq + 1
            omega
        ids_nodup := by
          rw [map_append, nodup_append]
          refine ⟨t.ids_nodup, by simp, ?_⟩
          intro a ha b hb
          obtain ⟨r, hr, rfl⟩ := mem_map.mp ha
          simp only [map_cons, map_nil, mem_singleton] at hb
          subst hb
          have := t.ids_lt r hr
          omega }
  else none

def delete (t : Table α) (key : ObjectKey) : Option (Object α × Table α) :=
  (t.lookup key).map fun o =>
    (o,
      { rows := t.rows.filter fun r => !(r.key == key)
        idSeq := t.idSeq
        keys_nodup := t.keys_nodup.sublist (filter_sublist.map _)
        ids_lt := fun r hr => t.ids_lt r (mem_of_mem_filter hr)
        ids_nodup := t.ids_nodup.sublist (filter_sublist.map _) })

/-- The row as `UPDATE … WHERE` on the key of `o` leaves it. -/
def setObject (o : Object α) (r : Row α) : Row α :=
  if r.key = o.key then { r with object := o } else r

theorem setObject_key (o : Object α) (r : Row α) : (setObject o r).key = r.key := by
  unfold setObject
  split
  · next h => exact h.symm
  · rfl

theorem setObject_id (o : Object α) (r : Row α) : (setObject o r).id = r.id := by
  unfold setObject
  split <;> rfl

/-- `repository.Update` at the key of the new object; names and namespaces are immutable, so it is
also the key that was read. -/
def update (t : Table α) (o : Object α) : Option (Table α) :=
  if (t.lookup o.key).isSome then
    some
      { rows := t.rows.map (setObject o)
        idSeq := t.idSeq
        keys_nodup := by
          rw [map_map, show Row.key ∘ setObject o = Row.key from funext (setObject_key o)]
          exact t.keys_nodup
        ids_lt := by
          intro r hr
          obtain ⟨r', hr', rfl⟩ := mem_map.mp hr
          rw [setObject_id]
          exact t.ids_lt r' hr'
        ids_nodup := by
          rw [map_map, show Row.id ∘ setObject o = Row.id from funext (setObject_id o)]
          exact t.ids_nodup }
  else none

/-! ## What the statements do to `lookup` -/

theorem lookup_insert (h : t.insert o = some t') :
    t.lookup o.key = none ∧ t'.lookup = Function.update t.lookup o.key (some o) := by
  unfold insert at h
  split at h
  · next hnone =>
    cases h
    refine ⟨hnone, ?_⟩
    funext key
    by_cases hk : key = o.key
    · subst hk
      rw [Function.update_self, lookup_eq_some]
      exact ⟨rfl, _, mem_append_right _ (mem_singleton_self _), rfl⟩
    · rw [Function.update_of_ne hk]
      apply lookup_congr
      intro o' ho'
      constructor
      · rintro ⟨r, hr, rfl⟩
        rcases mem_append.mp hr with hr | hr
        · exact ⟨r, hr, rfl⟩
        · rw [mem_singleton.mp hr] at ho'
          exact absurd ho'.symm hk
      · rintro ⟨r, hr, rfl⟩
        exact ⟨r, mem_append_left _ hr, rfl⟩
  · cases h

theorem lookup_delete (h : t.delete key = some (o, t')) :
    t.lookup key = some o ∧ t'.lookup = Function.update t.lookup key none := by
  obtain ⟨o', ho', heq⟩ := Option.map_eq_some_iff.mp h
  cases heq
  refine ⟨ho', ?_⟩
  funext key'
  by_cases hk : key' = key
  · subst hk
    rw [Function.update_self, lookup_eq_none]
    intro r hr
    simpa using (mem_filter.mp hr).2
  · rw [Function.update_of_ne hk]
    apply lookup_congr
    intro o' ho'
    constructor
    · rintro ⟨r, hr, rfl⟩
      exact ⟨r, mem_of_mem_filter hr, rfl⟩
    · rintro ⟨r, hr, rfl⟩
      refine ⟨r, mem_filter.mpr ⟨hr, ?_⟩, rfl⟩
      have : r.key ≠ key := fun h' => hk (ho'.symm.trans h')
      simpa using this

theorem lookup_update (h : t.update o = some t') :
    (∃ old, t.lookup o.key = some old) ∧ t'.lookup = Function.update t.lookup o.key (some o) := by
  unfold update at h
  split at h
  · next hsome =>
    cases h
    obtain ⟨old, hold⟩ := Option.isSome_iff_exists.mp hsome
    refine ⟨⟨old, hold⟩, ?_⟩
    funext key
    by_cases hk : key = o.key
    · subst hk
      rw [Function.update_self, lookup_eq_some]
      obtain ⟨hkey, r, hr, rfl⟩ := t.lookup_eq_some.mp hold
      refine ⟨rfl, _, mem_map_of_mem hr, ?_⟩
      unfold setObject
      rw [if_pos (show r.key = o.key from hkey)]
    · rw [Function.update_of_ne hk]
      apply lookup_congr
      intro o' ho'
      constructor
      · rintro ⟨r, hr, rfl⟩
        obtain ⟨r', hr', rfl⟩ := mem_map.mp hr
        have hne : r'.key ≠ o.key := by
          intro h'
          apply hk
          rw [← ho', ← h', ← setObject_key o r']
          rfl
        refine ⟨r', hr', ?_⟩
        unfold setObject
        rw [if_neg hne]
      · rintro ⟨r, hr, rfl⟩
        have hne : r.key ≠ o.key := fun h' => hk (ho'.symm.trans h')
        refine ⟨_, mem_map_of_mem hr, ?_⟩
        unfold setObject
        rw [if_neg hne]
  · cases h

/-! ## What the statements do to the rows -/

theorem exists_split (t : Table α) (h : t.lookup key = some o) :
    ∃ before id after, t.rows = before ++ ⟨id, o⟩ :: after ∧
      ∀ r ∈ before ++ after, r.key ≠ key := by
  obtain ⟨hkey, r, hr, rfl⟩ := t.lookup_eq_some.mp h
  obtain ⟨before, after, hrows⟩ := append_of_mem hr
  refine ⟨before, r.id, after, hrows, ?_⟩
  have hnodup := t.keys_nodup
  rw [hrows, map_append, map_cons, nodup_middle, nodup_cons, ← map_append] at hnodup
  intro r' hr' hkey'
  apply hnodup.1
  rw [show r.key = r'.key from hkey.trans hkey'.symm]
  exact mem_map_of_mem hr'

/-- At most one row gives way to at most one row, in its place. -/
def Replaces (old new : Option (Object α)) (t t' : Table α) : Prop :=
  ∃ before after id, t.rows = before ++ old.toList.map (Row.mk id) ++ after ∧
    t'.rows = before ++ new.toList.map (Row.mk id) ++ after

theorem replaces_insert (h : t.insert o = some t') : Replaces none (some o) t t' := by
  unfold insert at h
  split at h
  · cases h
    exact ⟨t.rows, [], t.idSeq, by simp, by simp⟩
  · cases h

theorem replaces_delete (h : t.delete key = some (o, t')) : Replaces (some o) none t t' := by
  obtain ⟨o', ho', heq⟩ := Option.map_eq_some_iff.mp h
  cases heq
  obtain ⟨before, id, after, hrows, hne⟩ := t.exists_split ho'
  refine ⟨before, after, id, by simp [hrows], ?_⟩
  have hkeep : ∀ rows : List (Row α), (∀ r ∈ rows, r ∈ before ++ after) →
      rows.filter (fun r => !(r.key == key)) = rows := by
    intro rows hsub
    rw [filter_eq_self]
    intro r hr
    simpa using hne r (hsub r hr)
  have hkey : (⟨id, o⟩ : Row α).key = key := t.key_of_lookup ho'
  show t.rows.filter _ = _
  rw [hrows, filter_append, filter_cons_of_neg (by simp [hkey]),
    hkeep before fun r hr => mem_append_left _ hr,
    hkeep after fun r hr => mem_append_right _ hr]
  simp

theorem replaces_update (h : t.update o = some t') :
    ∃ old, t.lookup o.key = some old ∧ Replaces (some old) (some o) t t' := by
  unfold update at h
  split at h
  · next hsome =>
    cases h
    obtain ⟨old, hold⟩ := Option.isSome_iff_exists.mp hsome
    obtain ⟨before, id, after, hrows, hne⟩ := t.exists_split hold
    refine ⟨old, hold, before, after, id, by simp [hrows], ?_⟩
    have hkeep : ∀ rows : List (Row α), (∀ r ∈ rows, r ∈ before ++ after) →
        rows.map (setObject o) = rows := by
      intro rows hsub
      conv_rhs => rw [← map_id rows]
      apply map_congr_left
      intro r hr
      exact if_neg (hne r (hsub r hr))
    have hkey : (⟨id, old⟩ : Row α).key = o.key := t.key_of_lookup hold
    show t.rows.map _ = _
    rw [hrows, map_append, map_cons, setObject, if_pos hkey,
      hkeep before fun r hr => mem_append_left _ hr,
      hkeep after fun r hr => mem_append_right _ hr]
    simp
  · cases h

/-- The rows with a property, counted by what comes and goes. -/
theorem Replaces.countP {old new : Option (Object α)} (h : Replaces old new t t')
    (p : Object α → Bool) :
    t'.rows.countP (fun r => p r.object) + old.toList.countP p =
      t.rows.countP (fun r => p r.object) + new.toList.countP p := by
  obtain ⟨before, after, id, hrows, hrows'⟩ := h
  have hmap : ∀ o : Option (Object α), (o.toList.map (Row.mk id)).countP (fun r => p r.object) =
      o.toList.countP p := by
    intro o
    rw [countP_map]
    rfl
  rw [hrows, hrows', countP_append, countP_append, countP_append, countP_append, hmap, hmap]
  omega

theorem Replaces.filter {old new : Option (Object α)} (h : Replaces old new t t')
    {p : Object α → Bool} (hold : ∀ o ∈ old, p o = false) (hnew : ∀ o ∈ new, p o = false) :
    t'.rows.filter (fun r => p r.object) = t.rows.filter fun r => p r.object := by
  obtain ⟨before, after, id, hrows, hrows'⟩ := h
  have hmap : ∀ o : Option (Object α), (∀ x ∈ o, p x = false) →
      (o.toList.map (Row.mk id)).filter (fun r => p r.object) = [] := by
    intro o ho
    rw [filter_eq_nil_iff]
    intro r hr
    obtain ⟨x, hx, rfl⟩ := mem_map.mp hr
    rw [ho x (Option.mem_toList.mp hx)]
    decide
  rw [hrows, hrows', filter_append, filter_append, filter_append, filter_append,
    hmap old hold, hmap new hnew]

end Table

end SbomScanner.Storage

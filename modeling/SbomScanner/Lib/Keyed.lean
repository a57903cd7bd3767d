import Mathlib.Data.List.Nodup

/-!
# Objects under unique keys

A store holds objects under keys that they carry themselves, each key at most once. Objects are
created, replaced and deleted by key, and the store keeps the order in which they came.

Each operation is described by where it cuts the list of objects: `create` appends, `update` puts
another object in the place of one, and `delete` takes one out. Facts about a part of the store,
such as the objects that satisfy a predicate, follow from this.
-/

namespace Keyed

open List

variable {α κ : Type*} {key : α → κ} [DecidableEq κ]

structure Store (key : α → κ) where
  items : List α
  unique : (items.map key).Nodup

namespace Store

def empty : Store key := ⟨[], nodup_nil⟩

def get (s : Store key) (k : κ) : Option α := s.items.find? (key · = k)

def create (s : Store key) (x : α) : Option (Store key) :=
  if h : key x ∈ s.items.map key then
    none
  else
    some ⟨s.items ++ [x], by
      rw [map_append, map_singleton]
      exact List.Nodup.append s.unique (nodup_singleton _) (by simpa using h)⟩

variable (key) in
def replace (x : α) (items : List α) : List α :=
  items.map fun old => if key old = key x then x else old

theorem map_key_replace (x : α) (items : List α) :
    (replace key x items).map key = items.map key := by
  unfold replace
  rw [map_map]
  apply map_congr_left
  intro old _
  by_cases h : key old = key x <;> simp [h]

def update (s : Store key) (x : α) : Option (Store key) :=
  if key x ∈ s.items.map key then
    some ⟨replace key x s.items, by
      rw [map_key_replace]
      exact s.unique⟩
  else
    none

def delete (s : Store key) (k : κ) : Store key :=
  ⟨s.items.filter (key · ≠ k), s.unique.sublist (filter_sublist.map _)⟩

/-! ## What the operations do to the list -/

variable {s s' : Store key} {x : α} {k : κ}

theorem items_create (h : s.create x = some s') : s'.items = s.items ++ [x] := by
  unfold create at h
  split at h
  · cases h
  · cases h
    rfl

/-- Where an object is, and that nothing else is under its key. -/
theorem exists_append_of_get (h : s.get k = some x) :
    ∃ l₁ l₂, s.items = l₁ ++ x :: l₂ ∧ key x = k ∧ ∀ y ∈ l₁ ++ l₂, key y ≠ k := by
  have hkey : key x = k := by simpa using List.find?_some h
  obtain ⟨l₁, l₂, hitems⟩ := append_of_mem (mem_of_find?_eq_some h)
  refine ⟨l₁, l₂, hitems, hkey, ?_⟩
  have hunique : (l₁ ++ x :: l₂).map key |>.Nodup := hitems ▸ s.unique
  rw [map_append, map_cons, nodup_middle, nodup_cons] at hunique
  intro y hy hsame
  apply hunique.1
  rw [hkey, ← hsame, ← map_append]
  exact mem_map_of_mem hy

theorem items_update {old : α} (hget : s.get (key x) = some old) (h : s.update x = some s') :
    ∃ l₁ l₂, s.items = l₁ ++ old :: l₂ ∧ s'.items = l₁ ++ x :: l₂ := by
  obtain ⟨l₁, l₂, hitems, hkey, hothers⟩ := exists_append_of_get hget
  refine ⟨l₁, l₂, hitems, ?_⟩
  have hid : ∀ l ⊆ l₁ ++ l₂, replace key x l = l := by
    intro l hl
    unfold replace
    nth_rewrite 2 [← map_id l]
    apply map_congr_left
    intro y hy
    exact if_neg (hothers y (hl hy))
  unfold update at h
  split at h
  · cases h
    show replace key x s.items = _
    have hsplit : replace key x (l₁ ++ old :: l₂) =
        replace key x l₁ ++ x :: replace key x l₂ := by
      simp [replace, hkey]
    rw [hitems, hsplit, hid l₁ (subset_append_left _ _), hid l₂ (subset_append_right _ _)]
  · cases h

theorem items_delete {old : α} (hget : s.get k = some old) :
    ∃ l₁ l₂, s.items = l₁ ++ old :: l₂ ∧ (s.delete k).items = l₁ ++ l₂ := by
  obtain ⟨l₁, l₂, hitems, hkey, hothers⟩ := exists_append_of_get hget
  refine ⟨l₁, l₂, hitems, ?_⟩
  show s.items.filter (key · ≠ k) = _
  have hkeep : ∀ l ⊆ l₁ ++ l₂, l.filter (key · ≠ k) = l := by
    intro l hl
    rw [filter_eq_self]
    intro y hy
    simpa using hothers y (hl hy)
  rw [hitems, filter_append, filter_cons_of_neg (by simp [hkey]),
    hkeep l₁ (subset_append_left _ _), hkeep l₂ (subset_append_right _ _)]

theorem map_key_update (h : s.update x = some s') : s'.items.map key = s.items.map key := by
  unfold update at h
  split at h
  · cases h
    exact map_key_replace x s.items
  · cases h

omit [DecidableEq κ] in
theorem eq_of_key_eq {y : α} (hx : x ∈ s.items) (hy : y ∈ s.items) (h : key x = key y) : x = y :=
  inj_on_of_nodup_map s.unique hx hy h

theorem items_delete_of_mem [DecidableEq α] (hx : x ∈ s.items) :
    (s.delete (key x)).items = s.items.filter (· ≠ x) := by
  apply filter_congr
  intro y hy
  rw [decide_eq_decide, ne_eq, ne_eq, not_iff_not]
  exact ⟨eq_of_key_eq hy hx, congrArg key⟩

/-! ## What the operations do to a look-up -/

theorem get_eq_some : s.get k = some x ↔ x ∈ s.items ∧ key x = k := by
  constructor
  · intro h
    exact ⟨mem_of_find?_eq_some h, by simpa using List.find?_some h⟩
  · rintro ⟨hx, rfl⟩
    have hsome : (s.get (key x)).isSome := by
      rw [get, List.find?_isSome]
      exact ⟨x, hx, by simp⟩
    obtain ⟨y, hy⟩ := Option.isSome_iff_exists.mp hsome
    have hkey : key y = key x := by simpa using List.find?_some hy
    rw [hy, eq_of_key_eq (mem_of_find?_eq_some hy) hx hkey]

theorem mem_iff_get : x ∈ s.items ↔ s.get (key x) = some x := by
  rw [get_eq_some, and_iff_left rfl]

theorem get_eq_none : s.get k = none ↔ k ∉ s.items.map key := by
  simp [get]

theorem exists_create (h : s.get (key x) = none) : ∃ s', s.create x = some s' := by
  rw [create, dif_neg (get_eq_none.mp h)]
  exact ⟨_, rfl⟩

theorem exists_update (h : s.get (key x) ≠ none) : ∃ s', s.update x = some s' := by
  rw [update, if_pos (not_not.mp (mt get_eq_none.mpr h))]
  exact ⟨_, rfl⟩

theorem get_create (h : s.create x = some s') (k : κ) :
    s'.get k = if k = key x then some x else s.get k := by
  have hitems := items_create h
  split
  case isTrue hk =>
    rw [get_eq_some, hitems]
    exact ⟨by simp, hk.symm⟩
  case isFalse hk =>
    rw [get, hitems, List.find?_append, get]
    simp [Ne.symm hk]

theorem get_update (h : s.update x = some s') (k : κ) :
    s'.get k = if k = key x then some x else s.get k := by
  have hmem : key x ∈ s.items.map key := by
    by_contra hnot
    rw [update, if_neg hnot] at h
    cases h
  obtain ⟨old, hold⟩ := Option.ne_none_iff_exists'.mp (mt get_eq_none.mp (not_not.mpr hmem))
  obtain ⟨l₁, l₂, hitems, hitems'⟩ := items_update hold h
  have hkey : key old = key x := (get_eq_some.mp hold).2
  split
  case isTrue hk =>
    rw [get_eq_some, hitems']
    exact ⟨by simp, hk.symm⟩
  case isFalse hk =>
    rw [get, get, hitems, hitems', List.find?_append, List.find?_append,
      List.find?_cons_of_neg (by simpa using Ne.symm hk),
      List.find?_cons_of_neg (by simpa [hkey] using Ne.symm hk)]

theorem mem_update (h : s.update x = some s') {y : α} :
    y ∈ s'.items ↔ y = x ∨ y ∈ s.items ∧ key y ≠ key x := by
  rw [mem_iff_get, get_update h, mem_iff_get]
  grind

theorem get_delete (s : Store key) (k k' : κ) :
    (s.delete k).get k' = if k' = k then none else s.get k' := by
  split
  case isTrue hk =>
    rw [get_eq_none, hk]
    intro hmem
    obtain ⟨y, hy, hkey⟩ := mem_map.mp hmem
    exact absurd hkey (by simpa using (mem_filter.mp hy).2)
  case isFalse hk =>
    show (s.items.filter (key · ≠ k)).find? (key · = k') = s.items.find? (key · = k')
    rw [List.find?_filter]
    congr 1
    funext y
    grind

end Store

end Keyed

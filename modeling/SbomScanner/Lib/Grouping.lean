import Mathlib.Data.Finset.Card

/-!
# Maps that a loop fills

A loop over a list collects its elements under keys. The maps are total functions, with the zero
value of the element type where nothing has been stored, as indexing a map of Go gives it.

* `group` appends each element to the list under its key;
* `counts` is what `GROUP BY` and `COUNT(*)` return, one pair for each key that occurs;
* `assign` stores one value under each key;
* `firsts` keeps the first element of each key.

Each is described by what stands under one key, and none of these descriptions mentions the other
keys: that is why a batch can be taken apart.
-/

namespace Grouping

open List Function

variable {α β κ : Type*} [DecidableEq κ] {key : α → κ} {k : κ}

/-- `m[key x] = append(m[key x], x)`, for each element. -/
def group (key : α → κ) (xs : List α) : κ → List α :=
  xs.foldl (fun m x => update m (key x) (m (key x) ++ [x])) fun _ => []

theorem foldl_group (m : κ → List α) (xs : List α) :
    xs.foldl (fun m x => update m (key x) (m (key x) ++ [x])) m k =
      m k ++ xs.filter (key · = k) := by
  induction xs generalizing m with
  | nil => rw [foldl_nil, filter_nil, append_nil]
  | cons x xs ih =>
    rw [foldl_cons, ih]
    by_cases h : key x = k
    · subst h
      rw [update_self, filter_cons_of_pos (by simp), append_assoc]
      rfl
    · rw [update_of_ne (Ne.symm h), filter_cons_of_neg (by simpa using h)]

theorem group_apply (xs : List α) : group key xs k = xs.filter (key · = k) := by
  rw [group, foldl_group, nil_append]

/-- `SELECT key, COUNT(*) … GROUP BY key`. -/
def counts (key : α → κ) (xs : List α) : List (κ × Nat) :=
  (xs.map key).dedup.map fun k => (k, (xs.map key).count k)

/-- `m[k] = v`, for each pair. -/
def assign (zero : β) (pairs : List (κ × β)) : κ → β :=
  pairs.foldl (fun m p => update m p.1 p.2) fun _ => zero

variable {pairs : List (κ × β)}

theorem foldl_assign_of_notMem (m : κ → β) (h : k ∉ pairs.map Prod.fst) :
    pairs.foldl (fun m p => update m p.1 p.2) m k = m k := by
  induction pairs generalizing m with
  | nil => rfl
  | cons p pairs ih =>
    rw [map_cons, mem_cons, not_or] at h
    rw [foldl_cons, ih _ h.2, update_of_ne h.1]

theorem assign_of_notMem {zero : β} (h : k ∉ pairs.map Prod.fst) :
    assign zero pairs k = zero := foldl_assign_of_notMem _ h

/-- Pairs that all say the same about a key. -/
theorem assign_of_forall {zero v : β} (h : k ∈ pairs.map Prod.fst)
    (hsame : ∀ p ∈ pairs, p.1 = k → p.2 = v) : assign zero pairs k = v := by
  unfold assign
  generalize (fun _ => zero : κ → β) = m
  induction pairs generalizing m with
  | nil => cases h
  | cons p pairs ih =>
    have hrest : ∀ q ∈ pairs, q.1 = k → q.2 = v :=
      fun q hq => hsame q (mem_cons_of_mem _ hq)
    rw [foldl_cons]
    by_cases hmem : k ∈ pairs.map Prod.fst
    · exact ih hmem hrest _
    · have hp : p.1 = k := by
        rw [map_cons, mem_cons] at h
        exact (h.resolve_right hmem).symm
      rw [foldl_assign_of_notMem _ hmem, ← hp, update_self]
      exact hsame p mem_cons_self hp

theorem assign_counts (xs : List α) : assign 0 (counts key xs) k = (xs.map key).count k := by
  have hkeys : (counts key xs).map Prod.fst = (xs.map key).dedup := by
    rw [counts, map_map]
    exact map_id _
  by_cases h : k ∈ xs.map key
  · apply assign_of_forall
    · rw [hkeys]
      exact mem_dedup.mpr h
    · intro p hp hk
      obtain ⟨k', -, rfl⟩ := mem_map.mp hp
      rw [← hk]
  · rw [count_eq_zero.mpr h]
    apply assign_of_notMem
    rw [hkeys, mem_dedup]
    exact h

/-! ## The first of each key -/

/-- The loop that skips an element whose key it has seen. -/
def firstsFrom (key : α → κ) (seen : List κ) : List α → List α
  | [] => []
  | x :: xs =>
    if key x ∈ seen then firstsFrom key seen xs
    else x :: firstsFrom key (key x :: seen) xs

def firsts (key : α → κ) (xs : List α) : List α := firstsFrom key [] xs

theorem mem_map_firstsFrom (seen : List κ) (xs : List α) :
    k ∈ (firstsFrom key seen xs).map key ↔ k ∈ xs.map key ∧ k ∉ seen := by
  induction xs generalizing seen with
  | nil => simp [firstsFrom]
  | cons x xs ih =>
    unfold firstsFrom
    split
    case isTrue hseen =>
      rw [ih, map_cons, mem_cons]
      constructor
      · exact fun ⟨hmem, hk⟩ => ⟨.inr hmem, hk⟩
      · rintro ⟨rfl | hmem, hk⟩
        · exact absurd hseen hk
        · exact ⟨hmem, hk⟩
    case isFalse hseen =>
      rw [map_cons, mem_cons, ih, map_cons, mem_cons, mem_cons, not_or]
      constructor
      · rintro (rfl | ⟨hmem, -, hk⟩)
        · exact ⟨.inl rfl, hseen⟩
        · exact ⟨.inr hmem, hk⟩
      · rintro ⟨heq | hmem, hk⟩
        · exact .inl heq
        · by_cases h : k = key x
          · exact .inl h
          · exact .inr ⟨hmem, h, hk⟩

theorem mem_map_firsts (xs : List α) : k ∈ (firsts key xs).map key ↔ k ∈ xs.map key := by
  rw [firsts, mem_map_firstsFrom]
  exact and_iff_left not_mem_nil

theorem firstsFrom_sublist (seen : List κ) (xs : List α) : (firstsFrom key seen xs).Sublist xs := by
  induction xs generalizing seen with
  | nil => exact .slnil
  | cons x xs ih =>
    unfold firstsFrom
    split
    · exact (ih seen).cons x
    · exact (ih _).cons_cons x

variable {xs : List α} {x : α}

theorem mem_of_mem_firsts (h : x ∈ firsts key xs) : x ∈ xs :=
  (firstsFrom_sublist [] xs).subset h

theorem nodup_map_firstsFrom (seen : List κ) (xs : List α) :
    ((firstsFrom key seen xs).map key).Nodup := by
  induction xs generalizing seen with
  | nil => exact nodup_nil
  | cons x xs ih =>
    unfold firstsFrom
    split
    · exact ih seen
    · rw [map_cons, nodup_cons]
      refine ⟨fun hmem => ?_, ih _⟩
      exact ((mem_map_firstsFrom _ xs).mp hmem).2 mem_cons_self

theorem nodup_map_firsts (xs : List α) : ((firsts key xs).map key).Nodup :=
  nodup_map_firstsFrom [] xs

theorem firsts_cons (x : α) (xs : List α) :
    firsts key (x :: xs) = x :: firstsFrom key [key x] xs := rfl

variable {seen : List κ}

theorem notMem_of_mem_firstsFrom (h : x ∈ firstsFrom key seen xs) : key x ∉ seen :=
  ((mem_map_firstsFrom seen xs).mp (mem_map_of_mem h)).2

variable {ys : List α}

/-- An element from the back comes with a key that the front does not have. -/
theorem mem_firstsFrom_append (h : x ∈ firstsFrom key seen (xs ++ ys)) :
    x ∈ xs ∨ key x ∉ xs.map key := by
  induction xs generalizing seen with
  | nil => exact .inr not_mem_nil
  | cons y xs ih =>
    rw [mem_cons, map_cons, mem_cons, not_or]
    have hkey := notMem_of_mem_firstsFrom h
    rw [cons_append, firstsFrom] at h
    split at h
    case isTrue hseen =>
      rcases ih h with hx | hx
      · exact .inl (.inr hx)
      · exact .inr ⟨fun heq => hkey (heq ▸ hseen), hx⟩
    case isFalse =>
      rcases mem_cons.mp h with rfl | h
      · exact .inl (.inl rfl)
      · rcases ih h with hx | hx
        · exact .inl (.inr hx)
        · have hne := notMem_of_mem_firstsFrom h
          exact .inr ⟨fun heq => hne (heq ▸ mem_cons_self), hx⟩

theorem mem_firsts_append (h : x ∈ firsts key (xs ++ ys)) :
    x ∈ xs ∨ key x ∉ xs.map key := mem_firstsFrom_append h

theorem find?_firstsFrom (hk : k ∉ seen) (xs : List α) :
    (firstsFrom key seen xs).find? (key · = k) = xs.find? (key · = k) := by
  induction xs generalizing seen with
  | nil => rfl
  | cons x xs ih =>
    unfold firstsFrom
    split
    case isTrue hseen =>
      have hne : key x ≠ k := fun heq => hk (heq ▸ hseen)
      rw [ih hk, List.find?_cons_of_neg (by simpa using hne)]
    case isFalse =>
      by_cases heq : key x = k
      · rw [List.find?_cons_of_pos (by simpa using heq),
          List.find?_cons_of_pos (by simpa using heq)]
      · rw [List.find?_cons_of_neg (by simpa using heq),
          List.find?_cons_of_neg (by simpa using heq), ih]
        simpa using ⟨Ne.symm heq, hk⟩

theorem find?_firsts (xs : List α) : (firsts key xs).find? (key · = k) = xs.find? (key · = k) :=
  find?_firstsFrom not_mem_nil xs

/-- If nothing but the key matters, the order does not matter either. -/
theorem perm_map_firsts {f : α → β} (h : xs.Perm ys)
    (hf : ∀ x ∈ xs, ∀ y ∈ xs, key x = key y → f x = f y) :
    ((firsts key xs).map f).Perm ((firsts key ys).map f) := by
  have hkeys : ((firsts key xs).map key).Perm ((firsts key ys).map key) := by
    rw [perm_ext_iff_of_nodup (nodup_map_firsts xs) (nodup_map_firsts ys)]
    intro k
    rw [mem_map_firsts, mem_map_firsts, (h.map key).mem_iff]
  -- the value under a key, read off the list
  let value (k : κ) : Option β := (xs.find? (key · = k)).map f
  have hvalue : ∀ x ∈ xs, value (key x) = some (f x) := by
    intro x hx
    have hsome : (xs.find? (key · = key x)).isSome := by
      rw [List.find?_isSome]
      exact ⟨x, hx, by simp⟩
    obtain ⟨y, hy⟩ := Option.isSome_iff_exists.mp hsome
    have hkey : key y = key x := by simpa using List.find?_some hy
    show (xs.find? _).map f = some (f x)
    rw [hy, Option.map_some, hf y (mem_of_find?_eq_some hy) x hx hkey]
  have hmap : ∀ zs : List α, (∀ z ∈ zs, z ∈ xs) →
      ((zs.map key).map value).filterMap id = zs.map f := by
    intro zs hzs
    rw [map_map, filterMap_map, ← filterMap_eq_map]
    apply filterMap_congr
    intro z hz
    exact hvalue z (hzs z hz)
  rw [← hmap (firsts key xs) fun z => mem_of_mem_firsts,
    ← hmap (firsts key ys) fun z hz => h.mem_iff.mpr (mem_of_mem_firsts hz)]
  exact (hkeys.map value).filterMap id

/-! ## A coarser key -/

section Coarser

variable {κ' : Type*} [DecidableEq κ'] {coarse : κ → κ'}

theorem length_firsts (xs : List α) : (firsts key xs).length = (xs.map key).toFinset.card := by
  rw [← length_map key, ← toFinset_card_of_nodup (nodup_map_firsts xs)]
  congr 1
  ext k
  rw [mem_toFinset, mem_toFinset, mem_map_firsts]

theorem length_firsts_comp (xs : List α) :
    (firsts (coarse ∘ key) xs).length = ((xs.map key).toFinset.image coarse).card := by
  rw [length_firsts]
  congr 1
  ext k
  simp

theorem length_firsts_comp_le (xs : List α) :
    (firsts (coarse ∘ key) xs).length ≤ (firsts key xs).length := by
  rw [length_firsts_comp, length_firsts]
  exact Finset.card_image_le

/-- If there are as many elements with the coarser key, it tells the keys apart. -/
theorem key_eq_of_length_eq (h : (firsts (coarse ∘ key) xs).length = (firsts key xs).length) {y : α}
    (hx : x ∈ xs) (hy : y ∈ xs) (hxy : coarse (key x) = coarse (key y)) : key x = key y := by
  rw [length_firsts_comp, length_firsts, Finset.card_image_iff] at h
  apply h _ _ hxy
  · simpa using ⟨x, hx, rfl⟩
  · simpa using ⟨y, hy, rfl⟩

/-- A coarser key that tells the keys apart keeps the same elements. -/
theorem firsts_comp (h : ∀ x ∈ xs, ∀ y ∈ xs, coarse (key x) = coarse (key y) → key x = key y) :
    firsts (coarse ∘ key) xs = firsts key xs := by
  -- of the keys that have been seen, each comes from the list as well
  have hfrom : ∀ (ys : List α) (seen : List κ), (∀ y ∈ ys, y ∈ xs) →
      (∀ k ∈ seen, ∃ x ∈ xs, key x = k) →
      firstsFrom (coarse ∘ key) (seen.map coarse) ys = firstsFrom key seen ys := by
    intro ys
    induction ys with
    | nil =>
      intro seen _ _
      rfl
    | cons y ys ih =>
      intro seen hys hseen
      have hy : y ∈ xs := hys y mem_cons_self
      have hmem : (coarse ∘ key) y ∈ seen.map coarse ↔ key y ∈ seen := by
        constructor
        · intro hin
          obtain ⟨k, hk, heq⟩ := mem_map.mp hin
          obtain ⟨x, hx, rfl⟩ := hseen k hk
          rw [← h x hx y hy heq]
          exact hk
        · exact mem_map_of_mem
      unfold firstsFrom
      rw [if_congr hmem rfl rfl]
      split
      · exact ih seen (fun z hz => hys z (mem_cons_of_mem y hz)) hseen
      · congr 1
        refine ih (key y :: seen) (fun z hz => hys z (mem_cons_of_mem y hz)) ?_
        intro k hk
        rcases mem_cons.mp hk with rfl | hk
        · exact ⟨y, hy, rfl⟩
        · exact hseen k hk
  exact hfrom xs [] (fun _ hx => hx) (fun _ hk => by cases hk)

end Coarser

end Grouping

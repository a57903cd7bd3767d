import Mathlib.Data.List.Basic
import Mathlib.Order.Lattice

/-!
# Paging through a table by a cursor

A client asks for at most `limit` rows at a time. The answer is the first rows behind its cursor, in
the order of their keys, and the key of the last of them as the next cursor if there are more. The
table may be another one at each request: `follow` takes the list of the tables that the requests
meet.

Nothing relates these tables, so the laws hold for whatever is written between two requests: the
keys come in strictly increasing order (`follow_ordered`), and a key that is in every table that was
asked is among them (`mem_follow`). On a table that does not change, the pages are the table
(`follow_replicate`).
-/

namespace Paging

open List

variable {α κ : Type*} [LinearOrder κ] (key : α → κ)

/-- The rows are in strictly increasing order of their keys. -/
def Ordered (rows : List α) : Prop := rows.Pairwise fun x y => key x < key y

def rest (cursor : Option κ) (rows : List α) : List α :=
  rows.filter fun x => cursor.all fun c => decide (c < key x)

/-- One answer: the rows, and the next cursor. -/
def page (limit : Nat) (cursor : Option κ) (rows : List α) : List α × Option κ :=
  let behind := rest key cursor rows
  (behind.take limit, if limit < behind.length then (behind.take limit).getLast?.map key else none)

/-- The pages that a client gets when the requests meet the given tables, and whether the last of
them had no next cursor. -/
def follow (limit : Nat) : Option κ → List (List α) → List (List α) × Bool
  | _, [] => ([], false)
  | cursor, rows :: later =>
    match page key limit cursor rows with
    | (items, none) => ([items], true)
    | (items, some next) =>
      let pages := follow limit (some next) later
      (items :: pages.1, pages.2)

variable {key} {limit : Nat} {cursor : Option κ} {rows : List α} {tables : List (List α)}

/-! ## One page -/

theorem mem_rest {x : α} : x ∈ rest key cursor rows ↔ x ∈ rows ∧ ∀ c ∈ cursor, c < key x := by
  unfold rest
  cases cursor with
  | none => simp
  | some c => simp

theorem Ordered.rest (h : Ordered key rows) (cursor : Option κ) :
    Ordered key (Paging.rest key cursor rows) := List.Pairwise.filter _ h

theorem length_page : (page key limit cursor rows).1.length ≤ limit := by
  exact length_take_le _ _

theorem mem_page {x : α} (h : x ∈ (page key limit cursor rows).1) :
    x ∈ rows ∧ ∀ c ∈ cursor, c < key x := mem_rest.mp (mem_of_mem_take h)

theorem page_eq_of_none (hlimit : 0 < limit) (h : (page key limit cursor rows).2 = none) :
    (page key limit cursor rows).1 = rest key cursor rows := by
  unfold page at h ⊢
  simp only at h ⊢
  apply take_of_length_le
  by_contra hlt
  rw [Nat.not_le] at hlt
  rw [if_pos hlt, Option.map_eq_none_iff, List.getLast?_eq_none_iff] at h
  have := congrArg List.length h
  rw [length_take, length_nil] at this
  omega

/-- A page with a next cursor ends at it, and there are rows behind it. -/
theorem page_append_of_some (hrows : Ordered key rows) {next : κ}
    (h : (page key limit cursor rows).2 = some next) :
    rest key cursor rows = (page key limit cursor rows).1 ++ rest key (some next) rows ∧
      (∀ x ∈ (page key limit cursor rows).1, key x ≤ next) ∧
      (∃ x ∈ (page key limit cursor rows).1, key x = next) ∧
      rest key (some next) rows ≠ [] := by
  have hsorted := hrows.rest cursor
  unfold page at h ⊢
  simp only at h ⊢
  split at h
  case isFalse => cases h
  case isTrue hlt =>
    obtain ⟨last, hlast, rfl⟩ := Option.map_eq_some_iff.mp h
    have hmem : last ∈ (rest key cursor rows).take limit := mem_of_getLast? hlast
    have hsplit := take_append_drop limit (rest key cursor rows)
    have hsorted' := hsorted
    rw [Ordered, ← hsplit, pairwise_append] at hsorted'
    obtain ⟨htake, -, hcross⟩ := hsorted'
    have hle : ∀ x ∈ (rest key cursor rows).take limit, key x ≤ key last := by
      intro x hx
      obtain ⟨init, hinit⟩ := List.getLast?_eq_some_iff.mp hlast
      rw [hinit] at hx htake
      rcases mem_append.mp hx with hx | hx
      · exact le_of_lt ((pairwise_append.mp htake).2.2 x hx last (mem_singleton_self _))
      · rw [mem_singleton.mp hx]
    -- the rows behind the last one are the ones that were left
    have hdrop : rest key (some (key last)) rows = (rest key cursor rows).drop limit := by
      have hbehind : rest key (some (key last)) rows =
          (rest key cursor rows).filter fun x => decide (key last < key x) := by
        unfold rest
        rw [filter_filter]
        apply filter_congr
        intro x _
        by_cases hx : key last < key x
        · have hcursor := (mem_rest.mp (mem_of_mem_take hmem)).2
          have hall : cursor.all (fun c => decide (c < key x)) = true := by
            cases cursor with
            | none => rfl
            | some c => exact decide_eq_true (lt_trans (hcursor c rfl) hx)
          simp [hx, hall]
        · simp [hx]
      rw [hbehind]
      conv_lhs => rw [← hsplit]
      rw [filter_append, filter_eq_nil_iff.mpr, nil_append, filter_eq_self.mpr]
      · intro x hx
        exact decide_eq_true (hcross last hmem x hx)
      · intro x hx
        simpa using hle x hx
    refine ⟨by rw [hdrop, hsplit], hle, ⟨last, hmem, rfl⟩, ?_⟩
    rw [hdrop, Ne, drop_eq_nil_iff]
    omega

/-! ## All the pages -/

theorem follow_cons (key : α → κ) (limit : Nat) (cursor : Option κ) (rows : List α)
    (later : List (List α)) :
    ((page key limit cursor rows).2 = none ∧ follow key limit cursor (rows :: later) =
        ([(page key limit cursor rows).1], true)) ∨
      ∃ next, (page key limit cursor rows).2 = some next ∧
        follow key limit cursor (rows :: later) =
          ((page key limit cursor rows).1 :: (follow key limit (some next) later).1,
            (follow key limit (some next) later).2) := by
  rw [follow]
  rcases hpage : page key limit cursor rows with ⟨items, _ | next⟩
  · exact .inl ⟨rfl, rfl⟩
  · exact .inr ⟨next, rfl, rfl⟩

/-- Each page is from the table that its request met. -/
theorem follow_getElem {i : Nat} {items : List α}
    (h : (follow key limit cursor tables).1[i]? = some items) :
    items.length ≤ limit ∧ ∃ rows, tables[i]? = some rows ∧ ∀ x ∈ items, x ∈ rows := by
  induction tables generalizing cursor i with
  | nil => cases h
  | cons rows later ih =>
    have hfirst : (page key limit cursor rows).1.length ≤ limit ∧
        ∃ rows', (rows :: later)[0]? = some rows' ∧
          ∀ x ∈ (page key limit cursor rows).1, x ∈ rows' :=
      ⟨length_page, rows, rfl, fun x hx => (mem_page hx).1⟩
    rcases follow_cons key limit cursor rows later with ⟨-, hfollow⟩ | ⟨next, -, hfollow⟩
    · rw [hfollow] at h
      cases i with
      | zero =>
        cases h
        exact hfirst
      | succ i => cases h
    · rw [hfollow] at h
      cases i with
      | zero =>
        cases h
        exact hfirst
      | succ i => exact ih h

/-- The keys come in strictly increasing order, and all behind the cursor. -/
theorem follow_ordered (htables : ∀ rows ∈ tables, Ordered key rows) :
    Ordered key (follow key limit cursor tables).1.flatten ∧
      ∀ x ∈ (follow key limit cursor tables).1.flatten, ∀ c ∈ cursor, c < key x := by
  induction tables generalizing cursor with
  | nil =>
    refine ⟨List.Pairwise.nil, ?_⟩
    intro x hx
    cases hx
  | cons rows later ih =>
    have hrows : Ordered key rows := htables rows mem_cons_self
    have hfirst : Ordered key (page key limit cursor rows).1 :=
      (hrows.rest cursor).sublist (take_sublist _ _)
    rcases follow_cons key limit cursor rows later with ⟨-, hfollow⟩ | ⟨next, hnext, hfollow⟩
    · rw [hfollow]
      simp only [flatten_cons, flatten_nil, append_nil]
      exact ⟨hfirst, fun x hx => (mem_page hx).2⟩
    · obtain ⟨-, hle, ⟨y, hy, rfl⟩, -⟩ := page_append_of_some hrows hnext
      obtain ⟨hlater, hbehind⟩ := @ih (some (key y)) fun rows' hrows' =>
        htables rows' (mem_cons_of_mem _ hrows')
      rw [hfollow]
      constructor
      · apply pairwise_append.mpr
        refine ⟨hfirst, hlater, ?_⟩
        intro x hx z hz
        exact lt_of_le_of_lt (hle x hx) (hbehind z hz _ rfl)
      · intro x hx c hc
        rcases mem_append.mp hx with hx | hx
        · exact (mem_page hx).2 c hc
        · exact lt_trans ((mem_page hy).2 c hc) (hbehind x hx _ rfl)

/-- A key behind the cursor that is in every table that was asked is on one of the pages. -/
theorem mem_follow (hlimit : 0 < limit) (htables : ∀ rows ∈ tables, Ordered key rows)
    (hdone : (follow key limit cursor tables).2 = true) {k : κ} (hcursor : ∀ c ∈ cursor, c < k)
    (hk : ∀ rows ∈ tables.take (follow key limit cursor tables).1.length, k ∈ rows.map key) :
    k ∈ (follow key limit cursor tables).1.flatten.map key := by
  induction tables generalizing cursor with
  | nil => cases hdone
  | cons rows later ih =>
    have hrows : Ordered key rows := htables rows mem_cons_self
    rcases follow_cons key limit cursor rows later with ⟨hnext, hfollow⟩ | ⟨next, hnext, hfollow⟩
    · rw [hfollow] at hk ⊢
      obtain ⟨x, hx, rfl⟩ := mem_map.mp (hk rows mem_cons_self)
      simp only [flatten_cons, flatten_nil, append_nil]
      rw [page_eq_of_none hlimit hnext]
      exact mem_map_of_mem (mem_rest.mpr ⟨hx, hcursor⟩)
    · rw [hfollow] at hdone hk ⊢
      obtain ⟨happend, -, -, -⟩ := page_append_of_some hrows hnext
      obtain ⟨x, hx, rfl⟩ := mem_map.mp (hk rows mem_cons_self)
      have hmem : x ∈ rest key cursor rows := mem_rest.mpr ⟨hx, hcursor⟩
      simp only [flatten_cons, map_append, mem_append]
      rw [happend, mem_append] at hmem
      rcases hmem with hmem | hmem
      · exact .inl (mem_map_of_mem hmem)
      · -- it is behind this page, so a later one has it
        right
        apply ih (fun rows' hrows' => htables rows' (mem_cons_of_mem _ hrows')) hdone
        · exact (mem_rest.mp hmem).2
        · intro rows' hrows'
          exact hk rows' (mem_cons_of_mem _ hrows')

/-- On a table that does not change, enough requests give the table, and no empty page unless there
is nothing to show. -/
theorem follow_replicate (hlimit : 0 < limit) (hrows : Ordered key rows) {n : Nat}
    (hn : (rest key cursor rows).length < n) :
    (follow key limit cursor (List.replicate n rows)).2 = true ∧
      (follow key limit cursor (List.replicate n rows)).1.flatten = rest key cursor rows ∧
      (rest key cursor rows ≠ [] →
        ∀ items ∈ (follow key limit cursor (List.replicate n rows)).1, items ≠ []) := by
  induction n generalizing cursor with
  | zero => omega
  | succ n ih =>
    rw [replicate_succ]
    rcases follow_cons key limit cursor rows (List.replicate n rows) with
      ⟨hnext, hfollow⟩ | ⟨next, hnext, hfollow⟩
    · rw [hfollow, page_eq_of_none hlimit hnext]
      refine ⟨rfl, by simp, ?_⟩
      intro hne items hitems
      rw [mem_singleton.mp hitems]
      exact hne
    · obtain ⟨happend, -, ⟨y, hy, -⟩, hrest⟩ := page_append_of_some hrows hnext
      have hpos : 0 < (page key limit cursor rows).1.length := length_pos_of_mem hy
      have hlength := congrArg List.length happend
      rw [length_append] at hlength
      obtain ⟨hdone, hflatten, hnonempty⟩ := @ih (some next) (by omega)
      rw [hfollow]
      refine ⟨hdone, ?_, ?_⟩
      · simp only [flatten_cons]
        rw [hflatten, ← happend]
      · intro _ items hitems
        rcases mem_cons.mp hitems with rfl | hitems
        · exact ne_nil_of_mem hy
        · exact hnonempty hrest items hitems

end Paging

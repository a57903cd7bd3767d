import Mathlib.Data.List.Perm.Basic

/-!
# Lists in another order, at several levels

A list whose elements have lists inside can be reordered at each level. `Rearranged R` says that the
elements of two lists correspond in some order, and that the elements that correspond are related by
`R`, which may be such a relation again.
-/

namespace Rearrangement

open List

variable {α β γ : Type*} {R : α → α → Prop} {xs ys : List α}

def Rearranged (R : α → α → Prop) (xs ys : List α) : Prop :=
  ∃ zs, xs.Perm zs ∧ List.Forall₂ R zs ys

theorem Rearranged.of_perm (hR : ∀ x, R x x) (h : xs.Perm ys) : Rearranged R xs ys :=
  ⟨ys, h, forall₂_same.mpr fun x _ => hR x⟩

/-- What is collected from the elements is the same up to order. -/
theorem Rearranged.perm_flatMap {f : α → List β} (hf : ∀ x y, R x y → (f x).Perm (f y))
    (h : Rearranged R xs ys) : (xs.flatMap f).Perm (ys.flatMap f) := by
  obtain ⟨zs, hperm, hrel⟩ := h
  refine (hperm.flatMap_right f).trans ?_
  clear hperm
  induction hrel with
  | nil => exact .refl _
  | @cons z y zs ys hzy _ ih =>
    exact (hf z y hzy).append ih

/-- Two elements of a list without duplicates come in one order only. -/
theorem not_swapped {x y : α} (hnodup : xs.Nodup) (hxy : [x, y].Sublist xs) :
    ¬[y, x].Sublist xs := by
  intro hyx
  obtain ⟨front, back, rfl, hx, hy⟩ := cons_sublist_iff.mp hxy
  obtain ⟨front', back', happend, hy', hx'⟩ := cons_sublist_iff.mp hyx
  rw [singleton_sublist] at hy hx'
  have hdisjoint := (nodup_append.mp hnodup).2.2
  rw [happend, nodup_append] at hnodup
  rcases append_eq_append_iff.mp happend with ⟨middle, rfl, -⟩ | ⟨middle, rfl, -⟩
  · exact hnodup.2.2 x (mem_append_left middle hx) x hx' rfl
  · exact hdisjoint y (mem_append_left middle hy') y hy rfl

end Rearrangement

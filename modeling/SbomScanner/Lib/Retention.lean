import SbomScanner.Lib.Procedure

/-!
# Keeping the newest

A collection is cut back to a limit: it is sorted by one measure, and what comes first goes until no
more than the limit is left. Whether it is the oldest elements that go is another question if age is
not the measure that is sorted by.

`Due` says which elements are to go. The cut is right, in whatever order the elements come, iff each
element that is due is ahead of each that is not (`cut_iff`).
-/

namespace Retention

open List

variable {α β γ : Type} [LinearOrder β] [LinearOrder γ] {created : α → β} {measure : α → γ}
  {limit : Nat} {xs ys : List α} {x y : α}

variable (created limit) in
/-- The newer elements reach the limit by themselves. -/
def Due (xs : List α) (x : α) : Prop := limit ≤ xs.countP (created x < created ·)

instance instDecidablePredDue : DecidablePred (Due created limit xs) :=
  fun _ => inferInstanceAs (Decidable (_ ≤ _))

theorem due_perm (h : xs.Perm ys) : Due created limit xs x ↔ Due created limit ys x := by
  unfold Due
  rw [h.countP_eq]

/-- What is due is older than what is not. -/
theorem lt_of_due (hx : Due created limit xs x) (hy : ¬ Due created limit xs y) :
    created x < created y := by
  by_contra hle
  apply hy
  refine le_trans hx (countP_mono_left fun z _ hz => ?_)
  simp only [decide_eq_true_eq] at hz ⊢
  exact lt_of_le_of_lt (not_lt.mp hle) hz

/-- Nothing is due as long as the limit is not exceeded. -/
theorem not_due_of_length_le (hx : x ∈ xs) (h : xs.length ≤ limit) : ¬ Due created limit xs x := by
  have hlt : xs.countP (created x < created ·) < xs.length := by
    rw [countP_lt_length_iff]
    exact ⟨x, hx, by simp⟩
  exact not_le.mpr (lt_of_lt_of_le hlt h)

variable {k : Nat}

/-- Once a list is cut by age, it can be seen what is due. -/
theorem due_of_cut (hlength : xs.length = k + limit)
    (hcut : ∀ x ∈ xs.take k, ∀ y ∈ xs.drop k, created x < created y) :
    (∀ x ∈ xs.take k, Due created limit xs x) ∧ ∀ y ∈ xs.drop k, ¬ Due created limit xs y := by
  have hdrop : (xs.drop k).length = limit := by rw [length_drop]; omega
  have hsplit : ∀ p : α → Bool, xs.countP p = (xs.take k).countP p + (xs.drop k).countP p := by
    intro p
    rw [← countP_append, take_append_drop]
  constructor
  · intro x hx
    have hnewer : (xs.drop k).countP (created x < created ·) = (xs.drop k).length :=
      countP_eq_length.mpr fun y hy => decide_eq_true (hcut x hx y hy)
    rw [Due, hsplit]
    omega
  · intro y hy
    have holder : (xs.take k).countP (created y < created ·) = 0 :=
      countP_eq_zero.mpr fun x hx => by simpa using le_of_lt (hcut x hx y hy)
    have hrest : ¬ Due created limit (xs.drop k) y := not_due_of_length_le hy (le_of_eq hdrop)
    rwa [Due, hsplit, holder, Nat.zero_add]

/-- As many elements are due as exceed the limit. -/
theorem countP_due (hdistinct : (xs.map created).Nodup) (hlength : xs.length = k + limit) :
    xs.countP (fun x => Due created limit xs x) = k := by
  have hperm := perm_insertionSort (fun a b => created a ≤ created b) xs
  have hsorted := Accumulate.pairwise_insertionSort_lt hdistinct
  -- sorted by age, the list is cut where it should be
  generalize xs.insertionSort (fun a b => created a ≤ created b) = sorted at hperm hsorted
  have hsame : xs.countP (fun x => Due created limit xs x) =
      sorted.countP (fun x => Due created limit sorted x) := by
    rw [← hperm.countP_eq]
    simp only [due_perm hperm]
  obtain ⟨hold, hnew⟩ := due_of_cut (hperm.length_eq.trans hlength)
    fun x hx y hy => hsorted.rel_of_mem_take_of_mem_drop hx hy
  have htake : (sorted.take k).countP (fun x => Due created limit sorted x) = k := by
    rw [countP_eq_length.mpr fun x hx => decide_eq_true (hold x hx), length_take, hperm.length_eq]
    omega
  have hdrop : (sorted.drop k).countP (fun x => Due created limit sorted x) = 0 :=
    countP_eq_zero.mpr fun y hy => by simpa using hnew y hy
  rw [hsame, ← take_append_drop k sorted, countP_append, take_append_drop, htake,
    hdrop, Nat.add_zero]

/-- If the elements that are due are ahead of the others, they are where the cut is made. -/
theorem due_of_ahead (hdistinct : (xs.map created).Nodup) (hlength : xs.length = k + limit)
    (hsorted : xs.Pairwise fun a b => measure a ≤ measure b)
    (hahead : ∀ x ∈ xs, ∀ y ∈ xs, Due created limit xs x → ¬ Due created limit xs y →
      measure x < measure y) :
    (∀ x ∈ xs.take k, Due created limit xs x) ∧ ∀ y ∈ xs.drop k, ¬ Due created limit xs y := by
  have hcount := countP_due hdistinct hlength
  rw [← take_append_drop k xs, countP_append, take_append_drop] at hcount
  have htake : (xs.take k).length = k := by rw [length_take]; omega
  -- one that is due in the second part and one that is not in the first would be out of order
  have hnot : ∀ x ∈ xs.take k, ∀ y ∈ xs.drop k,
      ¬ Due created limit xs x → ¬ Due created limit xs y := by
    intro x hx y hy hnotdue hdue
    have hlt := hahead y (mem_of_mem_drop hy) x (mem_of_mem_take hx) hdue hnotdue
    exact absurd (hsorted.rel_of_mem_take_of_mem_drop hx hy) (not_le.mpr hlt)
  -- as many are due as the first part has room for
  have hall : ∀ x ∈ xs.take k, Due created limit xs x := by
    by_contra hsome
    push Not at hsome
    obtain ⟨x, hx, hnotdue⟩ := hsome
    have hzero : (xs.drop k).countP (fun y => Due created limit xs y) = 0 :=
      countP_eq_zero.mpr fun y hy => by simpa using hnot x hx y hy hnotdue
    have hlt : (xs.take k).countP (fun y => Due created limit xs y) < (xs.take k).length :=
      countP_lt_length_iff.mpr ⟨x, hx, by simpa using hnotdue⟩
    omega
  have hfull : (xs.take k).countP (fun x => Due created limit xs x) = (xs.take k).length :=
    countP_eq_length.mpr fun x hx => decide_eq_true (hall x hx)
  have hzero : (xs.drop k).countP (fun x => Due created limit xs x) = 0 := by omega
  exact ⟨hall, fun y hy => by simpa using countP_eq_zero.mp hzero y hy⟩

theorem mem_take_or_mem_drop (hx : x ∈ xs) : x ∈ xs.take k ∨ x ∈ xs.drop k := by
  rwa [← mem_append, take_append_drop]

theorem filter_notMem_append [DecidableEq α] (h : (xs ++ ys).Nodup) :
    (xs ++ ys).filter (· ∉ xs) = ys := by
  rw [filter_append, filter_eq_nil_iff.mpr (by simp), nil_append, filter_eq_self]
  intro y hy
  simpa using fun hin => (nodup_append.mp h).2.2 y hin y hy rfl

/-- What is left when the first elements are taken out. -/
theorem filter_notMem_take [DecidableEq α] (h : xs.Nodup) (k : Nat) :
    xs.filter (· ∉ xs.take k) = xs.drop k := by
  have hparts := (take_append_drop k xs).symm ▸ h
  simpa only [take_append_drop] using filter_notMem_append hparts

section Cut

variable {Loop : Type} (order : IterationOrder Loop) (loop : Loop)

variable (measure) in
/-- The elements by their measure. Of two with the same one either may come first. -/
def sorted (xs : List α) : List α :=
  (order.range loop xs).insertionSort fun a b => measure a ≤ measure b

theorem sorted_perm : (sorted measure order loop xs).Perm xs :=
  (perm_insertionSort _ _).trans (order.perm loop xs)

theorem pairwise_sorted :
    (sorted measure order loop xs).Pairwise fun a b => measure a ≤ measure b :=
  @pairwise_insertionSort _ _ _ ⟨fun a b => le_total (measure a) (measure b)⟩
    ⟨fun _ _ _ => le_trans⟩ _

/-- An element may come ahead of all others that have the same measure. -/
theorem exists_ahead (hy : y ∈ xs) : ∃ order : IterationOrder Loop,
    ∀ k, ∀ x ∈ (sorted measure order loop xs).take k, measure y ≤ measure x →
      y ∈ (sorted measure order loop xs).take k := by
  obtain ⟨order, before, after, hsort, hbefore⟩ :=
    IterationOrder.exists_sort_ahead (r := fun a b => measure a ≤ measure b) hy loop
  refine ⟨order, fun k x hx hle => ?_⟩
  rw [sorted, hsort, take_append, mem_append] at hx ⊢
  right
  cases hk : k - before.length with
  | zero =>
    rw [hk, take_zero] at hx
    have hin := hx.resolve_right not_mem_nil
    exact absurd hle (hbefore x (mem_of_mem_take hin))
  | succ n => exact mem_cons_self

/-- **The oldest elements are the ones that go.** With distinct ages, this is so in whatever order
the elements come iff each that is due is ahead of each that is not. -/
theorem cut_iff (hdistinct : (xs.map created).Nodup) :
    (∀ order : IterationOrder Loop,
      ∀ x ∈ (sorted measure order loop xs).take (xs.length - limit),
        ∀ y ∈ (sorted measure order loop xs).drop (xs.length - limit), created x < created y) ↔
      ∀ x ∈ xs, ∀ y ∈ xs, Due created limit xs x → ¬ Due created limit xs y →
        measure x < measure y := by
  rcases Nat.le_total xs.length limit with hle | hle
  · -- nothing goes, and nothing is due
    rw [Nat.sub_eq_zero_of_le hle]
    constructor
    · intro _ x hx _ _ hdue
      exact absurd hdue (not_due_of_length_le hx hle)
    · intro _ order x hx
      cases hx
  · have hlength : ∀ order : IterationOrder Loop,
        (sorted measure order loop xs).length = xs.length - limit + limit := by
      intro order
      rw [(sorted_perm order loop).length_eq]
      omega
    have hdue : ∀ (order : IterationOrder Loop) (x : α),
        Due created limit (sorted measure order loop xs) x ↔ Due created limit xs x :=
      fun order _ => due_perm (sorted_perm order loop)
    constructor
    · intro hcut x hx y hy hx_due hy_not
      -- the order in which the second element comes as early as it can
      obtain ⟨order, hahead⟩ : ∃ order : IterationOrder Loop,
          ∀ k, ∀ x ∈ (sorted measure order loop xs).take k, measure y ≤ measure x →
            y ∈ (sorted measure order loop xs).take k := exists_ahead loop hy
      obtain ⟨hold, hnew⟩ := due_of_cut (hlength order) (hcut order)
      by_contra hle
      have hfirst : x ∈ (sorted measure order loop xs).take (xs.length - limit) := by
        refine (mem_take_or_mem_drop ((sorted_perm order loop).mem_iff.mpr hx)).resolve_right ?_
        exact fun hx_new => hnew x hx_new ((hdue order x).mpr hx_due)
      exact hy_not ((hdue order y).mp (hold y (hahead _ x hfirst (not_lt.mp hle))))
    · intro hahead order x hx y hy
      have hperm : (sorted measure order loop xs).Perm xs := sorted_perm order loop
      obtain ⟨hold, hnew⟩ := due_of_ahead ((hperm.map created).nodup_iff.mpr hdistinct)
        (hlength order) (pairwise_sorted order loop) (by simpa only [hperm.mem_iff, hdue])
      exact lt_of_due (hold x hx) (hnew y hy)

end Cut

end Retention

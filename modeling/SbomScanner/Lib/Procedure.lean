import Mathlib.Data.Finset.Basic
import Mathlib.Data.List.Rotate
import Mathlib.Data.List.Sort
import Mathlib.Data.List.TakeWhile

/-!
# Procedures

A procedure works on a state and may stop with an error; what it has changed by then stays changed.
`Returns p s a s'` says that `p`, started in `s`, comes to its end with the result `a` and leaves
the state `s'`. The rules below take a procedure apart, and `returns_forM` is the rule for its
loops. Where a procedure may stop early and others go on from the state it leaves, `Keeps` says what
holds of that state in any case, and `Ends` what holds of it together with the result or the error;
`Raises` is about the error alone.

The loops of such a program often run over a map or a set, in an order the language does not fix.
An `IterationOrder` fixes one for every loop.

A computation without a state that may stop with an error is an `Except`; `bind_eq_ok` and
`mapM_eq_ok` take one apart that has come to its end, and `Refines` compares two of which one fails
now and then.

A loop without effects is a fold. The section on accumulators has what is needed of the usual ones:
a loop that appends what it keeps, and a loop after which a property holds iff one of its elements
has brought it about.
-/

/-- An order for each loop over an unordered collection. -/
structure IterationOrder (Loop : Type) where
  range : {α : Type} → Loop → List α → List α
  perm : ∀ {α : Type} (loop : Loop) (xs : List α), (range loop xs).Perm xs

open List

namespace IterationOrder

variable {Loop α : Type} (order : IterationOrder Loop) {loop : Loop} {xs : List α}

variable {x : α}

@[simp]
theorem mem_range : x ∈ order.range loop xs ↔ x ∈ xs := (order.perm loop xs).mem_iff

theorem nodup_range : (order.range loop xs).Nodup ↔ xs.Nodup := (order.perm loop xs).nodup_iff

def elements [LinearOrder α] (loop : Loop) (s : Finset α) : List α :=
  order.range loop (Quot.liftOn s.val (List.insertionSort (· ≤ ·)) fun xs ys h =>
    (((perm_insertionSort _ xs).trans h).trans
      (perm_insertionSort _ ys).symm).eq_of_pairwise'
        (pairwise_insertionSort _ xs) (pairwise_insertionSort _ ys))

@[simp]
theorem mem_elements [LinearOrder α] {s : Finset α} :
    x ∈ order.elements loop s ↔ x ∈ s := by
  obtain ⟨⟨xs⟩, h⟩ := s
  rw [elements, mem_range]
  exact mem_insertionSort _

theorem nodup_elements [LinearOrder α] {s : Finset α} : (order.elements loop s).Nodup := by
  obtain ⟨⟨xs⟩, h⟩ := s
  rw [elements, nodup_range]
  exact (perm_insertionSort _ xs).nodup_iff.mpr h

/-- The order in which the collection is represented. -/
def asStored : IterationOrder Loop where
  range _ xs := xs
  perm _ _ := .refl _

variable {r : α → α → Prop}

/-- Sorting what comes in no order: the first element is a least one. -/
theorem least_of_head?_sort [DecidableRel r] [Std.Total r] [IsTrans α r]
    (h : ((order.range loop xs).insertionSort r).head? = some x) : x ∈ xs ∧ ∀ y ∈ xs, r x y := by
  obtain ⟨rest, hrest⟩ := List.head?_eq_some_iff.mp h
  have hmem : ∀ y, y ∈ xs ↔ y ∈ x :: rest := by
    intro y
    rw [← hrest, mem_insertionSort, mem_range]
  have hsorted : (x :: rest).Pairwise r := hrest ▸ pairwise_insertionSort r _
  refine ⟨(hmem x).mpr mem_cons_self, fun y hy => ?_⟩
  rcases mem_cons.mp ((hmem y).mp hy) with rfl | hin
  · exact (Std.Total.total (r := r) y y).elim id id
  · exact rel_of_pairwise_cons hsorted hin

/-- In some order, an element comes ahead of all others that need not come before it. -/
theorem exists_sort_ahead [DecidableRel r] (hx : x ∈ xs) (loop : Loop) :
    ∃ (order : IterationOrder Loop) (before after : List α),
      (order.range loop xs).insertionSort r = before ++ x :: after ∧ ∀ y ∈ before, ¬ r x y := by
  obtain ⟨front, back, rfl⟩ := append_of_mem hx
  -- the element is visited first, and the insertion of the first element comes last
  refine ⟨⟨fun _ ys => ys.rotate front.length, fun _ ys => rotate_perm ys _⟩,
    ((back ++ front).insertionSort r).takeWhile (¬ r x ·),
    ((back ++ front).insertionSort r).dropWhile (¬ r x ·), ?_, ?_⟩
  · show ((front ++ x :: back).rotate front.length).insertionSort r = _
    rw [rotate_append_length_eq, cons_append, insertionSort_cons, orderedInsert_eq_take_drop]
  · intro y hy
    simpa using mem_takeWhile_imp hy

/-- Any of the least elements comes out first in some order. -/
theorem exists_head?_sort [DecidableRel r] (hx : x ∈ xs) (hr : ∀ y ∈ xs, r x y) (loop : Loop) :
    ∃ order : IterationOrder Loop, ((order.range loop xs).insertionSort r).head? = some x := by
  obtain ⟨order, before, after, hsort, hbefore⟩ := exists_sort_ahead (r := r) hx loop
  refine ⟨order, ?_⟩
  cases before with
  | nil => rw [hsort, nil_append, List.head?_cons]
  | cons y rest =>
    have hy : y ∈ xs := by
      rw [← (order.perm loop xs).mem_iff, ← mem_insertionSort r, hsort]
      exact mem_cons_self
    exact absurd (hr y hy) (hbefore y mem_cons_self)

end IterationOrder

abbrev Procedure (ε σ : Type) := ExceptT ε (StateM σ)

namespace Procedure

variable {ε σ α β : Type} {s s' : σ}

def Returns (p : Procedure ε σ α) (s : σ) (a : α) (s' : σ) : Prop := p.run.run s = (.ok a, s')

variable {p : Procedure ε σ α} {a : α} {t : σ}

theorem Returns.unique {b : α} (h : Returns p s a s') (h' : Returns p s b t) : a = b ∧ s' = t := by
  unfold Returns at h h'
  rw [h] at h'
  cases h'
  exact ⟨rfl, rfl⟩

@[simp]
theorem returns_pure {b : α} :
    Returns (pure a : Procedure ε σ α) s b s' ↔ b = a ∧ s' = s := by
  constructor
  · intro h
    cases h
    exact ⟨rfl, rfl⟩
  · rintro ⟨rfl, rfl⟩
    rfl

variable {f : α → Procedure ε σ β}

theorem run_bind :
    (p >>= f).run.run s =
      match p.run.run s with
      | (.ok a, t) => (f a).run.run t
      | (.error e, t) => (.error e, t) := by
  simp only [ExceptT.run_bind, StateT.run_bind]
  rcases p.run.run s with ⟨a | e, t⟩ <;> rfl

theorem run_bind_of_returns (h : Returns p s a t) : (p >>= f).run.run s = (f a).run.run t := by
  rw [run_bind, h]

@[simp]
theorem returns_bind {b : β} :
    Returns (p >>= f) s b s' ↔ ∃ a t, Returns p s a t ∧ Returns (f a) t b s' := by
  unfold Returns
  rw [run_bind]
  rcases p.run.run s with ⟨e | a, t⟩
  · constructor
    · intro h
      cases h
    · rintro ⟨_, _, hp, -⟩
      cases hp
  · constructor
    · intro h
      exact ⟨a, t, rfl, h⟩
    · rintro ⟨a', t', hp, h⟩
      cases hp
      exact h

variable {e : ε}

@[simp]
theorem not_returns_throw : ¬Returns (throw e : Procedure ε σ α) s a s' := by
  intro h
  cases h

@[simp]
theorem returns_get {a : σ} : Returns (get : Procedure ε σ σ) s a s' ↔ a = s ∧ s' = s := by
  constructor
  · intro h
    cases h
    exact ⟨rfl, rfl⟩
  · rintro ⟨rfl, rfl⟩
    rfl

@[simp]
theorem returns_set {u : PUnit} :
    Returns (set t : Procedure ε σ PUnit) s u s' ↔ s' = t := by
  constructor
  · intro h
    cases h
    rfl
  · rintro rfl
    rfl

def Throws (p : Procedure ε σ α) (s : σ) (e : ε) (s' : σ) : Prop := p.run.run s = (.error e, s')

theorem throws_bind :
    Throws (p >>= f) s e s' ↔ Throws p s e s' ∨ ∃ a t, Returns p s a t ∧ Throws (f a) t e s' := by
  unfold Throws Returns
  rw [run_bind]
  rcases p.run.run s with ⟨e' | a, t⟩
  · constructor
    · intro h
      cases h
      exact .inl rfl
    · rintro (h | ⟨_, _, hp, -⟩)
      · cases h
        rfl
      · cases hp
  · constructor
    · intro h
      exact .inr ⟨a, t, rfl, h⟩
    · rintro (h | ⟨a', t', hp, h⟩)
      · cases h
      · cases hp
        exact h

@[simp]
theorem returns_map {f : α → β} {b : β} :
    Returns (f <$> p) s b s' ↔ ∃ a, Returns p s a s' ∧ b = f a := by
  rw [map_eq_pure_bind, returns_bind]
  simp only [returns_pure]
  constructor
  · rintro ⟨a, t, hp, rfl, rfl⟩
    exact ⟨a, hp, rfl⟩
  · rintro ⟨a, hp, rfl⟩
    exact ⟨a, s', hp, rfl, rfl⟩

@[simp]
theorem throws_map {f : α → β} :
    Throws (f <$> p) s e s' ↔ Throws p s e s' := by
  unfold Throws
  rw [map_eq_pure_bind, run_bind]
  rcases p.run.run s with ⟨e' | a, t⟩
  · constructor <;> (intro h; cases h; rfl)
  · constructor <;> (intro h; cases h)

theorem run_tryCatch {f : ε → Procedure ε σ α} :
    (tryCatch p f).run.run s =
      match p.run.run s with
      | (.ok a, t) => (.ok a, t)
      | (.error e, t) => (f e).run.run t := by
  simp only [tryCatch, tryCatchThe, MonadExceptOf.tryCatch, ExceptT.tryCatch, ExceptT.run_mk,
    StateT.run_bind]
  show (p.run.run s >>= _) = _
  rcases p.run.run s with ⟨a | e, t⟩ <;> rfl

theorem returns_tryCatch {f : ε → Procedure ε σ α} :
    Returns (tryCatch p f) s a s' ↔
      Returns p s a s' ∨ ∃ e t, Throws p s e t ∧ Returns (f e) t a s' := by
  unfold Returns Throws
  rw [run_tryCatch]
  rcases p.run.run s with ⟨e | a', t⟩
  · constructor
    · intro h
      exact .inr ⟨e, t, rfl, h⟩
    · rintro (h | ⟨e', t', he, h⟩)
      · cases h
      · cases he
        exact h
  · constructor
    · exact .inl
    · rintro (h | ⟨e', t', he, -⟩)
      · exact h
      · cases he

/-- Adds to the error with which the procedure stops. -/
def mapError (f : ε → ε) (p : Procedure ε σ α) : Procedure ε σ α :=
  tryCatch p fun e => throw (f e)

@[simp]
theorem run_mapError_snd {f : ε → ε} :
    ((mapError f p).run.run s).2 = (p.run.run s).2 := by
  rw [mapError, run_tryCatch]
  rcases p.run.run s with ⟨e | a, t⟩ <;> rfl

@[simp]
theorem returns_mapError {f : ε → ε} :
    Returns (mapError f p) s a s' ↔ Returns p s a s' := by
  rw [mapError, returns_tryCatch]
  constructor
  · rintro (h | ⟨e, t, -, h⟩)
    · exact h
    · exact absurd h not_returns_throw
  · exact .inl

variable {ι : Type*} {xs : List ι}

/-- **The rule for loops.** What holds of the part of the list that has been visited, and is kept by
a visit to the next element, holds of the whole list at the end. -/
theorem returns_forM {f : ι → Procedure ε σ PUnit} {I : List ι → σ → Prop} {u : PUnit}
    (hf : ∀ {visited x s s'}, visited ++ [x] <+: xs → I visited s → Returns (f x) s ⟨⟩ s' →
      I (visited ++ [x]) s') (h : Returns (xs.forM f) s u s') (hI : I [] s) :
    I xs s' := by
  -- the list splits into what has been visited and what is still to come
  have hrest : ∀ visited rest s, visited ++ rest = xs → I visited s →
      Returns (rest.forM f) s u s' → I xs s' := by
    intro visited rest
    induction rest generalizing visited with
    | nil =>
      intro s hxs hI h
      obtain ⟨-, rfl⟩ := returns_pure.mp h
      rw [append_nil] at hxs
      exact hxs ▸ hI
    | cons x rest ih =>
      intro s hxs hI h
      obtain ⟨_, t, hx, ht⟩ := returns_bind.mp h
      have hsplit : (visited ++ [x]) ++ rest = xs := by rw [← hxs, append_assoc]; rfl
      exact ih (visited ++ [x]) t hsplit (hf ⟨rest, hsplit⟩ hI hx) ht
  exact hrest [] xs s rfl hI h

theorem exists_returns_forM {f : ι → Procedure ε σ PUnit}
    (hf : ∀ x ∈ xs, ∀ s, ∃ s', Returns (f x) s ⟨⟩ s') (s : σ) :
    ∃ s', Returns (xs.forM f) s ⟨⟩ s' := by
  induction xs generalizing s with
  | nil => exact ⟨s, rfl⟩
  | cons x xs ih =>
    obtain ⟨t, ht⟩ := hf x mem_cons_self s
    obtain ⟨s', hs'⟩ := ih (fun y hy => hf y (mem_cons_of_mem x hy)) t
    exact ⟨s', returns_bind.mpr ⟨⟨⟩, t, ht, hs'⟩⟩

theorem returns_ofExcept {x : Except ε α} :
    Returns (MonadExcept.ofExcept x : Procedure ε σ α) s a s' ↔ x = .ok a ∧ s' = s := by
  cases x with
  | error e =>
    constructor
    · exact fun h => absurd h not_returns_throw
    · rintro ⟨h, -⟩
      cases h
  | ok b =>
    refine returns_pure.trans (and_congr_left fun _ => ?_)
    rw [Except.ok.injEq, eq_comm]

/-- Tries again when the procedure stops with an error of a certain kind, with this many attempts
after the first one. -/
def retry (again : ε → Bool) (perform : Nat → Procedure ε σ α) : Nat → Procedure ε σ α
  | 0 => perform 0
  | retries + 1 => tryCatch (perform (retries + 1)) fun e =>
    if again e then retry again perform retries else throw e

variable {again : ε → Bool} {perform : Nat → Procedure ε σ α}

theorem returns_retry {retries : Nat} (h : Returns (retry again perform retries) s a s') :
    ∃ attempt t, Returns (perform attempt) t a s' := by
  induction retries generalizing s with
  | zero => exact ⟨0, s, h⟩
  | succ retries ih =>
    rcases returns_tryCatch.mp h with hfirst | ⟨e, t, -, hlater⟩
    · exact ⟨retries + 1, s, hfirst⟩
    · split at hlater
      · exact ih hlater
      · exact absurd hlater not_returns_throw

theorem returns_retry_of {retries : Nat} (h : Returns (perform retries) s a s') :
    Returns (retry again perform retries) s a s' := by
  cases retries with
  | zero => exact h
  | succ retries => exact returns_tryCatch.mpr (.inl h)

/-! ### What holds whether or not the procedure comes to its end -/

/-- However the procedure stops, it keeps `I`; and a result it returns has the property `Q`. -/
def Keeps (I : σ → Prop) (p : Procedure ε σ α) (Q : α → Prop) : Prop :=
  ∀ s, I s → I (p.run.run s).2 ∧ ∀ a s', Returns p s a s' → Q a

variable {I : σ → Prop} {Q : α → Prop} {R : β → Prop}

theorem Keeps.returns (h : Keeps I p Q) (hs : I s) (hp : Returns p s a s') : I s' ∧ Q a := by
  obtain ⟨hkept, hresult⟩ := h s hs
  rw [hp] at hkept
  exact ⟨hkept, hresult a s' hp⟩

theorem Keeps.mono {R : α → Prop} (h : Keeps I p Q) (hQ : ∀ a, Q a → R a) : Keeps I p R :=
  fun s hs => ⟨(h s hs).1, fun a s' ha => hQ a ((h s hs).2 a s' ha)⟩

theorem Keeps.and_returns {R : α → Prop} (h : Keeps I p Q) (hR : ∀ s a s', Returns p s a s' → R a) :
    Keeps I p fun a => Q a ∧ R a :=
  fun s hs => ⟨(h s hs).1, fun a s' ha => ⟨(h s hs).2 a s' ha, hR s a s' ha⟩⟩

theorem keeps_pure (h : Q a) : Keeps I (pure a : Procedure ε σ α) Q := by
  intro s hs
  refine ⟨hs, fun b s' hb => ?_⟩
  rw [(returns_pure.mp hb).1]
  exact h

theorem keeps_throw : Keeps I (throw e : Procedure ε σ α) Q :=
  fun _ hs => ⟨hs, fun _ _ hb => absurd hb not_returns_throw⟩

theorem keeps_get : Keeps I (get : Procedure ε σ σ) I := by
  intro s hs
  refine ⟨hs, fun b s' hb => ?_⟩
  rw [(returns_get.mp hb).1]
  exact hs

theorem keeps_set (h : I t) : Keeps I (set t : Procedure ε σ PUnit) fun _ => True :=
  fun _ _ => ⟨h, fun _ _ _ => trivial⟩

/-- After a first step that brings about more, more is kept. -/
theorem keeps_bind_of_le {J : σ → Prop} (hp : Keeps I p Q)
    (hmore : ∀ s a s', I s → Returns p s a s' → J s') (hle : ∀ s, J s → I s)
    (hf : ∀ a, Q a → Keeps J (f a) R) : Keeps I (p >>= f) R := by
  intro s hs
  obtain ⟨hkeeps, hresult⟩ := hp s hs
  rw [run_bind]
  rcases hrun : p.run.run s with ⟨e | a, t⟩
  · rw [hrun] at hkeeps
    refine ⟨hkeeps, fun b s' hb => ?_⟩
    obtain ⟨a, t', ha, -⟩ := returns_bind.mp hb
    rw [Returns, hrun] at ha
    cases ha
  · have hfa := hf a (hresult a t hrun) t (hmore s a t hs hrun)
    refine ⟨hle _ hfa.1, fun b s' hb => ?_⟩
    obtain ⟨a', t', ha, hb⟩ := returns_bind.mp hb
    rw [Returns, hrun] at ha
    cases ha
    exact hfa.2 b s' hb

theorem keeps_bind (hp : Keeps I p Q) (hf : ∀ a, Q a → Keeps I (f a) R) : Keeps I (p >>= f) R :=
  keeps_bind_of_le hp (fun _ _ _ hs ha => (hp.returns hs ha).1) (fun _ h => h) hf

theorem keeps_map {f : α → β} (hp : Keeps I p fun a => R (f a)) :
    Keeps I (f <$> p) R := by
  exact keeps_bind hp fun _ ha => keeps_pure ha

theorem keeps_tryCatch {f : ε → Procedure ε σ α} (hp : Keeps I p Q) (hf : ∀ e, Keeps I (f e) Q) :
    Keeps I (tryCatch p f) Q := by
  intro s hs
  obtain ⟨hkeeps, hresult⟩ := hp s hs
  rw [run_tryCatch]
  rcases hrun : p.run.run s with ⟨e | a, t⟩
  · rw [hrun] at hkeeps
    have hfe := hf e t hkeeps
    refine ⟨hfe.1, fun b s' hb => ?_⟩
    rcases returns_tryCatch.mp hb with hb | ⟨e', t', he, hb⟩
    · exact hresult b s' hb
    · rw [Throws, hrun] at he
      cases he
      exact hfe.2 b s' hb
  · rw [hrun] at hkeeps
    refine ⟨hkeeps, fun b s' hb => ?_⟩
    rcases returns_tryCatch.mp hb with hb | ⟨e', t', he, -⟩
    · exact hresult b s' hb
    · rw [Throws, hrun] at he
      cases he

theorem keeps_forM {f : ι → Procedure ε σ PUnit} (h : ∀ x ∈ xs, Keeps I (f x) fun _ => True) :
    Keeps I (xs.forM f) fun _ => True := by
  induction xs with
  | nil => exact keeps_pure trivial
  | cons x xs ih =>
    refine keeps_bind (h x mem_cons_self) fun _ _ => ih fun y hy => ?_
    exact h y (mem_cons_of_mem x hy)

theorem keeps_retry (h : ∀ attempt, Keeps I (perform attempt) Q) (retries : Nat) :
    Keeps I (retry again perform retries) Q := by
  induction retries with
  | zero => exact h 0
  | succ retries ih =>
    refine keeps_tryCatch (h _) fun e => ?_
    split
    · exact ih
    · exact keeps_throw

/-! ### The errors of a procedure -/

/-- Wherever it is started, the procedure stops with errors of this kind only. -/
def Raises (p : Procedure ε σ α) (E : ε → Prop) : Prop := ∀ s e s', Throws p s e s' → E e

section Raises

variable {E : ε → Prop}

theorem raises_pure {a : α} : Raises (pure a : Procedure ε σ α) E := by
  intro s e s' h
  cases h

theorem raises_throw {e : ε} (h : E e) : Raises (throw e : Procedure ε σ α) E := by
  intro s e' s' hthrow
  cases hthrow
  exact h

variable {p : Procedure ε σ α}

theorem raises_bind {f : α → Procedure ε σ β} (hp : Raises p E)
    (hf : ∀ {s a s'}, Returns p s a s' → Raises (f a) E) : Raises (p >>= f) E := by
  intro s e s' h
  rcases throws_bind.mp h with hfirst | ⟨a, t, ha, hsecond⟩
  · exact hp s e s' hfirst
  · exact hf ha t e s' hsecond

theorem raises_tryCatch {f : ε → Procedure ε σ α} {E' : ε → Prop} (hp : Raises p E')
    (hf : ∀ e, E' e → Raises (f e) E) : Raises (tryCatch p f) E := by
  intro s e s' h
  unfold Throws at h
  rw [run_tryCatch] at h
  rcases hrun : p.run.run s with ⟨e' | a, t⟩
  · rw [hrun] at h
    exact hf e' (hp s e' t hrun) t e s' h
  · rw [hrun] at h
    cases h

end Raises

/-! ### What holds of the end, whichever it is -/

/-- The result or the error of the procedure and the state it leaves are as `Q` says. -/
def Ends (p : Procedure ε σ α) (s : σ) (Q : Except ε α → σ → Prop) : Prop :=
  Q (p.run.run s).1 (p.run.run s).2

variable {Q : Except ε α → σ → Prop}

@[simp]
theorem ends_pure : Ends (pure a : Procedure ε σ α) s Q ↔ Q (.ok a) s := Iff.rfl

@[simp]
theorem ends_throw : Ends (throw e : Procedure ε σ α) s Q ↔ Q (.error e) s := Iff.rfl

@[simp]
theorem ends_get {Q : Except ε σ → σ → Prop} :
    Ends (get : Procedure ε σ σ) s Q ↔ Q (.ok s) s := Iff.rfl

@[simp]
theorem ends_set {Q : Except ε PUnit → σ → Prop} :
    Ends (set t : Procedure ε σ PUnit) s Q ↔ Q (.ok ⟨⟩) t := Iff.rfl

theorem Ends.mono {R : Except ε α → σ → Prop} (h : Ends p s Q) (hQ : ∀ r t, Q r t → R r t) :
    Ends p s R := hQ _ _ h

/-- What the second procedure needs is what the first has to bring about. -/
theorem ends_bind {R : Except ε β → σ → Prop} :
    Ends (p >>= f) s R ↔ Ends p s fun r t =>
      match r with
      | .ok a => Ends (f a) t R
      | .error e => R (.error e) t := by
  unfold Ends
  rw [run_bind]
  rcases p.run.run s with ⟨e | a, t⟩ <;> exact Iff.rfl

theorem ends_tryCatch {f : ε → Procedure ε σ α} :
    Ends (tryCatch p f) s Q ↔ Ends p s fun r t =>
      match r with
      | .ok a => Q (.ok a) t
      | .error e => Ends (f e) t Q := by
  unfold Ends
  rw [run_tryCatch]
  rcases p.run.run s with ⟨e | a, t⟩ <;> exact Iff.rfl

end Procedure

namespace Fallible

variable {ε α β : Type}

variable {f : α → Except ε β} {x : Except ε α}

theorem bind_eq_ok {b : β} :
    x >>= f = .ok b ↔ ∃ a, x = .ok a ∧ f a = .ok b := by
  cases x with
  | error e =>
    constructor
    · intro h
      cases h
    · rintro ⟨a, h, -⟩
      cases h
  | ok a =>
    constructor
    · intro h
      exact ⟨a, rfl, h⟩
    · rintro ⟨a', h, hf⟩
      cases h
      exact hf

theorem map_eq_ok {f : α → β} {b : β} :
    x.map f = .ok b ↔ ∃ a, x = .ok a ∧ f a = b := by
  cases x <;> simp [Except.map]

theorem mapError_eq_ok {ε' : Type} {f : ε → ε'} {a : α} :
    x.mapError f = .ok a ↔ x = .ok a := by
  cases x <;> simp [Except.mapError]

theorem eq_ok_of_toOption {a : α} (h : x.toOption = some a) : x = .ok a := by
  cases x with
  | error e => cases h
  | ok b =>
    cases h
    rfl

variable {xs : List α} {ys : List β}

theorem mapM_eq_ok :
    xs.mapM f = .ok ys ↔ List.Forall₂ (fun x y => f x = .ok y) xs ys := by
  induction xs generalizing ys with
  | nil =>
    constructor
    · intro h
      cases h
      exact .nil
    · intro h
      cases h
      rfl
  | cons x xs ih =>
    rw [mapM_cons, bind_eq_ok]
    constructor
    · rintro ⟨y, hy, h⟩
      obtain ⟨rest, hrest, h⟩ := bind_eq_ok.mp h
      cases h
      exact .cons hy (ih.mp hrest)
    · intro h
      cases h with
      | @cons _ y _ rest hy hrest =>
        exact ⟨y, hy, bind_eq_ok.mpr ⟨rest, ih.mpr hrest, rfl⟩⟩

variable {R : α → β → Prop}

/-- A loop that skips some elements and adds one result for each of the others to what it has
collected. -/
theorem foldlM_collect {step : List β → α → Except ε (List β)} {p : α → Bool}
    (hskip : ∀ acc x, p x = false → step acc x = .ok acc)
    (hstep : ∀ acc x out, p x = true → step acc x = .ok out → ∃ y, R x y ∧ out = acc ++ [y])
    {acc out : List β} (h : xs.foldlM step acc = .ok out) :
    ∃ ys, List.Forall₂ R (xs.filter p) ys ∧ out = acc ++ ys := by
  induction xs generalizing acc with
  | nil =>
    cases h
    exact ⟨[], .nil, (append_nil _).symm⟩
  | cons x xs ih =>
    obtain ⟨mid, hmid, hrest⟩ := bind_eq_ok.mp h
    obtain ⟨ys, hys, rfl⟩ := ih hrest
    cases hp : p x with
    | false =>
      have hsame : acc = mid := Except.ok.inj ((hskip acc x hp).symm.trans hmid)
      rw [filter_cons_of_neg (by simp [hp]), hsame]
      exact ⟨ys, hys, rfl⟩
    | true =>
      obtain ⟨y, hy, rfl⟩ := hstep acc x mid hp hmid
      rw [filter_cons_of_pos hp]
      exact ⟨y :: ys, .cons hy hys, by rw [append_assoc, singleton_append]⟩

theorem exists_of_forall₂ (h : List.Forall₂ R xs ys) {x : α} (hx : x ∈ xs) :
    ∃ y ∈ ys, R x y := by
  induction h with
  | nil => cases hx
  | cons hR _ ih =>
    rcases mem_cons.mp hx with rfl | hin
    · exact ⟨_, mem_cons_self, hR⟩
    · obtain ⟨y, hy, hR⟩ := ih hin
      exact ⟨y, mem_cons_of_mem _ hy, hR⟩

/-- Each element has a result, … -/
theorem exists_mem_of_mapM (h : xs.mapM f = .ok ys) {x : α} (hx : x ∈ xs) : ∃ y ∈ ys, f x = .ok y :=
  exists_of_forall₂ (mapM_eq_ok.mp h) hx

/-- … and each result is that of an element. -/
theorem exists_of_mem_mapM (h : xs.mapM f = .ok ys) {y : β} (hy : y ∈ ys) : ∃ x ∈ xs, f x = .ok y :=
  exists_of_forall₂ (mapM_eq_ok.mp h).flip hy

theorem exists_mapM_eq_ok (h : ∀ x ∈ xs, ∃ y, f x = .ok y) :
    ∃ ys, xs.mapM f = .ok ys := by
  induction xs with
  | nil => exact ⟨[], rfl⟩
  | cons x xs ih =>
    obtain ⟨y, hy⟩ := h x mem_cons_self
    obtain ⟨ys, hys⟩ := ih fun x' hx' => h x' (mem_cons_of_mem x hx')
    exact ⟨y :: ys, mapM_eq_ok.mpr (.cons hy (mapM_eq_ok.mp hys))⟩

/-- What is read off the results can be read off the elements. -/
theorem map_of_mapM {γ : Type} {g : β → γ} {g' : α → γ} (hg : ∀ x y, f x = .ok y → g y = g' x)
    (h : xs.mapM f = .ok ys) :
    ys.map g = xs.map g' := by
  replace h := mapM_eq_ok.mp h
  induction h with
  | nil => rfl
  | cons hy _ ih => rw [map_cons, map_cons, ih, hg _ _ hy]

theorem map_toOption_of_mapM (h : xs.mapM f = .ok ys) :
    ys.map some = xs.map fun x => (f x).toOption := by
  refine map_of_mapM (fun x y hy => ?_) h
  rw [hy]
  rfl

/-- The order of the passes shows in that of the results only. -/
theorem perm_of_mapM {xs' : List α} (h : xs.mapM f = .ok ys)
    (hperm : (xs.map fun x => (f x).toOption).Perm (xs'.map fun x => (f x).toOption)) :
    ∃ ys', xs'.mapM f = .ok ys' ∧ ys.Perm ys' := by
  rw [← map_toOption_of_mapM h] at hperm
  have hok : ∀ x ∈ xs', ∃ y, f x = .ok y := by
    intro x hx
    have hmem : (f x).toOption ∈ xs'.map fun x => (f x).toOption := mem_map_of_mem hx
    obtain ⟨y, -, hy⟩ := mem_map.mp (hperm.mem_iff.mpr hmem)
    exact ⟨y, eq_ok_of_toOption hy.symm⟩
  obtain ⟨ys', hys'⟩ := exists_mapM_eq_ok hok
  rw [← map_toOption_of_mapM hys', map_perm_map_iff (Option.some_injective β)] at hperm
  exact ⟨ys', hys', hperm⟩

/-- A loop stops at the first of its passes that does. -/
theorem mapM_eq_error {e : ε} :
    xs.mapM f = .error e ↔ ∃ before x after, xs = before ++ x :: after ∧
      (∀ y ∈ before, ∃ b, f y = .ok b) ∧ f x = .error e := by
  induction xs with
  | nil =>
    constructor
    · intro h
      cases h
    · rintro ⟨before, x, after, heq, -⟩
      simp at heq
  | cons x xs ih =>
    rw [mapM_cons]
    cases hx : f x with
    | error e' =>
      constructor
      · intro h
        cases h
        exact ⟨[], x, xs, rfl, by simp, hx⟩
      · rintro ⟨before, x', after, heq, hbefore, hx'⟩
        cases before with
        | nil =>
          cases heq
          cases hx.symm.trans hx'
          rfl
        | cons _ before =>
          cases heq
          obtain ⟨b, hb⟩ := hbefore x mem_cons_self
          cases hx.symm.trans hb
    | ok b =>
      have hrest : ((.ok b : Except ε β) >>= fun b => xs.mapM f >>= fun bs => pure (b :: bs)) =
          .error e ↔ xs.mapM f = .error e := by
        cases xs.mapM f with
        | error e' => exact Iff.rfl
        | ok bs => exact ⟨nofun, nofun⟩
      rw [hrest, ih]
      constructor
      · rintro ⟨before, x', after, rfl, hbefore, hx'⟩
        exact ⟨x :: before, x', after, rfl, forall_mem_cons.mpr ⟨⟨b, hx⟩, hbefore⟩, hx'⟩
      · rintro ⟨before, x', after, heq, hbefore, hx'⟩
        cases before with
        | nil =>
          cases heq
          cases hx.symm.trans hx'
        | cons _ before =>
          cases heq
          exact ⟨before, x', after, rfl, fun y hy => hbefore y (mem_cons_of_mem _ hy), hx'⟩

/-! ### Computations that fail now and then -/

section Refines

variable {γ δ ε' : Type} {temporary : ε → Prop} {R : α → β → Prop}

/-- The first computation may stop with a temporary error where the second goes on. Other than that
they come to the same end. -/
def Refines (temporary : ε → Prop) (R : α → β → Prop) (x : Except ε α) (y : Except ε β) : Prop :=
  (∀ a, x = .ok a → ∃ b, y = .ok b ∧ R a b) ∧ ∀ e, x = .error e → temporary e ∨ y = .error e

theorem refines_ok {a : α} {b : β} (h : R a b) :
    Refines temporary R (.ok a : Except ε α) (.ok b) := by
  refine ⟨fun a' heq => ?_, nofun⟩
  cases heq
  exact ⟨b, rfl, h⟩

theorem refines_error (e : ε) : Refines temporary R (.error e) (.error e) := by
  refine ⟨nofun, fun e' heq => ?_⟩
  cases heq
  exact .inr rfl

variable {y : Except ε β}

theorem refines_temporary {e : ε} (h : temporary e) :
    Refines temporary R (.error e) y := by
  refine ⟨nofun, fun e' heq => ?_⟩
  cases heq
  exact .inl h

theorem refines_of_refl {R : α → α → Prop} (h : ∀ a, R a a) (x : Except ε α) :
    Refines temporary R x x :=
  ⟨fun a heq => ⟨a, heq, h a⟩, fun _ heq => .inr heq⟩

theorem refines_refl (x : Except ε α) : Refines temporary Eq x x := refines_of_refl (fun _ => rfl) x

variable {x : Except ε α} {S : γ → δ → Prop}

section

variable (h : Refines temporary R x y)
include h

theorem refines_bind {f : α → Except ε γ} {g : β → Except ε δ}
    (hf : ∀ a b, R a b → Refines temporary S (f a) (g b)) :
    Refines temporary S (x >>= f) (y >>= g) := by
  cases x with
  | error e =>
    rcases h.2 e rfl with htemporary | rfl
    · exact refines_temporary htemporary
    · exact refines_error e
  | ok a =>
    obtain ⟨b, rfl, hR⟩ := h.1 a rfl
    exact hf a b hR

theorem refines_map {f : α → γ} {g : β → δ} (hf : ∀ a b, R a b → S (f a) (g b)) :
    Refines temporary S (x.map f) (y.map g) := by
  have hbind := refines_bind (S := S) h fun a b hR => refines_ok (hf a b hR)
  cases x <;> cases y <;> exact hbind

theorem refines_mapError {temporary' : ε' → Prop} {f : ε → ε'}
    (hf : ∀ e, temporary e → temporary' (f e)) :
    Refines temporary' R (x.mapError f) (y.mapError f) := by
  cases x with
  | error e =>
    rcases h.2 e rfl with htemporary | rfl
    · exact refines_temporary (hf e htemporary)
    · exact refines_error (f e)
  | ok a =>
    obtain ⟨b, rfl, hR⟩ := h.1 a rfl
    exact refines_ok hR

end

theorem refines_mapM {f g : α → Except ε β} {xs : List α}
    (h : ∀ x ∈ xs, Refines temporary Eq (f x) (g x)) :
    Refines temporary Eq (xs.mapM f) (xs.mapM g) := by
  induction xs with
  | nil => exact refines_ok rfl
  | cons x xs ih =>
    rw [mapM_cons, mapM_cons]
    refine refines_bind (h x mem_cons_self) ?_
    rintro y _ rfl
    refine refines_bind (ih fun x' hx' => h x' (mem_cons_of_mem x hx')) ?_
    rintro ys _ rfl
    exact refines_ok rfl

end Refines

theorem forM_eq_ok {f : α → Except ε Unit} :
    xs.forM f = .ok ⟨⟩ ↔ ∀ x ∈ xs, f x = .ok ⟨⟩ := by
  induction xs with
  | nil =>
    constructor
    · intro _ x hx
      cases hx
    · intro _
      rfl
  | cons x xs ih =>
    show (f x >>= fun _ => xs.forM f) = .ok ⟨⟩ ↔ _
    rw [bind_eq_ok, forall_mem_cons]
    constructor
    · rintro ⟨⟨⟩, hx, hrest⟩
      exact ⟨hx, ih.mp hrest⟩
    · rintro ⟨hx, hrest⟩
      exact ⟨⟨⟩, hx, ih.mpr hrest⟩

end Fallible

namespace Accumulate

variable {α β γ σ : Type}

/-- Each element brings the property about or leaves it as it is. -/
theorem foldl_iff {f : σ → α → σ} {P : σ → Prop} {Q : α → Prop}
    (h : ∀ acc x, P (f acc x) ↔ P acc ∨ Q x) (xs : List α) (acc : σ) :
    P (xs.foldl f acc) ↔ P acc ∨ ∃ x ∈ xs, Q x := by
  induction xs generalizing acc with
  | nil => simp
  | cons x xs ih =>
    rw [foldl_cons, ih, h, or_assoc]
    simp only [mem_cons, exists_eq_or_imp]

variable {g : α → Option β}

/-- A loop that appends what it keeps of each element. -/
theorem foldl_fst {f : List β × γ → α → List β × γ}
    (h : ∀ acc x, (f acc x).1 = acc.1 ++ (g x).toList) (xs : List α) (acc : List β × γ) :
    (xs.foldl f acc).1 = acc.1 ++ xs.filterMap g := by
  induction xs generalizing acc with
  | nil => simp
  | cons x xs ih =>
    rw [foldl_cons, ih, h, append_assoc]
    cases hg : g x with
    | none => rw [filterMap_cons_none hg]; rfl
    | some y => rw [filterMap_cons_some hg]; rfl

/-- What is kept has names that come in the old order. -/
theorem map_filterMap_sublist {p : α → γ} {q : β → γ} (h : ∀ {x y}, g x = some y → q y = p x)
    (xs : List α) :
    ((xs.filterMap g).map q).Sublist (xs.map p) := by
  induction xs with
  | nil => exact .slnil
  | cons x xs ih =>
    cases hg : g x with
    | none =>
      rw [filterMap_cons_none hg]
      exact ih.cons _
    | some y =>
      rw [filterMap_cons_some hg, map_cons, map_cons, h hg]
      exact ih.cons_cons _

variable {xs : List α} {f : α → β}

/-- Sorting by distinct names puts them into strict order. -/
theorem pairwise_insertionSort_lt [LinearOrder β] (h : (xs.map f).Nodup) :
    (xs.insertionSort fun a b => f a ≤ f b).Pairwise fun a b => f a < f b := by
  have hperm := perm_insertionSort (fun a b => f a ≤ f b) xs
  have hnodup : ((xs.insertionSort fun a b => f a ≤ f b).map f).Nodup :=
    (hperm.map f).nodup_iff.mpr h
  have hle : (xs.insertionSort fun a b => f a ≤ f b).Pairwise fun a b => f a ≤ f b :=
    @pairwise_insertionSort _ _ _ ⟨fun a b => le_total (f a) (f b)⟩ ⟨fun _ _ _ => le_trans⟩ xs
  exact (hle.and (pairwise_map.mp hnodup)).imp fun hab => lt_of_le_of_ne hab.1 hab.2

/-- In strict order, what is found first is the least. -/
theorem le_of_find? [LinearOrder β] {p : α → Bool} (h : xs.Pairwise fun a b => f a < f b)
    {found x : α} (hfound : xs.find? p = some found) (hx : x ∈ xs) (hp : p x = true) :
    f found ≤ f x := by
  obtain ⟨-, before, after, rfl, hbefore⟩ := List.find?_eq_some_iff_append.mp hfound
  rcases mem_append.mp hx with hin | hin
  · exact absurd hp (by simpa using hbefore x hin)
  · rcases mem_cons.mp hin with rfl | hafter
    · exact le_refl _
    · exact le_of_lt (rel_of_pairwise_cons (pairwise_append.mp h).2.1 hafter)

/-- In strict order, the elements determine the list. -/
theorem eq_of_mem_iff_of_lt [LinearOrder β] {ys : List α} (hx : xs.Pairwise fun a b => f a < f b)
    (hy : ys.Pairwise fun a b => f a < f b) (h : ∀ a, a ∈ xs ↔ a ∈ ys) : xs = ys := by
  exact hx.eq_of_mem_iff hy h

end Accumulate

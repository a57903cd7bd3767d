import Mathlib.Data.List.Basic
import Mathlib.Data.List.Induction

/-!
# Keyed change logs

A log is a list of entries, each about one key or about none. Two readings of a log matter to a
consumer: the *last* entry about a key, and the *replay* of the whole log over an initial state.

`about` selects the entries of one key. Everything else is phrased through it, so that reordering
entries of different keys is visibly harmless: `about_promote` says that an entry may overtake the
entries before it as long as none of them is about the same key.
-/

open List Function

namespace Changelog

variable {K V E : Type*} [DecidableEq K] (keyOf : E → Option K)

/-- The entries about `k`, in log order. -/
def about (k : K) (log : List E) : List E := log.filter fun e => keyOf e = some k

def last (k : K) (log : List E) : Option E := (about keyOf k log).getLast?

variable {keyOf} {k : K} {e : E} {log : List E}

@[simp] theorem about_nil : about keyOf k [] = [] := rfl

theorem about_append (log log' : List E) :
    about keyOf k (log ++ log') = about keyOf k log ++ about keyOf k log' := filter_append ..

theorem about_cons_self (h : keyOf e = some k) :
    about keyOf k (e :: log) = e :: about keyOf k log := by
  simp [about, h]

theorem about_cons_ne (h : keyOf e ≠ some k) : about keyOf k (e :: log) = about keyOf k log := by
  simp [about, h]

theorem about_eq_nil : about keyOf k log = [] ↔ ∀ e ∈ log, keyOf e ≠ some k := by
  simp [about]

/-- An entry may overtake entries about other keys. -/
theorem about_promote {before after : List E} (h : ∀ e' ∈ before, keyOf e' ≠ keyOf e) :
    about keyOf k (log ++ [e] ++ (before ++ after)) =
      about keyOf k (log ++ (before ++ e :: after)) := by
  simp only [about_append]
  by_cases hk : keyOf e = some k
  · have hbefore : about keyOf k before = [] := by
      rw [about_eq_nil]
      intro e' he' hk'
      exact h e' he' (hk'.trans hk.symm)
    simp only [about_cons_self hk, hbefore, about_nil, append_assoc, nil_append, cons_append]
  · simp only [about_cons_ne hk, about_nil, append_nil]

/-! ## The last entry -/

theorem last_eq_none : last keyOf k log = none ↔ about keyOf k log = [] := List.getLast?_eq_none_iff

theorem key_of_last (h : last keyOf k log = some e) : keyOf e = some k := by
  have hmem : e ∈ about keyOf k log := mem_of_getLast? h
  simpa [about] using (mem_filter.mp hmem).2

theorem last_concat_self (h : keyOf e = some k) : last keyOf k (log ++ [e]) = some e := by
  unfold last
  rw [about_append, about_cons_self h]
  exact List.getLast?_concat

theorem last_concat_ne (h : keyOf e ≠ some k) : last keyOf k (log ++ [e]) = last keyOf k log := by
  unfold last
  rw [about_append, about_cons_ne h, about_nil, append_nil]

theorem last_cons_ne (h : keyOf e ≠ some k) : last keyOf k (e :: log) = last keyOf k log := by
  unfold last
  rw [about_cons_ne h]

/-- Consuming the oldest entry changes the last one only when nothing follows it. -/
theorem last_cons_of_last {e' : E} (h : last keyOf k log = some e') :
    last keyOf k (e :: log) = some e' := by
  by_cases hk : keyOf e = some k
  · unfold last at h ⊢
    rw [about_cons_self hk, List.getLast?_cons, h]
    rfl
  · rw [last_cons_ne hk, h]

theorem last_cons_self (hk : keyOf e = some k) (h : last keyOf k log = none) :
    last keyOf k (e :: log) = some e := by
  unfold last
  rw [about_cons_self hk, last_eq_none.mp h]
  rfl

/-! ## Replay -/

variable (keyOf) in
/-- The state after one entry: its key takes the entry's effect. -/
def apply (effect : E → Option V) (σ : K → Option V) (e : E) : K → Option V :=
  match keyOf e with
  | some k => update σ k (effect e)
  | none => σ

variable (keyOf) in
def replay (effect : E → Option V) (σ : K → Option V) (log : List E) : K → Option V :=
  log.foldl (apply keyOf effect) σ

variable {effect : E → Option V} {σ : K → Option V}

theorem replay_concat (log : List E) (e : E) :
    replay keyOf effect σ (log ++ [e]) = apply keyOf effect (replay keyOf effect σ log) e := by
  simp [replay]

theorem replay_append (log log' : List E) :
    replay keyOf effect σ (log ++ log') = replay keyOf effect (replay keyOf effect σ log) log' := by
  simp [replay]

theorem apply_self (h : keyOf e = some k) : apply keyOf effect σ e k = effect e := by
  simp [apply, h]

theorem apply_ne (h : keyOf e ≠ some k) : apply keyOf effect σ e k = σ k := by
  unfold apply
  cases hk : keyOf e with
  | none => rfl
  | some k' =>
    have hne : k ≠ k' := by
      rintro rfl
      exact h hk
    exact update_of_ne hne _ _

/-- The last entry about a key decides its replayed value. -/
theorem replay_eq_last (log : List E) :
    replay keyOf effect σ log k =
      match last keyOf k log with
      | some e => effect e
      | none => σ k := by
  induction log using List.reverseRecOn with
  | nil => rfl
  | append_singleton log e ih =>
    rw [replay_concat]
    by_cases hk : keyOf e = some k
    · rw [apply_self hk, last_concat_self hk]
    · rw [apply_ne hk, last_concat_ne hk, ih]

end Changelog

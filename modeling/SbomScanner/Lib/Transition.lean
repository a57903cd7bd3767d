import Mathlib.Data.List.Basic

/-!
# Executions of a partial step function

A system is a function `step : S → A → Option S`: in state `s` the action `a` either leads to one
state or is not enabled (`none`). Nondeterminism lives in the choice of the action list, so a
statement about *every interleaving* is a statement about every `List A`, and a concrete run is a
list that can be executed.

* `exec` runs a list of actions.
* `Along G` says that every step of the run met the guard `G` in the state it started from.
* The rules below turn a fact about one step into a fact about whole runs, with or without a guard.
* A log in which each step enters what it closes has no entry twice (`Enters.logged`).
-/

namespace Transition

variable {S A : Type*} {step : S → A → Option S}

/-- Execute the actions in order; `none` as soon as one of them is not enabled. -/
def exec (step : S → A → Option S) : S → List A → Option S
  | s, [] => some s
  | s, a :: as =>
    match step s a with
    | some s' => exec step s' as
    | none => none

/-- Every step taken by `exec step s as` satisfies `G`, judged in the state before that step. -/
def Along (G : S → A → Prop) (step : S → A → Option S) : S → List A → Prop
  | _, [] => True
  | s, a :: as => G s a ∧
    match step s a with
    | some s' => Along G step s' as
    | none => True

@[reducible] def Along.decide (G : S → A → Prop) [∀ s a, Decidable (G s a)]
    (step : S → A → Option S) : (s : S) → (as : List A) → Decidable (Along G step s as)
  | _, [] => isTrue trivial
  | s, a :: as =>
    match h : step s a with
    | some s' =>
      have := Along.decide G step s' as
      decidable_of_iff (G s a ∧ Along G step s' as) (by simp only [Along, h])
    | none => decidable_of_iff (G s a) (by simp [Along, h])

instance (G : S → A → Prop) [∀ s a, Decidable (G s a)] (s : S) (as : List A) :
    Decidable (Along G step s as) := Along.decide G step s as

@[simp] theorem exec_nil (s : S) : exec step s [] = some s := rfl

variable {as : List A}

theorem exec_cons_eq_some {s t : S} {a : A} :
    exec step s (a :: as) = some t ↔ ∃ s', step s a = some s' ∧ exec step s' as = some t := by
  simp only [exec]
  cases step s a with
  | none => simp
  | some s' => simp

variable {G : S → A → Prop}

theorem along_cons {s s' : S} {a : A} (h : Along G step s (a :: as)) (hs : step s a = some s') :
    G s a ∧ Along G step s' as := by
  simpa only [Along, hs] using h

theorem Along.cons {s s' : S} {a : A} (hg : G s a) (hs : step s a = some s')
    (h : Along G step s' as) : Along G step s (a :: as) := by
  simp only [Along, hs]
  exact ⟨hg, h⟩

theorem Along.mono {G' : S → A → Prop} (h : ∀ s a, G s a → G' s a) {s : S}
    (hG : Along G step s as) : Along G' step s as := by
  induction as generalizing s with
  | nil => trivial
  | cons a as ih =>
    obtain ⟨hg, hrest⟩ := hG
    refine ⟨h s a hg, ?_⟩
    cases hs : step s a with
    | none => trivial
    | some s' =>
      rw [hs] at hrest
      exact ih hrest

theorem exec_append {s t : S} {bs : List A} :
    exec step s (as ++ bs) = some t ↔ ∃ m, exec step s as = some m ∧ exec step m bs = some t := by
  induction as generalizing s with
  | nil => simp
  | cons a as ih =>
    rw [List.cons_append, exec_cons_eq_some]
    constructor
    · rintro ⟨s', hs, hr⟩
      obtain ⟨m, hm, ht⟩ := ih.mp hr
      exact ⟨m, exec_cons_eq_some.mpr ⟨s', hs, hm⟩, ht⟩
    · rintro ⟨m, hm, ht⟩
      obtain ⟨s', hs, hr⟩ := exec_cons_eq_some.mp hm
      exact ⟨s', hs, ih.mpr ⟨m, hr, ht⟩⟩

/-- The guard along a composed run splits at the point where the parts meet. -/
theorem along_append {s m : S} {bs : List A} (h : Along G step s (as ++ bs))
    (hm : exec step s as = some m) :
    Along G step s as ∧ Along G step m bs := by
  induction as generalizing s with
  | nil =>
    cases hm
    exact ⟨trivial, h⟩
  | cons a as ih =>
    obtain ⟨s', hs, hr⟩ := exec_cons_eq_some.mp hm
    obtain ⟨hg, hrest⟩ := along_cons h hs
    obtain ⟨h₁, h₂⟩ := ih hrest hr
    refine ⟨?_, h₂⟩
    simp only [Along, hs]
    exact ⟨hg, h₁⟩

/-! ## The invariant rules -/

/-- **Guarded invariant rule.** What a guarded step preserves, a guarded run preserves. -/
theorem exec_invariant_along {I : S → Prop}
    (hstep : ∀ s a s', I s → G s a → step s a = some s' → I s') {s t : S} (hI : I s)
    (hG : Along G step s as) (hr : exec step s as = some t) :
    I t := by
  induction as generalizing s with
  | nil =>
    cases hr
    exact hI
  | cons a as ih =>
    obtain ⟨s', hs, hrest⟩ := exec_cons_eq_some.mp hr
    obtain ⟨hg, halong⟩ := along_cons hG hs
    exact ih (hstep s a s' hI hg hs) halong hrest

theorem along_true (s : S) (as : List A) : Along (fun _ _ => True) step s as := by
  induction as generalizing s with
  | nil => trivial
  | cons a as ih =>
    refine ⟨trivial, ?_⟩
    cases step s a with
    | none => trivial
    | some s' => exact ih s'

/-- **Invariant rule.** What every step preserves, every run preserves. -/
theorem exec_invariant {I : S → Prop} (hstep : ∀ s a s', I s → step s a = some s' → I s') {s t : S}
    (hI : I s) (hr : exec step s as = some t) : I t :=
  exec_invariant_along (fun s a s' h _ hs => hstep s a s' h hs) hI (along_true s as) hr

/-! ## Logs

A log that has an entry for each key that is closed, made by the step that closes it. -/

section Log

variable {K : Type*} {closed : S → K → Prop} {log : S → List K} {s s' : S}

/-- The step closes at most one key, enters it, and opens none that is entered. -/
structure Enters (closed : S → K → Prop) (log : S → List K) (s s' : S) : Prop where
  kept : ∀ k ∈ log s, closed s k → closed s' k
  entered : log s' = log s ∨ ∃ k, ¬closed s k ∧ closed s' k ∧ log s' = k :: log s

/-- No key is entered twice, since all that are entered are closed. -/
structure Logged (closed : S → K → Prop) (log : S → List K) (s : S) : Prop where
  nodup : (log s).Nodup
  closed_of_mem : ∀ k ∈ log s, closed s k

theorem Enters.logged (h : Enters closed log s s') (hs : Logged closed log s) :
    Logged closed log s' := by
  have hkept : ∀ k ∈ log s, closed s' k := fun k hk => h.kept k hk (hs.closed_of_mem k hk)
  rcases h.entered with hlog | ⟨k, hopen, hclosed, hlog⟩
  · constructor
    · rw [hlog]
      exact hs.nodup
    · rw [hlog]
      exact hkept
  · constructor
    · rw [hlog]
      exact List.nodup_cons.mpr ⟨fun hk => hopen (hs.closed_of_mem k hk), hs.nodup⟩
    · rw [hlog]
      exact List.forall_mem_cons.mpr ⟨hclosed, hkept⟩

end Log

end Transition

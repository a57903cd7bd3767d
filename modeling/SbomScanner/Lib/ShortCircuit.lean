import Mathlib.Data.List.Basic

/-!
# Conditions that are evaluated one after the other

A list of conditions is evaluated from the left and stops as soon as the result is known: at the
first condition that is false when all of them are asked for, at the first that is true when one is.
Evaluating a condition may fail, and then so does the whole list, unless it has stopped before.

`Entails a b` says that whatever makes `a` hold makes `b` hold. It looks at the conditions as names
only: for each way in which `a` can come out true it asks whether `b` is settled by what is known
then. `entails_iff` says that nothing less will do, since a condition that is not known may fail.

The order of the conditions can be observed iff two of them stop the evaluation with different
outcomes (`firstOutcome_perm_iff`).
-/

namespace ShortCircuit

open List

inductive Mode where
  | all
  | any
  deriving DecidableEq

structure Guard (E : Type) where
  mode : Mode
  conditions : List E
  deriving DecidableEq

variable {E ε : Type} {v : E → Except ε Bool} {conditions required refuted : List E} {e : E}

/-! ## Evaluation -/

def evalAll (v : E → Except ε Bool) : List E → Except ε Bool
  | [] => .ok true
  | e :: es =>
    match v e with
    | .ok true => evalAll v es
    | result => result

def evalAny (v : E → Except ε Bool) : List E → Except ε Bool
  | [] => .ok false
  | e :: es =>
    match v e with
    | .ok false => evalAny v es
    | result => result

def Guard.Holds (v : E → Except ε Bool) (guard : Guard E) : Prop :=
  match guard.mode with
  | .all => evalAll v guard.conditions = .ok true
  | .any => evalAny v guard.conditions = .ok true

theorem evalAll_eq_true : evalAll v conditions = .ok true ↔ ∀ e ∈ conditions, v e = .ok true := by
  induction conditions with
  | nil => simp [evalAll]
  | cons e es ih =>
    rw [forall_mem_cons, evalAll]
    split
    case h_1 h => simp [h, ih]
    case h_2 h => exact ⟨fun htrue => absurd htrue h, fun htrue => htrue.1⟩

/-- One condition is true, and all before it are false. -/
def FirstTrue (isTrue isFalse : E → Prop) (conditions : List E) : Prop :=
  ∃ before e after, conditions = before ++ e :: after ∧ (∀ x ∈ before, isFalse x) ∧ isTrue e

theorem firstTrue_cons {isTrue isFalse : E → Prop} {es : List E} :
    FirstTrue isTrue isFalse (e :: es) ↔ isTrue e ∨ isFalse e ∧ FirstTrue isTrue isFalse es := by
  constructor
  · rintro ⟨before, x, after, heq, hfalse, htrue⟩
    cases before with
    | nil =>
      cases heq
      exact .inl htrue
    | cons y before =>
      cases heq
      exact .inr ⟨hfalse e mem_cons_self,
        before, x, after, rfl, fun z hz => hfalse z (mem_cons_of_mem _ hz), htrue⟩
  · rintro (htrue | ⟨hfalse, before, x, after, rfl, hbefore, htrue⟩)
    · exact ⟨[], e, es, rfl, by simp, htrue⟩
    · refine ⟨e :: before, x, after, rfl, ?_, htrue⟩
      intro z hz
      rcases mem_cons.mp hz with rfl | hz
      · exact hfalse
      · exact hbefore z hz

theorem evalAny_eq_true : evalAny v conditions = .ok true ↔
    FirstTrue (fun e => v e = .ok true) (fun e => v e = .ok false) conditions := by
  induction conditions with
  | nil => simp [evalAny, FirstTrue]
  | cons e es ih =>
    rw [firstTrue_cons, evalAny]
    split
    case h_1 h => simp [h, ih]
    case h_2 h => exact ⟨.inl, fun htrue => htrue.resolve_right fun hfalse => h hfalse.1⟩

/-! ## Entailment -/

/-- A way in which a guard can hold: these conditions are true and those are false, and no other is
looked at. -/
inductive Way : Guard E → List E → List E → Prop where
  | all {conditions : List E} : Way ⟨.all, conditions⟩ conditions []
  | first {before after : List E} {e : E} (h : e ∉ before) :
      Way ⟨.any, before ++ e :: after⟩ [e] before

/-- A guard that holds as soon as these conditions are true and those are false. -/
def Settled (required refuted : List E) (guard : Guard E) : Prop :=
  match guard.mode with
  | .all => ∀ e ∈ guard.conditions, e ∈ required
  | .any => FirstTrue (· ∈ required) (· ∈ refuted) guard.conditions

def Entails (a b : Guard E) : Prop :=
  ∀ required refuted, Way a required refuted → Settled required refuted b

variable {guard : Guard E}

theorem Settled.holds (h : Settled required refuted guard) (htrue : ∀ e ∈ required, v e = .ok true)
    (hfalse : ∀ e ∈ refuted, v e = .ok false) :
    guard.Holds v := by
  obtain ⟨mode, conditions⟩ := guard
  cases mode with
  | all => exact evalAll_eq_true.mpr fun e he => htrue e (h e he)
  | any =>
    obtain ⟨before, e, after, heq, hbefore, he⟩ := h
    exact evalAny_eq_true.mpr
      ⟨before, e, after, heq, fun x hx => hfalse x (hbefore x hx), htrue e he⟩

/-- A guard that holds does so in one of the ways. -/
theorem Guard.Holds.way (h : guard.Holds v) : ∃ required refuted,
    Way guard required refuted ∧ (∀ e ∈ required, v e = .ok true) ∧
      ∀ e ∈ refuted, v e = .ok false := by
  obtain ⟨mode, conditions⟩ := guard
  cases mode with
  | all => exact ⟨conditions, [], .all, evalAll_eq_true.mp h, by simp⟩
  | any =>
    obtain ⟨before, e, after, rfl, hfalse, htrue⟩ := evalAny_eq_true.mp h
    refine ⟨[e], before, .first ?_, by simpa using htrue, hfalse⟩
    intro he
    have hclash := (hfalse e he).symm.trans htrue
    cases hclash

section

variable [DecidableEq E] [Inhabited ε]

/-- Whatever is not known fails. -/
def known (required refuted : List E) (e : E) : Except ε Bool :=
  if e ∈ required then .ok true else if e ∈ refuted then .ok false else .error default

theorem known_eq_true : known required refuted e = (.ok true : Except ε Bool) ↔ e ∈ required := by
  unfold known
  split
  · next h => simp [h]
  · next h => split <;> simp [h]

theorem known_eq_false : known required refuted e = (.ok false : Except ε Bool) ↔
    e ∉ required ∧ e ∈ refuted := by
  unfold known
  split
  · next h => simp [h]
  · next h =>
    split
    · next h' => simp [h, h']
    · next h' => simp [h']

theorem Way.holds (h : Way guard required refuted) :
    guard.Holds (ε := ε) (known required refuted) := by
  cases h with
  | all => exact evalAll_eq_true.mpr fun e he => known_eq_true.mpr he
  | @first _ after e hnew =>
    refine evalAny_eq_true.mpr ⟨_, e, after, rfl, ?_, known_eq_true.mpr (by simp)⟩
    intro x hx
    refine known_eq_false.mpr ⟨?_, hx⟩
    rw [mem_singleton]
    rintro rfl
    exact hnew hx

theorem settled_of_holds (h : guard.Holds (ε := ε) (known required refuted)) :
    Settled required refuted guard := by
  obtain ⟨mode, conditions⟩ := guard
  cases mode with
  | all => exact fun e he => known_eq_true.mp (evalAll_eq_true.mp h e he)
  | any =>
    obtain ⟨before, e, after, heq, hfalse, htrue⟩ := evalAny_eq_true.mp h
    exact ⟨before, e, after, heq, fun x hx => (known_eq_false.mp (hfalse x hx)).2,
      known_eq_true.mp htrue⟩

/-- **Entailment is what it says.** -/
theorem entails_iff {a b : Guard E} :
    (∀ v : E → Except ε Bool, a.Holds v → b.Holds v) ↔ Entails a b := by
  constructor
  · intro h required refuted hway
    exact settled_of_holds (h _ hway.holds)
  · intro h v hv
    obtain ⟨required, refuted, hway, htrue, hfalse⟩ := hv.way
    exact (h required refuted hway).holds htrue hfalse

end

/-! ## The order of the conditions -/

section

variable {O : Type} {stops : E → Bool} {outcome : E → O} {default : O}

/-- The outcome of the first condition that stops the evaluation. -/
def firstOutcome (stops : E → Bool) (outcome : E → O) (default : O) : List E → O
  | [] => default
  | e :: es => if stops e then outcome e else firstOutcome stops outcome default es

theorem firstOutcome_of_forall (h : ∀ e ∈ conditions, ¬stops e) :
    firstOutcome stops outcome default conditions = default := by
  induction conditions with
  | nil => rfl
  | cons e es ih =>
    rw [firstOutcome, if_neg (h e mem_cons_self)]
    exact ih fun x hx => h x (mem_cons_of_mem e hx)

/-- Nothing but what is looked at matters. -/
theorem firstOutcome_map {E' : Type} (f : E' → E) (conditions : List E') :
    firstOutcome stops outcome default (conditions.map f) =
      firstOutcome (fun e => stops (f e)) (fun e => outcome (f e)) default conditions := by
  induction conditions with
  | nil => rfl
  | cons e es ih => rw [map_cons, firstOutcome, firstOutcome, ih]

/-- All conditions that stop have the same outcome. -/
theorem firstOutcome_of_mem (he : e ∈ conditions) (hstops : stops e)
    (h : ∀ x ∈ conditions, stops x → outcome x = outcome e) :
    firstOutcome stops outcome default conditions = outcome e := by
  induction conditions with
  | nil => cases he
  | cons x es ih =>
    rw [firstOutcome]
    split
    case isTrue hx => exact h x mem_cons_self hx
    case isFalse hx =>
      rcases mem_cons.mp he with rfl | he
      · exact absurd hstops hx
      · exact ih he fun y hy => h y (mem_cons_of_mem x hy)

theorem firstOutcome_perm_iff [DecidableEq E] (stops : E → Bool) (outcome : E → O) (default : O)
    (conditions : List E) :
    (∀ conditions', conditions.Perm conditions' →
      firstOutcome stops outcome default conditions' =
        firstOutcome stops outcome default conditions) ↔
    ∀ x ∈ conditions, ∀ y ∈ conditions, stops x → stops y → outcome x = outcome y := by
  constructor
  · intro h x hx y hy hxstops hystops
    -- either of the two may come first
    have hfirst : ∀ z ∈ conditions, stops z →
        outcome z = firstOutcome stops outcome default conditions := by
      intro z hz hzstops
      rw [← h _ (perm_cons_erase hz), firstOutcome, if_pos hzstops]
    rw [hfirst x hx hxstops, hfirst y hy hystops]
  · intro h conditions' hperm
    by_cases hstops : ∃ e ∈ conditions, stops e
    · obtain ⟨e, he, hestops⟩ := hstops
      have hsame : ∀ x ∈ conditions, stops x → outcome x = outcome e :=
        fun x hx hxstops => h x hx e he hxstops hestops
      rw [firstOutcome_of_mem he hestops hsame, firstOutcome_of_mem (hperm.mem_iff.mp he) hestops
        fun x hx => hsame x (hperm.mem_iff.mpr hx)]
    · have hnone : ∀ e ∈ conditions, ¬stops e := fun e he hestops => hstops ⟨e, he, hestops⟩
      rw [firstOutcome_of_forall hnone, firstOutcome_of_forall fun e he =>
        hnone e (hperm.mem_iff.mpr he)]

end

end ShortCircuit

import Mathlib.Data.List.Basic

/-!
# Status conditions

The state of a resource is often not a field but a list of conditions, one of each type, each true,
false or unknown, with a reason and a message. `set` replaces the condition of a type or appends it;
the time of the last transition moves only when the status does.
-/

namespace Conditions

inductive Status where
  | isTrue | isFalse | unknown
deriving DecidableEq, Repr

structure Condition (T R : Type) where
  type : T
  status : Status
  reason : R
  message : String
  observedGeneration : Nat
  lastTransitionTime : Nat
deriving DecidableEq, Repr

variable {T R : Type} [DecidableEq T]

def find (type : T) (conditions : List (Condition T R)) : Option (Condition T R) :=
  conditions.find? fun c => c.type = type

def set (now : Nat) (new : Condition T R) : List (Condition T R) → List (Condition T R)
  | [] => [{ new with lastTransitionTime := now }]
  | c :: cs =>
    if c.type = new.type then
      { new with
        lastTransitionTime := if c.status = new.status then c.lastTransitionTime else now } :: cs
    else c :: set now new cs

/-- There is such a condition, and it is true. -/
def holds (type : T) (conditions : List (Condition T R)) : Bool :=
  match find type conditions with
  | some c => c.status = .isTrue
  | none => false

theorem find_set_self (now : Nat) (new : Condition T R) (cs : List (Condition T R)) :
    (find new.type (set now new cs)).map (·.status) = some new.status := by
  induction cs with
  | nil => simp [set, find]
  | cons c cs ih =>
    by_cases h : c.type = new.type
    · simp [set, find, h]
    · simpa [set, find, h] using ih

theorem find_set_ne (now : Nat) {new : Condition T R} {type : T} (h : new.type ≠ type)
    (cs : List (Condition T R)) : find type (set now new cs) = find type cs := by
  induction cs with
  | nil => simp [set, find, h]
  | cons c cs ih =>
    by_cases hc : c.type = new.type
    · simp [set, find, hc, h]
    · rw [set, if_neg hc]
      unfold find at ih ⊢
      rw [List.find?_cons, List.find?_cons, ih]

theorem holds_set (now : Nat) (new : Condition T R) (type : T) (cs : List (Condition T R)) :
    holds type (set now new cs) =
      if new.type = type then decide (new.status = .isTrue) else holds type cs := by
  unfold holds
  by_cases h : new.type = type
  · subst h
    obtain ⟨c, hc, hstatus⟩ := Option.map_eq_some_iff.mp (find_set_self now new cs)
    simp [hc, hstatus]
  · rw [find_set_ne now h, if_neg h]

end Conditions

import SbomScanner.Api.Registry
import SbomScanner.Lib.ShortCircuit

/-!
# Which images are scanned

`filterByTag` decides by the match conditions of a repository. What the conditions say is up to CEL:
all that is known of `evaluate` is that it takes an expression and a tag and gives a truth value or
an error.

`Repository.guard` is what is left of a repository when only the decision counts, and `accepts_iff`
is the meaning of the loop in these terms. `filterByTag_orderFree_iff` says when the order of the
conditions can be observed.
-/

namespace SbomScanner.Catalog

open Api List ShortCircuit

abbrev Evaluate := String → String → Except String Bool

/-- `cannot evaluate expression`, with the name of the condition. -/
structure FilterError where
  name : String
  cause : String
  deriving DecidableEq

def effectiveOperator (op : MatchOperator) : MatchOperator := if op = .unset then .and else op

/-- The loop of `filterByTag` over the match conditions. -/
def filterConditions (evaluate : Evaluate) (op : MatchOperator) (tag : String) :
    List MatchCondition → Except FilterError Bool
  -- for `and` all conditions have passed, for `or` none has
  | [] => .ok (op = .and)
  | mc :: rest =>
    match evaluate mc.expression tag with
    | .error cause => .error ⟨mc.name, cause⟩
    | .ok allowed =>
      match op with
      | .and => if !allowed then .ok false else filterConditions evaluate op tag rest
      | .or => if allowed then .ok true else filterConditions evaluate op tag rest
      | .unset => filterConditions evaluate op tag rest

def filterByTag (evaluate : Evaluate) (repository : Option Repository) (tag : String) :
    Except FilterError Bool :=
  match repository with
  | none => .ok true
  | some repository =>
    if repository.matchConditions = [] then .ok true
    else filterConditions evaluate (effectiveOperator repository.matchOperator) tag
      repository.matchConditions

def isPlatformAllowed (os architecture variant : String) (allowedPlatforms : List Platform) :
    Bool :=
  -- layers of this platform usually contain attestations
  if os = "unknown" && architecture = "unknown" then false
  else if allowedPlatforms = [] then true
  else allowedPlatforms.any fun allowed =>
    if allowed.variant = "" then os = allowed.os && architecture = allowed.architecture
    else os = allowed.os && architecture = allowed.architecture && variant = allowed.variant

/-! ## What the conditions decide -/

open ShortCircuit (Mode Guard)

/-- The expressions of a repository, and how they are combined. -/
def guard (repository : Repository) : Guard String :=
  if repository.matchConditions = [] then ⟨.all, []⟩
  else
    ⟨if repository.matchOperator = .or then .any else .all,
      repository.matchConditions.map (·.expression)⟩

variable {evaluate : Evaluate} {tag : String}

variable {conditions : List MatchCondition}

theorem filterConditions_and :
    filterConditions evaluate .and tag conditions = .ok true ↔
      evalAll (evaluate · tag) (conditions.map (·.expression)) = .ok true := by
  induction conditions with
  | nil => simp [filterConditions, evalAll]
  | cons mc rest ih =>
    rw [filterConditions, map_cons, evalAll]
    rcases evaluate mc.expression tag with cause | allowed
    · simp
    · cases allowed
      · simp
      · simpa using ih

theorem filterConditions_or :
    filterConditions evaluate .or tag conditions = .ok true ↔
      evalAny (evaluate · tag) (conditions.map (·.expression)) = .ok true := by
  induction conditions with
  | nil => simp [filterConditions, evalAny]
  | cons mc rest ih =>
    rw [filterConditions, map_cons, evalAny]
    rcases evaluate mc.expression tag with cause | allowed
    · simp
    · cases allowed
      · simpa using ih
      · simp

variable {repository : Repository}

/-- **The decision of a repository.** -/
theorem accepts_iff :
    filterByTag evaluate (some repository) tag = .ok true ↔
      (guard repository).Holds (evaluate · tag) := by
  unfold filterByTag guard
  simp only
  split
  case isTrue => simp [Guard.Holds, evalAll]
  case isFalse =>
    unfold effectiveOperator
    cases repository.matchOperator with
    | unset | and => exact filterConditions_and
    | or => exact filterConditions_or

/-! ## The order of the conditions -/

/-- The truth value of an expression with which the loop goes on. -/
def goesOn (op : MatchOperator) : Bool := op ≠ .or

/-- The loop stops at a condition that decides, or at one that cannot be evaluated. -/
def stopsAt (evaluate : Evaluate) (op : MatchOperator) (tag : String) (mc : MatchCondition) :
    Bool :=
  (evaluate mc.expression tag).toOption ≠ some (goesOn op)

variable {op : MatchOperator}

theorem toOption_filterConditions (hop : op ≠ .unset) (conditions : List MatchCondition) :
    (filterConditions evaluate op tag conditions).toOption =
      firstOutcome (stopsAt evaluate op tag)
        (fun mc => (evaluate mc.expression tag).toOption) (some (goesOn op)) conditions := by
  induction conditions with
  | nil =>
    cases op with
    | unset => exact absurd rfl hop
    | and => rfl
    | or => rfl
  | cons mc rest ih =>
    rw [filterConditions, firstOutcome, ← ih, stopsAt]
    rcases evaluate mc.expression tag with cause | allowed
    · rfl
    · cases op with
      | unset => exact absurd rfl hop
      | and => cases allowed <;> rfl
      | or => cases allowed <;> rfl

theorem toOption_filterByTag (h : repository.matchConditions ≠ []) :
    (filterByTag evaluate (some repository) tag).toOption =
      firstOutcome (stopsAt evaluate repository.matchOperator tag)
        (fun mc => (evaluate mc.expression tag).toOption)
        (some (goesOn repository.matchOperator)) repository.matchConditions := by
  rw [filterByTag, if_neg h]
  cases repository.matchOperator with
  | unset | and =>
    have hand : MatchOperator.and ≠ .unset := nofun
    exact toOption_filterConditions hand _
  | or =>
    have hor : MatchOperator.or ≠ .unset := nofun
    exact toOption_filterConditions hor _

theorem stopsAt_iff {mc : MatchCondition} :
    stopsAt evaluate op tag mc ↔ evaluate mc.expression tag = .ok (op = .or) ∨
      ∃ cause, evaluate mc.expression tag = .error cause := by
  unfold stopsAt goesOn
  rcases evaluate mc.expression tag with cause | allowed
  · simp [Except.toOption]
  · cases allowed <;> simp [Except.toOption]

/-- All conditions at which the loop can stop have the same outcome. -/
theorem agree_iff :
    (∀ x ∈ conditions, ∀ y ∈ conditions, stopsAt evaluate op tag x → stopsAt evaluate op tag y →
      (evaluate x.expression tag).toOption = (evaluate y.expression tag).toOption) ↔
    ¬((∃ mc ∈ conditions, evaluate mc.expression tag = .ok (op = .or)) ∧
      ∃ mc ∈ conditions, ∃ cause, evaluate mc.expression tag = .error cause) := by
  constructor
  · rintro h ⟨⟨x, hx, hdecides⟩, y, hy, cause, hfails⟩
    have hsame := h x hx y hy (stopsAt_iff.mpr (.inl hdecides))
      (stopsAt_iff.mpr (.inr ⟨cause, hfails⟩))
    rw [hdecides, hfails] at hsame
    cases hsame
  · intro h x hx y hy hxstops hystops
    rcases stopsAt_iff.mp hxstops with hxdecides | ⟨cause, hxfails⟩
    · rcases stopsAt_iff.mp hystops with hydecides | hyfails
      · rw [hxdecides, hydecides]
      · exact absurd ⟨⟨x, hx, hxdecides⟩, y, hy, hyfails⟩ h
    · rcases stopsAt_iff.mp hystops with hydecides | ⟨cause', hyfails⟩
      · exact absurd ⟨⟨y, hy, hydecides⟩, x, hx, cause, hxfails⟩ h
      · rw [hxfails, hyfails]
        rfl

/-- **The order of the conditions.** The result for a tag is the same in every order of the
conditions iff there is not both a condition that decides alone (one that is false, or for `or` one
that is true) and a condition that cannot be evaluated. -/
theorem filterByTag_orderFree_iff (evaluate : Evaluate) (repository : Repository) (tag : String) :
    (∀ conditions, repository.matchConditions.Perm conditions →
      (filterByTag evaluate (some { repository with matchConditions := conditions }) tag).toOption =
        (filterByTag evaluate (some repository) tag).toOption) ↔
    ¬((∃ mc ∈ repository.matchConditions,
        evaluate mc.expression tag = .ok (repository.matchOperator = .or)) ∧
      ∃ mc ∈ repository.matchConditions, ∃ cause, evaluate mc.expression tag = .error cause) := by
  rw [← agree_iff, ← firstOutcome_perm_iff _ _ (some (goesOn repository.matchOperator))]
  apply forall₂_congr
  intro conditions hperm
  by_cases hnil : repository.matchConditions = []
  · rw [hnil, nil_perm] at hperm
    subst hperm
    rw [filterByTag, filterByTag, if_pos rfl, if_pos hnil, hnil]
    exact iff_of_true rfl rfl
  · have hne : conditions ≠ [] := by
      rintro rfl
      exact hnil hperm.eq_nil
    rw [toOption_filterByTag hnil, toOption_filterByTag hne]

/-! A repository that leaves out one tag and asks for versions; that tag is not a version. -/

def notLatest : MatchCondition := ⟨"not-latest", "tag != 'latest'", ∅⟩

def belowTwo : MatchCondition := ⟨"below-two", "semver(tag).isLessThan(semver('2.0.0'))", ∅⟩

def evaluateLatest : Evaluate := fun expression _ =>
  if expression = notLatest.expression then .ok false
  else .error "failed to evaluate expression: No Major.Minor.Patch elements found"

/-- The tag is rejected in one order, and the catalog fails in the other. -/
theorem filterByTag_depends_on_order :
    filterByTag evaluateLatest (some ⟨"alpine", [notLatest, belowTwo], .and⟩) "latest" =
      .ok false ∧
    filterByTag evaluateLatest (some ⟨"alpine", [belowTwo, notLatest], .and⟩) "latest" =
      .error ⟨"below-two",
        "failed to evaluate expression: No Major.Minor.Patch elements found"⟩ := by
  decide

end SbomScanner.Catalog

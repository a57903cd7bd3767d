import SbomScanner.Lib.Procedure
import SbomScanner.Storage.Kinds
import SbomScanner.Storage.Selector

/-!
# The SQL that a list request is turned into

`repository.list` assembles a `SELECT` over the table of a kind. Its conditions are kept here as
syntax (`Expression`), exactly the fragments the code passes to the query builder, and `eval` gives
them PostgreSQL's meaning on a row.

`buildLabelSelectorExpressions` and `buildFieldSelectorExpressions` are the two translations of
selectors. The second half of the module compares the first of them with the Kubernetes semantics:
the two agree requirement by requirement *except* where a key is missing. Kubernetes lets a missing
key satisfy `!=`, `notin` and `!exists`; in SQL the comparison is `NULL` and the row is dropped.
-/

open List Strings

namespace SbomScanner.Storage

open Sql (Truth Json)

variable {α : Type}

/-- A row of a kind's table. `Create` fills the `name` and `namespace` columns from the metadata of
the object and `Update` leaves them alone, so both are read off the object here. -/
structure Row (α : Type) where
  id : Int
  object : Object α
  deriving DecidableEq

def Row.name (r : Row α) : String := r.object.metadata.name

def Row.ns (r : Row α) : String := r.object.metadata.ns

/-! ## Conditions -/

/-- A `jsonb`-valued expression: the `object` column, or `e->'key'`. -/
inductive JsonExpr where
  | object
  | arrow (e : JsonExpr) (key : String)

/-- A text-valued expression: `e->>'key'`, or `object #>> '{path}'`. -/
inductive TextExpr where
  | arrowText (e : JsonExpr) (key : String)
  | pathText (parts : List String)

inductive Expression where
  /-- `"namespace" = ns` -/
  | namespaceEq (ns : String)
  /-- `"id" > n` -/
  | idGt (n : Int)
  /-- `(t)::bigint >= n` -/
  | bigintGe (t : TextExpr) (n : Nat)
  | eq (t : TextExpr) (v : String)
  | ne (t : TextExpr) (v : String)
  | eqAny (t : TextExpr) (vs : List String)
  | neAll (t : TextExpr) (vs : List String)
  | jsonbExists (e : JsonExpr) (key : String)
  | not (e : Expression)

def JsonExpr.eval (doc : Json) : JsonExpr → Option Json
  | .object => some doc
  | .arrow e key => Sql.arrow (e.eval doc) key

def TextExpr.eval (doc : Json) : TextExpr → Option String
  | .arrowText e key => Sql.arrowText (e.eval doc) key
  | .pathText parts => Sql.pathText (some doc) parts

/-- The value of a condition on a row. The cast of `bigintGe` is only ever applied to a stored
resource version, which is a decimal. -/
def Expression.eval (k : Kind α) (r : Row α) : Expression → Truth
  | .namespaceEq ns => some (r.ns == ns)
  | .idGt n => some (decide (r.id > n))
  | .bigintGe t n =>
    ((t.eval (k.toJson r.object)).bind (parseUint · 63)).map fun v => decide (n ≤ v)
  | .eq t v => Sql.eq (t.eval (k.toJson r.object)) v
  | .ne t v => Sql.ne (t.eval (k.toJson r.object)) v
  | .eqAny t vs => Sql.eqAny (t.eval (k.toJson r.object)) vs
  | .neAll t vs => Sql.neAll (t.eval (k.toJson r.object)) vs
  | .jsonbExists e key => Sql.jsonbExists (e.eval (k.toJson r.object)) key
  | .not e => (e.eval k r).not

/-- `WHERE e₁ AND e₂ AND …` keeps a row only when every condition is `TRUE`. -/
def keeps (k : Kind α) (es : List Expression) (r : Row α) : Bool :=
  es.all fun e => e.eval k r == some true

/-! ## Translating selectors -/

def labelsColumn : JsonExpr := .arrow (.arrow .object "metadata") "labels"

/-- The `switch` of `buildLabelSelectorExpressions`. `req.Values().List()[0]` is the first value;
the arity of the operator says that there is one. -/
def labelExpression (req : Requirement) : Except String Expression :=
  match req.operator with
  | .equals | .doubleEquals => .ok (.eq (.arrowText labelsColumn req.key) (req.values.headD ""))
  | .notEquals => .ok (.ne (.arrowText labelsColumn req.key) (req.values.headD ""))
  | .in_ => .ok (.eqAny (.arrowText labelsColumn req.key) req.values)
  | .notIn => .ok (.neAll (.arrowText labelsColumn req.key) req.values)
  | .exists_ => .ok (.jsonbExists labelsColumn req.key)
  | .doesNotExist => .ok (.not (.jsonbExists labelsColumn req.key))
  | .greaterThan | .lessThan =>
    .error ("unsupported label selector operator: " ++ req.operator.text)

/-- A selector that is not selectable (`labels.Nothing()`) yields no condition at all. -/
def buildLabelSelectorExpressions : LabelSelector → Except String (List Expression)
  | .nothing => .ok []
  | .requirements reqs => reqs.mapM labelExpression

/-- The `switch` of `buildFieldSelectorExpressions`: `metadata.name` becomes the path
`{metadata,name}`. -/
def fieldExpression (req : FieldRequirement) : Except String Expression :=
  match req.operator with
  | .equals | .doubleEquals => .ok (.eq (.pathText (split req.field '.')) req.value)
  | .notEquals => .ok (.ne (.pathText (split req.field '.')) req.value)
  | .in_ | .notIn | .exists_ | .doesNotExist | .greaterThan | .lessThan =>
    .error ("unsupported field selector operator: " ++ req.operator.text)

def buildFieldSelectorExpressions : FieldSelector → Except String (List Expression)
  | .nothing => .ok []
  | .terms reqs => reqs.mapM fieldExpression

/-- The conditions of a translated list hold exactly when the condition of each source does. -/
theorem keeps_mapM {β : Type} {f : β → Except String Expression} {k : Kind α} {r : Row α}
    {bs : List β} {es : List Expression} (h : bs.mapM f = .ok es) :
    keeps k es r = true ↔ ∀ b ∈ bs, ∃ e, f b = .ok e ∧ e.eval k r = some true := by
  unfold keeps
  simp only [all_eq_true, beq_iff_eq]
  constructor
  · intro hall b hb
    obtain ⟨e, hmem, he⟩ := Fallible.exists_mem_of_mapM h hb
    exact ⟨e, he, hall e hmem⟩
  · intro hall e hmem
    obtain ⟨b, hb, he⟩ := Fallible.exists_of_mem_mapM h hmem
    obtain ⟨e', he', htrue⟩ := hall b hb
    rw [he] at he'
    cases he'
    exact htrue

/-! ## Label selectors: SQL against Kubernetes -/

/-- The operators the translation covers. -/
def Requirement.Supported (req : Requirement) : Prop :=
  req.operator ≠ .greaterThan ∧ req.operator ≠ .lessThan

def LabelSelector.Supported : LabelSelector → Prop
  | .nothing => True
  | .requirements reqs => ∀ req ∈ reqs, req.Supported

/-- The requirement is decided by a key that the labels do not have, where SQL computes `NULL`:
a missing key under `!=` and `notin`, and a missing label map under `!exists`. -/
def Requirement.NullProne (req : Requirement) (labels : List (String × String)) : Prop :=
  match req.operator with
  | .notEquals | .notIn => labels.lookup req.key = none
  | .doesNotExist => labels = []
  | _ => False

theorem eval_labelText (k : Kind α) (o : Object α) (key : String) :
    (TextExpr.arrowText labelsColumn key).eval (k.toJson o) = o.metadata.labels.lookup key := by
  show Sql.arrowText (Sql.arrow (Sql.arrow (some (k.toJson o)) "metadata") "labels") key = _
  rw [k.labels_toJson]
  by_cases h : o.metadata.labels = []
  · rw [if_pos h, h]
    rfl
  · rw [if_neg h]
    unfold Sql.arrowText
    rw [Sql.arrow_obj, lookup_map_str]
    cases o.metadata.labels.lookup key <;> rfl

theorem eval_labelExists (k : Kind α) (r : Row α) (key : String) :
    (Expression.jsonbExists labelsColumn key).eval k r =
      if r.object.metadata.labels = [] then none
      else some (r.object.metadata.labels.lookup key).isSome := by
  show Sql.jsonbExists
    (Sql.arrow (Sql.arrow (some (k.toJson r.object)) "metadata") "labels") key = _
  rw [k.labels_toJson]
  by_cases h : r.object.metadata.labels = []
  · rw [if_pos h, if_pos h]
    rfl
  · rw [if_neg h, if_neg h, Sql.jsonbExists_obj, lookup_map_str]
    cases r.object.metadata.labels.lookup key <;> rfl

/-- One requirement: the SQL condition is `TRUE` exactly when Kubernetes accepts the labels without
the help of a missing key. -/
theorem labelExpression_spec (k : Kind α) (r : Row α) (req : Requirement) (h : req.Supported) :
    ∃ e, labelExpression req = .ok e ∧
      (e.eval k r = some true ↔
        req.matches r.object.metadata.labels = true ∧
          ¬ req.NullProne r.object.metadata.labels) := by
  obtain ⟨key, op, values, arity⟩ := req
  obtain ⟨hgt, hlt⟩ := h
  have htext := eval_labelText k r.object key
  have hexists := eval_labelExists k r key
  -- the values of `=`, `==` and `!=` are a single one
  have hone : values.length = 1 → ∃ v, values = [v] := length_eq_one_iff.mp
  cases op with
  | equals | doubleEquals =>
    obtain ⟨v, rfl⟩ := hone arity
    refine ⟨_, rfl, ?_⟩
    simp only [Expression.eval, htext, Requirement.matches, Requirement.NullProne]
    cases r.object.metadata.labels.lookup key <;> simp
  | notEquals =>
    obtain ⟨v, rfl⟩ := hone arity
    refine ⟨_, rfl, ?_⟩
    simp only [Expression.eval, htext, Requirement.matches, Requirement.NullProne]
    cases r.object.metadata.labels.lookup key <;> simp
  | in_ =>
    refine ⟨_, rfl, ?_⟩
    simp only [Expression.eval, htext, Requirement.matches, Requirement.NullProne]
    cases r.object.metadata.labels.lookup key <;> simp [Sql.eqAny_none, Sql.eqAny_some]
  | notIn =>
    refine ⟨_, rfl, ?_⟩
    simp only [Expression.eval, htext, Requirement.matches, Requirement.NullProne]
    cases r.object.metadata.labels.lookup key <;> simp [Sql.neAll_none arity, Sql.neAll_some]
  | exists_ =>
    refine ⟨_, rfl, ?_⟩
    rw [hexists]
    simp only [Requirement.matches, Requirement.NullProne]
    by_cases hl : r.object.metadata.labels = []
    · simp [hl]
    · simp [hl]
  | doesNotExist =>
    refine ⟨_, rfl, ?_⟩
    simp only [Expression.eval] at hexists ⊢
    rw [hexists]
    simp only [Requirement.matches, Requirement.NullProne]
    by_cases hl : r.object.metadata.labels = []
    · simp [hl, Truth.not]
    · simp [hl, Truth.not]
  | greaterThan => exact absurd rfl hgt
  | lessThan => exact absurd rfl hlt

/-- The rows a label selector keeps in SQL. -/
def labelQueryKeeps (k : Kind α) (sel : LabelSelector) (r : Row α) : Bool :=
  match buildLabelSelectorExpressions sel with
  | .ok es => keeps k es r
  | .error _ => false

theorem labelQueryKeeps_requirements (k : Kind α) (reqs : List Requirement) (r : Row α)
    (h : ∀ req ∈ reqs, req.Supported) :
    labelQueryKeeps k (.requirements reqs) r = true ↔
      ∀ req ∈ reqs, req.matches r.object.metadata.labels = true ∧
        ¬ req.NullProne r.object.metadata.labels := by
  have htotal : ∃ es, reqs.mapM labelExpression = .ok es := by
    apply Fallible.exists_mapM_eq_ok
    intro req hreq
    obtain ⟨e, he, -⟩ := labelExpression_spec k r req (h req hreq)
    exact ⟨e, he⟩
  obtain ⟨es, hes⟩ := htotal
  have hkeeps : labelQueryKeeps k (.requirements reqs) r = keeps k es r := by
    simp only [labelQueryKeeps, buildLabelSelectorExpressions, hes]
  rw [hkeeps, keeps_mapM hes]
  apply forall₂_congr
  intro req hreq
  obtain ⟨e, he, hiff⟩ := labelExpression_spec k r req (h req hreq)
  rw [← hiff]
  constructor
  · rintro ⟨e', he', htrue⟩
    rw [he] at he'
    cases he'
    exact htrue
  · intro htrue
    exact ⟨e, he, htrue⟩

/-- Where the two semantics agree: the selector is selectable, and either some requirement rejects
the labels anyway or none is decided by a missing key. -/
def LabelSelector.Faithful (sel : LabelSelector) (labels : List (String × String)) : Prop :=
  match sel with
  | .nothing => False
  | .requirements reqs =>
    (∃ req ∈ reqs, req.matches labels = false) ∨ ∀ req ∈ reqs, ¬ req.NullProne labels

/-- **The label query selects what Kubernetes selects, exactly on the faithful selectors.** -/
theorem labelQueryKeeps_iff_matches (k : Kind α) (sel : LabelSelector) (r : Row α)
    (h : sel.Supported) :
    (labelQueryKeeps k sel r = true ↔ sel.matches r.object.metadata.labels = true) ↔
      sel.Faithful r.object.metadata.labels := by
  cases sel with
  | nothing => simp [labelQueryKeeps, buildLabelSelectorExpressions, keeps, LabelSelector.matches,
      LabelSelector.Faithful]
  | requirements reqs =>
    rw [labelQueryKeeps_requirements k reqs r h]
    simp only [LabelSelector.matches, LabelSelector.Faithful, all_eq_true]
    constructor
    · intro hiff
      by_cases hall : ∀ req ∈ reqs, req.matches r.object.metadata.labels = true
      · right
        intro req hreq
        exact (hiff.mpr hall req hreq).2
      · left
        push Not at hall
        obtain ⟨req, hreq, hno⟩ := hall
        exact ⟨req, hreq, by simpa using hno⟩
    · rintro (⟨req, hreq, hno⟩ | hnone)
      · constructor
        · intro hboth req' hreq'
          exact (hboth req' hreq').1
        · intro hall
          rw [hall req hreq] at hno
          exact absurd hno (by decide)
      · constructor
        · intro hboth req' hreq'
          exact (hboth req' hreq').1
        · intro hall req' hreq'
          exact ⟨hall req' hreq', hnone req' hreq'⟩

/-! The four ways to disagree, all on an SBOM that has no labels: `env != test`, `env notin (test)`
and `!env` match it and `labels.Nothing()` does not, but the query drops it in the first three
cases and keeps it in the last. -/

def unlabelledRow : Row SBOM := ⟨1, sampleSBOM "default" "alpine" "u1" 1⟩

def envNotEquals : Requirement := ⟨"env", .notEquals, ["test"], rfl⟩

def envNotIn : Requirement := ⟨"env", .notIn, ["test"], by simp [Operator.Arity]⟩

def envDoesNotExist : Requirement := ⟨"env", .doesNotExist, [], rfl⟩

def envEquals : Requirement := ⟨"env", .equals, ["test"], rfl⟩

theorem labelQuery_disagrees_on_unlabelled :
    (∀ req ∈ [envNotEquals, envNotIn, envDoesNotExist],
      labelQueryKeeps (sbomKind Json.str) (.requirements [req]) unlabelledRow = false ∧
      (LabelSelector.requirements [req]).matches unlabelledRow.object.metadata.labels = true) ∧
    labelQueryKeeps (sbomKind Json.str) .nothing unlabelledRow = true ∧
    LabelSelector.nothing.matches unlabelledRow.object.metadata.labels = false := by
  decide

theorem labelQueryKeeps_iff_matches_envEquals :
    (LabelSelector.requirements [envEquals]).Supported ∧
    ((labelQueryKeeps (sbomKind Json.str) (.requirements [envEquals]) unlabelledRow = true ↔
        (LabelSelector.requirements [envEquals]).matches
          unlabelledRow.object.metadata.labels = true) ↔
      (LabelSelector.requirements [envEquals]).Faithful unlabelledRow.object.metadata.labels) := by
  have h : (LabelSelector.requirements [envEquals]).Supported := by
    intro req hreq
    rw [mem_singleton] at hreq
    subst hreq
    exact ⟨by decide, by decide⟩
  exact ⟨h, labelQueryKeeps_iff_matches _ _ _ h⟩

end SbomScanner.Storage

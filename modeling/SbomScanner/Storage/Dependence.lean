import SbomScanner.Storage.Selection

/-!
# What a list depends on

A condition of a list looks into the document at a few top-level fields: `metadata` for versions and
labels, and the first element of the path for each field selector. `Expression.Within` says so of
the syntax and `Expression.eval_congr` of its meaning. A change of the objects that leaves those
fields alone then commutes with `list` (`list_mapObjects`).
-/

namespace SbomScanner.Storage

open Fallible List Strings

open Sql (Json)

variable {α : Type} {P : String → Prop}

/-! ## The fields a condition reads -/

/-- The expression starts at a top-level field that satisfies `P`. -/
def JsonExpr.Within (P : String → Prop) : JsonExpr → Prop
  | .object => False
  | .arrow .object key => P key
  | .arrow (.arrow e key) _ => (JsonExpr.arrow e key).Within P

def TextExpr.Within (P : String → Prop) : TextExpr → Prop
  | .arrowText e key => (JsonExpr.arrow e key).Within P
  | .pathText parts => ∃ part rest, parts = part :: rest ∧ P part

def Expression.Within (P : String → Prop) : Expression → Prop
  | .namespaceEq _ | .idGt _ => True
  | .bigintGe t _ | .eq t _ | .ne t _ | .eqAny t _ | .neAll t _ => t.Within P
  | .jsonbExists e _ => e.Within P
  | .not e => e.Within P

section Eval

variable {fields fields' : List (String × Json)}
  (hfields : ∀ key, P key → fields.lookup key = fields'.lookup key)
include hfields

theorem JsonExpr.eval_congr {e : JsonExpr} (h : e.Within P) :
    e.eval (.obj fields) = e.eval (.obj fields') := by
  induction e with
  | object => exact h.elim
  | arrow e key ih =>
    cases e with
    | object => exact hfields key h
    | arrow e' key' =>
      unfold JsonExpr.eval
      rw [ih h]

theorem TextExpr.eval_congr {t : TextExpr} (h : t.Within P) :
    t.eval (.obj fields) = t.eval (.obj fields') := by
  cases t with
  | arrowText e key =>
    have harrow := JsonExpr.eval_congr hfields h
    exact congrArg (·.bind Json.text) harrow
  | pathText parts =>
    obtain ⟨part, rest, rfl, hpart⟩ := h
    have hstep : (some (Json.obj fields)).bind (Sql.pathStep · part) =
        (some (Json.obj fields')).bind (Sql.pathStep · part) := hfields part hpart
    show (Sql.path (some (.obj fields)) (part :: rest)).bind _ =
      (Sql.path (some (.obj fields')) (part :: rest)).bind _
    rw [Sql.path_cons, Sql.path_cons, hstep]

end Eval

variable {e : Expression} {k : Kind α}

theorem Expression.eval_congr {r r' : Row α} (hid : r.id = r'.id) (hns : r.ns = r'.ns)
    (hfields : ∀ key, P key →
      (("metadata", r.object.metadata.toJson) :: k.encode r.object.content).lookup key =
        (("metadata", r'.object.metadata.toJson) :: k.encode r'.object.content).lookup key)
    (h : e.Within P) : e.eval k r = e.eval k r' := by
  have htext : ∀ t : TextExpr, t.Within P →
      t.eval (k.toJson r.object) = t.eval (k.toJson r'.object) :=
    fun t ht => TextExpr.eval_congr hfields ht
  induction e with
  | namespaceEq ns => rw [Expression.eval, Expression.eval, hns]
  | idGt n => rw [Expression.eval, Expression.eval, hid]
  | bigintGe t n | eq t v | ne t v | eqAny t vs | neAll t vs =>
    rw [Expression.eval, Expression.eval, htext t h]
  | jsonbExists e key =>
    have hjson : e.eval (k.toJson r.object) = e.eval (k.toJson r'.object) :=
      JsonExpr.eval_congr hfields h
    rw [Expression.eval, Expression.eval, hjson]
  | not e ih => rw [Expression.eval, Expression.eval, ih h]

/-! ## The fields that a list reads -/

/-- Every field selector of the options starts at a field that satisfies `P`. -/
def ListOptions.FieldsWithin (P : String → Prop) (opts : ListOptions) : Prop :=
  match opts.predicate.field with
  | some (.terms reqs) => ∀ req ∈ reqs, ∀ part ∈ (split req.field '.').head?, P part
  | _ => True

theorem labelExpression_within (hmeta : P "metadata") {req : Requirement}
    (h : labelExpression req = .ok e) : e.Within P := by
  unfold labelExpression at h
  split at h <;> cases h <;> exact hmeta

theorem fieldExpression_within {req : FieldRequirement}
    (hreq : ∀ part ∈ (split req.field '.').head?, P part)
    (h : fieldExpression req = .ok e) : e.Within P := by
  obtain ⟨part, rest, hsplit⟩ := exists_cons_of_ne_nil (split_ne_nil req.field '.')
  have hpart : P part := hreq part (by rw [hsplit]; rfl)
  have hwithin : (TextExpr.pathText (split req.field '.')).Within P :=
    ⟨part, rest, hsplit, hpart⟩
  unfold fieldExpression at h
  split at h <;> cases h <;> exact hwithin

variable {conds : List Expression}

theorem of_mem_continueClause {token : String} (h : continueClause token = .ok conds)
    (he : e ∈ conds) : token ≠ "" ∧ ∃ id, e = .idGt id := by
  unfold continueClause at h
  split at h
  · cases h
    cases he
  · next htoken =>
    split at h
    · cases h
      exact ⟨htoken, _, mem_singleton.mp he⟩
    · cases h

variable {opts : ListOptions}

theorem of_mem_versionClause (h : versionClause opts = .ok conds) (he : e ∈ conds) :
    ∃ n, e = .bigintGe versionColumn n := by
  unfold versionClause at h
  split at h
  · cases h
    cases he
  · split at h
    · cases h
      split at he
      · cases he
      · exact ⟨_, mem_singleton.mp he⟩
    · cases h

theorem of_mem_labelClause {label : Option LabelSelector}
    (h : selectorClause buildLabelSelectorExpressions label = .ok conds) (he : e ∈ conds) :
    ∃ req, labelExpression req = .ok e := by
  rcases label with _ | _ | reqs
  · cases h
    cases he
  · cases h
    cases he
  · have hmap : reqs.mapM labelExpression = .ok conds := mapError_eq_ok.mp h
    obtain ⟨req, -, hreq⟩ := exists_of_mem_mapM hmap he
    exact ⟨req, hreq⟩

theorem of_mem_fieldClause {field : Option FieldSelector}
    (h : selectorClause buildFieldSelectorExpressions field = .ok conds) (he : e ∈ conds) :
    ∃ reqs, field = some (.terms reqs) ∧ ∃ req ∈ reqs, fieldExpression req = .ok e := by
  rcases field with _ | _ | reqs
  · cases h
    cases he
  · cases h
    cases he
  · have hmap : reqs.mapM fieldExpression = .ok conds := mapError_eq_ok.mp h
    exact ⟨reqs, rfl, exists_of_mem_mapM hmap he⟩

/-- What holds of the conditions of each kind holds of all that come from the options. -/
theorem forall_of_optionsClause {Q : Expression → Prop}
    (hid : opts.predicate.continueToken ≠ "" → ∀ id, Q (.idGt id))
    (hversion : ∀ n, Q (.bigintGe versionColumn n))
    (hlabel : ∀ req e, labelExpression req = .ok e → Q e)
    (hfield : ∀ reqs, opts.predicate.field = some (.terms reqs) →
      ∀ req ∈ reqs, ∀ e, fieldExpression req = .ok e → Q e) (h : optionsClause opts = .ok conds) :
    ∀ e ∈ conds, Q e := by
  obtain ⟨continueConds, versionConds, labelConds, fieldConds, hc, hv, hl, hf, rfl⟩ :=
    optionsClause_eq_ok.mp h
  intro e he
  simp only [mem_append] at he
  rcases he with ((he | he) | he) | he
  · obtain ⟨htoken, id, rfl⟩ := of_mem_continueClause hc he
    exact hid htoken id
  · obtain ⟨n, rfl⟩ := of_mem_versionClause hv he
    exact hversion n
  · obtain ⟨req, hreq⟩ := of_mem_labelClause hl he
    exact hlabel req e hreq
  · obtain ⟨reqs, hreqs, req, hmem, hreq⟩ := of_mem_fieldClause hf he
    exact hfield reqs hreqs req hmem e hreq

theorem optionsClause_within (hmeta : P "metadata")
    (hopts : opts.FieldsWithin P) (h : optionsClause opts = .ok conds) :
    ∀ e ∈ conds, e.Within P := by
  refine forall_of_optionsClause (fun _ _ => trivial) (fun _ => hmeta)
    (fun req e he => labelExpression_within hmeta he) ?_ h
  intro reqs hreqs req hreq e he
  unfold ListOptions.FieldsWithin at hopts
  rw [hreqs] at hopts
  exact fieldExpression_within (hopts req hreq) he

/-! ## A change of the objects commutes with a list -/

section Mapped

variable (f : Object α → Object α)

def mapRow (r : Row α) : Row α := ⟨r.id, f r.object⟩

def Table.mapObjects (hf : ∀ o, (f o).key = o.key) (t : Table α) : Table α where
  rows := t.rows.map (mapRow f)
  idSeq := t.idSeq
  keys_nodup := by
    rw [map_map, show Row.key ∘ mapRow f = Row.key from funext fun r => hf r.object]
    exact t.keys_nodup
  ids_lt := by
    intro r hr
    obtain ⟨r', hr', rfl⟩ := mem_map.mp hr
    exact t.ids_lt r' hr'
  ids_nodup := by
    rw [map_map, show Row.id ∘ mapRow f = Row.id from rfl]
    exact t.ids_nodup

theorem Table.lookup_mapObjects {f : Object α → Object α} (hf : ∀ o, (f o).key = o.key)
    (t : Table α) (key : ObjectKey) :
    (t.mapObjects f hf).lookup key = (t.lookup key).map f := by
  have hkey : (fun r : Row α => r.key == key) ∘ mapRow f = fun r => r.key == key := by
    funext r
    show ((f r.object).key == key) = (r.object.key == key)
    rw [hf]
  unfold lookup
  rw [show (t.mapObjects f hf).rows = t.rows.map (mapRow f) from rfl, List.find?_map, hkey,
    Option.map_map, Option.map_map]
  rfl

theorem scanRows_map (limit : Int) (rows : List (Row α)) (count lastID : Int) :
    scanRows limit (rows.map (mapRow f)) count lastID =
      ((scanRows limit rows count lastID).1.map f, (scanRows limit rows count lastID).2) := by
  induction rows generalizing count lastID with
  | nil => rfl
  | cons r rest ih =>
    rw [map_cons, scanRows, scanRows]
    split
    · rfl
    · simp only [ih]
      rfl

variable {f}

theorem selectRows_mapObjects (hf : ∀ o, (f o).key = o.key) (t : Table α) {es : List Expression}
    (hkeeps : ∀ r, keeps k es (mapRow f r) = keeps k es r) (limit : Int) :
    selectRows k (t.mapObjects f hf) es limit = (selectRows k t es limit).map (mapRow f) := by
  have hsorted : ((t.mapObjects f hf).rows.filter (keeps k es)).insertionSort
        (fun a b => a.id ≤ b.id) =
      ((t.rows.filter (keeps k es)).insertionSort fun a b => a.id ≤ b.id).map (mapRow f) := by
    show ((t.rows.map (mapRow f)).filter (keeps k es)).insertionSort _ = _
    have hfilter : t.rows.filter (keeps k es ∘ mapRow f) = t.rows.filter (keeps k es) :=
      filter_congr fun r _ => hkeeps r
    rw [filter_map, hfilter]
    symm
    apply map_insertionSort
    intro a _ b _
    exact Iff.rfl
  unfold selectRows
  simp only [hsorted]
  split
  · rw [map_take]
  · rfl

theorem list_mapObjects (hf : ∀ o, (f o).key = o.key) (t : Table α) {ns : String}
    (hkeeps : ∀ conds, optionsClause opts = .ok conds → ∀ r,
      keeps k (namespaceClause ns ++ conds) (mapRow f r) =
        keeps k (namespaceClause ns ++ conds) r) :
    list k (t.mapObjects f hf) ns opts =
      (list k t ns opts).map fun page => (page.1.map f, page.2) := by
  unfold list
  cases hconds : optionsClause opts with
  | error e => rfl
  | ok conds =>
    simp only
    split
    · rw [selectRows_mapObjects hf t (hkeeps conds hconds), scanRows_map]
      rfl
    · rfl

end Mapped

end SbomScanner.Storage

import SbomScanner.Storage.List

/-!
# A list selects no more than its selectors do

For collection and namespace keys, the SQL of a list is *sound* for the Kubernetes predicate: every
object it returns lies under the key and satisfies the label and field selectors, provided the
selectors can be translated at all. Two of them cannot: `labels.Nothing()` and `fields.Nothing()`
become no condition, and a field that `GetAttrs` does not report is still looked up in the document.
(The converse fails, see `labelQueryKeeps_iff_matches`.)
-/

namespace SbomScanner.Storage

open Fallible List Strings

variable {α : Type}

/-- The object lies under the key and satisfies the selectors. -/
def InScope (k : Kind α) (key : Key) (opts : ListOptions) (o : Object α) : Prop :=
  key.Covers k.clusterScoped o.key ∧ opts.predicate.matches k o = true

instance (k : Kind α) (key : Key) (opts : ListOptions) (o : Object α) :
    Decidable (InScope k key opts o) := inferInstanceAs (Decidable (_ ∧ _))

variable {k : Kind α} {opts : ListOptions} {key : Key} {o : Object α}

/-- Stripping a payload does not move it in or out of scope. -/
theorem inScope_strip (h : InScope k key opts o) : InScope k key opts (k.strip o) := by
  obtain ⟨hcovers, hmatches⟩ := h
  refine ⟨hcovers, ?_⟩
  have hattrs : k.getAttrs (k.strip o) = k.getAttrs o := by
    unfold Kind.getAttrs
    rw [show (k.strip o).content = k.transform o.content from rfl, k.attrs_transform]
    rfl
  unfold SelectionPredicate.matches at hmatches ⊢
  rw [hattrs]
  exact hmatches

/-! ## What the selectors may name -/

def Selectable : Option LabelSelector → Prop
  | some .nothing => False
  | some (.requirements _) | none => True

/-- Every term names a field that every object of the kind reports. -/
def FieldsReported (k : Kind α) : Option FieldSelector → Prop
  | some .nothing => False
  | some (.terms reqs) => ∀ req ∈ reqs, ∀ o : Object α, ((k.getAttrs o).lookup req.field).isSome
  | none => True

/-- A list under this key with these options is sound. -/
structure ListSound (k : Kind α) (key : Key) (opts : ListOptions) : Prop where
  names : key.names.length ≤ if k.clusterScoped then 0 else 1
  label : Selectable opts.predicate.label
  field : FieldsReported k opts.predicate.field

/-! ## Label conditions -/

theorem supported_of_labelExpression {req : Requirement} {e : Expression}
    (h : labelExpression req = .ok e) : req.Supported := by
  unfold labelExpression at h
  constructor
  · intro hop
    simp [hop] at h
  · intro hop
    simp [hop] at h

variable {r : Row α} {conds : List Expression}

theorem label_sound {label : Option LabelSelector}
    (hconds : selectorClause buildLabelSelectorExpressions label = .ok conds)
    (hsel : Selectable label) (hkeeps : keeps k conds r = true) :
    label.all (·.matches r.object.metadata.labels) = true := by
  rcases label with _ | sel
  · rfl
  · cases sel with
    | nothing => exact hsel.elim
    | requirements reqs =>
      have hmap : reqs.mapM labelExpression = .ok conds := mapError_eq_ok.mp hconds
      have hall := (keeps_mapM hmap).mp hkeeps
      simp only [Option.all_some, LabelSelector.matches, all_eq_true]
      intro req hreq
      obtain ⟨e, he, htrue⟩ := hall req hreq
      obtain ⟨e', he', hiff⟩ := labelExpression_spec k r req (supported_of_labelExpression he)
      rw [he] at he'
      cases he'
      exact (hiff.mp htrue).1

/-! ## Field conditions -/

theorem pathText_name (k : Kind α) (o : Object α) :
    Sql.pathText (some (k.toJson o)) (split "metadata.name" '.') =
      some o.metadata.name := by
  rfl

theorem pathText_namespace (k : Kind α) (o : Object α) {v : String}
    (h : Sql.pathText (some (k.toJson o)) (split "metadata.namespace" '.') = some v) :
    v = o.metadata.ns := by
  rw [show split "metadata.namespace" '.' = ["metadata", "namespace"] by decide] at h
  have hpath : Sql.pathText (some (k.toJson o)) ["metadata", "namespace"] =
      (Sql.arrow (some o.metadata.toJson) "namespace").bind Sql.Json.text := rfl
  rw [hpath, ObjectMeta.toJson, Sql.arrow_obj] at h
  have hrv : (if o.metadata.resourceVersion = 0 then ([] : List (String × Sql.Json))
      else [("resourceVersion", .str (formatUint o.metadata.resourceVersion))]).lookup
        "namespace" = none := by
    split <;> rfl
  have hlabels : (labelsJson o.metadata.labels).lookup "namespace" = none := by
    unfold labelsJson
    split <;> rfl
  by_cases hns : o.metadata.ns = ""
  · -- an empty namespace is not in the document
    rw [cons_append, cons_append, cons_append, lookup_cons] at h
    simp only [show ("namespace" == "name") = false from rfl, omitEmpty, hns, if_true,
      nil_append] at h
    rw [append_assoc] at h
    have huid : (if o.metadata.uid = "" then ([] : List (String × Sql.Json))
        else [("uid", .str o.metadata.uid)]).lookup "namespace" = none := by
      split <;> rfl
    rw [lookup_append_none huid, lookup_append_none hrv, hlabels] at h
    cases h
  · simp only [omitEmpty, hns, if_false, cons_append, nil_append, lookup_cons,
      show ("namespace" == "name") = false from rfl, beq_self_eq_true, Option.bind_some,
      Sql.Json.text, Option.some.injEq] at h
    exact h.symm

theorem getAttrs_stored {field v v' : String} (hattr : (k.getAttrs o).lookup field = some v)
    (hpath : Sql.pathText (some (k.toJson o)) (split field '.') = some v') : v' = v := by
  obtain ⟨before, after, heq, -⟩ := lookup_eq_some_iff.mp hattr
  have hmem : (field, v) ∈ k.getAttrs o := by simp [heq]
  simp only [Kind.getAttrs, cons_append, mem_cons, mem_append] at hmem
  rcases hmem with hname | hns | hcontent
  · cases hname
    exact (Option.some.inj hpath).symm
  · split at hns
    · cases hns
    · cases mem_singleton.mp hns
      exact pathText_namespace k o hpath
  · have hstored := k.attrs_stored o.metadata o.content _ hcontent
    rw [show k.toJson o = document o.metadata (k.encode o.content) from rfl, hstored] at hpath
    exact (Option.some.inj hpath).symm

theorem fieldExpression_sound {req : FieldRequirement} {e : Expression}
    (he : fieldExpression req = .ok e) (htrue : e.eval k r = some true)
    (hreported : ((k.getAttrs r.object).lookup req.field).isSome) :
    req.matches (k.getAttrs r.object) = true := by
  obtain ⟨v, hv⟩ := Option.isSome_iff_exists.mp hreported
  obtain ⟨field, op, value⟩ := req
  have hstored : ∀ v', Sql.pathText (some (k.toJson r.object)) (split field '.') = some v' →
      v' = v := fun v' hpath => getAttrs_stored hv hpath
  cases op with
  | equals | doubleEquals =>
    cases he
    simp only [Expression.eval, TextExpr.eval] at htrue
    cases hpath : Sql.pathText (some (k.toJson r.object)) (split field '.') with
    | none => simp [hpath] at htrue
    | some v' =>
      rw [hpath, Sql.eq_some] at htrue
      simp only [FieldRequirement.matches, hv, ← hstored v' hpath]
      simpa using htrue
  | notEquals =>
    cases he
    simp only [Expression.eval, TextExpr.eval] at htrue
    cases hpath : Sql.pathText (some (k.toJson r.object)) (split field '.') with
    | none => simp [hpath] at htrue
    | some v' =>
      rw [hpath, Sql.ne_some] at htrue
      simp only [FieldRequirement.matches, hv, ← hstored v' hpath]
      simpa using htrue
  | in_ | notIn | exists_ | doesNotExist | greaterThan | lessThan => cases he

theorem field_sound {field : Option FieldSelector}
    (hconds : selectorClause buildFieldSelectorExpressions field = .ok conds)
    (hrep : FieldsReported k field) (hkeeps : keeps k conds r = true) :
    field.all (·.matches (k.getAttrs r.object)) = true := by
  rcases field with _ | sel
  · rfl
  · cases sel with
    | nothing => exact hrep.elim
    | terms reqs =>
      have hmap : reqs.mapM fieldExpression = .ok conds := mapError_eq_ok.mp hconds
      have hall := (keeps_mapM hmap).mp hkeeps
      simp only [Option.all_some, FieldSelector.matches, all_eq_true]
      intro req hreq
      obtain ⟨e, he, htrue⟩ := hall req hreq
      exact fieldExpression_sound he htrue (hrep req hreq r.object)

/-! ## The whole clause -/

theorem optionsClause_eq_ok :
    optionsClause opts = .ok conds ↔
      ∃ continueConds versionConds labelConds fieldConds,
        continueClause opts.predicate.continueToken = .ok continueConds ∧
        versionClause opts = .ok versionConds ∧
        selectorClause buildLabelSelectorExpressions opts.predicate.label = .ok labelConds ∧
        selectorClause buildFieldSelectorExpressions opts.predicate.field = .ok fieldConds ∧
        conds = continueConds ++ versionConds ++ labelConds ++ fieldConds := by
  constructor
  · intro h
    obtain ⟨continueConds, hc, h⟩ := bind_eq_ok.mp h
    obtain ⟨versionConds, hv, h⟩ := bind_eq_ok.mp h
    obtain ⟨labelConds, hl, h⟩ := bind_eq_ok.mp h
    obtain ⟨fieldConds, hf, h⟩ := bind_eq_ok.mp h
    cases h
    exact ⟨continueConds, versionConds, labelConds, fieldConds, hc, hv, hl, hf, rfl⟩
  · rintro ⟨continueConds, versionConds, labelConds, fieldConds, hc, hv, hl, hf, rfl⟩
    unfold optionsClause
    rw [hc, hv, hl, hf]
    rfl

theorem keeps_append {es es' : List Expression} :
    keeps k (es ++ es') r = true ↔ keeps k es r = true ∧ keeps k es' r = true := by
  simp only [keeps, all_append, Bool.and_eq_true]

/-- **Soundness of a list.** -/
theorem inScope_of_admits (hsound : ListSound k key opts)
    (h : Admits k (extractKeyNamespace k.clusterScoped key.render) opts r) :
    InScope k key opts r.object := by
  constructor
  · -- the key has no segment, or names the namespace the clause asks for
    have hnames := hsound.names
    rcases hcases : key.names with _ | ⟨ns, _ | ⟨name, rest⟩⟩
    · unfold Key.Covers
      rw [hcases]
      exact nil_prefix
    · cases hk : k.clusterScoped with
      | true => simp [hcases, hk] at hnames
      | false =>
        rw [hk, extractKeyNamespace_render, hcases] at h
        have hne : ns ≠ "" := by
          have hmem : ns ∈ key.names := by simp [hcases]
          obtain ⟨s, -, rfl⟩ := mem_map.mp hmem
          exact s.ne
        unfold Key.Covers
        rw [hcases, ← ns_of_admits hne h]
        exact ⟨[r.name], rfl⟩
    · have : key.names.length ≤ 1 := le_trans hnames (by split <;> omega)
      simp [hcases] at this
  · obtain ⟨conds, hconds, -, hkeeps⟩ := h
    obtain ⟨_, _, labelConds, fieldConds, -, -, hlabel, hfield, rfl⟩ :=
      optionsClause_eq_ok.mp hconds
    rw [keeps_append, keeps_append, keeps_append] at hkeeps
    unfold SelectionPredicate.matches
    rw [Bool.and_eq_true]
    exact ⟨label_sound hlabel hsound.label hkeeps.2.1.2, field_sound hfield hsound.field hkeeps.2.2⟩

theorem inScope_of_mem_getList {t : Table α} {seq seq' : Nat} {res : ListResult α}
    (hsound : ListSound k key opts) (h : getList k t seq key.render opts = .ok (res, seq'))
    (ho : o ∈ res.items) :
    InScope k key opts o := by
  obtain ⟨-, -, hlist⟩ := getList_items h
  obtain ⟨r, -, rfl, hadm⟩ := mem_list hlist ho
  exact inScope_of_admits hsound hadm

end SbomScanner.Storage

import SbomScanner.Storage.Table

/-!
# Listing

`repository.list` turns list options into a `WHERE` clause, fetches one row more than the limit in
`id` order, and reads rows until the limit is reached. `store.GetList` runs it with the namespace
it finds in the key and stamps the result with a resource version.

The property at stake is confinement: a list under a key shows objects under that key only, and a
list that names a namespace does not depend on the other namespaces. It is settled by the rows the
`WHERE` clause can keep (`confined_iff_admits`): for a collection or namespace key they are the
right ones, for an object key the clause has no namespace condition at all.
-/

namespace SbomScanner.Storage

open List Strings

variable {α : Type}

/-! ## `repository.list` -/

inductive ListError where
  | invalidContinueToken (token : String)
  | invalidResourceVersion (rv : String)
  | unsupportedSelector (message : String)
  /-- PostgreSQL or its driver refuses the query -/
  | queryFailed
  deriving DecidableEq

def continueClause (token : String) : Except ListError (List Expression) :=
  if token = "" then .ok []
  else
    match parseInt token 64 with
    | some continueID => .ok [.idGt continueID]
    | none => .error (.invalidContinueToken token)

def versionColumn : TextExpr := .arrowText (.arrow .object "metadata") "resourceVersion"

def versionClause (opts : ListOptions) : Except ListError (List Expression) :=
  if opts.resourceVersion = "" ∨ opts.resourceVersion = "0" then .ok []
  else
    match parseUint opts.resourceVersion 64 with
    | some rv =>
      .ok (if opts.sendInitialEvents = some true then [] else [.bigintGe versionColumn rv])
    | none => .error (.invalidResourceVersion opts.resourceVersion)

/-- A nil selector adds nothing. -/
def selectorClause {σ : Type} (build : σ → Except String (List Expression)) :
    Option σ → Except ListError (List Expression)
  | none => .ok []
  | some sel => (build sel).mapError .unsupportedSelector

/-- The conditions that come from the options. -/
def optionsClause (opts : ListOptions) : Except ListError (List Expression) := do
  let continueConds ← continueClause opts.predicate.continueToken
  let versionConds ← versionClause opts
  let labelConds ← selectorClause buildLabelSelectorExpressions opts.predicate.label
  let fieldConds ← selectorClause buildFieldSelectorExpressions opts.predicate.field
  return continueConds ++ versionConds ++ labelConds ++ fieldConds

def namespaceClause (ns : String) : List Expression := if ns = "" then [] else [.namespaceEq ns]

/-- A version beyond `bigint` cannot be sent to the server. -/
def Expression.encodable : Expression → Bool
  | .bigintGe _ n => decide (n < 2 ^ 63)
  | _ => true

/-- The server accepts the query: its arguments fit, and `Limit+1` has not wrapped around to a
negative `LIMIT`. -/
def executable (es : List Expression) (limit : Int) : Bool :=
  es.all Expression.encodable && decide (limit + 1 < 2 ^ 63)

/-- `SELECT id, object FROM t WHERE es ORDER BY id LIMIT limit+1`. -/
def selectRows (k : Kind α) (t : Table α) (es : List Expression) (limit : Int) : List (Row α) :=
  let rows := (t.rows.filter (keeps k es)).insertionSort fun a b => a.id ≤ b.id
  if limit > 0 then rows.take (limit + 1).toNat else rows

/-- The loop over `rows.Next()`. Reaching the limit with a row left over makes the last id the
continue token. -/
def scanRows (limit : Int) : List (Row α) → (count lastID : Int) → List (Object α) × String
  | [], _, _ => ([], "")
  | r :: rest, count, lastID =>
    if limit > 0 ∧ count = limit then ([], formatInt lastID)
    else
      let (items, token) := scanRows limit rest (count + 1) r.id
      (r.object :: items, token)

def list (k : Kind α) (t : Table α) (ns : String) (opts : ListOptions) :
    Except ListError (List (Object α) × String) :=
  match optionsClause opts with
  | .error e => .error e
  | .ok conds =>
    let es := namespaceClause ns ++ conds
    if executable es opts.predicate.limit then
      .ok (scanRows opts.predicate.limit (selectRows k t es opts.predicate.limit) 0 0)
    else .error .queryFailed

/-! ## `store.GetList` -/

inductive StoreError where
  | badRequest (message : String)
  | internal (e : ListError)
  | invalidKey (key : String)
  | keyNotFound (key : String)
  | sequenceExhausted
  /-- a nil selector is dereferenced by the first log line -/
  | nilSelector
  deriving DecidableEq

structure ListResult (α : Type) where
  items : List (Object α)
  resourceVersion : Nat
  continueToken : String

def parseResourceVersion (rv : String) : Option Nat :=
  if rv = "" ∨ rv = "0" then some 0 else parseUint rv 64

/-- `nextval`, on a `bigint` sequence whose last value is `seq`. -/
def nextResourceVersion (seq : Nat) : Option Nat :=
  if seq + 1 < 2 ^ 63 then some (seq + 1) else none

theorem lt_of_nextResourceVersion {seq rv : Nat} (h : nextResourceVersion seq = some rv) :
    seq < rv := by
  unfold nextResourceVersion at h
  split at h
  · cases h
    omega
  · cases h

/-- `store.GetList`: the list and the new last value of the version sequence. -/
def getList (k : Kind α) (t : Table α) (seq : Nat) (key : String) (opts : ListOptions) :
    Except StoreError (ListResult α × Nat) :=
  if opts.predicate.label.isNone || opts.predicate.field.isNone then .error .nilSelector
  else
    match parseResourceVersion opts.resourceVersion with
    | none => .error (.badRequest ("invalid resource version: " ++ opts.resourceVersion))
    | some parsed =>
      match list k t (extractKeyNamespace k.clusterScoped key) opts with
      | .error e => .error (.internal e)
      | .ok (items, token) =>
        if opts.resourceVersion = "" ∨ opts.resourceVersion = "0" then
          match nextResourceVersion seq with
          | some listRV => .ok (⟨items, listRV, token⟩, listRV)
          | none => .error .sequenceExhausted
        else .ok (⟨items, parsed, token⟩, seq)

/-! ## The rows a list can show -/

/-- The options let `list` run in namespace `ns`, and its `WHERE` clause keeps the row. -/
def Admits (k : Kind α) (ns : String) (opts : ListOptions) (r : Row α) : Prop :=
  ∃ conds, optionsClause opts = .ok conds ∧
    executable (namespaceClause ns ++ conds) opts.predicate.limit = true ∧
    keeps k (namespaceClause ns ++ conds) r = true

theorem mem_scanRows {limit : Int} {rows : List (Row α)} {count lastID : Int} {o : Object α}
    (h : o ∈ (scanRows limit rows count lastID).1) : ∃ r ∈ rows, r.object = o := by
  induction rows generalizing count lastID with
  | nil => simp [scanRows] at h
  | cons r rest ih =>
    unfold scanRows at h
    split at h
    · simp at h
    · rcases mem_cons.mp h with rfl | h
      · exact ⟨r, mem_cons_self, rfl⟩
      · obtain ⟨r', hr', ho⟩ := ih h
        exact ⟨r', mem_cons_of_mem _ hr', ho⟩

variable {k : Kind α} {t : Table α} {r : Row α} {es : List Expression}

theorem mem_selectRows {limit : Int} (h : r ∈ selectRows k t es limit) :
    r ∈ t.rows ∧ keeps k es r = true := by
  have hsort : r ∈ (t.rows.filter (keeps k es)).insertionSort fun a b => a.id ≤ b.id := by
    unfold selectRows at h
    split at h
    · exact mem_of_mem_take h
    · exact h
  rw [mem_insertionSort, mem_filter] at hsort
  exact hsort

variable {opts : ListOptions} {ns : String}

/-- **Everything listed is stored and admitted.** -/
theorem mem_list {items : List (Object α)} {token : String}
    (h : list k t ns opts = .ok (items, token)) {o : Object α} (ho : o ∈ items) :
    ∃ r ∈ t.rows, r.object = o ∧ Admits k ns opts r := by
  unfold list at h
  split at h
  · cases h
  · next conds hconds =>
    simp only at h
    split at h
    · next hexec =>
      injection h with h
      have hitems : items = (scanRows opts.predicate.limit _ 0 0).1 := (congrArg Prod.fst h).symm
      rw [hitems] at ho
      obtain ⟨r, hr, hro⟩ := mem_scanRows ho
      obtain ⟨hmem, hkeeps⟩ := mem_selectRows hr
      exact ⟨r, hmem, hro, conds, hconds, hexec, hkeeps⟩
    · cases h

/-- The rows come sorted by a column without duplicates, so they depend only on which rows are
kept, not on the heap order. -/
theorem selectRows_congr {t' : Table α} (limit : Int)
    (h : ∀ r, keeps k es r = true → (r ∈ t.rows ↔ r ∈ t'.rows)) :
    selectRows k t es limit = selectRows k t' es limit := by
  have hperm : (t.rows.filter (keeps k es)).Perm (t'.rows.filter (keeps k es)) := by
    rw [perm_ext_iff_of_nodup ((List.Nodup.of_map _ t.keys_nodup).filter _)
      ((List.Nodup.of_map _ t'.keys_nodup).filter _)]
    intro r
    rw [mem_filter, mem_filter]
    constructor
    · rintro ⟨hr, hk⟩
      exact ⟨(h r hk).mp hr, hk⟩
    · rintro ⟨hr, hk⟩
      exact ⟨(h r hk).mpr hr, hk⟩
  have hsorted : (t.rows.filter (keeps k es)).insertionSort (fun a b => a.id ≤ b.id) =
      (t'.rows.filter (keeps k es)).insertionSort (fun a b => a.id ≤ b.id) := by
    refine List.Perm.eq_of_pairwise ?_
      (pairwise_insertionSort (fun a b : Row α => a.id ≤ b.id) _)
      (pairwise_insertionSort (fun a b : Row α => a.id ≤ b.id) _)
      ((perm_insertionSort _ _).trans (hperm.trans (perm_insertionSort _ _).symm))
    -- both rows are in the first table, where an id names one row
    intro a b ha hb hab hba
    rw [mem_insertionSort, mem_filter] at ha hb
    have hb' : b ∈ t.rows := (h b hb.2).mpr hb.1
    exact inj_on_of_nodup_map t.ids_nodup ha.1 hb' (le_antisymm hab hba)
  unfold selectRows
  simp only [hsorted]

theorem list_congr {t' : Table α} (h : ∀ r, Admits k ns opts r → (r ∈ t.rows ↔ r ∈ t'.rows)) :
    list k t ns opts = list k t' ns opts := by
  unfold list
  split
  · rfl
  · next conds hconds =>
    by_cases hexec : executable (namespaceClause ns ++ conds) opts.predicate.limit = true
    · rw [if_pos hexec, if_pos hexec, selectRows_congr opts.predicate.limit]
      intro r hr
      exact h r ⟨conds, hconds, hexec, hr⟩
    · rw [if_neg hexec, if_neg hexec]

/-! ## Confinement -/

def AgreeOn (ns : String) (t t' : Table α) : Prop :=
  ∀ r : Row α, r.ns = ns → (r ∈ t.rows ↔ r ∈ t'.rows)

/-- What a list under `key` promises: it shows objects under the key only, and when the key names a
namespace it is a function of that namespace. -/
def Confined (k : Kind α) (key : Key) (opts : ListOptions) : Prop :=
  (∀ t seq res seq', getList k t seq key.render opts = .ok (res, seq') →
    ∀ o ∈ res.items, key.Covers k.clusterScoped o.key) ∧
  ∀ ns, key.names.head? = some ns → ∀ t t' seq, AgreeOn ns t t' →
    getList k t seq key.render opts = getList k t' seq key.render opts

theorem getList_items {seq seq' : Nat} {key : String} {res : ListResult α}
    (h : getList k t seq key opts = .ok (res, seq')) :
    opts.predicate.label.isNone = false ∧ opts.predicate.field.isNone = false ∧
    list k t (extractKeyNamespace k.clusterScoped key) opts =
      .ok (res.items, res.continueToken) := by
  unfold getList at h
  split at h
  · cases h
  · next hnil =>
    rw [Bool.or_eq_true, not_or, Bool.not_eq_true, Bool.not_eq_true] at hnil
    refine ⟨hnil.1, hnil.2, ?_⟩
    split at h
    · cases h
    · split at h
      · cases h
      · next hlist =>
        rw [hlist]
        split at h
        · split at h
          · cases h
            rfl
          · cases h
        · cases h
          rfl

/-- The rows a list under `key` can show. -/
def Shows (k : Kind α) (key : Key) (opts : ListOptions) (r : Row α) : Prop :=
  opts.predicate.label.isNone = false ∧ opts.predicate.field.isNone = false ∧
    Admits k (extractKeyNamespace k.clusterScoped key.render) opts r

variable {key : Key}

theorem confined_of_shows (hk : k.clusterScoped = false)
    (h : ∀ r, Shows k key opts r → key.Covers k.clusterScoped r.key) :
    Confined k key opts := by
  constructor
  · intro t seq res seq' hres o ho
    obtain ⟨hlabel, hfield, hlist⟩ := getList_items hres
    obtain ⟨r, -, rfl, hadm⟩ := mem_list hlist ho
    exact h r ⟨hlabel, hfield, hadm⟩
  · intro ns hns t t' seq hagree
    by_cases hnil : (opts.predicate.label.isNone || opts.predicate.field.isNone) = true
    · unfold getList
      rw [if_pos hnil, if_pos hnil]
    · have hlist : list k t (extractKeyNamespace k.clusterScoped key.render) opts =
          list k t' (extractKeyNamespace k.clusterScoped key.render) opts := by
        apply list_congr
        intro r hr
        apply hagree
        rw [Bool.or_eq_true, not_or, Bool.not_eq_true, Bool.not_eq_true] at hnil
        obtain ⟨rest, hrest⟩ := h r ⟨hnil.1, hnil.2, hr⟩
        -- the key's first segment is the row's namespace
        rw [hk] at hrest
        cases hnames : key.names with
        | nil => simp [hnames] at hns
        | cons a as =>
          rw [hnames] at hns hrest
          injection hrest with ha
          injection hns with hns
          rw [← hns, ha]
          rfl
      unfold getList
      rw [hlist]

def Table.singleton (r : Row α) : Table α :=
  { rows := [r]
    idSeq := r.id + 1
    keys_nodup := nodup_singleton _
    ids_lt := by
      intro r' hr'
      rw [mem_singleton.mp hr']
      omega
    ids_nodup := nodup_singleton _ }

theorem list_singleton (h : Admits k ns opts r) :
    list k (.singleton r) ns opts = .ok ([r.object], "") := by
  obtain ⟨conds, hconds, hexec, hkeeps⟩ := h
  have hrows : selectRows k (.singleton r) (namespaceClause ns ++ conds) opts.predicate.limit =
      [r] := by
    unfold selectRows Table.singleton
    simp only [filter_cons, hkeeps, if_true, filter_nil, insertionSort_cons,
      insertionSort_nil, orderedInsert_nil]
    split
    · next hpos =>
      apply take_of_length_le
      simp only [length_singleton]
      omega
    · rfl
  unfold list
  rw [hconds]
  simp only [hexec, if_true, hrows, scanRows]
  by_cases hlim : opts.predicate.limit > 0 ∧ (0 : Int) = opts.predicate.limit
  · omega
  · rw [if_neg hlim]

/-- A row that can be shown is shown, by the table that holds nothing else. -/
theorem getList_singleton (h : Shows k key opts r) :
    ∃ res seq', getList k (.singleton r) 0 key.render opts = .ok (res, seq') ∧
      res.items = [r.object] := by
  obtain ⟨hlabel, hfield, hadm⟩ := h
  have hlist := list_singleton hadm
  obtain ⟨conds, hconds, -, -⟩ := hadm
  unfold getList
  simp only [hlabel, hfield, Bool.or_self, Bool.false_eq_true, if_false, hlist]
  by_cases hrv : opts.resourceVersion = "" ∨ opts.resourceVersion = "0"
  · simp only [parseResourceVersion, if_pos hrv, nextResourceVersion]
    exact ⟨_, _, rfl, rfl⟩
  · -- an unparseable version would already have failed in the options
    have hparse : ∃ v, parseUint opts.resourceVersion 64 = some v := by
      cases hv : parseUint opts.resourceVersion 64 with
      | some v => exact ⟨v, rfl⟩
      | none =>
        simp only [optionsClause, versionClause, if_neg hrv, hv] at hconds
        cases hc : continueClause opts.predicate.continueToken with
        | error e | ok cs =>
          rw [hc] at hconds
          cases hconds
    obtain ⟨v, hv⟩ := hparse
    simp only [parseResourceVersion, if_neg hrv, hv]
    exact ⟨_, _, rfl, rfl⟩

/-- **Confinement is a matter of the rows that can be shown.** -/
theorem confined_iff_shows (hk : k.clusterScoped = false) :
    Confined k key opts ↔ ∀ r, Shows k key opts r → key.Covers k.clusterScoped r.key := by
  constructor
  · intro hconf r hr
    obtain ⟨res, seq', hres, hitems⟩ := getList_singleton hr
    exact hconf.1 _ _ _ _ hres r.object (by simp [hitems])
  · exact confined_of_shows hk

theorem ns_of_admits (hne : ns ≠ "")
    (h : Admits k ns opts r) : r.ns = ns := by
  obtain ⟨conds, -, -, hkeeps⟩ := h
  simp only [keeps, namespaceClause, if_neg hne, cons_append, nil_append, all_cons,
    Expression.eval, Bool.and_eq_true, beq_iff_eq, Option.some.injEq] at hkeeps
  exact hkeeps.1

/-- **`GetList` is confined, except under object keys.** There it is confined exactly when the
options by themselves, without any namespace, select no object but the one the key names. -/
theorem getList_confined_iff (k : Kind α) (hk : k.clusterScoped = false) (key : Key)
    (hkey : key.names.length ≤ 2) (opts : ListOptions) :
    Confined k key opts ↔
      (key.names.length = 2 → opts.predicate.label.isNone = false →
        opts.predicate.field.isNone = false →
        ∀ r : Row α, Admits k "" opts r → r.key.names false = key.names) := by
  rw [confined_iff_shows hk]
  have hns := extractKeyNamespace_render key
  simp only [Shows, Key.Covers, hk, hns]
  have hsegment : ∀ ns ∈ key.names, ns ≠ "" := by
    intro ns hmem
    obtain ⟨s, -, rfl⟩ := mem_map.mp hmem
    exact s.ne
  rcases hnames : key.names with _ | ⟨ns, _ | ⟨name, _ | ⟨extra, rest⟩⟩⟩
  · simp
  · -- a namespace key: the clause tests the namespace column
    have hne : ns ≠ "" := hsegment ns (by simp [hnames])
    simp only [length_singleton]
    constructor
    · intro _ h
      omega
    · rintro - r ⟨-, -, hadm⟩
      rw [← ns_of_admits hne hadm]
      exact ⟨[r.name], rfl⟩
  · -- an object key: nothing ties the rows to it
    simp only [length_cons, length_nil]
    constructor
    · intro h _ hlabel hfield r hadm
      obtain ⟨rest, hrest⟩ := h r ⟨hlabel, hfield, hadm⟩
      have hrest' : rest = [] := by
        have := congrArg List.length hrest
        simpa [ObjectKey.names] using this
      rw [hrest', append_nil] at hrest
      exact hrest.symm
    · rintro h r ⟨hlabel, hfield, hadm⟩
      have hnames' : r.key.names false = [ns, name] := h trivial hlabel hfield r hadm
      exact ⟨[], by rw [append_nil, hnames']⟩
  · simp [hnames] at hkey

/-! A list under the key of `a/x` whose field selector pins `metadata.name` shows `b/x` as well. -/

def pinName : ListOptions :=
  { predicate := { field := some (.terms [⟨"metadata.name", .equals, "x"⟩]) } }

def sbomKey (path : List Segment) : Key :=
  ⟨⟨"storage.sbomscanner.kubewarden.io", by decide, by decide⟩,
    (sbomKind Sql.Json.str).segment, path⟩

def segmentA : Segment := ⟨"a", by decide, by decide⟩

def segmentX : Segment := ⟨"x", by decide, by decide⟩

/-- The versions of one object `a/x`. -/
def sampleAX (rv : Nat) (labels : List (String × String) := []) : Object SBOM :=
  sampleSBOM "a" "x" "u1" rv labels "doc" segmentX.ne segmentX.noSlash segmentA.noSlash

def twoTenants : Table SBOM :=
  { rows := [⟨1, sampleSBOM "a" "x" "u1" 1⟩, ⟨2, sampleSBOM "b" "x" "u2" 2⟩]
    idSeq := 3
    keys_nodup := by decide
    ids_lt := by decide
    ids_nodup := by decide }

theorem getList_leaks_other_namespace :
    (getList (sbomKind Sql.Json.str) twoTenants 2 (sbomKey [segmentA, segmentX]).render
        pinName).toOption.map (fun res => res.1.items.map Object.key) =
      some [⟨"a", "x"⟩, ⟨"b", "x"⟩] ∧
    ¬ (sbomKey [segmentA, segmentX]).Covers false ⟨"b", "x"⟩ := by
  decide

theorem getList_confined_iff_objectKey :
    (sbomKey [segmentA, segmentX]).names.length ≤ 2 ∧
    (Confined (sbomKind Sql.Json.str) (sbomKey [segmentA, segmentX]) pinName ↔
      ((sbomKey [segmentA, segmentX]).names.length = 2 →
        pinName.predicate.label.isNone = false → pinName.predicate.field.isNone = false →
        ∀ r : Row SBOM, Admits (sbomKind Sql.Json.str) "" pinName r →
          r.key.names false = (sbomKey [segmentA, segmentX]).names)) :=
  ⟨by decide, getList_confined_iff (sbomKind Sql.Json.str) rfl _ (by decide) pinName⟩

end SbomScanner.Storage

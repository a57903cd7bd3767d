import SbomScanner.Storage.GuaranteedUpdate
import SbomScanner.Storage.Pagination

/-!
# The store, one call after the other

`store` over `GenericObjectRepository`, with the columns of the table as they are: `Create` fills
`name` and `namespace` from the metadata of the object, every other statement looks for the ones it
finds in the text of the key. The document round-trips through JSON, so a row holds the object.

`Agrees` says that the columns repeat the metadata. The statements keep it when they are called with
the key of the object, and then they are the statements of a `Table`, which has no such columns.
-/

namespace SbomScanner.Storage.Store

open List Function

open GuaranteedUpdate (Preconditions TryError TryResult)

variable {α : Type}

/-! ## `GenericObjectRepository` -/

structure StoredRow (α : Type) where
  id : Int
  name : String
  ns : String
  object : Object α

/-- `WHERE name = $1 AND namespace = $2`. -/
def StoredRow.isAt (row : StoredRow α) (name ns : String) : Bool := row.name == name && row.ns == ns

def StoredRow.document (row : StoredRow α) : Row α := ⟨row.id, row.object⟩

structure GenericObjectRepository (α : Type) where
  rows : List (StoredRow α)
  /-- the next value of the `id` sequence -/
  idSeq : Int

namespace GenericObjectRepository

/-- `INSERT … ON CONFLICT DO NOTHING`, and whether a row was affected. An id is drawn either way,
and a rollback does not give it back. -/
def create (repo : GenericObjectRepository α) (obj : Object α) :
    Bool × GenericObjectRepository α :=
  if repo.rows.any (·.isAt obj.metadata.name obj.metadata.ns) then
    (false, { repo with idSeq := repo.idSeq + 1 })
  else
    (true,
      { rows := repo.rows ++ [⟨repo.idSeq, obj.metadata.name, obj.metadata.ns, obj⟩]
        idSeq := repo.idSeq + 1 })

def get (repo : GenericObjectRepository α) (name ns : String) : Option (Object α) :=
  (repo.rows.find? (·.isAt name ns)).map StoredRow.object

/-- `DELETE … RETURNING object`. -/
def delete (repo : GenericObjectRepository α) (name ns : String) :
    Option (Object α × GenericObjectRepository α) :=
  (repo.get name ns).map fun obj =>
    (obj, { repo with rows := repo.rows.filter fun row => !row.isAt name ns })

/-- `UPDATE … SET object`. The columns stay as they are. -/
def update (repo : GenericObjectRepository α) (name ns : String) (obj : Object α) :
    Option (GenericObjectRepository α) :=
  if repo.rows.any (·.isAt name ns) then
    some
      { repo with
        rows := repo.rows.map fun row =>
          if row.isAt name ns then { row with object := obj } else row }
  else none

def list (k : Kind α) (repo : GenericObjectRepository α) (ns : String) (opts : ListOptions) :
    Except ListError (List (Object α) × String) :=
  match optionsClause opts with
  | .error e => .error e
  | .ok conds =>
    if executable (namespaceClause ns ++ conds) opts.predicate.limit then
      let matching := repo.rows.filter fun row =>
        (ns == "" || row.ns == ns) && keeps k conds row.document
      let ordered := (matching.map StoredRow.document).insertionSort fun a b => a.id ≤ b.id
      let limit := opts.predicate.limit
      let fetched := if limit > 0 then ordered.take (limit + 1).toNat else ordered
      .ok (scanRows limit fetched 0 0)
    else .error .queryFailed

def count (repo : GenericObjectRepository α) (ns : String) : Nat :=
  if ns = "" then repo.rows.length else repo.rows.countP fun row => row.ns == ns

end GenericObjectRepository

/-! ## `store` -/

structure State (α : Type) where
  repository : GenericObjectRepository α
  /-- the last value of the version sequence -/
  seq : Nat

inductive Failure where
  /-- the version sequence is exhausted -/
  | internal
  | invalidKey (key : String)
  | keyExists (key : String)
  | keyNotFound (key : String)
  | preconditionFailed (key : String)
  | deletionInvalid (message : String)
  | tryUpdateFailed (e : TryError)
  | list (e : StoreError)

inductive Reply (α : Type) where
  | object (obj : Object α)
  /-- no error and a zero object: not found, and that was to be ignored -/
  | zero
  | list (listObj : ListResult α)
  | count (n : Nat)
  | failed (e : Failure)

/-- `store.Create`. It never looks into the key. -/
def create (s : State α) (key : String) (obj : Object α) : Reply α × State α :=
  match nextResourceVersion s.seq with
  | none => (.failed .internal, s)
  | some rv =>
    match s.repository.create (updateObject obj rv) with
    | (true, repository) => (.object (updateObject obj rv), ⟨repository, rv⟩)
    | (false, repository) => (.failed (.keyExists key), ⟨repository, rv⟩)

/-- `store.Delete`; `validateDeletion` returns the text of its error. The row is deleted before the
checks, which a failed one rolls back. -/
def delete (k : Kind α) (s : State α) (key : String) (preconditions : Preconditions)
    (validateDeletion : Object α → Option String) : Reply α × State α :=
  let (name, ns) := extractKeyNameAndNamespace k.clusterScoped key
  if name = "" then (.failed (.invalidKey key), s)
  else
    match s.repository.delete name ns with
    | none => (.failed (.keyNotFound key), s)
    | some (obj, repository) =>
      if preconditions.check obj then
        match validateDeletion obj with
        | some message => (.failed (.deletionInvalid message), s)
        | none => (.object obj, { s with repository := repository })
      else (.failed (.preconditionFailed key), s)

def get (k : Kind α) (s : State α) (key : String) (ignoreNotFound : Bool) : Reply α :=
  let (name, ns) := extractKeyNameAndNamespace k.clusterScoped key
  if name = "" then .failed (.invalidKey key)
  else
    match s.repository.get name ns with
    | some obj => .object obj
    | none => if ignoreNotFound then .zero else .failed (.keyNotFound key)

def getList (k : Kind α) (s : State α) (key : String) (opts : ListOptions) : Reply α × State α :=
  if opts.predicate.label.isNone || opts.predicate.field.isNone then
    (.failed (.list .nilSelector), s)
  else
    match parseResourceVersion opts.resourceVersion with
    | none =>
      (.failed (.list (.badRequest ("invalid resource version: " ++ opts.resourceVersion))), s)
    | some parsed =>
      match s.repository.list k (extractKeyNamespace k.clusterScoped key) opts with
      | .error e => (.failed (.list (.internal e)), s)
      | .ok (items, token) =>
        if opts.resourceVersion = "" ∨ opts.resourceVersion = "0" then
          match nextResourceVersion s.seq with
          | some listRV => (.list ⟨items, listRV, token⟩, { s with seq := listRV })
          | none => (.failed (.list .sequenceExhausted), s)
        else (.list ⟨items, parsed, token⟩, s)

def count (k : Kind α) (s : State α) (key : String) : Reply α :=
  .count (s.repository.count (extractKeyNamespace k.clusterScoped key))

/-- The error sends `GuaranteedUpdate` back to the head of its loop. -/
def retried : TryResult α → Bool
  | .updated _ => false
  | .failed e => e.isConflict && e.optimisticLock

/-- The arguments of `GuaranteedUpdate`. The closure may answer each of its calls differently, but
it leaves name and namespace alone and does not conflict for ever. -/
structure Call (α : Type) where
  ignoreNotFound : Bool
  preconditions : Preconditions
  tryUpdate : Nat → Object α → TryResult α
  key_eq : ∀ {attempt obj updatedObj}, tryUpdate attempt obj = .updated updatedObj →
    updatedObj.key = obj.key
  settles : ∀ obj, ∃ attempt, retried (tryUpdate attempt obj) = false

/-- The loop of `GuaranteedUpdate` from a given attempt on; `none` if it is still in conflict when
the fuel is used up. -/
def updateLoop (s : State α) (key name ns : String) (call : Call α) :
    (fuel attempt : Nat) → Option (Reply α × State α)
  | 0, _ => none
  | fuel + 1, attempt =>
    match s.repository.get name ns with
    | none =>
      some (if call.ignoreNotFound then .zero else .failed (.keyNotFound key), s)
    | some obj =>
      if call.preconditions.check obj then
        match call.tryUpdate attempt obj with
        | .failed e =>
          if e.isConflict && e.optimisticLock then
            updateLoop s key name ns call fuel (attempt + 1)
          else some (.failed (.tryUpdateFailed e), s)
        | .updated updatedObj =>
          match nextResourceVersion s.seq with
          | none => some (.failed .internal, s)
          | some rv =>
            match s.repository.update name ns (updateObject updatedObj rv) with
            | some repository =>
              some (.object (updateObject updatedObj rv), ⟨repository, rv⟩)
            | none => some (.failed (.keyNotFound key), { s with seq := rv })
      else some (.failed (.preconditionFailed key), s)

def guaranteedUpdate (k : Kind α) (fuel : Nat) (s : State α) (key : String) (call : Call α) :
    Option (Reply α × State α) :=
  let (name, ns) := extractKeyNameAndNamespace k.clusterScoped key
  if name = "" then some (.failed (.invalidKey key), s)
  else updateLoop s key name ns call fuel 0

/-! ## Runs -/

/-- A key of the object form, and the object it addresses. -/
structure ObjectPath (clusterScoped : Bool) where
  key : Key
  address : ObjectKey
  names_eq : key.names = address.names clusterScoped
  ns_eq : clusterScoped = true → address.ns = ""

/-- A key with fewer segments than an object has. -/
structure CollectionPath (clusterScoped : Bool) where
  key : Key
  collection : key.names.length < if clusterScoped then 1 else 2

inductive Operation (k : Kind α) where
  | create (path : ObjectPath k.clusterScoped) (obj : Object α) (agrees : obj.key = path.address)
  | guaranteedUpdate (path : ObjectPath k.clusterScoped) (call : Call α)
  | delete (path : ObjectPath k.clusterScoped) (preconditions : Preconditions)
      (validateDeletion : Object α → Option String)
  | get (path : ObjectPath k.clusterScoped) (ignoreNotFound : Bool)
  | getList (path : CollectionPath k.clusterScoped) (opts : ListOptions)
  | count (path : CollectionPath k.clusterScoped)

def step (k : Kind α) (fuel : Nat) (s : State α) : Operation k → Option (Reply α × State α)
  | .create path obj _ => some (create s path.key.render obj)
  | .guaranteedUpdate path call => guaranteedUpdate k fuel s path.key.render call
  | .delete path preconditions validateDeletion =>
    some (delete k s path.key.render preconditions validateDeletion)
  | .get path ignoreNotFound => some (get k s path.key.render ignoreNotFound, s)
  | .getList path opts => some (getList k s path.key.render opts)
  | .count path => some (count k s path.key.render, s)

def run (k : Kind α) (fuel : Nat) : State α → List (Operation k) → Option (List (Reply α) × State α)
  | s, [] => some ([], s)
  | s, op :: ops => do
    let (reply, s₁) ← step k fuel s op
    let (replies, s₂) ← run k fuel s₁ ops
    return (reply :: replies, s₂)

/-- The store of a fresh table; the version sequence belongs to all kinds. -/
def State.fresh (seq : Nat) : State α := ⟨⟨[], 1⟩, seq⟩

/-! ## Keys -/

section Keys

variable {clusterScoped : Bool}

theorem ne_empty_of_mem_names (key : Key) {name : String} (h : name ∈ key.names) : name ≠ "" := by
  obtain ⟨segment, -, rfl⟩ := mem_map.mp h
  exact segment.ne

/-- A key of the object form is parsed into what it was rendered from. -/
theorem ObjectPath.extract (path : ObjectPath clusterScoped) :
    extractKeyNameAndNamespace clusterScoped path.key.render =
      (path.address.name, path.address.ns) := by
  unfold extractKeyNameAndNamespace
  rw [keyParts_render, Key.parts, path.names_eq]
  cases clusterScoped with
  | true =>
    rw [path.ns_eq rfl]
    rfl
  | false => rfl

theorem ObjectPath.name_ne (path : ObjectPath clusterScoped) : path.address.name ≠ "" := by
  apply ne_empty_of_mem_names path.key
  rw [path.names_eq]
  unfold ObjectKey.names
  cases clusterScoped <;> simp

/-- The namespace in a collection key decides what lies under it. -/
theorem CollectionPath.covers_iff (path : CollectionPath clusterScoped) (address : ObjectKey) :
    path.key.Covers clusterScoped address ↔
      extractKeyNamespace clusterScoped path.key.render = "" ∨
        address.ns = extractKeyNamespace clusterScoped path.key.render := by
  have hlength := path.collection
  unfold Key.Covers ObjectKey.names
  cases clusterScoped with
  | true =>
    have hnil : path.key.names = [] := length_eq_zero_iff.mp (by simpa using hlength)
    rw [hnil]
    simp [extractKeyNamespace]
  | false =>
    rw [extractKeyNamespace_render]
    rcases hnames : path.key.names with _ | ⟨ns, _ | ⟨name, rest⟩⟩
    · simp
    · have hne : ns ≠ "" := ne_empty_of_mem_names path.key (by rw [hnames]; simp)
      simp [cons_prefix_cons, hne, eq_comm]
    · rw [hnames] at hlength
      simp only [length_cons, Bool.false_eq_true, if_false] at hlength
      omega

end Keys

/-! ## The columns repeat the metadata -/

/-- The row of a table with its columns. -/
def StoredRow.ofRow (r : Row α) : StoredRow α := ⟨r.id, r.name, r.ns, r.object⟩

structure Agrees (repo : GenericObjectRepository α) (t : Table α) : Prop where
  rows : repo.rows = t.rows.map StoredRow.ofRow
  idSeq : repo.idSeq = t.idSeq

theorem StoredRow.isAt_ofRow (r : Row α) (name ns : String) :
    (StoredRow.ofRow r).isAt name ns = (r.key == ⟨ns, name⟩) := by
  rw [Bool.eq_iff_iff]
  simp only [StoredRow.isAt, StoredRow.ofRow, Row.name, Row.ns, Row.key, Object.key,
    Bool.and_eq_true, beq_iff_eq, ObjectKey.mk.injEq]
  exact and_comm

section Agrees

variable {repo : GenericObjectRepository α} {t : Table α} {name ns : String}

theorem agrees_empty : Agrees (⟨[], 1⟩ : GenericObjectRepository α) Table.empty := ⟨rfl, rfl⟩

theorem Agrees.get (h : Agrees repo t) : repo.get name ns = t.lookup ⟨ns, name⟩ := by
  unfold GenericObjectRepository.get Table.lookup
  rw [h.rows, List.find?_map, Option.map_map]
  simp only [comp_def, StoredRow.isAt_ofRow]
  rfl

theorem Agrees.any_isAt (h : Agrees repo t) :
    repo.rows.any (·.isAt name ns) = (t.lookup ⟨ns, name⟩).isSome := by
  rw [← h.get, GenericObjectRepository.get, Option.isSome_map, Bool.eq_iff_iff, any_eq_true,
    List.find?_isSome]

/-- A conflict costs an id only. -/
def skipId (t : Table α) : Table α :=
  { t with
    idSeq := t.idSeq + 1
    ids_lt := fun r hr => Int.lt_add_one_of_le (le_of_lt (t.ids_lt r hr)) }

section

variable (h : Agrees repo t)
include h

theorem Agrees.create (obj : Object α) :
    (t.lookup obj.key = none ∧ ∃ repo' t', repo.create obj = (true, repo') ∧ Agrees repo' t' ∧
        t'.lookup = update t.lookup obj.key (some obj)) ∨
      (t.lookup obj.key ≠ none ∧ ∃ repo' t', repo.create obj = (false, repo') ∧ Agrees repo' t' ∧
        t'.lookup = t.lookup) := by
  have hany : repo.rows.any (·.isAt obj.metadata.name obj.metadata.ns) =
      (t.lookup obj.key).isSome := h.any_isAt
  unfold GenericObjectRepository.create
  rw [hany]
  cases hlookup : t.lookup obj.key with
  | some old =>
    refine .inr ⟨by simp, _, skipId t, rfl, ⟨h.rows, ?_⟩, rfl⟩
    rw [h.idSeq]
    rfl
  | none =>
    obtain ⟨t', ht'⟩ : ∃ t', t.insert obj = some t' := by
      exact ⟨_, dif_pos hlookup⟩
    refine .inl ⟨rfl, _, t', rfl, ?_, (Table.lookup_insert ht').2⟩
    unfold Table.insert at ht'
    rw [dif_pos hlookup] at ht'
    cases ht'
    constructor
    · show repo.rows ++ _ = _
      rw [h.rows, h.idSeq, map_append]
      rfl
    · rw [h.idSeq]

theorem Agrees.delete :
    repo.delete name ns = none ∧ t.lookup ⟨ns, name⟩ = none ∨
      ∃ obj repo' t', repo.delete name ns = some (obj, repo') ∧ t.lookup ⟨ns, name⟩ = some obj ∧
        Agrees repo' t' ∧ t'.lookup = update t.lookup ⟨ns, name⟩ none := by
  unfold GenericObjectRepository.delete
  rw [h.get]
  cases hlookup : t.lookup ⟨ns, name⟩ with
  | none => exact .inl ⟨rfl, rfl⟩
  | some obj =>
    obtain ⟨t', ht'⟩ : ∃ t', t.delete ⟨ns, name⟩ = some (obj, t') := by
      unfold Table.delete
      rw [hlookup]
      exact ⟨_, rfl⟩
    refine .inr ⟨obj, _, t', rfl, rfl, ?_, (Table.lookup_delete ht').2⟩
    unfold Table.delete at ht'
    rw [hlookup] at ht'
    cases ht'
    constructor
    · show repo.rows.filter _ = _
      rw [h.rows, filter_map]
      simp only [comp_def, StoredRow.isAt_ofRow]
    · exact h.idSeq

theorem Agrees.update {obj : Object α} (hkey : obj.key = ⟨ns, name⟩)
    (hsome : (t.lookup ⟨ns, name⟩).isSome) :
    ∃ repo' t', repo.update name ns obj = some repo' ∧ Agrees repo' t' ∧
      t'.lookup = update t.lookup ⟨ns, name⟩ (some obj) := by
  obtain ⟨t', ht'⟩ : ∃ t', t.update obj = some t' := by
    unfold Table.update
    rw [hkey]
    exact ⟨_, if_pos hsome⟩
  unfold GenericObjectRepository.update
  rw [h.any_isAt, if_pos hsome]
  refine ⟨_, t', rfl, ?_, by rw [← hkey]; exact (Table.lookup_update ht').2⟩
  unfold Table.update at ht'
  rw [hkey, if_pos hsome] at ht'
  cases ht'
  constructor
  · show repo.rows.map _ = _
    rw [h.rows, map_map, map_map]
    apply map_congr_left
    intro r _
    simp only [comp_apply, StoredRow.isAt_ofRow, beq_iff_eq, Table.setObject, hkey]
    split
    case isTrue hr =>
      -- the columns keep the key, which is also that of the new object
      have hr' : r.key = obj.key := hr.trans hkey.symm
      have hname : r.name = obj.metadata.name := congrArg ObjectKey.name hr'
      have hns : r.ns = obj.metadata.ns := congrArg ObjectKey.ns hr'
      show (⟨r.id, r.name, r.ns, obj⟩ : StoredRow α) = ⟨r.id, _, _, obj⟩
      rw [hname, hns]
      rfl
    case isFalse => rfl
  · exact h.idSeq

theorem Agrees.count :
    repo.count ns = t.rows.countP fun r => ns == "" || r.ns == ns := by
  unfold GenericObjectRepository.count
  rw [h.rows]
  by_cases hns : ns = ""
  · rw [if_pos hns, length_map]
    subst hns
    exact (countP_eq_length.mpr fun _ _ => rfl).symm
  · rw [if_neg hns, countP_map]
    apply countP_congr
    intro r _
    simp only [comp_apply, beq_eq_false_iff_ne.mpr hns, Bool.false_or]
    exact Iff.rfl

end

theorem keeps_namespaceClause (k : Kind α) (ns : String) (conds : List Expression) (r : Row α) :
    keeps k (namespaceClause ns ++ conds) r = ((ns == "" || r.ns == ns) && keeps k conds r) := by
  unfold namespaceClause
  by_cases hns : ns = ""
  · rw [if_pos hns, hns]
    rfl
  · rw [if_neg hns, beq_eq_false_iff_ne.mpr hns]
    show (((some (r.ns == ns) : Sql.Truth) == some true) && keeps k conds r) = _
    cases r.ns == ns <;> rfl

theorem Agrees.list (h : Agrees repo t) (k : Kind α) (ns : String) (opts : ListOptions) :
    repo.list k ns opts = Storage.list k t ns opts := by
  unfold GenericObjectRepository.list Storage.list
  cases optionsClause opts with
  | error e => rfl
  | ok conds =>
    have hrows : (repo.rows.filter fun row =>
        (ns == "" || row.ns == ns) && keeps k conds row.document).map StoredRow.document =
        t.rows.filter (keeps k (namespaceClause ns ++ conds)) := by
      rw [h.rows, filter_map, map_map,
        show StoredRow.document ∘ StoredRow.ofRow = (id : Row α → Row α) from rfl, map_id]
      apply filter_congr
      intro r _
      rw [keeps_namespaceClause]
      rfl
    simp only [hrows]
    rfl

end Agrees

end SbomScanner.Storage.Store

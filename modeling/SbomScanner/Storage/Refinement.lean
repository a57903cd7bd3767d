import SbomScanner.Storage.Dependence
import SbomScanner.Storage.FiniteMap

/-!
# The store is a finite map

`step_simulates` is the simulation: from a state that represents a map, every operation returns,
with a reply of the map, and leaves a state that represents the map after it. `run_refines` follows
it through a whole run from a fresh table.
-/

namespace SbomScanner.Storage.Store

open List Function

open GuaranteedUpdate (Preconditions TryResult)

variable {α : Type}

/-! ## Lists -/

/-- The condition is about the document, not about the other columns. -/
def OfObject : Expression → Prop
  | .namespaceEq _ | .idGt _ => False
  | .bigintGe _ _ | .eq _ _ | .ne _ _ | .eqAny _ _ | .neAll _ _ | .jsonbExists _ _ => True
  | .not e => OfObject e

variable {obj : Object α} {k : Kind α}

theorem OfObject.eval_eq {e : Expression} (h : OfObject e) (id id' : Int) :
    e.eval k ⟨id, obj⟩ = e.eval k ⟨id', obj⟩ := by
  induction e with
  | namespaceEq ns => exact h.elim
  | idGt n => exact h.elim
  | bigintGe t n | eq t v | ne t v | eqAny t vs | neAll t vs | jsonbExists e key => rfl
  | not e ih =>
    rw [Expression.eval, Expression.eval, ih h]

variable {opts : ListOptions} {conds : List Expression}

theorem ofObject_of_optionsClause
    (h : optionsClause (opts.continuing "") = .ok conds) : ∀ e ∈ conds, OfObject e := by
  refine forall_of_optionsClause (fun hne => absurd rfl hne) (fun _ => trivial) ?_ ?_ h
  · intro req e he
    unfold labelExpression at he
    split at he <;> cases he <;> trivial
  · intro reqs _ req _ e he
    unfold fieldExpression at he
    split at he <;> cases he <;> trivial

theorem selects_of_keeps {r : Row α}
    (hconds : optionsClause (opts.continuing "") = .ok conds) (h : keeps k conds r = true) :
    Selects k opts r.object := by
  refine ⟨conds, hconds, fun id => ?_⟩
  unfold keeps at h ⊢
  rw [all_eq_true] at h ⊢
  intro e he
  rw [(ofObject_of_optionsClause hconds e he).eval_eq id r.id]
  exact h e he

/-- The conditions of a request are those of its first page, after the one of its token. -/
theorem optionsClause_continuing_empty (h : optionsClause opts = .ok conds) :
    ∃ continueConds rest, conds = continueConds ++ rest ∧
      optionsClause (opts.continuing "") = .ok rest ∧
      (opts.predicate.continueToken = "" → continueConds = []) := by
  obtain ⟨continueConds, versionConds, labelConds, fieldConds, hc, hv, hl, hf, rfl⟩ :=
    optionsClause_eq_ok.mp h
  refine ⟨continueConds, versionConds ++ labelConds ++ fieldConds, by simp, ?_, ?_⟩
  · exact optionsClause_eq_ok.mpr ⟨[], versionConds, labelConds, fieldConds, rfl, hv, hl, hf, rfl⟩
  · intro htoken
    rw [htoken] at hc
    cases hc
    rfl

variable {ns : String}

/-- The rows behind a list: the first of those that match, and all of them if there is no token. -/
theorem list_rows {t : Table α} {items : List (Object α)} {token : String}
    (h : Storage.list k t ns opts = .ok (items, token)) :
    ∃ conds rows, optionsClause opts = .ok conds ∧ items = rows.map Row.object ∧
      rows.Sublist (orderedRows k t (namespaceClause ns ++ conds)) ∧
      (0 < opts.predicate.limit → rows.length ≤ opts.predicate.limit) ∧
      (opts.predicate.limit ≤ 0 → token = "") ∧
      (token = "" → rows = orderedRows k t (namespaceClause ns ++ conds)) := by
  unfold Storage.list at h
  split at h
  · cases h
  · next conds hconds =>
    simp only at h
    split at h
    · injection h with h
      refine ⟨conds, ?_⟩
      unfold selectRows at h
      by_cases hlimit : 0 < opts.predicate.limit
      · obtain ⟨limit, hn⟩ : ∃ limit : Nat, opts.predicate.limit = limit :=
          ⟨opts.predicate.limit.toNat, by omega⟩
        have hpos : 0 < limit := by omega
        have htake := scanRows_take hpos (orderedRows k t (namespaceClause ns ++ conds))
        rw [hn] at h hlimit ⊢
        rw [if_pos hlimit] at h
        obtain ⟨hitems, htoken⟩ := Prod.mk.inj (h.symm.trans htake)
        refine ⟨_, hconds, hitems, take_sublist _ _, ?_, ?_, ?_⟩
        · intro _
          rw [length_take]
          omega
        · intro hle
          omega
        · intro hempty
          rw [htoken, tokenText_eq_empty] at hempty
          split at hempty
          · next hlt =>
            rw [Option.map_eq_none_iff, List.getLast?_eq_none_iff, take_eq_nil_iff] at hempty
            rcases hempty with hzero | hnil
            · omega
            · rw [hnil] at hlt
              simp at hlt
          · exact take_of_length_le (by omega)
      · rw [if_neg hlimit, scanRows_unlimited (by omega)] at h
        obtain ⟨rfl, rfl⟩ := Prod.mk.inj h
        exact ⟨_, hconds, rfl, List.Sublist.refl _, fun hpos => absurd hpos hlimit, fun _ => rfl,
          fun _ => rfl⟩
    · cases h

/-- What is in a table does not decide whether a list is refused, nor its version. -/
theorem getList_empty (k : Kind α) (t : Table α) (seq : Nat) (key : String) (opts : ListOptions) :
    (∃ e, Storage.getList k t seq key opts = .error e ∧
        Storage.getList k Table.empty seq key opts = .error e) ∨
      ∃ listObj listObj₀ seq', Storage.getList k t seq key opts = .ok (listObj, seq') ∧
        Storage.getList k Table.empty seq key opts = .ok (listObj₀, seq') ∧
        listObj.resourceVersion = listObj₀.resourceVersion := by
  have hlist : ∀ ns, (∃ e, Storage.list k t ns opts = .error e ∧
      Storage.list k Table.empty ns opts = .error e) ∨
      ∃ page page₀, Storage.list k t ns opts = .ok page ∧
        Storage.list k Table.empty ns opts = .ok page₀ := by
    intro ns
    unfold Storage.list
    cases optionsClause opts with
    | error e => exact .inl ⟨e, rfl, rfl⟩
    | ok conds =>
      simp only
      split
      · exact .inr ⟨_, _, rfl, rfl⟩
      · exact .inl ⟨_, rfl, rfl⟩
  unfold Storage.getList
  split
  · exact .inl ⟨_, rfl, rfl⟩
  · cases parseResourceVersion opts.resourceVersion with
    | none => exact .inl ⟨_, rfl, rfl⟩
    | some parsed =>
      rcases hlist (extractKeyNamespace k.clusterScoped key) with
        ⟨e, he, he₀⟩ | ⟨page, page₀, hpage, hpage₀⟩
      · rw [he, he₀]
        exact .inl ⟨_, rfl, rfl⟩
      · rw [hpage, hpage₀]
        simp only
        split
        · cases nextResourceVersion seq with
          | none => exact .inl ⟨_, rfl, rfl⟩
          | some listRV => exact .inr ⟨_, _, _, rfl, rfl, rfl⟩
        · exact .inr ⟨_, _, _, rfl, rfl, rfl⟩

/-! ## The simulation -/

/-- The rows of the table are the map, and the sequence its version. -/
structure Represents (s : State α) (t : Table α) (m : Spec α) : Prop where
  agrees : Agrees s.repository t
  lookup : ∀ address, m.objects.lookup address = t.lookup address
  version : m.version = s.seq

section Simulation

variable {k : Kind α} {s : State α} {t : Table α} {m : Spec α}

section

variable (h : Represents s t m)
include h

variable {repository : GenericObjectRepository α} {address : ObjectKey}

theorem Represents.insert {t' : Table α} (hagrees : Agrees repository t')
    (ht' : t'.lookup = update t.lookup address (some obj)) (rv : Nat) :
    Represents ⟨repository, rv⟩ t' ⟨m.objects.insert address obj, rv⟩ where
  agrees := hagrees
  lookup a := by
    rw [ht']
    by_cases ha : a = address
    · subst ha
      rw [update_self, Finmap.lookup_insert]
    · rw [update_of_ne ha, Finmap.lookup_insert_of_ne _ ha, h.lookup]
  version := rfl

theorem Represents.erase {t' : Table α} (hagrees : Agrees repository t')
    (ht' : t'.lookup = update t.lookup address none) :
    Represents { s with repository := repository } t'
      { m with objects := m.objects.erase address } where
  agrees := hagrees
  lookup a := by
    rw [ht']
    by_cases ha : a = address
    · subst ha
      rw [update_self, Finmap.lookup_erase]
    · rw [update_of_ne ha, Finmap.lookup_erase_ne ha, h.lookup]
  version := h.version

section

variable (path : ObjectPath k.clusterScoped)
include path

theorem create_simulates (hobj : obj.key = path.address) :
    ∃ t', Represents (create s path.key.render obj).2 t' (m.create path obj).2 ∧
      (create s path.key.render obj).1 = (m.create path obj).1 := by
  unfold create Spec.create
  rw [h.version]
  cases nextResourceVersion s.seq with
  | none => exact ⟨t, h, rfl⟩
  | some rv =>
    have hkey : (updateObject obj rv).key = path.address := hobj
    simp only [h.lookup]
    rcases h.agrees.create (updateObject obj rv) with
      ⟨hnone, repository, t', hcreate, hagrees, ht'⟩ |
        ⟨hsome, repository, t', hcreate, hagrees, ht'⟩
    · rw [hkey] at hnone ht'
      rw [hcreate, hnone]
      exact ⟨t', h.insert hagrees ht' rv, rfl⟩
    · rw [hkey] at hsome
      obtain ⟨old, hold⟩ := Option.ne_none_iff_exists'.mp hsome
      rw [hcreate, hold]
      refine ⟨t', ⟨hagrees, ?_, rfl⟩, rfl⟩
      intro address
      rw [ht']
      exact h.lookup address

theorem get_simulates (ignoreNotFound : Bool) :
    get k s path.key.render ignoreNotFound = m.get path ignoreNotFound := by
  have hget : s.repository.get path.address.name path.address.ns =
      m.objects.lookup path.address := (h.agrees.get ..).trans (h.lookup path.address).symm
  unfold get Spec.get
  rw [path.extract, ← hget]
  exact if_neg path.name_ne

theorem delete_simulates (preconditions : Preconditions)
    (validateDeletion : Object α → Option String) :
    ∃ t', Represents (delete k s path.key.render preconditions validateDeletion).2 t'
        (m.delete path preconditions validateDeletion).2 ∧
      (delete k s path.key.render preconditions validateDeletion).1 =
        (m.delete path preconditions validateDeletion).1 := by
  unfold delete Spec.delete
  rw [path.extract]
  simp only [path.name_ne, if_false, h.lookup]
  rcases h.agrees.delete with ⟨hdelete, hnone⟩ | ⟨obj, repository, t', hdelete, hsome, hagrees, ht'⟩
  · rw [hdelete, hnone]
    exact ⟨t, h, rfl⟩
  · rw [hdelete, hsome]
    simp only
    split
    · cases validateDeletion obj with
      | some message => exact ⟨t, h, rfl⟩
      | none => exact ⟨t', h.erase hagrees ht', rfl⟩
    · exact ⟨t, h, rfl⟩

end

end

/-! ### `GuaranteedUpdate` -/

/-- What the loop makes of a settled answer. -/
def finish (s : State α) (key name ns : String) : TryResult α → Reply α × State α
  | .failed e => (.failed (.tryUpdateFailed e), s)
  | .updated updatedObj =>
    match nextResourceVersion s.seq with
    | none => (.failed .internal, s)
    | some rv =>
      match s.repository.update name ns (updateObject updatedObj rv) with
      | some repository => (.object (updateObject updatedObj rv), ⟨repository, rv⟩)
      | none => (.failed (.keyNotFound key), { s with seq := rv })

variable {call : Call α}

/-- One round of the loop on an object that passes the preconditions. -/
theorem updateLoop_succ {key name : String} (hget : s.repository.get name ns = some obj)
    (hcheck : call.preconditions.check obj = true) (fuel attempt : Nat) :
    updateLoop s key name ns call (fuel + 1) attempt =
      if retried (call.tryUpdate attempt obj) then
        updateLoop s key name ns call fuel (attempt + 1)
      else some (finish s key name ns (call.tryUpdate attempt obj)) := by
  rw [updateLoop, hget]
  simp only [hcheck, if_true]
  cases call.tryUpdate attempt obj with
  | failed e => rfl
  | updated updatedObj =>
    simp only [retried, finish, Bool.false_eq_true, if_false]
    cases nextResourceVersion s.seq with
    | none => rfl
    | some rv =>
      simp only
      cases s.repository.update name ns (updateObject updatedObj rv) <;> rfl

/-- Nobody else writes, so every round reads the same object, and the loop ends with the first
answer that is not to be retried. -/
theorem updateLoop_eq {key name : String} (hget : s.repository.get name ns = some obj)
    (hcheck : call.preconditions.check obj = true) (fuel : Nat) {attempt : Nat}
    (hattempt : attempt ≤ Nat.find (call.settles obj))
    (hfuel : Nat.find (call.settles obj) < attempt + fuel) :
    updateLoop s key name ns call fuel attempt =
      some (finish s key name ns (call.settled obj)) := by
  induction fuel generalizing attempt with
  | zero => omega
  | succ fuel ih =>
    rw [updateLoop_succ hget hcheck]
    by_cases hlast : attempt = Nat.find (call.settles obj)
    · have hsettled : retried (call.tryUpdate attempt obj) = false := by
        rw [hlast]
        exact Nat.find_spec (call.settles obj)
      rw [hsettled, if_neg (by decide), hlast]
      rfl
    · have hlt : attempt < Nat.find (call.settles obj) := by omega
      have hretried : retried (call.tryUpdate attempt obj) = true := by
        have hmin := Nat.find_min (call.settles obj) hlt
        rwa [Bool.not_eq_false] at hmin
      rw [hretried, if_pos rfl]
      exact ih hlt (by omega)

theorem finish_simulates (h : Represents s t m) (path : ObjectPath k.clusterScoped)
    (hlookup : t.lookup path.address = some obj) (hcheck : call.preconditions.check obj = true) :
    ∃ t', Represents
        (finish s path.key.render path.address.name path.address.ns (call.settled obj)).2 t'
        (m.guaranteedUpdate path call).2 ∧
      (finish s path.key.render path.address.name path.address.ns (call.settled obj)).1 =
        (m.guaranteedUpdate path call).1 := by
  unfold Spec.guaranteedUpdate
  rw [h.lookup, hlookup]
  simp only [hcheck, if_true]
  cases hsettled : call.settled obj with
  | failed e => exact ⟨t, h, rfl⟩
  | updated updatedObj =>
    simp only [finish, h.version]
    cases nextResourceVersion s.seq with
    | none => exact ⟨t, h, rfl⟩
    | some rv =>
      have hkey : (updateObject updatedObj rv).key = path.address :=
        (call.key_eq hsettled).trans (t.key_of_lookup hlookup)
      have hsome : (t.lookup ⟨path.address.ns, path.address.name⟩).isSome = true :=
        Option.isSome_iff_exists.mpr ⟨obj, hlookup⟩
      obtain ⟨repository, t', hupdate, hagrees, ht'⟩ := h.agrees.update hkey hsome
      simp only [hupdate]
      exact ⟨t', h.insert hagrees ht' rv, trivial⟩

theorem guaranteedUpdate_simulates (h : Represents s t m) (path : ObjectPath k.clusterScoped)
    (call : Call α) :
    ∃ enough reply s' t', (∀ fuel ≥ enough,
        guaranteedUpdate k fuel s path.key.render call = some (reply, s')) ∧
      Represents s' t' (m.guaranteedUpdate path call).2 ∧
      reply = (m.guaranteedUpdate path call).1 := by
  have hloop : ∀ fuel, guaranteedUpdate k fuel s path.key.render call =
      updateLoop s path.key.render path.address.name path.address.ns call fuel 0 := by
    intro fuel
    unfold guaranteedUpdate
    rw [path.extract]
    simp only [path.name_ne, if_false]
  have hget : s.repository.get path.address.name path.address.ns = t.lookup path.address :=
    h.agrees.get
  simp only [hloop]
  cases hlookup : t.lookup path.address with
  | none =>
    refine ⟨1, _, s, t, fun fuel hfuel => ?_, ?_, rfl⟩
    · obtain ⟨n, rfl⟩ : ∃ n, fuel = n + 1 := ⟨fuel - 1, by omega⟩
      rw [updateLoop, hget, Spec.guaranteedUpdate, h.lookup, hlookup]
    · rw [Spec.guaranteedUpdate, h.lookup, hlookup]
      exact h
  | some obj =>
    rw [hlookup] at hget
    by_cases hcheck : call.preconditions.check obj = true
    · obtain ⟨t', hrep, hreply⟩ := finish_simulates h path hlookup hcheck
      refine ⟨Nat.find (call.settles obj) + 1, _, _, t', fun fuel hfuel => ?_, hrep, hreply⟩
      exact updateLoop_eq hget hcheck fuel (Nat.zero_le _) (by omega)
    · refine ⟨1, _, s, t, fun fuel hfuel => ?_, ?_, rfl⟩
      · obtain ⟨n, rfl⟩ : ∃ n, fuel = n + 1 := ⟨fuel - 1, by omega⟩
        rw [updateLoop, hget, Spec.guaranteedUpdate, h.lookup, hlookup]
        simp only [hcheck, Bool.false_eq_true, if_false]
      · rw [Spec.guaranteedUpdate, h.lookup, hlookup]
        simp only [hcheck, Bool.false_eq_true, if_false]
        exact h

/-! ### `GetList` and `Count` -/

theorem getList_eq (hagrees : Agrees s.repository t) (key : String) (opts : ListOptions) :
    getList k s key opts =
      match Storage.getList k t s.seq key opts with
      | .ok (listObj, seq) => (.list listObj, { s with seq := seq })
      | .error e => (.failed (.list e), s) := by
  unfold getList Storage.getList
  rw [hagrees.list]
  split
  · rfl
  · cases parseResourceVersion opts.resourceVersion with
    | none => rfl
    | some parsed =>
      cases Storage.list k t (extractKeyNamespace k.clusterScoped key) opts with
      | error e => rfl
      | ok page =>
        simp only
        split
        · cases nextResourceVersion s.seq <;> rfl
        · rfl

theorem keeps_namespace_iff (path : CollectionPath k.clusterScoped) (conds : List Expression)
    (r : Row α) :
    keeps k (namespaceClause (extractKeyNamespace k.clusterScoped path.key.render) ++ conds) r =
        true ↔
      path.key.Covers k.clusterScoped r.key ∧ keeps k conds r = true := by
  rw [keeps_namespaceClause, path.covers_iff, Bool.and_eq_true, Bool.or_eq_true, beq_iff_eq,
    beq_iff_eq]
  exact Iff.rfl

theorem lists_of_getList (h : Represents s t m) {path : CollectionPath k.clusterScoped}
    {listObj : ListResult α} {seq seq' : Nat}
    (hlist : Storage.getList k t seq path.key.render opts = .ok (listObj, seq')) :
    m.Lists k path opts listObj := by
  obtain ⟨conds, rows, hconds, hitems, hsub, hlimited, hunlimited, hall⟩ :=
    list_rows (getList_items hlist).2.2
  obtain ⟨continueConds, rest, rfl, hrest, hnone⟩ := optionsClause_continuing_empty hconds
  have hmem : ∀ r ∈ rows, r ∈ t.rows ∧ path.key.Covers k.clusterScoped r.key ∧
      keeps k (continueConds ++ rest) r = true := by
    intro r hr
    obtain ⟨hrow, hkeeps⟩ := mem_orderedRows.mp (hsub.subset hr)
    exact ⟨hrow, (keeps_namespace_iff path _ r).mp hkeeps⟩
  refine ⟨?_, ?_, ?_, hunlimited, ?_⟩
  · intro obj hobj
    rw [hitems] at hobj
    obtain ⟨r, hr, rfl⟩ := mem_map.mp hobj
    obtain ⟨hrow, hcovers, hkeeps⟩ := hmem r hr
    refine ⟨?_, hcovers, selects_of_keeps hrest (keeps_append.mp hkeeps).2⟩
    rw [h.lookup]
    exact t.lookup_eq_some.mpr ⟨rfl, r, hrow, rfl⟩
  · rw [hitems, map_map]
    have hkeys : ((orderedRows k t (namespaceClause
        (extractKeyNamespace k.clusterScoped path.key.render) ++ (continueConds ++ rest))).map
          Row.key).Nodup := by
      refine (((perm_insertionSort _ _).map Row.key).nodup_iff).mpr ?_
      exact t.keys_nodup.sublist (filter_sublist.map Row.key)
    exact hkeys.sublist (hsub.map Row.key)
  · intro hpos
    rw [hitems, length_map]
    exact hlimited hpos
  · intro hstart htoken obj hlookup hcovers hselects
    rw [h.lookup] at hlookup
    obtain ⟨-, r, hrow, rfl⟩ := t.lookup_eq_some.mp hlookup
    obtain ⟨conds', hconds', hkeeps⟩ := hselects
    rw [hrest] at hconds'
    cases hconds'
    rw [hitems, hall htoken]
    apply mem_map_of_mem
    rw [mem_orderedRows, keeps_namespace_iff, hnone hstart]
    exact ⟨hrow, hcovers, hkeeps r.id⟩

theorem getList_simulates (h : Represents s t m) (path : CollectionPath k.clusterScoped)
    (opts : ListOptions) :
    ∃ m', m.ListStep k path opts (getList k s path.key.render opts).1 m' ∧
      Represents (getList k s path.key.render opts).2 t m' := by
  unfold Spec.ListStep
  rw [getList_eq h.agrees, h.version]
  rcases getList_empty k t s.seq path.key.render opts with
    ⟨e, he, he₀⟩ | ⟨listObj, listObj₀, seq', hlist, hlist₀, hversion⟩
  · rw [he, he₀]
    exact ⟨m, rfl, h⟩
  · rw [hlist, hlist₀]
    refine ⟨{ m with version := seq' }, ⟨rfl, listObj, rfl, hversion, ?_⟩, ?_⟩
    · exact lists_of_getList h hlist
    · exact ⟨h.agrees, h.lookup, rfl⟩

/-- The keys under a collection key are those of the rows that `Count` counts. -/
theorem card_under (h : Represents s t m) (path : CollectionPath k.clusterScoped) :
    (m.under path).card =
      s.repository.count (extractKeyNamespace k.clusterScoped path.key.render) := by
  have hunder : m.under path =
      ((t.rows.filter fun r => path.key.Covers k.clusterScoped r.key).map Row.key).toFinset := by
    ext address
    rw [Spec.under, Finset.mem_filter, Finmap.mem_keys, Finmap.mem_iff, mem_toFinset, mem_map]
    constructor
    · rintro ⟨⟨obj, hobj⟩, hcovers⟩
      rw [h.lookup] at hobj
      obtain ⟨rfl, r, hr, rfl⟩ := t.lookup_eq_some.mp hobj
      exact ⟨r, mem_filter.mpr ⟨hr, decide_eq_true hcovers⟩, rfl⟩
    · rintro ⟨r, hr, rfl⟩
      obtain ⟨hrow, hcovers⟩ := mem_filter.mp hr
      refine ⟨⟨r.object, ?_⟩, of_decide_eq_true hcovers⟩
      rw [h.lookup]
      exact t.lookup_eq_some.mpr ⟨rfl, r, hrow, rfl⟩
  have hnodup : ((t.rows.filter fun r =>
      path.key.Covers k.clusterScoped r.key).map Row.key).Nodup :=
    t.keys_nodup.sublist (filter_sublist.map Row.key)
  rw [hunder, toFinset_card_of_nodup hnodup, length_map, ← countP_eq_length_filter, h.agrees.count]
  apply countP_congr
  intro r _
  rw [decide_eq_true_eq, path.covers_iff, Bool.or_eq_true, beq_iff_eq, beq_iff_eq]
  exact Iff.rfl

/-! ### Steps and runs -/

/-- **The simulation.** -/
theorem step_simulates (h : Represents s t m) (op : Operation k) :
    ∃ enough reply s' t' m', (∀ fuel ≥ enough, step k fuel s op = some (reply, s')) ∧
      m.Step k op reply m' ∧ Represents s' t' m' := by
  cases op with
  | create path obj agrees =>
    obtain ⟨t', hrep, hreply⟩ := create_simulates h path agrees
    exact ⟨0, _, _, t', _, fun _ _ => rfl, Prod.ext hreply rfl, hrep⟩
  | guaranteedUpdate path call =>
    obtain ⟨enough, reply, s', t', hrun, hrep, hreply⟩ := guaranteedUpdate_simulates h path call
    exact ⟨enough, reply, s', t', _, hrun, Prod.ext hreply rfl, hrep⟩
  | delete path preconditions validateDeletion =>
    obtain ⟨t', hrep, hreply⟩ := delete_simulates h path preconditions validateDeletion
    exact ⟨0, _, _, t', _, fun _ _ => rfl, Prod.ext hreply rfl, hrep⟩
  | get path ignoreNotFound =>
    refine ⟨0, _, s, t, m, fun _ _ => rfl, ?_, h⟩
    exact Prod.ext (get_simulates h path ignoreNotFound) rfl
  | getList path opts =>
    obtain ⟨m', hstep, hrep⟩ := getList_simulates h path opts
    exact ⟨0, _, _, t, m', fun _ _ => rfl, hstep, hrep⟩
  | count path =>
    refine ⟨0, _, s, t, m, fun _ _ => rfl, ?_, h⟩
    exact Prod.ext (congrArg Reply.count (card_under h path).symm) rfl

theorem run_simulates (h : Represents s t m) (ops : List (Operation k)) :
    ∃ enough replies s' t' m', (∀ fuel ≥ enough, run k fuel s ops = some (replies, s')) ∧
      Spec.Run k m ops replies m' ∧ Represents s' t' m' := by
  induction ops generalizing s t m with
  | nil => exact ⟨0, [], s, t, m, fun _ _ => rfl, .nil m, h⟩
  | cons op ops ih =>
    obtain ⟨enough₁, reply, s₁, t₁, m₁, hstep, hspec, h₁⟩ := step_simulates h op
    obtain ⟨enough₂, replies, s₂, t₂, m₂, hrun, hspecs, h₂⟩ := ih h₁
    refine ⟨max enough₁ enough₂, reply :: replies, s₂, t₂, m₂, ?_, .cons hspec hspecs, h₂⟩
    intro fuel hfuel
    rw [run, hstep fuel (le_trans (le_max_left _ _) hfuel)]
    show (run k fuel s₁ ops).bind _ = _
    rw [hrun fuel (le_trans (le_max_right _ _) hfuel)]
    rfl

end Simulation

/-! ## Counting a list -/

/-- No selectors, no paging and no minimum version. -/
structure Plain (opts : ListOptions) : Prop where
  label : opts.predicate.label = some (.requirements [])
  field : opts.predicate.field = some (.terms [])
  limit : opts.predicate.limit ≤ 0
  continueToken : opts.predicate.continueToken = ""
  resourceVersion : opts.resourceVersion = "" ∨ opts.resourceVersion = "0"

theorem Plain.optionsClause_eq (h : Plain opts) : optionsClause opts = .ok [] := by
  refine optionsClause_eq_ok.mpr ⟨[], [], [], [], ?_, ?_, ?_, ?_, rfl⟩
  · rw [h.continueToken]
    rfl
  · exact if_pos h.resourceVersion
  · rw [h.label]
    rfl
  · rw [h.field]
    rfl

theorem Plain.continuing_eq (h : Plain opts) : opts.continuing "" = opts := by
  unfold ListOptions.continuing
  rw [← h.continueToken]

theorem Plain.selects (h : Plain opts) (k : Kind α) (obj : Object α) : Selects k opts obj :=
  ⟨[], by rw [h.continuing_eq, h.optionsClause_eq], fun _ => rfl⟩

theorem Plain.getList_ok (h : Plain opts) (k : Kind α) (t : Table α) {seq rv : Nat}
    (hrv : nextResourceVersion seq = some rv) (key : String) :
    ∃ listObj, Storage.getList k t seq key opts = .ok (listObj, rv) := by
  have hexec : ∀ ns, executable (namespaceClause ns ++ []) opts.predicate.limit = true := by
    intro ns
    have hlimit := h.limit
    unfold executable namespaceClause
    rw [decide_eq_true (by omega), Bool.and_true]
    split <;> rfl
  have hlist : ∀ ns, ∃ page, Storage.list k t ns opts = .ok page := by
    intro ns
    unfold Storage.list
    rw [h.optionsClause_eq]
    exact ⟨_, if_pos (hexec ns)⟩
  obtain ⟨page, hpage⟩ := hlist (extractKeyNamespace k.clusterScoped key)
  have hparsed : parseResourceVersion opts.resourceVersion = some 0 := if_pos h.resourceVersion
  unfold Storage.getList
  rw [h.label, h.field, hparsed, hpage, hrv]
  exact ⟨_, if_pos h.resourceVersion⟩

/-- A plain list shows every key under its own. -/
theorem Spec.Lists.length_of_plain {m : Spec α} {path : CollectionPath k.clusterScoped}
    {listObj : ListResult α} (h : m.Lists k path opts listObj)
    (hkeys : ∀ address obj, m.objects.lookup address = some obj → obj.key = address)
    (hopts : Plain opts) :
    listObj.items.length = (m.under path).card := by
  have htoken := h.unlimited hopts.limit
  rw [← length_map Object.key, ← toFinset_card_of_nodup h.distinct]
  congr 1
  ext address
  rw [mem_toFinset, mem_map, Spec.under, Finset.mem_filter, Finmap.mem_keys, Finmap.mem_iff]
  constructor
  · rintro ⟨obj, hobj, rfl⟩
    obtain ⟨hlookup, hcovers, -⟩ := h.stored obj hobj
    exact ⟨⟨obj, hlookup⟩, hcovers⟩
  · rintro ⟨⟨obj, hlookup⟩, hcovers⟩
    have hkey := hkeys address obj hlookup
    subst hkey
    have hmem := h.complete hopts.continueToken htoken obj hlookup hcovers (hopts.selects k obj)
    exact ⟨obj, hmem, rfl⟩

theorem count_plain {s : State α} {t : Table α} {m : Spec α} (h : Represents s t m)
    (path : CollectionPath k.clusterScoped) (hopts : Plain opts) {rv : Nat}
    (hrv : nextResourceVersion s.seq = some rv) :
    ∃ listObj, (getList k s path.key.render opts).1 = .list listObj ∧
      count k s path.key.render = .count listObj.items.length := by
  obtain ⟨listObj, hlist⟩ := hopts.getList_ok k t hrv path.key.render
  refine ⟨listObj, by rw [getList_eq h.agrees, hlist], ?_⟩
  have hkeys : ∀ address obj, m.objects.lookup address = some obj → obj.key = address := by
    intro address obj hobj
    rw [h.lookup] at hobj
    exact t.key_of_lookup hobj
  rw [(lists_of_getList h hlist).length_of_plain hkeys hopts, card_under h path]
  rfl

end SbomScanner.Storage.Store

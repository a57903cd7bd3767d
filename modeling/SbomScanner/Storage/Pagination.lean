import SbomScanner.Lib.Paging
import SbomScanner.Storage.Selection

/-!
# Following the continue tokens

A client lists with a limit and repeats the request with the token it got, until the token is empty.
Between two requests the table may change in any way, so `followTokens` takes the tables that the
requests find.

`list` is the page of `Paging` on the matching rows in the order of their ids, with the token as the
text of the cursor (`list_continuing`). The laws of pages carry over.
-/

namespace SbomScanner.Storage

open List Strings Paging

variable {α : Type}

/-- The same request, from a token on. -/
def ListOptions.continuing (opts : ListOptions) (token : String) : ListOptions :=
  { opts with predicate := { opts.predicate with continueToken := token } }

/-- The same request without a limit and from the start. -/
def ListOptions.unpaginated (opts : ListOptions) : ListOptions :=
  { opts with predicate := { opts.predicate with continueToken := "", limit := 0 } }

/-- The pages, and whether the last token was empty. -/
def followTokens (k : Kind α) (ns : String) (opts : ListOptions) :
    String → List (Table α) → Except ListError (List (List (Object α)) × Bool)
  | _, [] => .ok ([], false)
  | token, t :: later =>
    match list k t ns (opts.continuing token) with
    | .error e => .error e
    | .ok (items, next) =>
      if next = "" then .ok ([items], true)
      else (followTokens k ns opts next later).map fun pages => (items :: pages.1, pages.2)

/-- The `id` column is a `bigint`. -/
def Table.BigintIds (t : Table α) : Prop := ∀ r ∈ t.rows, -(2 ^ 63) ≤ r.id ∧ r.id < 2 ^ 63

/-! ## The rows behind a token -/

def orderedRows (k : Kind α) (t : Table α) (es : List Expression) : List (Row α) :=
  (t.rows.filter (keeps k es)).insertionSort fun a b => a.id ≤ b.id

section Order

variable {k : Kind α} {t : Table α} {es : List Expression}

theorem mem_orderedRows {r : Row α} :
    r ∈ orderedRows k t es ↔ r ∈ t.rows ∧ keeps k es r = true := by
  unfold orderedRows
  rw [mem_insertionSort, mem_filter]

theorem ordered_orderedRows (k : Kind α) (t : Table α) (es : List Expression) :
    Paging.Ordered Row.id (orderedRows k t es) := by
  have hsorted := pairwise_insertionSort (fun a b : Row α => a.id ≤ b.id)
    (t.rows.filter (keeps k es))
  have hnodup : ((orderedRows k t es).map Row.id).Nodup := by
    have hperm : (orderedRows k t es).Perm (t.rows.filter (keeps k es)) :=
      perm_insertionSort _ _
    rw [(hperm.map Row.id).nodup_iff]
    exact t.ids_nodup.sublist (filter_sublist.map _)
  rw [List.Nodup, pairwise_map] at hnodup
  exact (hsorted.and hnodup).imp fun h => lt_of_le_of_ne h.1 h.2

theorem orderedRows_eq_of_perm {t : Table α} {es : List Expression} {rows : List (Row α)}
    (hperm : rows.Perm (t.rows.filter (keeps k es))) (hordered : Paging.Ordered Row.id rows) :
    orderedRows k t es = rows := by
  apply List.Perm.eq_of_pairwise _ (ordered_orderedRows k t es) hordered
    ((perm_insertionSort _ _).trans hperm.symm)
  intro a b _ _ hab hba
  exact absurd hab (lt_asymm hba)

/-- The condition of a token leaves the rows behind it. -/
theorem orderedRows_idGt (k : Kind α) (t : Table α) (before after : List Expression) (id : Int) :
    orderedRows k t (before ++ .idGt id :: after) =
      rest Row.id (some id) (orderedRows k t (before ++ after)) := by
  apply orderedRows_eq_of_perm
  · have hkeeps : t.rows.filter (keeps k (before ++ .idGt id :: after)) =
        (t.rows.filter (keeps k (before ++ after))).filter fun r => decide (id < r.id) := by
      rw [filter_filter]
      apply filter_congr
      intro r _
      unfold keeps
      rw [all_append, all_append, all_cons]
      have heval : ((Expression.idGt id).eval k r == some true) = decide (id < r.id) := by
        unfold Expression.eval
        by_cases h : id < r.id <;> simp [h]
      rw [heval, Bool.and_left_comm]
    rw [hkeeps]
    exact (perm_insertionSort _ _).filter _
  · exact (ordered_orderedRows k t _).rest _

end Order

/-! ## One page -/

/-- The loop stops at the limit, with the id of the row before as the token. -/
theorem scanRows_eq {limit : Nat} (hlimit : 0 < limit) (rows : List (Row α)) (count : Nat)
    (lastID : Int) (hcount : count ≤ limit) :
    scanRows limit rows count lastID =
      ((rows.take (limit - count)).map Row.object,
        if limit - count < rows.length then
          formatInt (((rows.take (limit - count)).getLast?.map Row.id).getD lastID)
        else "") := by
  induction rows generalizing count lastID with
  | nil => simp [scanRows]
  | cons r rest ih =>
    rw [scanRows]
    by_cases hfull : count = limit
    · rw [if_pos (by omega), hfull, Nat.sub_self, take_zero, if_pos (by simp)]
      rfl
    · rw [if_neg (by omega)]
      obtain ⟨n, hn⟩ : ∃ n, limit - count = n + 1 := ⟨limit - count - 1, by omega⟩
      have hih := ih (count + 1) r.id (by omega)
      rw [show limit - (count + 1) = n by omega] at hih
      have hlength : n + 1 < (r :: rest).length ↔ n < rest.length := by
        rw [length_cons]
        omega
      rw [show ((count + 1 : Nat) : Int) = (count : Int) + 1 from rfl] at hih
      rw [hih, hn, take_succ_cons, map_cons, List.getLast?_cons]
      simp only [hlength]
      cases (rest.take n).getLast? with
      | none => rfl
      | some last => rfl

/-- The text of a cursor; there is none when nothing is left. -/
def tokenText : Option Int → String
  | none => ""
  | some id => formatInt id

section Page

variable {k : Kind α} {t : Table α} {ns : String} {opts : ListOptions} {conds : List Expression}
  {limit : Nat} {cursor : Option Int}

def InBigint (cursor : Option Int) : Prop := ∀ id ∈ cursor, -(2 ^ 63) ≤ id ∧ id < 2 ^ 63

/-- The conditions from a cursor on. -/
def cursorConds (cursor : Option Int) (conds : List Expression) : List Expression :=
  (cursor.map Expression.idGt).toList ++ conds

theorem optionsClause_continuing (hconds : optionsClause (opts.continuing "") = .ok conds)
    (hcursor : InBigint cursor) :
    optionsClause (opts.continuing (tokenText cursor)) = .ok (cursorConds cursor conds) := by
  cases cursor with
  | none => exact hconds
  | some id =>
    obtain ⟨continueConds, versionConds, labelConds, fieldConds, hc, hv, hl, hf, rfl⟩ :=
      optionsClause_eq_ok.mp hconds
    cases hc
    apply optionsClause_eq_ok.mpr
    refine ⟨[.idGt id], versionConds, labelConds, fieldConds, ?_, hv, hl, hf, rfl⟩
    show continueClause (formatInt id) = _
    unfold continueClause
    rw [if_neg (formatInt_ne_empty id), parseInt_formatInt (hcursor id rfl).1 (hcursor id rfl).2]

theorem orderedRows_cursorConds (k : Kind α) (t : Table α) (before conds : List Expression)
    (cursor : Option Int) :
    orderedRows k t (before ++ cursorConds cursor conds) =
      rest Row.id cursor (orderedRows k t (before ++ conds)) := by
  cases cursor with
  | none => exact (filter_eq_self.mpr fun _ _ => rfl).symm
  | some id => exact orderedRows_idGt k t before conds id

theorem executable_cursorConds (before conds : List Expression) (cursor : Option Int)
    (limit : Int) :
    executable (before ++ cursorConds cursor conds) limit = executable (before ++ conds) limit := by
  unfold executable cursorConds
  cases cursor with
  | none => rfl
  | some id =>
    rw [all_append, all_append, all_append]
    rfl

/-- The loop over the rows behind a cursor, one more than the limit at most, makes a page. -/
theorem scanRows_take (hlimit : 0 < limit) (rows : List (Row α)) :
    scanRows limit (rows.take (limit + 1)) 0 0 =
      ((rows.take limit).map Row.object,
        tokenText
          (if limit < rows.length then (rows.take limit).getLast?.map Row.id else none)) := by
  have hscan := scanRows_eq hlimit (rows.take (limit + 1)) 0 0 (Nat.zero_le _)
  have hmore : limit < (rows.take (limit + 1)).length ↔ limit < rows.length := by
    rw [length_take]
    omega
  rw [Nat.sub_zero, take_take, Nat.min_eq_left (Nat.le_succ limit)] at hscan
  simp only [hmore] at hscan
  refine hscan.trans ?_
  split
  case isTrue hlt =>
    obtain ⟨last, hlast⟩ : ∃ last, (rows.take limit).getLast? = some last := by
      rw [← Option.isSome_iff_exists, List.getLast?_isSome, Ne, take_eq_nil_iff]
      rintro (hzero | hnil)
      · omega
      · rw [hnil, length_nil] at hlt
        omega
    rw [hlast]
    rfl
  case isFalse => rfl

/-- **A page of a list.** It is the page of the matching rows, and the token is its cursor. -/
theorem list_continuing (hconds : optionsClause (opts.continuing "") = .ok conds)
    (hlimit : 0 < limit) (hopts : opts.predicate.limit = limit)
    (hexec : executable (namespaceClause ns ++ conds) limit = true) (hcursor : InBigint cursor) :
    list k t ns (opts.continuing (tokenText cursor)) =
      .ok ((page Row.id limit cursor
          (orderedRows k t (namespaceClause ns ++ conds))).1.map Row.object,
        tokenText (page Row.id limit cursor
          (orderedRows k t (namespaceClause ns ++ conds))).2) := by
  have hrows : selectRows k t (namespaceClause ns ++ cursorConds cursor conds) limit =
      (rest Row.id cursor (orderedRows k t (namespaceClause ns ++ conds))).take (limit + 1) := by
    rw [← orderedRows_cursorConds]
    unfold selectRows
    rw [if_pos (by omega)]
    rfl
  have hlim : (opts.continuing (tokenText cursor)).predicate.limit = limit := hopts
  unfold list
  rw [optionsClause_continuing hconds hcursor]
  simp only [hlim, executable_cursorConds, hexec, if_true, hrows, scanRows_take hlimit]
  rfl

/-! ## All the pages -/

theorem tokenText_eq_empty : tokenText cursor = "" ↔ cursor = none := by
  cases cursor with
  | none => exact ⟨fun _ => rfl, fun _ => rfl⟩
  | some id =>
    constructor
    · intro h
      exact absurd h (formatInt_ne_empty id)
    · intro h
      cases h

theorem inBigint_page (ht : t.BigintIds) {es : List Expression} :
    InBigint (page Row.id limit cursor (orderedRows k t es)).2 := by
  intro id hid
  obtain ⟨-, -, ⟨r, hr, rfl⟩, -⟩ := page_append_of_some (ordered_orderedRows k t es) hid
  exact ht r (mem_orderedRows.mp (mem_page hr).1).1

/-- Following the tokens is following the cursors. -/
theorem followTokens_eq (hconds : optionsClause (opts.continuing "") = .ok conds)
    (hlimit : 0 < limit) (hopts : opts.predicate.limit = limit)
    (hexec : executable (namespaceClause ns ++ conds) limit = true) {tables : List (Table α)}
    (hids : ∀ t ∈ tables, t.BigintIds) (hcursor : InBigint cursor) :
    followTokens k ns opts (tokenText cursor) tables =
      .ok ((follow Row.id limit cursor (tables.map fun t =>
          orderedRows k t (namespaceClause ns ++ conds))).1.map (List.map Row.object),
        (follow Row.id limit cursor (tables.map fun t =>
          orderedRows k t (namespaceClause ns ++ conds))).2) := by
  induction tables generalizing cursor with
  | nil => rfl
  | cons t later ih =>
    have hlater : ∀ t' ∈ later, t'.BigintIds := fun t' ht' => hids t' (mem_cons_of_mem _ ht')
    have hnext : InBigint (page Row.id limit cursor
        (orderedRows k t (namespaceClause ns ++ conds))).2 :=
      inBigint_page (hids t mem_cons_self)
    rw [followTokens, list_continuing hconds hlimit hopts hexec hcursor, map_cons]
    simp only [tokenText_eq_empty]
    rcases follow_cons Row.id limit cursor (orderedRows k t (namespaceClause ns ++ conds))
        (later.map fun t => orderedRows k t (namespaceClause ns ++ conds)) with
      ⟨hnone, hfollow⟩ | ⟨next, hsome, hfollow⟩
    · rw [if_pos hnone, hfollow]
      rfl
    · rw [hsome] at hnext ⊢
      rw [if_neg (by simp), ih hlater hnext, hfollow]
      rfl

end Page

/-! ## Exactness -/

section Exact

variable {k : Kind α} {ns : String} {opts : ListOptions}

theorem scanRows_unlimited {limit : Int} (hlimit : limit ≤ 0) (rows : List (Row α))
    (count lastID : Int) : scanRows limit rows count lastID = (rows.map Row.object, "") := by
  induction rows generalizing count lastID with
  | nil => rfl
  | cons r rest ih =>
    rw [scanRows, if_neg (by omega), ih]
    rfl

/-- Whether a request can be executed is a matter of its selectors, and the same for every page. -/
theorem list_cases (k : Kind α) (ns : String) (hmax : opts.predicate.limit < 2 ^ 63 - 1) :
    (∃ e, ∀ t : Table α, list k t ns (opts.continuing "") = .error e ∧
        list k t ns opts.unpaginated = .error e) ∨
      ∃ conds, optionsClause (opts.continuing "") = .ok conds ∧
        executable (namespaceClause ns ++ conds) opts.predicate.limit = true ∧
        ∀ t : Table α, list k t ns opts.unpaginated =
          .ok ((orderedRows k t (namespaceClause ns ++ conds)).map Row.object, "") := by
  have hsame : optionsClause opts.unpaginated = optionsClause (opts.continuing "") := rfl
  cases hconds : optionsClause (opts.continuing "") with
  | error e =>
    left
    refine ⟨e, fun t => ?_⟩
    unfold list
    rw [hsame, hconds]
    exact ⟨rfl, rfl⟩
  | ok conds =>
    have hexec : ∀ limit : Int, limit < 2 ^ 63 - 1 →
        executable (namespaceClause ns ++ conds) limit =
          (namespaceClause ns ++ conds).all Expression.encodable := by
      intro limit h
      unfold executable
      rw [decide_eq_true (by omega), Bool.and_true]
    cases hall : (namespaceClause ns ++ conds).all Expression.encodable with
    | false =>
      left
      refine ⟨.queryFailed, fun t => ?_⟩
      unfold list
      rw [hsame, hconds]
      show (if executable _ opts.predicate.limit then _ else _) = _ ∧
        (if executable _ 0 then _ else _) = _
      rw [hexec _ hmax, hexec 0 (by decide), hall]
      exact ⟨rfl, rfl⟩
    | true =>
      right
      refine ⟨conds, rfl, by rw [hexec _ hmax, hall], fun t => ?_⟩
      unfold list
      rw [hsame, hconds]
      show (if executable _ 0 then Except.ok (scanRows 0 (selectRows k t _ 0) 0 0) else _) = _
      rw [hexec 0 (by decide), hall, if_pos rfl, scanRows_unlimited le_rfl]
      rfl

theorem admits_iff {conds : List Expression} {r : Row α}
    (hconds : optionsClause (opts.continuing "") = .ok conds)
    (hexec : executable (namespaceClause ns ++ conds) opts.predicate.limit = true) :
    Admits k ns (opts.continuing "") r ↔ keeps k (namespaceClause ns ++ conds) r = true := by
  constructor
  · rintro ⟨conds', hconds', -, hkeeps⟩
    rw [hconds] at hconds'
    cases hconds'
    exact hkeeps
  · intro hkeeps
    exact ⟨conds, hconds, hexec, hkeeps⟩

/-- What a client gets whose requests find the given tables: the rows of its pages, the ids of which
strictly increase, and once the last token is empty, each id whose row was there and matched at
every request exactly once. -/
structure ExactPages (k : Kind α) (ns : String) (opts : ListOptions) (tables : List (Table α))
    (pages : List (List (Object α))) (done : Bool) (rowPages : List (List (Row α))) : Prop where
  items : pages = rowPages.map (List.map Row.object)
  page : ∀ (i : Nat) (page : List (Row α)), rowPages[i]? = some page →
    page.length ≤ opts.predicate.limit ∧
      ∃ t, tables[i]? = some t ∧ ∀ r ∈ page, r ∈ t.rows ∧ Admits k ns (opts.continuing "") r
  increasing : (rowPages.flatten.map Row.id).Pairwise (· < ·)
  complete : done = true → ∀ id, (∀ t ∈ tables.take pages.length, ∃ r ∈ t.rows, r.id = id ∧
      Admits k ns (opts.continuing "") r) →
    (rowPages.flatten.map Row.id).count id = 1

def followRows (k : Kind α) (limit : Nat) (es : List Expression) (tables : List (Table α)) :
    List (List (Row α)) × Bool :=
  follow Row.id limit none (tables.map fun t => orderedRows k t es)

section Executed

variable {conds : List Expression} {limit : Nat}
  (hconds : optionsClause (opts.continuing "") = .ok conds)
  (hexec : executable (namespaceClause ns ++ conds) opts.predicate.limit = true)
  (hlimit : 0 < limit) (hopts : opts.predicate.limit = limit)
include hconds hexec hlimit hopts

theorem followTokens_ok (k : Kind α) {tables : List (Table α)} (hids : ∀ t ∈ tables, t.BigintIds) :
    followTokens k ns opts "" tables =
      .ok ((followRows k limit (namespaceClause ns ++ conds) tables).1.map (List.map Row.object),
        (followRows k limit (namespaceClause ns ++ conds) tables).2) := by
  have hnone : InBigint none := by
    intro id hid
    cases hid
  rw [hopts] at hexec
  exact followTokens_eq hconds hlimit hopts hexec hids hnone

theorem exactPages_followRows (k : Kind α) (tables : List (Table α)) :
    ExactPages k ns opts tables
      ((followRows k limit (namespaceClause ns ++ conds) tables).1.map (List.map Row.object))
      (followRows k limit (namespaceClause ns ++ conds) tables).2
      (followRows k limit (namespaceClause ns ++ conds) tables).1 := by
  have hordered : ∀ rows ∈ tables.map fun t => orderedRows k t (namespaceClause ns ++ conds),
      Paging.Ordered Row.id rows := by
    intro rows hrows
    obtain ⟨t, -, rfl⟩ := mem_map.mp hrows
    exact ordered_orderedRows k t _
  have hincreasing : ((followRows k limit (namespaceClause ns ++ conds) tables).1.flatten.map
      Row.id).Pairwise (· < ·) := pairwise_map.mpr (follow_ordered hordered).1
  refine ⟨rfl, ?_, hincreasing, ?_⟩
  · intro i page hpage
    obtain ⟨hlength, rows, hrows, hmem⟩ := follow_getElem hpage
    rw [List.getElem?_map] at hrows
    obtain ⟨t, ht, rfl⟩ := Option.map_eq_some_iff.mp hrows
    refine ⟨by omega, t, ht, fun r hr => ?_⟩
    rw [admits_iff hconds hexec]
    exact mem_orderedRows.mp (hmem r hr)
  · intro hdone id hid
    apply count_eq_one_of_mem (hincreasing.imp ne_of_lt)
    apply mem_follow hlimit hordered hdone
    · intro c hc
      cases hc
    · intro rows hrows
      rw [← map_take] at hrows
      obtain ⟨t, ht, rfl⟩ := mem_map.mp hrows
      rw [length_map] at hid
      obtain ⟨r, hr, rfl, hadm⟩ := hid t ht
      exact mem_map_of_mem (mem_orderedRows.mpr ⟨hr, (admits_iff hconds hexec).mp hadm⟩)

/-- On one table the pages are the unpaginated list. -/
theorem followTokens_replicate (k : Kind α) {t : Table α} (ht : t.BigintIds) {n : Nat}
    (hn : t.rows.length < n) :
    ∃ pages, followTokens k ns opts "" (List.replicate n t) = .ok (pages, true) ∧
      pages.flatten = (orderedRows k t (namespaceClause ns ++ conds)).map Row.object ∧
      (orderedRows k t (namespaceClause ns ++ conds) ≠ [] → ∀ page ∈ pages, page ≠ []) := by
  have hids : ∀ t' ∈ List.replicate n t, t'.BigintIds := by
    intro t' ht'
    rw [eq_of_mem_replicate ht']
    exact ht
  have hall : rest Row.id none (orderedRows k t (namespaceClause ns ++ conds)) =
      orderedRows k t (namespaceClause ns ++ conds) := filter_eq_self.mpr fun _ _ => rfl
  have hlength : (orderedRows k t (namespaceClause ns ++ conds)).length ≤ t.rows.length := by
    unfold orderedRows
    rw [length_insertionSort]
    exact length_filter_le _ _
  obtain ⟨hdone, hflatten, hnonempty⟩ := follow_replicate (n := n) hlimit
    (ordered_orderedRows k t (namespaceClause ns ++ conds)) (by rw [hall]; omega)
  rw [hall] at hflatten hnonempty
  rw [followTokens_ok hconds hexec hlimit hopts k hids]
  unfold followRows
  rw [map_replicate, hdone]
  refine ⟨_, rfl, ?_, ?_⟩
  · rw [← map_flatten, hflatten]
  · intro hne page hpage
    obtain ⟨rows, hrows, rfl⟩ := mem_map.mp hpage
    rw [Ne, map_eq_nil_iff]
    exact hnonempty hne rows hrows

end Executed

theorem followTokens_of_error {e : ListError}
    (h : ∀ t : Table α, list k t ns (opts.continuing "") = .error e) (tables : List (Table α)) :
    followTokens k ns opts "" tables = if tables = [] then .ok ([], false) else .error e := by
  cases tables with
  | nil => rfl
  | cons t later =>
    rw [followTokens, h]
    rfl

end Exact

/-- **Pagination is exact.** Following the tokens, whatever the tables are that the requests find:
no request fails after the first, no page is longer than the limit, the ids are strictly increasing
over the pages, and when the last token is empty, an id whose row was there and matched at every
request has been returned exactly once. On one table, enough requests come to the end; the pages are
the unpaginated list, and none of them is empty unless it is. -/
theorem followTokens_exact (k : Kind α) (ns : String) (opts : ListOptions)
    (hlimit : 0 < opts.predicate.limit) (hmax : opts.predicate.limit < 2 ^ 63 - 1) :
    (∀ tables : List (Table α), (∀ t ∈ tables, t.BigintIds) →
      (∀ e, followTokens k ns opts "" tables = .error e →
        ∃ t ∈ tables.head?, list k t ns (opts.continuing "") = .error e) ∧
      ∀ pages done, followTokens k ns opts "" tables = .ok (pages, done) →
        ∃ rowPages, ExactPages k ns opts tables pages done rowPages) ∧
    ∀ t : Table α, t.BigintIds → ∀ n, t.rows.length < n →
      (∀ items token, list k t ns opts.unpaginated = .ok (items, token) → token = "" ∧
        ∃ pages, followTokens k ns opts "" (List.replicate n t) = .ok (pages, true) ∧
          pages.flatten = items ∧ (items ≠ [] → ∀ page ∈ pages, page ≠ [])) ∧
      ∀ e, list k t ns opts.unpaginated = .error e →
        followTokens k ns opts "" (List.replicate n t) = .error e := by
  obtain ⟨limit, hopts⟩ : ∃ limit : Nat, opts.predicate.limit = limit :=
    ⟨opts.predicate.limit.toNat, by omega⟩
  have hpos : 0 < limit := by omega
  rcases list_cases k ns hmax with ⟨e, herror⟩ | ⟨conds, hconds, hexec, hlist⟩
  · -- the selectors cannot be translated, and the first request says so
    have hfollow := followTokens_of_error fun t => (herror t).1
    constructor
    · intro tables _
      rw [hfollow]
      cases tables with
      | nil =>
        refine ⟨fun e' h => (by cases h), fun pages done h => ?_⟩
        cases h
        refine ⟨[], rfl, ?_, List.Pairwise.nil, ?_⟩
        · intro i page hpage
          cases hpage
        · intro hdone
          cases hdone
      | cons t later =>
        refine ⟨fun e' h => ⟨t, rfl, ?_⟩, fun pages done h => (by cases h)⟩
        cases h
        exact (herror t).1
    · intro t _ n hn
      rw [hfollow, if_neg (by rw [replicate_eq_nil_iff]; omega), (herror t).2]
      refine ⟨fun items token h => (by cases h), fun e' h => ?_⟩
      cases h
      rfl
  · constructor
    · intro tables hids
      rw [followTokens_ok hconds hexec hpos hopts k hids]
      refine ⟨fun e h => (by cases h), fun pages done h => ?_⟩
      cases h
      exact ⟨_, exactPages_followRows hconds hexec hpos hopts k tables⟩
    · intro t ht n hn
      obtain ⟨pages, hpages, hflatten, hnonempty⟩ :=
        followTokens_replicate hconds hexec hpos hopts k ht hn
      rw [hlist t]
      refine ⟨fun items token h => ?_, fun e h => (by cases h)⟩
      cases h
      refine ⟨rfl, pages, hpages, hflatten, fun hne => hnonempty ?_⟩
      intro hnil
      rw [hnil] at hne
      exact hne rfl

def onePerPage : ListOptions := { predicate := { limit := 1 } }

theorem followTokens_exact_onePerPage :
    (0 < onePerPage.predicate.limit ∧ onePerPage.predicate.limit < 2 ^ 63 - 1) ∧
      twoTenants.BigintIds ∧
      ∃ pages, followTokens (sbomKind Sql.Json.str) "" onePerPage "" (List.replicate 3 twoTenants) =
        .ok (pages, true) ∧ pages.flatten = twoTenants.rows.map Row.object := by
  have hids : twoTenants.BigintIds := by
    unfold Table.BigintIds
    decide
  have hexact := followTokens_exact (sbomKind Sql.Json.str) "" onePerPage (by decide) (by decide)
  obtain ⟨-, pages, hpages, hflatten, -⟩ :=
    (hexact.2 twoTenants hids 3 (by decide)).1 (twoTenants.rows.map Row.object) "" rfl
  exact ⟨⟨by decide, by decide⟩, hids, pages, hpages, hflatten⟩

end SbomScanner.Storage

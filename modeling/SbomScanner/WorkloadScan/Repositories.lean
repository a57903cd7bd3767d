import Mathlib.Data.String.Basic
import SbomScanner.WorkloadScan.Registries

/-!
# Who needs which match condition

The repositories of a managed registry are a table: for each match condition the namespaces that
need it, kept as labels. `Has` reads a line of that table, and `Owned needs` says that the table is
the relation `needs`: a condition is there iff some namespace needs it, and its labels name exactly
the namespaces that do.

`owned_updatedRepositories` is the effect of `updateRegistry` on this table: the needs of one
namespace are replaced, those of the others stay. What else the functions keep, that nothing is
listed twice and nothing is empty, is `Tidy`.
-/

open List Accumulate

namespace SbomScanner.WorkloadScan

open Api

variable {lib : Libraries} {repositories : List Repository} {key : MatchConditionKey}
  {labels : Labels} {ns : String} {needed : List MatchConditionKey}

/-! ## Names -/

theorem tagName_inj {tag tag' : String} : tagName tag = tagName tag' ↔ tag = tag' := by
  simp [tagName]

theorem nsLabel_inj {ns' : String} : nsLabel ns = nsLabel ns' ↔ ns = ns' := by
  simp [nsLabel]

/-! ## The table -/

/-- A match condition and its labels. -/
def Has (repositories : List Repository) (key : MatchConditionKey) (labels : Labels) : Prop :=
  ∃ repository ∈ repositories, ∃ condition ∈ repository.matchConditions,
    conditionKey repository condition = key ∧ condition.labels = labels

theorem exists_has : (∃ labels, Has repositories key labels) ↔ ∃ repository ∈ repositories,
    ∃ condition ∈ repository.matchConditions, conditionKey repository condition = key := by
  simp [Has]

theorem has_append {others : List Repository} :
    Has (repositories ++ others) key labels ↔
      Has repositories key labels ∨ Has others key labels := by
  simp only [Has, mem_append, or_and_right, exists_or]

variable {repository : Repository}

theorem has_cons :
    Has (repository :: repositories) key labels ↔
      (∃ condition ∈ repository.matchConditions,
        conditionKey repository condition = key ∧ condition.labels = labels) ∨
      Has repositories key labels := by
  simp only [Has, mem_cons, exists_eq_or_imp]

structure Tidy (repositories : List Repository) : Prop where
  names : (repositories.map (·.name)).Nodup
  conditions : ∀ repository ∈ repositories,
    (repository.matchConditions.map (conditionKey repository)).Nodup
  nonempty : ∀ repository ∈ repositories, repository.matchConditions ≠ []
  operator : ∀ repository ∈ repositories, repository.matchOperator = .or

structure Owned (needs : String → MatchConditionKey → Prop) (repositories : List Repository) :
    Prop where
  has_iff : ∀ {key}, (∃ labels, Has repositories key labels) ↔ ∃ ns, needs ns key
  labels_iff : ∀ {key labels}, Has repositories key labels → ∀ {label value},
    labels.lookup label = some value ↔ value = "true" ∧ ∃ ns, label = nsLabel ns ∧ needs ns key

variable {label value : String}

theorem lookup_claimLabels {claimed : Bool} :
    (claimLabels claimed ns labels).lookup label = some value ↔
      (label = nsLabel ns ∧ claimed = true ∧ value = "true") ∨
        (label ≠ nsLabel ns ∧ labels.lookup label = some value) := by
  by_cases hl : label = nsLabel ns
  · subst hl
    cases claimed with
    | false => simp [claimLabels]
    | true => simp [claimLabels, eq_comm]
  · cases claimed with
    | false => simp [claimLabels, hl, Finmap.lookup_erase_ne hl]
    | true => simp [claimLabels, hl, Finmap.lookup_insert_of_ne _ hl]

theorem ne_empty_iff : labels ≠ ∅ ↔ ∃ label value, labels.lookup label = some value := by
  constructor
  · intro hne
    by_contra hnone
    push Not at hnone
    refine hne (Finmap.ext_lookup fun label => ?_)
    rw [Finmap.lookup_empty, Option.eq_none_iff_forall_ne_some]
    exact hnone label
  · rintro ⟨label, value, h⟩ rfl
    cases h

/-! ## Existing repositories -/

/-- What is left of a match condition when the namespace needs exactly these. -/
def reclaim (needed : List MatchConditionKey) (ns : String) (repository : Repository)
    (condition : MatchCondition) : Option MatchCondition :=
  let labels := claimLabels (conditionKey repository condition ∈ needed) ns condition.labels
  if labels = ∅ then none else some { condition with labels }

theorem processRepositoryMatchConditions_fst (repository : Repository) :
    (processRepositoryMatchConditions repository ns needed).1 =
      repository.matchConditions.filterMap (reclaim needed ns repository) := by
  refine foldl_fst (fun acc condition => ?_) _ _
  simp only [reclaim]
  split <;> simp

theorem mem_processRepositoryMatchConditions_snd (repository : Repository) :
    key ∈ (processRepositoryMatchConditions repository ns needed).2 ↔
      key ∈ needed ∧ ∃ condition ∈ repository.matchConditions,
        conditionKey repository condition = key := by
  refine (foldl_iff
    (P := fun acc : List MatchCondition × List MatchConditionKey => key ∈ acc.2)
    (Q := fun condition => key ∈ needed ∧ conditionKey repository condition = key)
    (fun acc condition => ?_) _ _).trans (by grind)
  by_cases hneeded : conditionKey repository condition ∈ needed
  · simp only [hneeded, decide_true, if_true, mem_insert_iff]
    constructor
    · rintro (rfl | hmem)
      · exact .inr ⟨hneeded, rfl⟩
      · exact .inl hmem
    · rintro (hmem | ⟨-, rfl⟩)
      · exact .inr hmem
      · exact .inl rfl
  · simp only [hneeded, decide_false, Bool.false_eq_true, if_false]
    constructor
    · exact .inl
    · rintro (hmem | ⟨hkey, rfl⟩)
      · exact hmem
      · exact absurd hkey hneeded

def retain (needed : List MatchConditionKey) (ns : String) (repository : Repository) :
    Option Repository :=
  let conditions := repository.matchConditions.filterMap (reclaim needed ns repository)
  if conditions = [] then none else some ⟨repository.name, conditions, .or⟩

theorem processExistingRepositories_fst :
    (processExistingRepositories repositories ns needed).1 =
      repositories.filterMap (retain needed ns) := by
  refine foldl_fst (fun acc repository => ?_) _ _
  simp only [retain, ← processRepositoryMatchConditions_fst]
  split <;> simp

theorem mem_processExistingRepositories_snd :
    key ∈ (processExistingRepositories repositories ns needed).2 ↔
      key ∈ needed ∧ ∃ labels, Has repositories key labels := by
  refine (foldl_iff
    (P := fun acc : List Repository × List MatchConditionKey => key ∈ acc.2)
    (Q := fun repository => key ∈ needed ∧ ∃ condition ∈ repository.matchConditions,
      conditionKey repository condition = key)
    (fun acc repository => ?_) _ _).trans ?_
  · rw [mem_union_iff, mem_processRepositoryMatchConditions_snd]
  · rw [exists_has]
    grind

theorem reclaim_eq_some {condition condition' : MatchCondition} :
    reclaim needed ns repository condition = some condition' ↔
      condition'.labels ≠ ∅ ∧
        condition' = { condition with
          labels :=
            claimLabels (conditionKey repository condition ∈ needed) ns condition.labels } := by
  simp only [reclaim]
  split
  case isTrue h =>
    simp only [reduceCtorEq, false_iff, not_and]
    rintro hne rfl
    exact hne h
  case isFalse h =>
    constructor
    · rintro ⟨⟩
      exact ⟨h, rfl⟩
    · rintro ⟨-, rfl⟩
      rfl

theorem retain_eq_some {repository' : Repository} :
    retain needed ns repository = some repository' ↔
      repository'.matchConditions ≠ [] ∧ repository' = ⟨repository.name,
        repository.matchConditions.filterMap (reclaim needed ns repository), .or⟩ := by
  simp only [retain]
  split
  case isTrue h =>
    simp only [reduceCtorEq, false_iff, not_and]
    rintro hne rfl
    exact hne h
  case isFalse h =>
    constructor
    · rintro ⟨⟩
      exact ⟨h, rfl⟩
    · rintro ⟨-, rfl⟩
      rfl

theorem has_processExistingRepositories :
    Has (processExistingRepositories repositories ns needed).1 key labels ↔
      labels ≠ ∅ ∧ ∃ old, Has repositories key old ∧
        labels = claimLabels (key ∈ needed) ns old := by
  rw [processExistingRepositories_fst]
  constructor
  · rintro ⟨repository', hmem', condition', hcond', rfl, rfl⟩
    obtain ⟨repository, hmem, hretain⟩ := mem_filterMap.mp hmem'
    obtain ⟨-, rfl⟩ := retain_eq_some.mp hretain
    obtain ⟨condition, hcond, hreclaim⟩ := mem_filterMap.mp hcond'
    obtain ⟨hne, rfl⟩ := reclaim_eq_some.mp hreclaim
    exact ⟨hne, condition.labels, ⟨repository, hmem, condition, hcond, rfl, rfl⟩, rfl⟩
  · rintro ⟨hne, _, ⟨repository, hmem, condition, hcond, rfl, rfl⟩, rfl⟩
    have hreclaim := reclaim_eq_some.mpr ⟨hne, rfl⟩
    have hcond' := mem_filterMap.mpr ⟨condition, hcond, hreclaim⟩
    have hretain := retain_eq_some.mpr ⟨ne_nil_of_mem hcond', rfl⟩
    exact ⟨_, mem_filterMap.mpr ⟨repository, hmem, hretain⟩, _, hcond', rfl, rfl⟩

theorem tidy_processExistingRepositories (h : Tidy repositories) :
    Tidy (processExistingRepositories repositories ns needed).1 := by
  rw [processExistingRepositories_fst]
  have hcases : ∀ repository' ∈ repositories.filterMap (retain needed ns),
      ∃ repository ∈ repositories, retain needed ns repository = some repository' :=
    fun _ hmem => mem_filterMap.mp hmem
  refine ⟨?_, ?_, ?_, ?_⟩
  · refine h.names.sublist (map_filterMap_sublist (fun hretain => ?_) _)
    obtain ⟨-, rfl⟩ := retain_eq_some.mp hretain
    rfl
  · intro repository' hmem
    obtain ⟨repository, hrepository, hretain⟩ := hcases repository' hmem
    obtain ⟨-, rfl⟩ := retain_eq_some.mp hretain
    refine (h.conditions repository hrepository).sublist
      (map_filterMap_sublist (fun hreclaim => ?_) _)
    obtain ⟨-, rfl⟩ := reclaim_eq_some.mp hreclaim
    rfl
  · intro repository' hmem
    obtain ⟨repository, -, hretain⟩ := hcases repository' hmem
    exact (retain_eq_some.mp hretain).1
  · intro repository' hmem
    obtain ⟨repository, -, hretain⟩ := hcases repository' hmem
    obtain ⟨-, rfl⟩ := retain_eq_some.mp hretain
    rfl

/-! ## New match conditions -/

/-- The repository a new condition goes to, as a place in the list. -/
theorem findOrAppendRepository_eq (repositories : List Repository) (name : String) :
    ∃ before repository after,
      findOrAppendRepository repositories name = (before ++ repository :: after, before.length) ∧
        repository.name = name ∧
        (repositories = before ++ repository :: after ∨
          repositories = before ∧ after = [] ∧ repository = ⟨name, [], .or⟩ ∧
            name ∉ repositories.map (·.name)) := by
  unfold findOrAppendRepository
  cases hfind : repositories.findIdx? (·.name = name) with
  | none =>
    refine ⟨repositories, ⟨name, [], .or⟩, [], rfl, rfl, .inr ⟨rfl, rfl, rfl, ?_⟩⟩
    rw [List.findIdx?_eq_none_iff] at hfind
    intro hmem
    obtain ⟨repository, hmem, hname⟩ := mem_map.mp hmem
    simpa [hname] using hfind repository hmem
  | some i =>
    obtain ⟨hlt, hname, -⟩ := List.findIdx?_eq_some_iff_getElem.mp hfind
    have hsplit :
        repositories = repositories.take i ++ repositories[i] :: repositories.drop (i + 1) := by
      rw [← drop_eq_getElem_cons hlt, take_append_drop]
    have hlength : (repositories.take i).length = i := length_take_of_le (Nat.le_of_lt hlt)
    refine ⟨repositories.take i, repositories[i], repositories.drop (i + 1), ?_,
      of_decide_eq_true hname, .inl hsplit⟩
    rw [← hsplit, hlength]

def newCondition (ns : String) (key : MatchConditionKey) : MatchCondition :=
  ⟨key.name, key.expression, .singleton (nsLabel ns) "true"⟩

theorem conditionKey_newCondition (h : repository.name = key.repository) :
    conditionKey repository (newCondition ns key) = key := by
  rw [conditionKey, h]
  rfl

theorem addMatchCondition_eq (ns : String) (repositories : List Repository)
    (key : MatchConditionKey) :
    ∃ before repository after,
      addMatchCondition ns repositories key = before ++ { repository with
          matchConditions := repository.matchConditions ++ [newCondition ns key] } :: after ∧
        repository.name = key.repository ∧
        (repositories = before ++ repository :: after ∨
          repositories = before ∧ after = [] ∧ repository = ⟨key.repository, [], .or⟩ ∧
            key.repository ∉ repositories.map (·.name)) := by
  obtain ⟨before, repository, after, heq, hname, hcases⟩ :=
    findOrAppendRepository_eq repositories key.repository
  refine ⟨before, repository, after, ?_, hname, hcases⟩
  simp only [addMatchCondition, heq, newCondition]
  rw [modify_eq_take_cons_drop (by simp)]
  simp

variable {added : MatchConditionKey}

theorem has_addMatchCondition :
    Has (addMatchCondition ns repositories added) key labels ↔
      Has repositories key labels ∨ key = added ∧ labels = .singleton (nsLabel ns) "true" := by
  obtain ⟨before, repository, after, heq, hname, hcases⟩ :=
    addMatchCondition_eq ns repositories added
  have hold : Has repositories key labels ↔ Has (before ++ repository :: after) key labels := by
    rcases hcases with rfl | ⟨rfl, rfl, rfl, -⟩
    · rfl
    · simp [Has]
  have hnew : (∃ condition ∈ repository.matchConditions ++ [newCondition ns added],
      conditionKey repository condition = key ∧ condition.labels = labels) ↔
      (∃ condition ∈ repository.matchConditions,
        conditionKey repository condition = key ∧ condition.labels = labels) ∨
      key = added ∧ labels = .singleton (nsLabel ns) "true" := by
    have hkey : conditionKey repository (newCondition ns added) = added :=
      conditionKey_newCondition hname
    simp only [mem_append, mem_singleton, or_and_right, exists_or, exists_eq_left, hkey,
      eq_comm (a := added), eq_comm (b := labels)]
    rfl
  rw [heq, hold, has_append, has_append, has_cons, has_cons]
  refine Iff.trans (or_congr_right (or_congr_left hnew)) ?_
  rw [or_right_comm, ← or_assoc]

theorem tidy_addMatchCondition (h : Tidy repositories)
    (hnew : ∀ labels, ¬Has repositories added labels) :
    Tidy (addMatchCondition ns repositories added) := by
  obtain ⟨before, repository, after, heq, hname, hcases⟩ :=
    addMatchCondition_eq ns repositories added
  rw [heq]
  -- the repository before the condition is appended may be new and empty, but has all the rest
  have hnames : ((before ++ repository :: after).map (·.name)).Nodup := by
    rcases hcases with rfl | ⟨rfl, rfl, rfl, hmem⟩
    · exact h.names
    · rw [map_append]
      exact h.names.append (nodup_singleton _) (by simpa using hmem)
  have hconditions : (repository.matchConditions.map (conditionKey repository)).Nodup ∧
      added ∉ repository.matchConditions.map (conditionKey repository) ∧
      repository.matchOperator = .or := by
    rcases hcases with rfl | ⟨rfl, rfl, rfl, hmem⟩
    · have hmem : repository ∈ before ++ repository :: after := by simp
      refine ⟨h.conditions _ hmem, ?_, h.operator _ hmem⟩
      intro hadded
      obtain ⟨condition, hcondition, hkey⟩ := mem_map.mp hadded
      exact hnew _ ⟨repository, hmem, condition, hcondition, hkey, rfl⟩
    · simp
  have hothers : ∀ other ∈ before ++ after, other ∈ repositories := by
    rcases hcases with rfl | ⟨rfl, rfl, rfl, -⟩
    · simp only [mem_append, mem_cons]
      tauto
    · simp
  have hmem_cases : ∀ {other}, other ∈ before ++ { repository with
      matchConditions := repository.matchConditions ++ [newCondition ns added] } :: after →
      other = { repository with
        matchConditions := repository.matchConditions ++ [newCondition ns added] } ∨
      other ∈ repositories := by
    intro other hother
    simp only [mem_append, mem_cons] at hother
    rcases hother with hbefore | rfl | hafter
    · exact .inr (hothers other (mem_append_left _ hbefore))
    · exact .inl rfl
    · exact .inr (hothers other (mem_append_right _ hafter))
  refine ⟨by simpa using hnames, ?_, ?_, ?_⟩
  · intro other hother
    rcases hmem_cases hother with rfl | hold
    · rw [map_append]
      refine hconditions.1.append (nodup_singleton _) (disjoint_singleton.mpr ?_)
      have hkey : conditionKey repository (newCondition ns added) = added :=
        conditionKey_newCondition hname
      exact hkey ▸ hconditions.2.1
    · exact h.conditions other hold
  · intro other hother
    rcases hmem_cases hother with rfl | hold
    · simp
    · exact h.nonempty other hold
  · intro other hother
    rcases hmem_cases hother with rfl | hold
    · exact hconditions.2.2
    · exact h.operator other hold

variable {added : List MatchConditionKey}

theorem has_addNewMatchConditions :
    Has (addNewMatchConditions repositories added ns) key labels ↔
      Has repositories key labels ∨
        key ∈ added ∧ labels = .singleton (nsLabel ns) "true" := by
  refine (foldl_iff (P := (Has · key labels))
    (Q := fun x => key = x ∧ labels = .singleton (nsLabel ns) "true")
    (fun _ _ => has_addMatchCondition) added repositories).trans ?_
  simp

theorem tidy_addNewMatchConditions (h : Tidy repositories) (hnodup : added.Nodup)
    (hnew : ∀ key ∈ added, ∀ labels, ¬Has repositories key labels) :
    Tidy (addNewMatchConditions repositories added ns) := by
  induction added generalizing repositories with
  | nil => exact h
  | cons first rest ih =>
    rw [nodup_cons] at hnodup
    have hfirst := hnew first (mem_cons_self ..)
    refine ih (tidy_addMatchCondition h hfirst) hnodup.2 ?_
    intro key hkey labels hhas
    rcases has_addMatchCondition.mp hhas with hold | ⟨rfl, -⟩
    · exact hnew key (mem_cons_of_mem _ hkey) labels hold
    · exact hnodup.1 hkey

/-! ## Sorting -/

theorem mem_sortRepositories :
    repository ∈ sortRepositories repositories ↔ ∃ old ∈ repositories,
      repository = { old with
        matchConditions := old.matchConditions.insertionSort fun a b => a.name ≤ b.name } := by
  simp only [sortRepositories, mem_map, mem_insertionSort, eq_comm]

theorem has_sortRepositories :
    Has (sortRepositories repositories) key labels ↔ Has repositories key labels := by
  constructor
  · rintro ⟨_, hmem, condition, hcondition, hkey, hlabels⟩
    obtain ⟨repository, hold, rfl⟩ := mem_sortRepositories.mp hmem
    exact ⟨repository, hold, condition, mem_insertionSort _ |>.mp hcondition, hkey, hlabels⟩
  · rintro ⟨repository, hold, condition, hcondition, hkey, hlabels⟩
    exact ⟨_, mem_sortRepositories.mpr ⟨repository, hold, rfl⟩, condition,
      mem_insertionSort _ |>.mpr hcondition, hkey, hlabels⟩

/-- Nothing is listed twice, so the order is strict. -/
structure Sorted (repositories : List Repository) : Prop where
  names : repositories.Pairwise fun a b => a.name < b.name
  conditions : ∀ repository ∈ repositories,
    repository.matchConditions.Pairwise fun a b => a.name < b.name

theorem tidy_sortRepositories (h : Tidy repositories) : Tidy (sortRepositories repositories) := by
  refine ⟨?_, ?_, ?_, ?_⟩
  · rw [sortRepositories, map_map]
    exact ((perm_insertionSort _ repositories).map _).nodup_iff.mpr h.names
  · intro repository hmem
    obtain ⟨old, hold, rfl⟩ := mem_sortRepositories.mp hmem
    exact ((perm_insertionSort _ old.matchConditions).map _).nodup_iff.mpr (h.conditions old hold)
  · intro repository hmem hnil
    obtain ⟨old, hold, rfl⟩ := mem_sortRepositories.mp hmem
    have hlength := length_insertionSort (fun a b => a.name ≤ b.name) old.matchConditions
    have hzero := hlength.symm.trans (congrArg List.length hnil)
    exact h.nonempty old hold (eq_nil_of_length_eq_zero hzero)
  · intro repository hmem
    obtain ⟨old, hold, rfl⟩ := mem_sortRepositories.mp hmem
    exact h.operator old hold

/-- The names of the conditions of a repository are distinct when they are names of tags. -/
theorem nodup_names (h : Tidy repositories)
    (htags : ∀ {key labels}, Has repositories key labels →
      ∃ tag, key = tagKey lib key.repository tag) :
    ∀ repository ∈ repositories, (repository.matchConditions.map (·.name)).Nodup := by
  intro repository hmem
  refine List.Nodup.map_on ?_ (List.Nodup.of_map _ (h.conditions repository hmem))
  intro condition hcondition condition' hcondition' hname
  obtain ⟨tag, htag⟩ := htags ⟨repository, hmem, condition, hcondition, rfl, rfl⟩
  obtain ⟨tag', htag'⟩ := htags ⟨repository, hmem, condition', hcondition', rfl, rfl⟩
  have hsame : tag = tag' := by
    rw [← tagName_inj]
    exact (congrArg MatchConditionKey.name htag).symm.trans
      (hname.trans (congrArg MatchConditionKey.name htag'))
  subst hsame
  exact inj_on_of_nodup_map (h.conditions repository hmem) hcondition hcondition'
    (htag.trans htag'.symm)

theorem sorted_sortRepositories (h : Tidy repositories)
    (htags : ∀ {key labels}, Has repositories key labels →
      ∃ tag, key = tagKey lib key.repository tag) :
    Sorted (sortRepositories repositories) := by
  refine ⟨?_, ?_⟩
  · rw [sortRepositories, pairwise_map]
    exact pairwise_insertionSort_lt h.names
  · intro repository hmem
    obtain ⟨old, hold, rfl⟩ := mem_sortRepositories.mp hmem
    exact pairwise_insertionSort_lt (nodup_names h htags old hold)

/-! ## The table determines the list -/

variable {others : List Repository} {needs : String → MatchConditionKey → Prop}

theorem Owned.has_of_has (h : Owned needs repositories) (h' : Owned needs others)
    (hhas : Has repositories key labels) : Has others key labels := by
  obtain ⟨labels', hhas'⟩ := h'.has_iff.mpr (h.has_iff.mp ⟨labels, hhas⟩)
  have heq : labels = labels' := by
    refine Finmap.ext_lookup fun label => Option.ext fun value => ?_
    exact (h.labels_iff hhas).trans (h'.labels_iff hhas').symm
  exact heq ▸ hhas'

/-- The conditions of a repository are those of the repository with the same name. -/
theorem mem_conditions_of_has (h : Tidy others)
    (hhas : ∀ {key labels}, Has repositories key labels → Has others key labels)
    {other : Repository} (hmem : repository ∈ repositories) (hother : other ∈ others)
    (hname : repository.name = other.name) {condition : MatchCondition}
    (hcondition : condition ∈ repository.matchConditions) : condition ∈ other.matchConditions := by
  obtain ⟨other', hother', condition', hcondition', hkey, hlabels⟩ :=
    hhas ⟨repository, hmem, condition, hcondition, rfl, rfl⟩
  obtain rfl : other' = other :=
    inj_on_of_nodup_map h.names hother' hother
      ((congrArg MatchConditionKey.repository hkey).trans hname)
  have hcondition_eq : condition' = condition := by
    obtain ⟨name', expression', labels'⟩ := condition'
    obtain ⟨name, expression, labels⟩ := condition
    obtain ⟨-, rfl, rfl⟩ := MatchConditionKey.mk.inj hkey
    obtain rfl : labels' = labels := hlabels
    rfl
  exact hcondition_eq ▸ hcondition'

theorem mem_of_has (h : Tidy repositories) (hs : Sorted repositories) (h' : Tidy others)
    (hs' : Sorted others)
    (hhas : ∀ {key labels}, Has repositories key labels ↔ Has others key labels)
    (hmem : repository ∈ repositories) : repository ∈ others := by
  obtain ⟨condition, hcondition⟩ := exists_mem_of_ne_nil _ (h.nonempty repository hmem)
  obtain ⟨other, hother, condition', -, hkey, -⟩ :=
    hhas.mp ⟨repository, hmem, condition, hcondition, rfl, rfl⟩
  have hname : other.name = repository.name := congrArg MatchConditionKey.repository hkey
  have hconditions : other.matchConditions = repository.matchConditions := by
    refine eq_of_mem_iff_of_lt (hs'.conditions other hother)
      (hs.conditions repository hmem) fun _ => ⟨fun hc => ?_, fun hc => ?_⟩
    · exact mem_conditions_of_has h hhas.mpr hother hmem hname hc
    · exact mem_conditions_of_has h' hhas.mp hmem hother hname.symm hc
  have hoperator := (h'.operator other hother).trans (h.operator repository hmem).symm
  have heq : other = repository := by
    cases other
    cases repository
    simp_all
  exact heq ▸ hother

/-- Two sorted lists with the same needs are the same. -/
theorem Owned.unique (h : Owned needs repositories) (ht : Tidy repositories)
    (hs : Sorted repositories) (h' : Owned needs others) (ht' : Tidy others) (hs' : Sorted others) :
    repositories = others := by
  have hhas : ∀ {key labels}, Has repositories key labels ↔ Has others key labels :=
    ⟨h.has_of_has h', h'.has_of_has h⟩
  exact eq_of_mem_iff_of_lt hs.names hs'.names fun _ =>
    ⟨mem_of_has ht hs ht' hs' hhas, mem_of_has ht' hs' ht hs hhas.symm⟩

/-! ## The effect of an update -/

variable {needs : String → MatchConditionKey → Prop}

/-- The needs of one namespace are replaced. -/
def replaceNeeds (needs : String → MatchConditionKey → Prop) (ns : String)
    (needed : List MatchConditionKey) (ns' : String) (key : MatchConditionKey) : Prop :=
  if ns' = ns then key ∈ needed else needs ns' key

/-- The labels of a condition that was there before. -/
theorem lookup_claimLabels_iff {old : Labels}
    (h : ∀ {label value}, old.lookup label = some value ↔
      value = "true" ∧ ∃ ns, label = nsLabel ns ∧ needs ns key) :
    (claimLabels (key ∈ needed) ns old).lookup label = some value ↔
      value = "true" ∧ ∃ ns', label = nsLabel ns' ∧ replaceNeeds needs ns needed ns' key := by
  rw [lookup_claimLabels, h]
  constructor
  · rintro (⟨rfl, hneeded, rfl⟩ | ⟨hne, rfl, ns', rfl, hneeds⟩)
    · exact ⟨rfl, ns, rfl, by simpa [replaceNeeds] using hneeded⟩
    · have hns : ns' ≠ ns := fun heq => hne (by rw [heq])
      exact ⟨rfl, ns', rfl, by simpa [replaceNeeds, hns] using hneeds⟩
  · rintro ⟨rfl, ns', rfl, hneeds⟩
    by_cases hns : ns' = ns
    · subst hns
      exact .inl ⟨rfl, by simpa [replaceNeeds] using hneeds, rfl⟩
    · refine .inr ⟨fun heq => hns (nsLabel_inj.mp heq), rfl, ns', rfl, ?_⟩
      simpa [replaceNeeds, hns] using hneeds

/-- The labels of a condition before the update; it has none when it is not there. -/
def Before (repositories : List Repository) (key : MatchConditionKey) (old : Labels) : Prop :=
  Has repositories key old ∨ old = ∅ ∧ ∀ labels, ¬Has repositories key labels

theorem exists_before (repositories : List Repository) (key : MatchConditionKey) :
    ∃ old, Before repositories key old := by
  by_cases h : ∃ labels, Has repositories key labels
  · obtain ⟨labels, hhas⟩ := h
    exact ⟨labels, .inl hhas⟩
  · exact ⟨∅, .inr ⟨rfl, not_exists.mp h⟩⟩

theorem Owned.lookup_before (h : Owned needs repositories) {old : Labels}
    (hold : Before repositories key old) :
    old.lookup label = some value ↔ value = "true" ∧ ∃ ns, label = nsLabel ns ∧ needs ns key := by
  rcases hold with hhas | ⟨rfl, hnone⟩
  · exact h.labels_iff hhas
  · constructor
    · intro hl
      cases hl
    · rintro ⟨-, ns, -, hneeds⟩
      obtain ⟨labels, hhas⟩ := h.has_iff.mpr ⟨ns, hneeds⟩
      exact absurd hhas (hnone labels)

/-- A condition that was not there is there afterwards iff the namespace needs it. -/
theorem claimLabels_empty : (labels ≠ ∅ ∧ labels = claimLabels (key ∈ needed) ns ∅) ↔
    key ∈ needed ∧ labels = .singleton (nsLabel ns) "true" := by
  have hclaimed : claimLabels true ns ∅ = .singleton (nsLabel ns) "true" := rfl
  have hnot : claimLabels false ns ∅ = ∅ := rfl
  by_cases hneeded : key ∈ needed
  · rw [decide_eq_true hneeded, hclaimed]
    refine ⟨fun h => ⟨hneeded, h.2⟩, fun h => ⟨?_, h.2⟩⟩
    rw [h.2]
    exact ne_empty_iff.mpr ⟨nsLabel ns, "true", Finmap.lookup_singleton_eq⟩
  · rw [decide_eq_false hneeded, hnot]
    exact ⟨fun h => absurd h.2 h.1, fun h => absurd h.1 hneeded⟩

/-- Each condition is claimed for the namespace or given up, and dropped when no label is left. -/
def Claims (before : List Repository) (ns : String) (needed : List MatchConditionKey)
    (after : List Repository) : Prop :=
  ∀ {key labels}, Has after key labels ↔
    labels ≠ ∅ ∧ ∃ old, Before before key old ∧ labels = claimLabels (key ∈ needed) ns old

/-- **The effect on the table.** The needs of the namespace are replaced, those of the others
stay. -/
theorem Claims.owned {after : List Repository} (hc : Claims repositories ns needed after)
    (h : Owned needs repositories) : Owned (replaceNeeds needs ns needed) after := by
  have hlabels : ∀ {key labels}, Has after key labels → ∀ {label value},
      labels.lookup label = some value ↔ value = "true" ∧
        ∃ ns', label = nsLabel ns' ∧ replaceNeeds needs ns needed ns' key := by
    intro key labels hhas label value
    obtain ⟨-, old, hold, rfl⟩ := hc.mp hhas
    exact lookup_claimLabels_iff (h.lookup_before hold)
  refine ⟨fun {key} => ⟨?_, ?_⟩, hlabels⟩
  · rintro ⟨labels, hhas⟩
    obtain ⟨label, value, hl⟩ := ne_empty_iff.mp (hc.mp hhas).1
    obtain ⟨-, ns', -, hneeds⟩ := (hlabels hhas).mp hl
    exact ⟨ns', hneeds⟩
  · rintro ⟨ns', hneeds⟩
    obtain ⟨old, hold⟩ := exists_before repositories key
    have hlabel := (lookup_claimLabels_iff (h.lookup_before hold)).mpr ⟨rfl, ns', rfl, hneeds⟩
    exact ⟨_, hc.mpr ⟨ne_empty_iff.mpr ⟨_, _, hlabel⟩, old, hold, rfl⟩⟩

variable {choices : Choices} {registry : Registry} {tags : RepositoryTags}

theorem claims_updatedRepositories :
    Claims registry.spec.repositories ns (buildNeededMatchConditions lib tags)
      (updatedRepositories lib choices registry ns tags) := by
  intro key labels
  simp only [updatedRepositories]
  rw [has_addNewMatchConditions, has_processExistingRepositories, IterationOrder.mem_range,
    mem_filter, decide_eq_true_eq, mem_processExistingRepositories_snd]
  constructor
  · rintro (⟨hne, old, hhas, rfl⟩ | ⟨⟨hneeded, hnew⟩, hlabels⟩)
    · exact ⟨hne, old, .inl hhas, rfl⟩
    · have hnone := not_exists.mp fun hhas => hnew ⟨hneeded, hhas⟩
      obtain ⟨hne, heq⟩ := claimLabels_empty.mpr ⟨hneeded, hlabels⟩
      exact ⟨hne, ∅, .inr ⟨rfl, hnone⟩, heq⟩
  · rintro ⟨hne, old, hhas | ⟨rfl, hnone⟩, heq⟩
    · exact .inl ⟨hne, old, hhas, heq⟩
    · obtain ⟨hneeded, hlabels⟩ := claimLabels_empty.mp ⟨hne, heq⟩
      exact .inr ⟨⟨hneeded, fun h => not_exists.mpr hnone h.2⟩, hlabels⟩

theorem tidy_updatedRepositories (h : Tidy registry.spec.repositories) :
    Tidy (updatedRepositories lib choices registry ns tags) := by
  simp only [updatedRepositories]
  refine tidy_addNewMatchConditions (tidy_processExistingRepositories h) ?_ ?_
  · exact (IterationOrder.nodup_range _).mpr ((nodup_dedup _).filter _)
  · intro key hkey labels hhas
    rw [IterationOrder.mem_range, mem_filter, decide_eq_true_eq,
      mem_processExistingRepositories_snd] at hkey
    obtain ⟨-, old, hold, -⟩ := has_processExistingRepositories.mp hhas
    exact hkey.2 ⟨hkey.1, old, hold⟩

/-! ## A new registry -/

theorem mem_buildNeededMatchConditions :
    key ∈ buildNeededMatchConditions lib tags ↔
      ∃ tag ∈ (tags.lookup key.repository).getD [], key = tagKey lib key.repository tag := by
  rw [buildNeededMatchConditions, mem_dedup, mem_flatMap]
  constructor
  · rintro ⟨⟨repository, names⟩, hentry, hmem⟩
    obtain ⟨tag, htag, rfl⟩ := mem_map.mp hmem
    refine ⟨tag, ?_, rfl⟩
    rw [show (tagKey lib repository tag).repository = repository from rfl,
      AList.mem_lookup_iff.mpr hentry]
    exact htag
  · rintro ⟨tag, htag, hkey⟩
    cases hlookup : tags.lookup key.repository with
    | none => simp [hlookup] at htag
    | some names =>
      rw [hlookup] at htag
      exact ⟨⟨key.repository, names⟩, AList.mem_lookup_iff.mp hlookup,
        mem_map.mpr ⟨tag, htag, hkey.symm⟩⟩

/-- The repositories of a new registry, before they are sorted. -/
def newRepositories (lib : Libraries) (choices : Choices) (uri ns : String)
    (tags : RepositoryTags) : List Repository :=
  (choices.order.range (.repositories uri) tags.entries).map fun entry =>
    newRepository lib choices uri ns entry.1 entry.2

variable {uri : String}

theorem has_newRepositories :
    Has (newRepositories lib choices uri ns tags) key labels ↔
      key ∈ buildNeededMatchConditions lib tags ∧ labels = .singleton (nsLabel ns) "true" := by
  rw [buildNeededMatchConditions, mem_dedup, mem_flatMap]
  constructor
  · rintro ⟨_, hmem, condition, hcondition, rfl, rfl⟩
    obtain ⟨entry, hentry, rfl⟩ := mem_map.mp hmem
    obtain ⟨tag, htag, rfl⟩ := mem_map.mp hcondition
    rw [IterationOrder.mem_range] at hentry htag
    exact ⟨⟨entry, hentry, mem_map_of_mem htag⟩, rfl⟩
  · rintro ⟨⟨entry, hentry, hkey⟩, rfl⟩
    obtain ⟨tag, htag, rfl⟩ := mem_map.mp hkey
    refine ⟨_, mem_map.mpr ⟨entry, ?_, rfl⟩, _, mem_map.mpr ⟨tag, ?_, rfl⟩, rfl, rfl⟩
    · exact (IterationOrder.mem_range _).mpr hentry
    · exact (IterationOrder.mem_range _).mpr htag

theorem claims_newRepositories :
    Claims [] ns (buildNeededMatchConditions lib tags)
      (newRepositories lib choices uri ns tags) := by
  intro key labels
  rw [has_newRepositories, ← claimLabels_empty]
  have hnone : ∀ labels, ¬Has [] key labels := by simp [Has]
  constructor
  · rintro ⟨hne, heq⟩
    exact ⟨hne, ∅, .inr ⟨rfl, hnone⟩, heq⟩
  · rintro ⟨hne, old, hhas | ⟨rfl, -⟩, heq⟩
    · exact absurd hhas (hnone old)
    · exact ⟨hne, heq⟩

theorem tidy_newRepositories
    (h : ∀ {repository names}, tags.lookup repository = some names → names ≠ [] ∧ names.Nodup) :
    Tidy (newRepositories lib choices uri ns tags) := by
  have hmem_cases : ∀ repository ∈ newRepositories lib choices uri ns tags,
      ∃ name names, tags.lookup name = some names ∧
        repository = newRepository lib choices uri ns name names := by
    intro repository hmem
    obtain ⟨entry, hentry, rfl⟩ := mem_map.mp hmem
    rw [IterationOrder.mem_range] at hentry
    exact ⟨entry.1, entry.2, AList.mem_lookup_iff.mpr hentry, rfl⟩
  refine ⟨?_, ?_, ?_, ?_⟩
  · rw [newRepositories, map_map]
    exact ((choices.order.perm _ tags.entries).map _).nodup_iff.mpr tags.nodupKeys
  · intro repository hmem
    obtain ⟨name, names, hlookup, rfl⟩ := hmem_cases repository hmem
    rw [newRepository, map_map]
    refine List.Nodup.map (fun tag tag' heq => ?_)
      ((IterationOrder.nodup_range _).mpr (h hlookup).2)
    exact tagName_inj.mp (congrArg MatchConditionKey.name heq)
  · intro repository hmem hnil
    obtain ⟨name, names, hlookup, rfl⟩ := hmem_cases repository hmem
    rw [newRepository, map_eq_nil_iff] at hnil
    have hperm := choices.order.perm (.tags uri name) names
    rw [hnil] at hperm
    exact (h hlookup).1 hperm.symm.eq_nil
  · intro repository hmem
    obtain ⟨name, names, -, rfl⟩ := hmem_cases repository hmem
    rfl

end SbomScanner.WorkloadScan

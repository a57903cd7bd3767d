import SbomScanner.Storage.Replication

/-!
# Do watchers converge to the store?

A message is announced after its write has committed, and `rehydrate` replaces its payload by
whatever is stored when the message is processed. A watcher converges when the *last* message about
a key is the one of the last write to it. Nothing in the code arranges for that: two writes on
different replicas, or in two goroutines of one, may be announced in either order.

With announcements in commit order per key (`CommitOrder`), every replica's last broadcast about a
key shows the stored object, or its deletion, once nothing is pending
(`lastEvent_reflects_store`). Without, a deleted object can stay alive in every watcher
(`deleted_object_resurrected`).
-/

namespace SbomScanner.Storage.Replication

open Transition Function List Changelog

open Changelog (about last replay)

variable {α : Type}

/-! ## What a message says

An announcement is *current* when it matches the stored state of its key. Processing a current
announcement yields an event that shows the stored state. -/

def Announces (m : Message α) (stored : Option (Object α)) : Prop :=
  match m.eventType with
  | .deleted => stored = none
  | .added | .modified => ∃ o, stored = some o ∧ o.metadata.uid = m.object.metadata.uid

/-- The event shows exactly what is stored: a deletion when there is nothing, else the object. -/
def Reflects (e : Event α) (stored : Option (Object α)) : Prop :=
  match e with
  | .change .deleted _ => stored = none
  | .change .added o | .change .modified o => stored = some o
  | .bookmark _ => False

variable {e : Event α}

theorem Reflects.effect_eq {stored : Option (Object α)} (h : Reflects e stored) :
    e.effect = stored := by
  cases e with
  | change type o => cases type <;> exact Eq.symm h
  | bookmark rv => exact h.elim

theorem announces_publish (k : Kind α) (type : EventType) (o : Object α) :
    Announces (publish k type o) (if type = .deleted then none else some o) := by
  cases type with
  | added | modified => exact ⟨o, rfl, rfl⟩
  | deleted => rfl

variable {k : Kind α} {m : Message α}

/-- **Processing.** The event keeps the message's type and key; its object is the payload or the
stored object with the same uid. -/
theorem processMessage_spec {t : Table α} (hscoped : k.Scoped m.object.key)
    (h : processMessage k t m = .ok e) :
    ∃ o, e = .change m.eventType o ∧ o.key = m.object.key ∧
      (o = m.object ∨ t.lookup m.object.key = some o) ∧
      (Announces m (t.lookup m.object.key) → Reflects e (t.lookup m.object.key)) := by
  unfold processMessage at h
  rw [rehydrate_eq k t m.object hscoped] at h
  cases htype : m.eventType with
  | deleted =>
    rw [htype] at h
    cases h
    refine ⟨m.object, rfl, rfl, .inl rfl, ?_⟩
    intro hann
    simp only [Announces, htype] at hann
    exact hann
  | added | modified =>
    rw [htype] at h
    simp only [ne_eq, reduceCtorEq, not_false_eq_true, if_true] at h
    cases hlookup : t.lookup m.object.key with
    | none =>
      rw [hlookup] at h
      cases h
      refine ⟨m.object, rfl, rfl, .inl rfl, ?_⟩
      intro hann
      simp only [Announces, htype] at hann
      obtain ⟨o, ho, -⟩ := hann
      cases ho
    | some o =>
      rw [hlookup] at h
      by_cases huid : o.metadata.uid = m.object.metadata.uid
      · simp only [huid, not_true_eq_false, if_false] at h
        cases h
        exact ⟨o, rfl, t.key_of_lookup hlookup, .inr rfl, fun _ => rfl⟩
      · simp only [huid, not_false_eq_true, if_true] at h
        cases h
        refine ⟨m.object, rfl, rfl, .inl rfl, ?_⟩
        -- the stored object is another one, so the message was not current
        intro hann
        simp only [Announces, htype] at hann
        obtain ⟨o', ho', huid'⟩ := hann
        cases ho'
        exact absurd huid' huid

/-! ## Publication in commit order -/

/-- The message at `i` overtakes no message about its own key. -/
def InTurn (ms : List (Message α)) (i : Nat) : Prop :=
  ∀ m ∈ ms[i]?, ∀ m' ∈ ms.take i, m'.key ≠ m.key

instance (ms : List (Message α)) (i : Nat) : Decidable (InTurn ms i) :=
  inferInstanceAs (Decidable (∀ m ∈ ms[i]?, ∀ m' ∈ ms.take i, m'.key ≠ m.key))

/-- Messages about one key are published in commit order, and none gets lost. -/
def CommitOrder (s : State α) : Action α → Prop
  | .publish i => InTurn s.unpublished i
  | .publishFailed _ | .handleFailed _ => False
  | _ => True

instance (s : State α) : (a : Action α) → Decidable (CommitOrder s a)
  | .publish i => inferInstanceAs (Decidable (InTurn s.unpublished i))
  | .publishFailed _ | .handleFailed _ => isFalse id
  | .nextval | .commit _ | .handle _ | .broadcast _ | .listSelect _ _ | .listVersion _
  | .watchRead _ _ _ _ | .watchFromList _ _ | .subscribe _ => isTrue trivial

variable {r : Nat} {s s' : State α}

/-- Then a publication does not change what is pending about any key. -/
theorem about_publish {i : Nat} (hm : s.unpublished[i]? = some m) (hturn : InTurn s.unpublished i)
    (hunpublished : s'.unpublished = s.unpublished.eraseIdx i)
    (hreplicas : ∀ r, s'.replicas r = { s.replicas r with inbox := (s.replicas r).inbox ++ [m] })
    (key : ObjectKey) :
    about Message.key key (s'.pending r) = about Message.key key (s.pending r) := by
  obtain ⟨hi, hget⟩ := List.getElem?_eq_some_iff.mp hm
  have hsplit : s.unpublished = s.unpublished.take i ++ m :: s.unpublished.drop (i + 1) := by
    rw [← hget, getElem_cons_drop, take_append_drop]
  unfold State.pending
  rw [hreplicas r, hunpublished, eraseIdx_eq_take_drop_succ]
  rw [about_promote (hturn m hm), ← hsplit]

/-! ## One replica keeps up

`Tracks` is about what replica `r` has still to broadcast: the last pending message about a key is
current, and when there is none, the event being handled is. `Settled` is about what it *has*
broadcast: a client that started from `σ` when the log had `start` entries agrees with the store on
every key with nothing left to come. -/

structure Tracks (k : Kind α) (s : State α) (r : Nat) : Prop where
  wellScoped : ∀ m ∈ s.pending r, k.Scoped m.object.key
  pending : ∀ key m, last Message.key key (s.pending r) = some m → Announces m (s.table.lookup key)
  handling : ∀ key e, last Message.key key (s.pending r) = none →
    (s.replicas r).handling = some e → e.key = some key → Reflects e (s.table.lookup key)

def Settled (s : State α) (r : Nat) (σ : ObjectKey → Option (Object α)) (start : Nat)
    (P : ObjectKey → Prop) : Prop :=
  ∀ key, P key → last Message.key key (s.pending r) = none →
    (∀ e, (s.replicas r).handling = some e → e.key ≠ some key) →
    replay Event.key Event.effect σ ((s.replicas r).log.drop start) key = s.table.lookup key

/-- Both only look at the table, the pending messages and the replica itself. -/
theorem Tracks.congr (h : Tracks k s r) (htable : s'.table = s.table)
    (hunpublished : s'.unpublished = s.unpublished) (hreplica : s'.replicas r = s.replicas r) :
    Tracks k s' r := by
  have hpending : s'.pending r = s.pending r := by
    unfold State.pending
    rw [hunpublished, hreplica]
  refine ⟨?_, ?_, ?_⟩
  · rw [hpending]
    exact h.wellScoped
  · rw [hpending, htable]
    exact h.pending
  · rw [hpending, htable, hreplica]
    exact h.handling

variable {σ : ObjectKey → Option (Object α)} {P : ObjectKey → Prop}

theorem Settled.congr {start : Nat} (h : Settled s r σ start P) (htable : s'.table = s.table)
    (hunpublished : s'.unpublished = s.unpublished) (hreplica : s'.replicas r = s.replicas r) :
    Settled s' r σ start P := by
  have hpending : s'.pending r = s.pending r := by
    unfold State.pending
    rw [hunpublished, hreplica]
  unfold Settled
  rw [hpending, htable, hreplica]
  exact h

variable {type : EventType} {o : Object α}

theorem pending_commit (hunpublished : s'.unpublished = s.unpublished ++ [publish k type o])
    (hreplicas : s'.replicas = s.replicas) : s'.pending r = s.pending r ++ [publish k type o] := by
  unfold State.pending
  rw [hunpublished, hreplicas, append_assoc]

variable {ms : List (Message α)}

theorem last_publish_self :
    last Message.key o.key (ms ++ [publish k type o]) = some (publish k type o) :=
  last_concat_self rfl

theorem last_publish_ne {key : ObjectKey} (h : key ≠ o.key) :
    last Message.key key (ms ++ [publish k type o]) = last Message.key key ms := by
  apply last_concat_ne
  intro hkey
  exact h (Option.some.inj hkey).symm

theorem pending_handle {rest : List (Message α)} (hinbox : (s.replicas r).inbox = m :: rest)
    (hinbox' : (s'.replicas r).inbox = rest) (hunpublished : s'.unpublished = s.unpublished) :
    s.pending r = m :: s'.pending r := by
  unfold State.pending
  rw [hinbox, hinbox', hunpublished, cons_append]

variable {a : Action α}

theorem wellScoped_step (hs : StreamStep k s s' a) (h : ∀ m ∈ s.pending r, k.Scoped m.object.key) :
    ∀ m ∈ s'.pending r, k.Scoped m.object.key := by
  intro m hm
  rcases mem_pending_cases hs hm with hold | ⟨w, type, o, -, -, hscoped, rfl, -⟩
  · exact h m hold
  · exact hscoped

theorem tracks_step (h : Tracks k s r) (hG : CommitOrder s a) (hs : StreamStep k s s' a) :
    Tracks k s' r := by
  have hwell := wellScoped_step hs h.wellScoped
  cases hs with
  | quiet _ htable hunpublished hreplicas =>
    exact h.congr htable hunpublished (congrFun hreplicas r)
  | @commit w type o hobject hscoped hlookup hunpublished hreplicas =>
    have hpending := pending_commit (r := r) hunpublished hreplicas
    refine ⟨hwell, ?_, ?_⟩
    · intro key m hm
      rw [hpending] at hm
      rw [hlookup]
      by_cases hk : key = o.key
      · subst hk
        rw [last_publish_self] at hm
        cases hm
        rw [update_self]
        exact announces_publish k type o
      · rw [last_publish_ne hk] at hm
        rw [update_of_ne hk]
        exact h.pending key m hm
    · intro key e hnone he hekey
      rw [hpending] at hnone
      rw [hlookup]
      by_cases hk : key = o.key
      · subst hk
        rw [last_publish_self] at hnone
        cases hnone
      · rw [last_publish_ne hk] at hnone
        rw [update_of_ne hk]
        rw [hreplicas] at he
        exact h.handling key e hnone he hekey
  | @publish i m hm htable hunpublished hreplicas =>
    have habout := about_publish (r := r) hm hG hunpublished hreplicas
    have hlast : ∀ key,
        last Message.key key (s'.pending r) = last Message.key key (s.pending r) := by
      intro key
      unfold last
      rw [habout]
    refine ⟨hwell, ?_, ?_⟩
    · intro key m'
      rw [hlast, htable]
      exact h.pending key m'
    · intro key e
      rw [hlast, htable, hreplicas r]
      exact h.handling key e
  | publishFailed => exact hG.elim
  | @handle r' m rest e hidle hinbox he htable hunpublished hreplicas =>
    by_cases hr : r' = r
    · subst hr
      have hpending : s.pending r' = m :: s'.pending r' :=
        pending_handle hinbox (by rw [hreplicas, update_self]) hunpublished
      have hm : k.Scoped m.object.key := h.wellScoped m (by simp [hpending])
      obtain ⟨o, rfl, hkey, -, hreflects⟩ := processMessage_spec hm he
      refine ⟨hwell, ?_, ?_⟩
      · intro key m' hm'
        rw [htable]
        apply h.pending key m'
        rw [hpending]
        exact last_cons_of_last hm'
      · intro key e' hnone he' hekey
        rw [hreplicas, update_self] at he'
        cases he'
        -- nothing follows this message, so it was current
        have hmkey : m.key = some key := by
          rw [← hekey]
          exact congrArg some hkey.symm
        have hcurrent : Announces m (s.table.lookup key) := by
          apply h.pending
          rw [hpending]
          exact last_cons_self hmkey hnone
        cases hmkey
        rw [htable]
        exact hreflects hcurrent
    · apply h.congr htable hunpublished
      rw [hreplicas, update_of_ne (Ne.symm hr)]
  | handleFailed => exact hG.elim
  | @broadcast r' e hhandling htable hunpublished hreplicas =>
    by_cases hr : r' = r
    · subst hr
      have hpending : s'.pending r' = s.pending r' := by
        unfold State.pending
        rw [hreplicas, update_self, hunpublished]
      refine ⟨hwell, ?_, ?_⟩
      · rw [hpending, htable]
        exact h.pending
      · intro key e' _ he'
        rw [hreplicas, update_self] at he'
        cases he'
    · apply h.congr htable hunpublished
      rw [hreplicas, update_of_ne (Ne.symm hr)]

theorem settled_step {start : Nat} (ht : Tracks k s r) (h : Settled s r σ start P)
    (hstart : start ≤ (s.replicas r).log.length) (hG : CommitOrder s a) (hs : StreamStep k s s' a) :
    Settled s' r σ start P := by
  cases hs with
  | quiet _ htable hunpublished hreplicas =>
    exact h.congr htable hunpublished (congrFun hreplicas r)
  | @commit w type o hobject hscoped hlookup hunpublished hreplicas =>
    have hpending := pending_commit (r := r) hunpublished hreplicas
    intro key hP hnone hidle
    rw [hpending] at hnone
    rw [hreplicas] at hidle ⊢
    by_cases hk : key = o.key
    · subst hk
      rw [last_publish_self] at hnone
      cases hnone
    · rw [last_publish_ne hk] at hnone
      rw [hlookup, update_of_ne hk]
      exact h key hP hnone hidle
  | @publish i m hm htable hunpublished hreplicas =>
    intro key hP hnone hidle
    unfold last at hnone
    rw [about_publish hm hG hunpublished hreplicas] at hnone
    rw [hreplicas r] at hidle ⊢
    rw [htable]
    exact h key hP hnone hidle
  | publishFailed => exact hG.elim
  | @handle r' m rest e hhandling hinbox he htable hunpublished hreplicas =>
    by_cases hr : r' = r
    · subst hr
      have hpending : s.pending r' = m :: s'.pending r' :=
        pending_handle hinbox (by rw [hreplicas, update_self]) hunpublished
      have hm : k.Scoped m.object.key := ht.wellScoped m (by simp [hpending])
      obtain ⟨o, rfl, hkey, -, -⟩ := processMessage_spec hm he
      intro key hP hnone hidle
      rw [hreplicas, update_self] at hidle ⊢
      rw [htable]
      have hne : m.key ≠ some key := by
        intro hmkey
        apply hidle _ rfl
        rw [← hmkey]
        exact congrArg some hkey
      apply h key hP
      · rw [hpending, last_cons_ne hne]
        exact hnone
      · intro e' he'
        rw [hhandling] at he'
        cases he'
    · apply h.congr htable hunpublished
      rw [hreplicas, update_of_ne (Ne.symm hr)]
  | handleFailed => exact hG.elim
  | @broadcast r' e hhandling htable hunpublished hreplicas =>
    by_cases hr : r' = r
    · subst hr
      have hpending : s'.pending r' = s.pending r' := by
        unfold State.pending
        rw [hreplicas, update_self, hunpublished]
      intro key hP hnone _
      rw [hpending] at hnone
      rw [hreplicas, update_self, htable]
      rw [drop_append_of_le_length hstart, replay_concat]
      by_cases hk : e.key = some key
      · rw [apply_self hk]
        exact (ht.handling key e hnone hhandling hk).effect_eq
      · rw [apply_ne hk]
        apply h key hP hnone
        intro e' he'
        rw [hhandling] at he'
        cases he'
        exact hk
    · apply h.congr htable hunpublished
      rw [hreplicas, update_of_ne (Ne.symm hr)]

/-! ## Runs -/

/-- The long-running watcher of replica `r`: everything it has broadcast. -/
structure Converging (k : Kind α) (t₀ : Table α) (r : Nat) (s : State α) : Prop where
  tracks : Tracks k s r
  settled : Settled s r t₀.lookup 0 fun _ => True

theorem converging_init (k : Kind α) (t₀ : Table α) (seq r : Nat) :
    Converging k t₀ r (init t₀ seq) where
  tracks := by
    refine ⟨?_, ?_, ?_⟩
    · intro m hm
      cases hm
    · intro key m hm
      cases hm
    · intro key e _ he
      cases he
  settled _ _ _ _ := rfl

theorem converging_step {t₀ : Table α} (s : State α) (a : Action α) (s' : State α)
    (h : Converging k t₀ r s) (hG : CommitOrder s a) (hs : step k s a = some s') :
    Converging k t₀ r s' where
  tracks := tracks_step h.tracks hG (step_stream hs)
  settled := settled_step h.tracks h.settled (Nat.zero_le _) hG (step_stream hs)

/-- An event that has a key shows the value it leaves behind. -/
theorem reflects_effect {key : ObjectKey} (h : e.key = some key) : Reflects e e.effect := by
  cases e with
  | change type o => cases type <;> rfl
  | bookmark rv => cases h

/-- **Watchers converge under commit order.** In every run that publishes the messages of each key
in commit order and loses none, once everything is published and a replica has processed its inbox,
its last event about a key shows exactly what is stored there; a key without any event has not been
written. -/
theorem lastEvent_reflects_store (k : Kind α) (t₀ : Table α) (seq : Nat) (as : List (Action α))
    (s : State α) (hG : Transition.Along CommitOrder (step k) (init t₀ seq) as)
    (hrun : exec (step k) (init t₀ seq) as = some s) (r : Nat)
    (hpublished : s.unpublished = []) (hinbox : (s.replicas r).inbox = [])
    (hidle : (s.replicas r).handling = none) (key : ObjectKey) :
    match last Event.key key (s.replicas r).log with
    | some e => Reflects e (s.table.lookup key)
    | none => s.table.lookup key = t₀.lookup key := by
  have hconv := exec_invariant_along converging_step (converging_init k t₀ seq r) hG hrun
  have hreplay : replay Event.key Event.effect t₀.lookup (s.replicas r).log key =
      s.table.lookup key := by
    apply hconv.settled key trivial
    · unfold State.pending
      rw [hpublished, hinbox]
      rfl
    · intro e he
      rw [hidle] at he
      cases he
  rw [replay_eq_last] at hreplay
  cases hlast : last Event.key key (s.replicas r).log with
  | none =>
    rw [hlast] at hreplay
    exact hreplay.symm
  | some e =>
    rw [hlast] at hreplay
    show Reflects e (s.table.lookup key)
    rw [← hreplay]
    exact reflects_effect (key_of_last hlast)

/-! ## Two replicas, two orders

One replica creates an SBOM, another deletes it; the deletion is announced first. -/

def createThenDelete : List (Action SBOM) :=
  [.nextval, .commit (.create (sampleAX 1)), .commit (.delete ⟨"a", "x"⟩)]

def announceReversed : List (Action SBOM) :=
  createThenDelete ++
    [Action.publish 1, .publish 0, .handle 0, .broadcast 0, .handle 0, .broadcast 0]

def announceInOrder : List (Action SBOM) :=
  createThenDelete ++
    [Action.publish 0, .publish 0, .handle 0, .broadcast 0, .handle 0, .broadcast 0]

/-- Everything is published and processed, the store is empty, and the last event is `ADDED`. -/
theorem deleted_object_resurrected :
    ∃ s, exec (step (sbomKind Sql.Json.str)) (init .empty 0) announceReversed = some s ∧
      s.unpublished = [] ∧ (s.replicas 0).inbox = [] ∧ (s.replicas 0).handling = none ∧
      s.table.lookup ⟨"a", "x"⟩ = none ∧
      last Event.key ⟨"a", "x"⟩ (s.replicas 0).log =
        some (.change .added (sampleSBOM "a" "x" "u1" 1 [] "")) :=
  ⟨_, rfl, rfl, rfl, rfl, rfl, rfl⟩

theorem lastEvent_reflects_store_announceInOrder :
    Transition.Along CommitOrder (step (sbomKind Sql.Json.str)) (init .empty 0) announceInOrder ∧
    ∃ s, exec (step (sbomKind Sql.Json.str)) (init .empty 0) announceInOrder = some s ∧
      match last Event.key ⟨"a", "x"⟩ (s.replicas 0).log with
      | some e => Reflects e (s.table.lookup ⟨"a", "x"⟩)
      | none => s.table.lookup ⟨"a", "x"⟩ = (Table.empty : Table SBOM).lookup ⟨"a", "x"⟩ := by
  have hG : Transition.Along CommitOrder (step (sbomKind Sql.Json.str)) (init .empty 0)
      announceInOrder := by decide
  refine ⟨hG, _, rfl, ?_⟩
  exact lastEvent_reflects_store (sbomKind Sql.Json.str) .empty 0 announceInOrder _ hG rfl 0 rfl rfl
    rfl ⟨"a", "x"⟩

end SbomScanner.Storage.Replication

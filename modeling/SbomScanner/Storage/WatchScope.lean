import SbomScanner.Storage.Convergence
import SbomScanner.Storage.Selection

/-!
# What a watch lets through

A watch is opened under a key and with selectors. Its initial events come from a list or a get and
are as good as those; everything after them is the local broadcaster's stream, shared by all
watches of the resource, and no code filters it. So a watch stays in scope only as long as every
write of the resource does.

`delivered_inScope` says this for whole runs: the guard `ScopeKept` bounds the options when the
initial events are read, the messages under way at the moment of subscription, and every commit
while a watch is open. A write in another namespace is enough to break it
(`other_namespace_delivered`).
-/

namespace SbomScanner.Storage.Replication

open Transition List Function

variable {α : Type}

/-- Bookmarks are about no object. -/
def EventInScope (k : Kind α) (w : WatchCall α) : Event α → Prop
  | .change _ o => InScope k w.key w.opts o
  | .bookmark _ => True

/-! ## Initial events -/

/-- What has to hold of key, options and table for the initial events to be in scope, by the four
ways `store.Watch` can go. -/
def InitialSound (k : Kind α) (t : Table α) (key : Key) (opts : ListOptions) : Prop :=
  if opts.sendInitialEvents = some true ∧ opts.predicate.allowWatchBookmarks then
    ListSound k key opts
  else if opts.resourceVersion = "" then True
  else if opts.resourceVersion = "0" then
    ∀ o, get k t key.render = .ok o → opts.predicate.matches k o = true
  else ListSound k key opts

variable {k : Kind α}

theorem covers_of_get {t : Table α} {key : Key} {o : Object α} (h : get k t key.render = .ok o) :
    key.Covers k.clusterScoped o.key := by
  unfold get at h
  generalize hextract : extractKeyNameAndNamespace k.clusterScoped key.render = extracted at h
  simp only at h
  split at h
  · cases h
  · next hname =>
    split at h
    · next hlookup =>
      cases h
      rw [t.key_of_lookup hlookup]
      have hnames := names_of_extractKeyNameAndNamespace hextract hname
      exact ⟨[], (append_nil _).trans hnames⟩
    · cases h

variable {w : WatchCall α}

theorem eventInScope_addedEvents {items : List (Object α)}
    (h : ∀ o ∈ items, InScope k w.key w.opts o) : ∀ e ∈ addedEvents items, EventInScope k w e := by
  intro e he
  obtain ⟨o, ho, rfl⟩ := mem_map.mp he
  exact h o ho

theorem initial_inScope {t : Table α} {seq seq' : Nat} {initial : List (Event α)}
    (hsound : InitialSound k t w.key w.opts)
    (h : watch k t seq w.key.render w.opts = .ok (initial, seq')) :
    ∀ e ∈ initial, EventInScope k w e := by
  unfold watch at h
  unfold InitialSound at hsound
  split at h
  · next hlist =>
    rw [if_pos hlist] at hsound
    split at h
    · next listObj _ hget =>
      cases h
      intro e he
      rcases mem_append.mp he with he | he
      · exact eventInScope_addedEvents (fun o => inScope_of_mem_getList hsound hget) e he
      · rw [mem_singleton.mp he]
        trivial
    · cases h
  · next hlist =>
    rw [if_neg hlist] at hsound
    split at h
    · cases h
      intro e he
      cases he
    · next hrv =>
      rw [if_neg hrv] at hsound
      split at h
      · next hzero =>
        rw [if_pos hzero] at hsound
        split at h
        · next obj hget =>
          cases h
          intro e he
          rw [mem_singleton.mp he]
          exact ⟨covers_of_get hget, hsound obj hget⟩
        · cases h
      · next hzero =>
        rw [if_neg hzero] at hsound
        split at h
        · next listObj _ hget =>
          cases h
          exact eventInScope_addedEvents fun o => inScope_of_mem_getList hsound hget
        · cases h

/-! ## The guard -/

/-- Everything replica `w.replica` has still to broadcast is in scope: the event it is handling, the
payloads, and the stored objects they may be rehydrated to. -/
structure UnderWayInScope (k : Kind α) (s : State α) (w : WatchCall α) : Prop where
  handling : ∀ e, (s.replicas w.replica).handling = some e → EventInScope k w e
  payload : ∀ m ∈ s.pending w.replica, InScope k w.key w.opts m.object
  stored : ∀ m ∈ s.pending w.replica, ∀ o, s.table.lookup m.object.key = some o →
    InScope k w.key w.opts o

def ScopeKept (k : Kind α) (s : State α) : Action α → Prop
  | .watchRead _ _ key opts => InitialSound k s.table key opts
  | .watchFromList c _ =>
    ∀ key items rv, s.sessions c = .stamped key items rv →
      InitialSound k s.table key (fromVersion rv)
  | .subscribe c => ∀ w, s.sessions c = .opening w → UnderWayInScope k s w
  | .commit write =>
    ∀ c w start, s.sessions c = .watching w start →
      ∀ o, write.object s.table = some o → InScope k w.key w.opts o
  | _ => True

variable {s : State α} {a : Action α}

theorem ScopeKept.initialSound (h : ScopeKept k s a) {c : Nat} {key : Key} {opts : ListOptions}
    (ha : a.Reads s c key opts) :
    InitialSound k s.table key opts := by
  rcases ha with ⟨r, rfl⟩ | ⟨r, items, rv, rfl, hsession, rfl⟩
  · exact h
  · exact h key items rv hsession

/-! ## The invariant -/

structure ScopeInv (k : Kind α) (s : State α) : Prop where
  wellScoped : ∀ r, ∀ m ∈ s.pending r, k.Scoped m.object.key
  initial : ∀ c w, (s.sessions c = .opening w ∨ ∃ start, s.sessions c = .watching w start) →
    ∀ e ∈ w.initial, EventInScope k w e
  underWay : ∀ c w start, s.sessions c = .watching w start → UnderWayInScope k s w
  delivered : ∀ c w start, s.sessions c = .watching w start →
    ∀ e ∈ (s.replicas w.replica).log.drop start, EventInScope k w e

/-- What is under way stays in scope as long as commits do. -/
theorem underWay_step {s' : State α} (hs : StreamStep k s s' a)
    (hscoped : ∀ m ∈ s.pending w.replica, k.Scoped m.object.key) (h : UnderWayInScope k s w)
    (hcommit : ∀ write o, a = .commit write → write.object s.table = some o →
      InScope k w.key w.opts o) : UnderWayInScope k s' w where
  handling := by
    intro e he
    rcases handling_cases hs he with hold | ⟨m, hm, hprocess⟩
    · exact h.handling e hold
    · obtain ⟨o, rfl, -, horigin, -⟩ := processMessage_spec (hscoped m hm) hprocess
      rcases horigin with rfl | hstored
      · exact h.payload m hm
      · exact h.stored m hm o hstored
  payload := by
    intro m hm
    rcases mem_pending_cases hs hm with hold | ⟨write, type, o, ha, hobject, -, rfl, -⟩
    · exact h.payload m hold
    · exact inScope_strip (hcommit write o ha hobject)
  stored := by
    intro m hm o ho
    rcases mem_pending_cases hs hm with hold | ⟨write, type, o', ha, hobject, -, rfl, honly⟩
    · rcases lookup_cases hs ho with hlookup | ⟨write, ha, hobject⟩
      · exact h.stored m hold o hlookup
      · exact hcommit write o ha hobject
    · rw [honly o ho]
      exact hcommit write o' ha hobject

theorem mem_drop_log {s' : State α} {r start : Nat} {e : Event α} (hs : StreamStep k s s' a)
    (he : e ∈ (s'.replicas r).log.drop start) :
    e ∈ (s.replicas r).log.drop start ∨ (s.replicas r).handling = some e := by
  rcases log_append hs r with hlog | ⟨e', he', hlog⟩
  · rw [hlog] at he
    exact .inl he
  · rw [hlog, drop_append] at he
    rcases mem_append.mp he with he | he
    · exact .inl he
    · rw [mem_singleton.mp (mem_of_mem_drop he)]
      exact .inr he'

theorem scopeInv_step (s : State α) (a : Action α) (s' : State α) (h : ScopeInv k s)
    (hG : ScopeKept k s a) (hs : step k s a = some s') : ScopeInv k s' := by
  have hstream := step_stream hs
  -- a watch that has just subscribed is covered by the guard, an older one by the invariant
  have hbefore : ∀ c w start, s'.sessions c = .watching w start →
      UnderWayInScope k s w ∧ (∀ e ∈ (s.replicas w.replica).log.drop start, EventInScope k w e) ∧
      ∀ write o, a = .commit write → write.object s.table = some o → InScope k w.key w.opts o := by
    intro c w start hw
    rcases watching_cases hs hw with hold | ⟨rfl, hopen, rfl⟩
    · refine ⟨h.underWay c w start hold, h.delivered c w start hold, ?_⟩
      intro write o ha hobject
      subst ha
      exact hG c w start hold o hobject
    · refine ⟨hG w hopen, ?_, ?_⟩
      · intro e he
        rw [drop_length] at he
        cases he
      · intro write o ha
        cases ha
  refine ⟨fun r => wellScoped_step hstream (h.wellScoped r), ?_, ?_, ?_⟩
  · intro c w hw
    rcases step_sessions hs with hsame | ⟨c', session, hupdate, hmove⟩
    · rw [hsame] at hw
      exact h.initial c w hw
    · by_cases hc : c = c'
      · subst hc
        rw [hupdate, update_self] at hw
        cases hmove with
        | early hearly =>
          rcases hw with rfl | ⟨start, rfl⟩
          · exact hearly.elim
          · exact hearly.elim
        | read ha hread =>
          rcases hw with hw | ⟨start, hw⟩
          · cases hw
            exact initial_inScope (hG.initialSound ha) hread
          · cases hw
        | subscribe hopen =>
          rcases hw with hw | ⟨start, hw⟩
          · cases hw
          · cases hw
            exact h.initial c w (.inl hopen)
      · rw [hupdate, update_of_ne hc] at hw
        exact h.initial c w hw
  · intro c w start hw
    obtain ⟨hunder, -, hcommit⟩ := hbefore c w start hw
    exact underWay_step hstream (h.wellScoped w.replica) hunder hcommit
  · intro c w start hw e he
    obtain ⟨hunder, hlog, -⟩ := hbefore c w start hw
    rcases mem_drop_log hstream he with he | he
    · exact hlog e he
    · exact hunder.handling e he

theorem scopeInv_init (k : Kind α) (t : Table α) (seq : Nat) : ScopeInv k (init t seq) where
  wellScoped r m hm := by cases hm
  initial c w hw := by
    rcases hw with hw | ⟨start, hw⟩
    · cases hw
    · cases hw
  underWay c w start hw := by cases hw
  delivered c w start hw := by cases hw

/-- **A watch stays in scope as long as the whole resource does.** In every run that meets
`ScopeKept`, every event delivered to every watch, initial or broadcast, is about an object under
the watch's key that satisfies its selectors. -/
theorem delivered_inScope (k : Kind α) (t₀ : Table α) (seq : Nat) (as : List (Action α))
    (s : State α) (hG : Transition.Along (ScopeKept k) (step k) (init t₀ seq) as)
    (hrun : exec (step k) (init t₀ seq) as = some s) (c start : Nat) (w : WatchCall α)
    (hw : s.sessions c = .watching w start) :
    ∀ e ∈ w.initial ++ (s.replicas w.replica).log.drop start, EventInScope k w e := by
  have hinv := exec_invariant_along scopeInv_step (scopeInv_init k t₀ seq) hG hrun
  intro e he
  rcases mem_append.mp he with he | he
  · exact hinv.initial c w (.inr ⟨start, hw⟩) e he
  · exact hinv.delivered c w start hw e he

/-! ## A tenant watching its neighbour

A watch on namespace `a`, without selectors, receives the creation of `b/x`. -/

def watchThenCreate (o : Object SBOM) : List (Action SBOM) :=
  [.watchRead 0 0 (sbomKey [segmentA]) {}, .subscribe 0, .nextval, .commit (.create o), .publish 0,
    .handle 0, .broadcast 0]

theorem other_namespace_delivered :
    ∃ s w start, exec (step (sbomKind Sql.Json.str)) (init .empty 0)
        (watchThenCreate (sampleSBOM "b" "x" "u1" 1)) = some s ∧
      s.sessions 0 = .watching w start ∧
      w.initial ++ (s.replicas w.replica).log.drop start =
        [.change .added (sampleSBOM "b" "x" "u1" 1)] ∧
      ¬ InScope (sbomKind Sql.Json.str) w.key w.opts (sampleSBOM "b" "x" "u1" 1) :=
  ⟨_, _, _, rfl, rfl, rfl, by decide⟩

theorem scopeKept_watchThenCreate :
    Transition.Along (ScopeKept (sbomKind Sql.Json.str)) (step (sbomKind Sql.Json.str))
      (init .empty 0) (watchThenCreate (sampleSBOM "a" "x" "u1" 1)) := by
  refine .cons ?_ rfl (.cons ?_ rfl (.cons trivial rfl (.cons ?_ rfl (.cons trivial rfl
    (.cons trivial rfl (.cons trivial rfl trivial))))))
  · simp [ScopeKept, InitialSound]
  · -- nothing is under way yet
    intro w _
    refine ⟨?_, ?_, ?_⟩
    · intro e he
      cases he
    · intro m hm
      cases hm
    · intro m hm
      cases hm
  · intro c w start hw o ho
    cases ho
    by_cases hc : c = 0
    · subst hc
      cases hw
      decide
    · have hidle : (update (update (fun _ => Session.idle) 0
          (.opening (⟨0, sbomKey [segmentA], {}, none, []⟩ : WatchCall SBOM))) 0
          (.watching ⟨0, sbomKey [segmentA], {}, none, []⟩ 0)) c = Session.idle := by
        rw [update_of_ne hc, update_of_ne hc]
      cases hidle.symm.trans hw

theorem exec_watchThenCreate :
    ∃ s w start, exec (step (sbomKind Sql.Json.str)) (init .empty 0)
        (watchThenCreate (sampleSBOM "a" "x" "u1" 1)) = some s ∧
      s.sessions 0 = .watching w start :=
  ⟨_, _, _, rfl, rfl⟩

theorem delivered_inScope_watchThenCreate :
    ∃ s w start, exec (step (sbomKind Sql.Json.str)) (init .empty 0)
        (watchThenCreate (sampleSBOM "a" "x" "u1" 1)) = some s ∧
      s.sessions 0 = .watching w start ∧
      ∀ e ∈ w.initial ++ (s.replicas w.replica).log.drop start,
        EventInScope (sbomKind Sql.Json.str) w e := by
  obtain ⟨s, w, start, hrun, hw⟩ := exec_watchThenCreate
  exact ⟨s, w, start, hrun, hw,
    delivered_inScope _ _ _ _ s scopeKept_watchThenCreate hrun 0 start w hw⟩

end SbomScanner.Storage.Replication

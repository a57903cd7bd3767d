import SbomScanner.Lib.Transition
import SbomScanner.Lib.Versioned
import SbomScanner.Runner.Schedule

/-!
# No rescan request is lost

A tick of the runner takes several requests to the API server: it lists the Registry and collects
the rescan requests on it, decides whether to scan, creates the ScanJob, and removes the annotations
it has collected, trying again when somebody else has written in between. This module takes
`checkRegistryForScan` apart at these points, and lets everything else happen in between: requesters
post further requests, the Registry is edited, deleted and created again, other ticks run, and any
of them may stop anywhere.

A request that is gone from a Registry has been served: after it was posted, a ScanJob was created
whose targets cover it (`served_of_removed`).
-/

namespace SbomScanner.Runner.Rescan

open Api Versioned Transition List

/-! ## The system -/

structure Posted where
  uid : Nat
  key : String
  value : String
  /-- how many ScanJobs the runner had created by then -/
  jobsBefore : Nat

/-- Where a tick is in `checkRegistryForScan`. The number says how many requests had been posted
when the tick collected its keys. -/
inductive Phase where
  | idle
  | checking (registry : Registry) (collected : Collected) (seen : Nat)
  | creating (registry : Registry) (collected : Collected) (seen : Nat)
  | removing (keys : List String) (retries seen : Nat)
  | updating (keys : List String) (copy : Entry Registry) (retries seen : Nat)

structure State where
  store : Store Registry
  /-- the version of the Registry that a requester has read -/
  clients : Nat → Option (Entry Registry)
  ticks : Nat → Phase
  /-- the ScanJobs the runner has created, in order -/
  scanJobs : List ScanJob
  posted : List Posted

inductive Action where
  | create (registry : Registry)
  | delete
  | read (client version : Nat)
  | write (client : Nat) (registry : Registry)
  | list (tick version : Nat) (order : IterationOrder Loop)
  | check (tick now : Nat) (lastScanJob : Option ScanJob)
  | createScanJob (tick : Nat) (assigned : Assigned)
  | get (tick version : Nat)
  | update (tick : Nat)
  | stop (tick : Nat)

namespace State

def init : State := ⟨.empty, fun _ => none, fun _ => .idle, [], []⟩

def setTick (s : State) (tick : Nat) (phase : Phase) : State :=
  { s with ticks := fun t => if t = tick then phase else s.ticks t }

def setClient (s : State) (client : Nat) (copy : Option (Entry Registry)) : State :=
  { s with clients := fun c => if c = client then copy else s.clients c }

def newKeys (old : Labels) (new : Registry) : List String :=
  (rescanKeys .asStored new).filter (· ∉ old)

/-- The registry is written, with what has been requested on it. -/
def post (s : State) (store : Store Registry) (uid : Nat) (old : Labels) (new : Registry) :
    State :=
  { s with
    store
    posted := s.posted ++ (newKeys old new).map fun key =>
      ⟨uid, key, (new.annotations.lookup key).getD "", s.scanJobs.length⟩ }

/-- New requests are posted under keys that have never been used. -/
def Fresh (s : State) (old : Labels) (new : Registry) : Prop :=
  ∀ key ∈ newKeys old new, key ∉ s.posted.map (·.key)

instance (s : State) (old : Labels) (new : Registry) : Decidable (s.Fresh old new) := by
  unfold Fresh
  infer_instance

end State

/-- Every request is still there, as it was. -/
def KeepsRequests (old new : Registry) : Prop :=
  ∀ key ∈ rescanKeys .asStored old, new.annotations.lookup key = old.annotations.lookup key

instance (old new : Registry) : Decidable (KeepsRequests old new) := by
  unfold KeepsRequests
  infer_instance

variable (target : String × String) (unmarshal : Unmarshal)

/-- The steps. A Registry is read from a cache, which may give any version of it; the last ScanJob
comes from a cache as well and may be any. -/
def step (s : State) : Action → Option State
  | .create registry =>
    if registry.key = target ∧ s.Fresh ∅ registry then
      (s.store.create registry).map fun store =>
        s.post store s.store.history.length ∅ registry
    else
      none
  | .delete => some { s with store := s.store.delete }
  | .read client version =>
    (s.store.history[version]?).map fun entry => s.setClient client (some entry)
  | .write client registry =>
    match s.clients client with
    | none => none
    | some copy =>
      if registry.key = target ∧ KeepsRequests copy.object registry ∧
          s.Fresh copy.object.annotations registry then
        match s.store.update copy registry with
        | some store =>
          some ((s.post store copy.uid copy.object.annotations registry).setClient client none)
        | none => some (s.setClient client none)
      else
        none
  | .list tick version order =>
    match s.ticks tick, s.store.history[version]? with
    | .idle, some entry =>
      some (s.setTick tick (.checking entry.object
        (collectRescanRequests order unmarshal entry.object) s.posted.length))
    | _, _ => none
  | .check tick now lastScanJob =>
    match s.ticks tick with
    | .checking registry collected seen =>
      if wantsScanJob now registry lastScanJob (collected.rescanRequests ≠ []) then
        some (s.setTick tick (.creating registry collected seen))
      else
        some (s.setTick tick .idle)
    | _ => none
  | .createScanJob tick assigned =>
    match s.ticks tick with
    | .creating registry collected seen =>
      let scanJobs := s.scanJobs ++ [newScanJob assigned registry collected.targets]
      if collected.rescanRequests ≠ [] then
        some ({ s with scanJobs }.setTick tick (.removing collected.rescanRequests 4 seen))
      else
        some ({ s with scanJobs }.setTick tick .idle)
    | _ => none
  | .get tick version =>
    match s.ticks tick, s.store.history[version]? with
    | .removing keys retries seen, some copy =>
      if hasAnyKey keys copy.object then
        some (s.setTick tick (.updating keys copy retries seen))
      else
        some (s.setTick tick .idle)
    | _, _ => none
  | .update tick =>
    match s.ticks tick with
    | .updating keys copy retries seen =>
      match s.store.update copy (withoutAnnotations keys copy.object) with
      | some store => some ({ s with store }.setTick tick .idle)
      -- a conflict: try again with a new copy
      | none =>
        match retries with
        | 0 => some (s.setTick tick .idle)
        | retries + 1 => some (s.setTick tick (.removing keys retries seen))
    | _ => none
  -- a request has failed, or the runner has crashed
  | .stop tick => some (s.setTick tick .idle)

/-! ## The invariant -/

variable {target unmarshal} {s s' : State}

/-- A ScanJob that covers the request has been created since it was posted. -/
def Served (target : String × String) (unmarshal : Unmarshal) (s : State) (p : Posted) : Prop :=
  ∀ req, decodeRescanRequest unmarshal p.value = some req →
    ∃ scanJob ∈ s.scanJobs.drop p.jobsBefore,
      (scanJob.ns, scanJob.spec.registry) = target ∧ Covers scanJob.spec.repositories req

/-- The request under the key was posted among the first `n`. -/
def WrittenBy (s : State) (n : Nat) (registry : Registry) (key : String) : Prop :=
  ∃ p ∈ s.posted.take n, p.key = key ∧ registry.annotations.lookup key = some p.value

/-- What a tick knows about the keys it has collected. -/
def PhaseInv (target : String × String) (unmarshal : Unmarshal) (s : State) : Phase → Prop
  | .idle => True
  | .checking registry collected seen | .creating registry collected seen =>
    registry.key = target ∧
      (∃ order, collected = collectRescanRequests order unmarshal registry) ∧
      ∀ key ∈ collected.rescanRequests, WrittenBy s seen registry key
  | .removing keys _ seen =>
    ∀ key ∈ keys, ∃ p ∈ s.posted.take seen, p.key = key ∧ Served target unmarshal s p
  | .updating keys copy _ seen =>
    copy ∈ s.store.history ∧
      ∀ key ∈ keys, ∃ p ∈ s.posted.take seen, p.key = key ∧ Served target unmarshal s p

structure Inv (target : String × String) (unmarshal : Unmarshal) (s : State) : Prop where
  key : ∀ entry ∈ s.store.history, entry.object.key = target
  written : ∀ entry ∈ s.store.history, ∀ key ∈ rescanKeys .asStored entry.object,
    WrittenBy s s.posted.length entry.object key
  nodup : (s.posted.map (·.key)).Nodup
  requested : ∀ p ∈ s.posted, isRescanRequested p.key = true
  uid_lt : ∀ p ∈ s.posted, p.uid < s.store.history.length
  before : ∀ p ∈ s.posted, p.jobsBefore ≤ s.scanJobs.length
  clients : ∀ c, ∀ entry ∈ s.clients c, entry ∈ s.store.history
  ticks : ∀ t, PhaseInv target unmarshal s (s.ticks t)
  /-- the point of it all: a request is on the Registry, or it has been served -/
  served : ∀ p ∈ s.posted, ∀ entry ∈ s.store.current, entry.uid = p.uid →
    entry.object.annotations.lookup p.key = some p.value ∨ Served target unmarshal s p

/-! ## What stays true -/

/-- Nothing is forgotten: the versions, the requests and the jobs only become more. -/
structure Extends (s s' : State) : Prop where
  history : s.store.history <+: s'.store.history
  posted : s.posted <+: s'.posted
  scanJobs : s.scanJobs <+: s'.scanJobs

theorem Served.extends {p : Posted} (h : Served target unmarshal s p) (hext : Extends s s') :
    Served target unmarshal s' p := by
  intro req hreq
  obtain ⟨scanJob, hmem, hjob⟩ := h req hreq
  exact ⟨scanJob, (hext.scanJobs.drop _).subset hmem, hjob⟩

theorem WrittenBy.extends {n : Nat} {registry : Registry} {key : String}
    (h : WrittenBy s n registry key) (hext : Extends s s') : WrittenBy s' n registry key := by
  obtain ⟨p, hmem, hp⟩ := h
  exact ⟨p, (hext.posted.take n).subset hmem, hp⟩

theorem PhaseInv.extends {phase : Phase} (h : PhaseInv target unmarshal s phase)
    (hext : Extends s s') : PhaseInv target unmarshal s' phase := by
  have hserved : ∀ {keys : List String} {seen : Nat},
      (∀ key ∈ keys, ∃ p ∈ s.posted.take seen, p.key = key ∧ Served target unmarshal s p) →
      ∀ key ∈ keys, ∃ p ∈ s'.posted.take seen, p.key = key ∧ Served target unmarshal s' p := by
    intro keys seen hkeys key hkey
    obtain ⟨p, hmem, hp, hs⟩ := hkeys key hkey
    exact ⟨p, (hext.posted.take seen).subset hmem, hp, hs.extends hext⟩
  cases phase with
  | idle => trivial
  | checking registry collected seen | creating registry collected seen =>
    exact ⟨h.1, h.2.1, fun key hkey => (h.2.2 key hkey).extends hext⟩
  | removing keys retries seen => exact hserved h
  | updating keys copy retries seen => exact ⟨hext.history.subset h.1, hserved h.2⟩

/-! ## One step -/

namespace Inv

variable {registry : Registry} {copy : Entry Registry}

theorem init : Inv target unmarshal State.init where
  key _ h := by cases h
  written _ h := by cases h
  nodup := nodup_nil
  requested _ h := by cases h
  uid_lt _ h := by cases h
  before _ h := by cases h
  clients _ _ h := by cases h
  ticks _ := trivial
  served _ h := by cases h

section

variable (h : Inv target unmarshal s)
include h

theorem setTick (tick : Nat) {phase : Phase} (hphase : PhaseInv target unmarshal s phase) :
    Inv target unmarshal (s.setTick tick phase) := by
  have hext : Extends s (s.setTick tick phase) :=
    ⟨prefix_rfl, prefix_rfl, prefix_rfl⟩
  refine { h with ticks := fun t => ?_ }
  unfold State.setTick
  dsimp only
  split
  · exact hphase.extends hext
  · exact (h.ticks t).extends hext

theorem setClient (client : Nat) {copy : Option (Entry Registry)}
    (hcopy : ∀ entry ∈ copy, entry ∈ s.store.history) :
    Inv target unmarshal (s.setClient client copy) := by
  have hext : Extends s (s.setClient client copy) :=
    ⟨prefix_rfl, prefix_rfl, prefix_rfl⟩
  refine { h with clients := fun c => ?_, ticks := fun t => (h.ticks t).extends hext }
  unfold State.setClient
  dsimp only
  split
  · exact hcopy
  · exact h.clients c

theorem delete :
    Inv target unmarshal { s with store := s.store.delete } := by
  have hext : Extends s { s with store := s.store.delete } :=
    ⟨prefix_rfl, prefix_rfl, prefix_rfl⟩
  exact { h with
    ticks := fun t => (h.ticks t).extends hext
    served := fun _ _ entry hentry => by cases hentry }

theorem createScanJob (scanJob : ScanJob) :
    Inv target unmarshal { s with scanJobs := s.scanJobs ++ [scanJob] } := by
  have hext : Extends s { s with scanJobs := s.scanJobs ++ [scanJob] } :=
    ⟨prefix_rfl, prefix_rfl, prefix_append _ _⟩
  refine { h with
    before := fun p hp => (h.before p hp).trans (by simp)
    ticks := fun t => (h.ticks t).extends hext
    served := fun p hp entry hentry huid => ?_ }
  exact (h.served p hp entry hentry huid).imp_right fun hs => hs.extends hext

/-- A new version of the Registry is written, with these requests posted on it. -/
theorem push {uid : Nat} (huid : uid ≤ s.store.history.length) {added : List Posted}
    (hkey : registry.key = target)
    (hadded : ∀ p ∈ added, p.uid = uid ∧ isRescanRequested p.key = true ∧
      p.jobsBefore = s.scanJobs.length ∧ registry.annotations.lookup p.key = some p.value)
    (hnodup : ((s.posted ++ added).map (·.key)).Nodup)
    (hwritten : ∀ key ∈ rescanKeys .asStored registry, ∃ p ∈ s.posted ++ added, p.key = key ∧
      registry.annotations.lookup key = some p.value)
    (hserved : ∀ p ∈ s.posted, p.uid = uid → registry.annotations.lookup p.key = some p.value ∨
      Served target unmarshal s p) :
    Inv target unmarshal
      { s with store := s.store.push uid huid registry, posted := s.posted ++ added } := by
  have hext : Extends s
      { s with store := s.store.push uid huid registry, posted := s.posted ++ added } :=
    ⟨prefix_append _ _, prefix_append _ _, prefix_rfl⟩
  constructor
  case key =>
    intro entry hentry
    rcases mem_append.mp hentry with hold | hnew
    · exact h.key entry hold
    · cases mem_singleton.mp hnew
      exact hkey
  case written =>
    intro entry hentry key hmem
    rcases mem_append.mp hentry with hold | hnew
    · obtain ⟨p, hp, hp'⟩ := (h.written entry hold key hmem).extends hext
      rw [WrittenBy, take_length]
      exact ⟨p, mem_of_mem_take hp, hp'⟩
    · cases mem_singleton.mp hnew
      rw [WrittenBy, take_length]
      exact hwritten key hmem
  case nodup => exact hnodup
  case requested =>
    intro p hp
    rcases mem_append.mp hp with hold | hnew
    · exact h.requested p hold
    · exact (hadded p hnew).2.1
  case uid_lt =>
    intro p hp
    rw [Store.history_push, length_append]
    rcases mem_append.mp hp with hold | hnew
    · exact (h.uid_lt p hold).trans_le (Nat.le_add_right _ _)
    · rw [(hadded p hnew).1]
      exact Nat.lt_succ_of_le huid
  case before =>
    intro p hp
    rcases mem_append.mp hp with hold | hnew
    · exact h.before p hold
    · exact (hadded p hnew).2.2.1.le
  case clients => exact fun c entry hentry => hext.history.subset (h.clients c entry hentry)
  case ticks => exact fun t => (h.ticks t).extends hext
  case served =>
    intro p hp entry hentry huid
    cases hentry
    rcases mem_append.mp hp with hold | hnew
    · exact (hserved p hold huid.symm).imp_right fun hs => hs.extends hext
    · exact .inl (hadded p hnew).2.2.2

theorem post {uid : Nat} (huid : uid ≤ s.store.history.length) {old : Labels}
    (hkey : registry.key = target) (hfresh : s.Fresh old registry)
    (hold : ∀ key ∈ rescanKeys .asStored registry, key ∈ old → ∃ p ∈ s.posted, p.key = key ∧
      registry.annotations.lookup key = some p.value)
    (hserved : ∀ p ∈ s.posted, p.uid = uid → registry.annotations.lookup p.key = some p.value ∨
      Served target unmarshal s p) :
    Inv target unmarshal (s.post (s.store.push uid huid registry) uid old registry) := by
  have hlookup : ∀ key ∈ rescanKeys .asStored registry,
      registry.annotations.lookup key = some ((registry.annotations.lookup key).getD "") := by
    intro key hkey
    obtain ⟨value, hvalue⟩ := Finmap.mem_iff.mp (mem_rescanKeys.mp hkey).1
    rw [hvalue]
    rfl
  refine h.push huid hkey ?_ ?_ ?_ hserved
  · intro p hp
    obtain ⟨key, hnew, rfl⟩ := mem_map.mp hp
    have hmem := mem_of_mem_filter hnew
    exact ⟨rfl, (mem_rescanKeys.mp hmem).2, rfl, hlookup key hmem⟩
  · rw [map_append, map_map, nodup_append]
    refine ⟨h.nodup, ?_, ?_⟩
    · show ((State.newKeys old registry).map id).Nodup
      rw [map_id]
      exact (IterationOrder.nodup_elements _).filter _ |>.filter _
    · rintro _ hposted _ hadded rfl
      obtain ⟨key, hnew, rfl⟩ := mem_map.mp hadded
      exact hfresh key hnew hposted
  · intro key hmem
    by_cases hin : key ∈ old
    · obtain ⟨p, hp, hp'⟩ := hold key hmem hin
      exact ⟨p, mem_append_left _ hp, hp'⟩
    · refine ⟨_, mem_append_right _ (mem_map_of_mem (mem_filter.mpr ⟨hmem, ?_⟩)), rfl, ?_⟩
      · simpa using hin
      · exact hlookup key hmem

theorem create (hkey : registry.key = target) (hfresh : s.Fresh ∅ registry) :
    Inv target unmarshal (s.post (s.store.push s.store.history.length (Nat.le_refl _) registry)
      s.store.history.length ∅ registry) := by
  apply h.post _ hkey hfresh
  · intro key _ hempty
    cases hempty
  · intro p hp huid
    exact absurd (h.uid_lt p hp) (by omega)

/-- A requester that has read the current version. -/
theorem write (hcurrent : s.store.current = some copy) (huid : copy.uid ≤ s.store.history.length)
    (hkey : registry.key = target) (hkeeps : KeepsRequests copy.object registry)
    (hfresh : s.Fresh copy.object.annotations registry) :
    Inv target unmarshal (s.post (s.store.push copy.uid huid registry) copy.uid
      copy.object.annotations registry) := by
  apply h.post huid hkey hfresh
  · intro key hkey hold
    have hcopy : key ∈ rescanKeys .asStored copy.object :=
      mem_rescanKeys.mpr ⟨hold, (mem_rescanKeys.mp hkey).2⟩
    obtain ⟨p, hp, hname, hvalue⟩ := h.written copy (s.store.current_mem copy hcurrent) key hcopy
    exact ⟨p, mem_of_mem_take hp, hname, hkeeps key hcopy ▸ hvalue⟩
  · intro p hp huid
    refine (h.served p hp copy hcurrent huid.symm).imp_left fun hvalue => ?_
    rw [hkeeps p.key (mem_rescanKeys.mpr ⟨Finmap.mem_of_lookup_eq_some hvalue, h.requested p hp⟩)]
    exact hvalue

/-- A tick that has read the current version. -/
theorem remove {keys : List String} {seen : Nat} (hcurrent : s.store.current = some copy)
    (huid : copy.uid ≤ s.store.history.length)
    (hkeys : ∀ key ∈ keys, ∃ p ∈ s.posted.take seen, p.key = key ∧ Served target unmarshal s p) :
    Inv target unmarshal
      { s with store := s.store.push copy.uid huid (withoutAnnotations keys copy.object) } := by
  have hmem := s.store.current_mem copy hcurrent
  suffices hpush : Inv target unmarshal { s with
      store := s.store.push copy.uid huid (withoutAnnotations keys copy.object)
      posted := s.posted ++ [] } by
    rwa [append_nil] at hpush
  refine h.push huid (h.key copy hmem) (by simp) (by simpa using h.nodup) ?_ ?_
  · intro key hkey
    obtain ⟨hin, hrequested⟩ := mem_rescanKeys.mp hkey
    obtain ⟨value, hvalue⟩ := Finmap.mem_iff.mp hin
    rw [lookup_withoutAnnotations] at hvalue ⊢
    split at hvalue
    · cases hvalue
    · next hnot =>
        rw [if_neg hnot, append_nil]
        obtain ⟨p, hp, hp'⟩ := h.written copy hmem key
          (mem_rescanKeys.mpr ⟨Finmap.mem_of_lookup_eq_some hvalue, hrequested⟩)
        exact ⟨p, mem_of_mem_take hp, hp'⟩
  · intro p hp hpuid
    rw [lookup_withoutAnnotations]
    by_cases hkey : p.key ∈ keys
    · -- the request under this key is the one the tick has served
      obtain ⟨q, hq, hname, hserved⟩ := hkeys p.key hkey
      cases inj_on_of_nodup_map h.nodup (mem_of_mem_take hq) hp hname
      exact .inr hserved
    · rw [if_neg hkey]
      exact h.served p hp copy hcurrent hpuid.symm

/-- The job that a tick creates covers the requests it has collected. -/
theorem served_createScanJob {collected : Collected} {seen : Nat} {assigned : Assigned}
    {retries : Nat} (hphase : PhaseInv target unmarshal s (.creating registry collected seen)) :
    PhaseInv target unmarshal
      { s with scanJobs := s.scanJobs ++ [newScanJob assigned registry collected.targets] }
      (.removing collected.rescanRequests retries seen) := by
  obtain ⟨hkey, ⟨order, hcollected⟩, hwritten⟩ := hphase
  intro key hmem
  obtain ⟨p, hp, hname, hvalue⟩ := hwritten key hmem
  refine ⟨p, hp, hname, fun req hreq => ?_⟩
  have hbefore : p.jobsBefore ≤ s.scanJobs.length := h.before p (mem_of_mem_take hp)
  refine ⟨newScanJob assigned registry collected.targets, ?_, hkey, ?_⟩
  · rw [drop_append_of_le_length hbefore]
    exact mem_append_right _ mem_cons_self
  · rw [hcollected, rescanRequests_collectRescanRequests] at hmem
    rw [hcollected]
    apply covers_collectRescanRequests hmem
    rw [requestUnder, hvalue]
    exact hreq

end

end Inv

/-- What a step can do, when the invariant holds. -/
inductive Effect (target : String × String) (unmarshal : Unmarshal) (s : State) :
    Action → State → Prop where
  | tick {a : Action} (tick : Nat) {phase : Phase} (hphase : PhaseInv target unmarshal s phase) :
      Effect target unmarshal s a (s.setTick tick phase)
  | client {a : Action} (client : Nat) {copy : Option (Entry Registry)}
      (hcopy : ∀ entry ∈ copy, entry ∈ s.store.history) :
      Effect target unmarshal s a (s.setClient client copy)
  | delete : Effect target unmarshal s .delete { s with store := s.store.delete }
  | create {registry : Registry} (hcurrent : s.store.current = none)
      (hkey : registry.key = target) (hfresh : s.Fresh ∅ registry) :
      Effect target unmarshal s (.create registry)
        (s.post (s.store.push s.store.history.length (Nat.le_refl _) registry)
          s.store.history.length ∅ registry)
  | write {client : Nat} {registry : Registry} {copy : Entry Registry}
      (hcurrent : s.store.current = some copy) (huid : copy.uid ≤ s.store.history.length)
      (hkey : registry.key = target) (hkeeps : KeepsRequests copy.object registry)
      (hfresh : s.Fresh copy.object.annotations registry) :
      Effect target unmarshal s (.write client registry)
        ((s.post (s.store.push copy.uid huid registry) copy.uid copy.object.annotations
          registry).setClient client none)
  | scan {tick : Nat} {assigned : Assigned} {registry : Registry} {collected : Collected}
      {phase : Phase}
      (hphase : PhaseInv target unmarshal
        { s with scanJobs := s.scanJobs ++ [newScanJob assigned registry collected.targets] }
        phase) :
      Effect target unmarshal s (.createScanJob tick assigned)
        ({ s with scanJobs := s.scanJobs ++
          [newScanJob assigned registry collected.targets] }.setTick tick phase)
  | remove {tick : Nat} {keys : List String} {copy : Entry Registry} {retries seen : Nat}
      (hphase : s.ticks tick = .updating keys copy retries seen)
      (hcurrent : s.store.current = some copy) (huid : copy.uid ≤ s.store.history.length) :
      Effect target unmarshal s (.update tick)
        ({ s with
          store := s.store.push copy.uid huid (withoutAnnotations keys copy.object) }.setTick
            tick .idle)

theorem step_effect {a : Action} (h : Inv target unmarshal s)
    (hstep : step target unmarshal s a = some s') : Effect target unmarshal s a s' := by
  cases a with
  | create registry =>
    simp only [step] at hstep
    split at hstep
    · next hguard =>
        obtain ⟨store, hstore, rfl⟩ := Option.map_eq_some_iff.mp hstep
        obtain ⟨hnone, rfl⟩ := Store.create_eq_some hstore
        exact .create hnone hguard.1 hguard.2
    · cases hstep
  | delete =>
    cases hstep
    exact .delete
  | read client version =>
    obtain ⟨entry, hentry, rfl⟩ := Option.map_eq_some_iff.mp hstep
    apply Effect.client
    rintro _ ⟨⟩
    exact mem_of_getElem? hentry
  | write client registry =>
    simp only [step] at hstep
    split at hstep
    · cases hstep
    · next copy hcopy =>
        split at hstep
        · next hguard =>
            split at hstep
            · next store hstore =>
                cases hstep
                obtain ⟨hcurrent, rfl⟩ :=
                  Store.update_eq_some (h.clients client copy hcopy) hstore
                exact .write hcurrent _ hguard.1 hguard.2.1 hguard.2.2
            · cases hstep
              exact .client client (by simp)
        · cases hstep
  | list tick version order =>
    simp only [step] at hstep
    split at hstep
    · next entry _ hentry =>
        cases hstep
        have hmem := mem_of_getElem? hentry
        refine .tick tick ⟨h.key entry hmem, ⟨order, rfl⟩, fun key hkey => ?_⟩
        rw [rescanRequests_collectRescanRequests, mem_rescanKeys] at hkey
        exact h.written entry hmem key (mem_rescanKeys.mpr hkey)
    · cases hstep
  | check tick now lastScanJob =>
    have hinv := h.ticks tick
    simp only [step] at hstep
    split at hstep
    · next registry collected seen hphase =>
        rw [hphase] at hinv
        split at hstep
        · cases hstep
          exact .tick tick hinv
        · cases hstep
          exact .tick tick trivial
    · cases hstep
  | createScanJob tick assigned =>
    have hinv := h.ticks tick
    simp only [step] at hstep
    split at hstep
    · next registry collected seen hphase =>
        rw [hphase] at hinv
        split at hstep
        · cases hstep
          exact .scan (h.served_createScanJob hinv)
        · cases hstep
          exact .scan trivial
    · cases hstep
  | get tick version =>
    have hinv := h.ticks tick
    simp only [step] at hstep
    split at hstep
    · next keys retries seen copy hphase hcopy =>
        rw [hphase] at hinv
        split at hstep
        · cases hstep
          exact .tick tick ⟨mem_of_getElem? hcopy, hinv⟩
        · cases hstep
          exact .tick tick trivial
    · cases hstep
  | update tick =>
    have hinv := h.ticks tick
    simp only [step] at hstep
    split at hstep
    · next keys copy retries seen hphase =>
        rw [hphase] at hinv
        split at hstep
        · next store hstore =>
            cases hstep
            obtain ⟨hcurrent, rfl⟩ := Store.update_eq_some hinv.1 hstore
            exact .remove hphase hcurrent _
        · split at hstep
          · cases hstep
            exact .tick tick trivial
          · cases hstep
            exact .tick tick hinv.2
    · cases hstep
  | stop tick =>
    cases hstep
    exact .tick tick trivial

theorem inv_step {a : Action} (h : Inv target unmarshal s)
    (hstep : step target unmarshal s a = some s') : Inv target unmarshal s' := by
  cases step_effect h hstep with
  | tick tick hphase => exact h.setTick tick hphase
  | client client hcopy => exact h.setClient client hcopy
  | delete => exact h.delete
  | create _ hkey hfresh => exact h.create hkey hfresh
  | write hcurrent huid hkey hkeeps hfresh =>
    exact (h.write hcurrent huid hkey hkeeps hfresh).setClient _ (by simp)
  | scan hphase => exact (h.createScanJob _).setTick _ hphase
  | @remove tick _ _ _ _ hphase hcurrent huid =>
    have hinv := h.ticks tick
    rw [hphase] at hinv
    exact (h.remove hcurrent huid hinv.2).setTick tick trivial

theorem inv_exec {as : List Action} (hrun : exec (step target unmarshal) .init as = some s) :
    Inv target unmarshal s :=
  exec_invariant (fun _ _ _ h hstep => inv_step h hstep) Inv.init hrun

/-! ## Requests are served -/

/-- How many requests had been posted when the tick collected its keys. -/
def Phase.seen : Phase → Nat
  | .idle => 0
  | .checking _ _ seen | .creating _ _ seen | .removing _ _ seen | .updating _ _ _ seen => seen

/-- **No request is lost.** A request that is no longer on the Registry it was posted on has been
served by a ScanJob that was created since. A step in which a request goes away is the update of a
tick, and the request was posted before that tick collected its keys. -/
theorem served_of_removed {as : List Action} {p : Posted} {entry : Entry Registry}
    (hrun : exec (step target unmarshal) .init as = some s) (hposted : p ∈ s.posted)
    (hentry : s.store.current = some entry) (huid : entry.uid = p.uid) :
    (p.key ∉ entry.object.annotations → Served target unmarshal s p) ∧
    ∀ a s' entry', step target unmarshal s a = some s' → s'.store.current = some entry' →
      p.key ∈ entry.object.annotations → p.key ∉ entry'.object.annotations →
        ∃ tick, a = .update tick ∧ p ∈ s.posted.take (s.ticks tick).seen := by
  have h := inv_exec hrun
  constructor
  · intro hgone
    refine (h.served p hposted entry hentry huid).resolve_left fun hlookup => ?_
    exact hgone (Finmap.mem_of_lookup_eq_some hlookup)
  · intro a s' entry' hstep hentry' hin hout
    cases step_effect h hstep with
    | delete => cases hentry'
    | create hcurrent => simp [hcurrent] at hentry
    | @write _ registry copy hcurrent _ _ hkeeps =>
      cases hcurrent.symm.trans hentry
      cases hentry'
      have hlookup := hkeeps p.key (mem_rescanKeys.mpr ⟨hin, h.requested p hposted⟩)
      rw [← Finmap.lookup_isSome, ← hlookup, Finmap.lookup_isSome] at hin
      exact absurd hin hout
    | @remove tick keys copy retries seen hphase hcurrent =>
      have hinv := h.ticks tick
      rw [hphase] at hinv
      cases hcurrent.symm.trans hentry
      cases hentry'
      have hkey : p.key ∈ keys := by
        by_contra hnot
        rw [← Finmap.lookup_isSome, lookup_withoutAnnotations, if_neg hnot,
          Finmap.lookup_isSome] at hout
        exact hout hin
      -- the request the tick has found under this key is this one
      obtain ⟨q, hq, hname, -⟩ := hinv.2 p.key hkey
      cases inj_on_of_nodup_map h.nodup (mem_of_mem_take hq) hposted hname
      exact ⟨tick, rfl, by rwa [hphase]⟩
    | _ =>
      cases hentry'.symm.trans hentry
      exact absurd hin hout

/-- A full rescan of a registry is requested, and a tick serves it. -/
def servedRun : List Action :=
  [.create { harbor with
      annotations := .singleton "sbomscanner.kubewarden.io/rescan-requested-1" "" },
    .list 0 0 .asStored, .check 0 0 none, .createScanJob 0 ⟨"harbor-x", 1, 1, 0⟩, .get 0 0,
    .update 0]

theorem served_of_removed_harbor : ∃ s entry p,
    exec (step harbor.key fun _ => none) .init servedRun = some s ∧ p ∈ s.posted ∧
      s.store.current = some entry ∧ entry.uid = p.uid ∧ p.key ∉ entry.object.annotations ∧
      Served harbor.key (fun _ => none) s p :=
  ⟨_, _, _, rfl, mem_cons_self, rfl, rfl, by decide,
    (@served_of_removed harbor.key (fun _ => none) _ servedRun _ _ rfl mem_cons_self rfl
      rfl).1 (by decide)⟩

end SbomScanner.Runner.Rescan

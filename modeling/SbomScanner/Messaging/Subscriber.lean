import SbomScanner.Lib.Transition

/-!
# The subscriber

`NatsSubscriber` takes messages off a JetStream consumer without a delivery limit of its own. It
counts the deliveries instead: a message that still fails at the fifth goes to the failure handler,
which is to record the failure in the job, and is then acknowledged.

The system below is one message on its way: the server delivers it until an acknowledgement arrives,
again and again, also while an earlier delivery is still being worked on; a callback runs with
whatever its calls return, or dies with its process before it has responded.
-/

namespace SbomScanner.Messaging

open Transition List

def maxDeliver : Nat := 5

/-! ## The callback of `Run` -/

/-- What the calls of one callback return; `none` is a nil error. -/
structure Outcome where
  metadataError : Option String
  handlerError : Option String
  failureError : Option String
  /-- of `Ack`, `Nak` or `NakWithDelay`: the server has not got it -/
  responseError : Option String
deriving DecidableEq, Repr

/-- A call that the callback makes, with what it got back from the handlers. The delay of a `Nak` is
`backoffDelay` of the attempt. -/
inductive Call where
  | handle (err : Option String)
  | handleFailure (errorMessage : String) (err : Option String)
  | ack
  | nak
  | nakWithDelay (attempt : Nat)
deriving DecidableEq, Repr

def handleMessage (handlers : List String) (subject : String) (o : Outcome) :
    List Call × Option String :=
  if subject ∈ handlers then
    ([.handle o.handlerError],
      o.handlerError.map fun err =>
        "failed to handle message on subject " ++ subject ++ ": " ++ err)
  else ([], some ("no handler found for subject: " ++ subject))

/-- An error of the failure handler is logged, nothing more. -/
def handleFailure (numDelivered : Nat) (o : Outcome) (processingErr : String) : List Call :=
  if numDelivered ≥ maxDeliver then [.handleFailure processingErr o.failureError, .ack]
  else [.nakWithDelay numDelivered]

/-- The function that `Run` hands to `Consume`. -/
def consume (handlers : List String) (subject : String) (numDelivered : Nat) (o : Outcome) :
    List Call :=
  match o.metadataError with
  | some _ => [.nak]
  | none =>
    match handleMessage handlers subject o with
    | (calls, some err) => calls ++ handleFailure numDelivered o err
    | (calls, none) => calls ++ [.ack]

/-! ## Acknowledging for a reason -/

/-- The handler is through with the message, or its failure is on record. -/
def Call.settles : Call → Bool
  | .handle none | .handleFailure _ none => true
  | _ => false

def Justified (calls : List Call) : Prop := .ack ∈ calls → ∃ c ∈ calls, c.settles = true

instance (calls : List Call) : Decidable (Justified calls) := inferInstanceAs (Decidable (_ → _))

/-- The message fails for the last time, and its failure cannot be recorded. -/
def Unrecorded (handlers : List String) (subject : String) (numDelivered : Nat) (o : Outcome) :
    Prop :=
  o.metadataError = none ∧ (subject ∉ handlers ∨ o.handlerError ≠ none) ∧
    maxDeliver ≤ numDelivered ∧ o.failureError ≠ none

instance (handlers : List String) (subject : String) (numDelivered : Nat) (o : Outcome) :
    Decidable (Unrecorded handlers subject numDelivered o) := inferInstanceAs (Decidable (_ ∧ _))

section Callback

variable {handlers : List String} {subject : String} {numDelivered : Nat} {o : Outcome}

theorem handleMessage_cases (handlers : List String) (subject : String) (o : Outcome) :
    (subject ∈ handlers ∧ o.handlerError = none ∧
        handleMessage handlers subject o = ([.handle none], none)) ∨
      (subject ∉ handlers ∨ o.handlerError ≠ none) ∧ ∃ calls err,
        handleMessage handlers subject o = (calls, some err) ∧
        ∀ c ∈ calls, c ≠ .ack ∧ c.settles = false := by
  unfold handleMessage
  by_cases hfound : subject ∈ handlers
  · rw [if_pos hfound]
    cases herr : o.handlerError with
    | none => exact .inl ⟨hfound, rfl, rfl⟩
    | some err =>
      refine .inr ⟨.inr (by simp), _, _, rfl, ?_⟩
      intro c hc
      rw [mem_singleton.mp hc]
      exact ⟨by simp, rfl⟩
  · rw [if_neg hfound]
    refine .inr ⟨.inl hfound, _, _, rfl, ?_⟩
    intro c hc
    cases hc

/-- One callback acknowledges without a reason in one case only. -/
theorem justified_consume_iff :
    Justified (consume handlers subject numDelivered o) ↔
      ¬ Unrecorded handlers subject numDelivered o := by
  unfold consume Unrecorded
  cases hmeta : o.metadataError with
  | some err => simp [Justified]
  | none =>
    rcases handleMessage_cases handlers subject o with
      ⟨hfound, hnil, heq⟩ | ⟨hfails, calls, err, heq, hcalls⟩
    · rw [heq]
      simp [Justified, Call.settles, hfound, hnil]
    · rw [heq]
      have hack : Call.ack ∉ calls := fun hmem => (hcalls _ hmem).1 rfl
      simp only [handleFailure, hfails, true_and, ge_iff_le]
      by_cases hmax : maxDeliver ≤ numDelivered
      · rw [if_pos hmax]
        cases hfailure : o.failureError with
        | none =>
          have hrecorded : Call.handleFailure err none ∈
              calls ++ [.handleFailure err none, .ack] :=
            mem_append_right _ mem_cons_self
          simp only [ne_eq, not_true_eq_false, and_false, not_false_eq_true, iff_true]
          exact fun _ => ⟨_, hrecorded, rfl⟩
        | some failure =>
          simp only [hmax, ne_eq, reduceCtorEq, not_false_eq_true, and_self, not_true_eq_false,
            iff_false]
          intro hjustified
          obtain ⟨c, hc, hsettles⟩ := hjustified (by simp)
          rcases mem_append.mp hc with hmem | hmem
          · rw [(hcalls c hmem).2] at hsettles
            cases hsettles
          · rcases mem_pair.mp hmem with rfl | rfl <;> cases hsettles
      · rw [if_neg hmax]
        simp [Justified, hack, hmax]

end Callback

/-! ## One message -/

structure State where
  /-- the server has got an acknowledgement -/
  acknowledged : Bool
  numDelivered : Nat
  /-- the deliveries that are being worked on, by their count -/
  inFlight : List Nat
  /-- the calls of the callbacks that have ended, the newest first -/
  log : List (List Call)
deriving DecidableEq, Repr

def init : State := ⟨false, 0, [], []⟩

inductive Action where
  | deliver
  | respond (numDelivered : Nat) (o : Outcome)
  | crash (numDelivered : Nat)
deriving DecidableEq, Repr

def step (handlers : List String) (subject : String) (s : State) : Action → Option State
  | .deliver =>
    if s.acknowledged then none
    else
      some { s with
        numDelivered := s.numDelivered + 1
        inFlight := (s.numDelivered + 1) :: s.inFlight }
  | .respond n o =>
    if n ∈ s.inFlight then
      let calls := consume handlers subject n o
      some { s with
        acknowledged := s.acknowledged || (decide (.ack ∈ calls) && o.responseError.isNone)
        inFlight := s.inFlight.erase n
        log := calls :: s.log }
    else none
  | .crash n => if n ∈ s.inFlight then some { s with inFlight := s.inFlight.erase n } else none

/-- The action is the callback that acknowledges without a reason. -/
def Action.Unrecorded (handlers : List String) (subject : String) : Action → Prop
  | .respond n o => Messaging.Unrecorded handlers subject n o
  | .deliver | .crash _ => False

instance (handlers : List String) (subject : String) :
    (a : Action) → Decidable (a.Unrecorded handlers subject)
  | .respond n o => inferInstanceAs (Decidable (Messaging.Unrecorded handlers subject n o))
  | .deliver | .crash _ => isFalse id

section Runs

variable {handlers : List String} {subject : String} {s s' : State}

theorem step_cases {a : Action} (h : step handlers subject s a = some s') :
    (a = .deliver ∧ s' = { s with
        numDelivered := s.numDelivered + 1
        inFlight := (s.numDelivered + 1) :: s.inFlight }) ∨
      (∃ n o, a = .respond n o ∧ s' = { s with
        acknowledged := s.acknowledged ||
          (decide (.ack ∈ consume handlers subject n o) && o.responseError.isNone)
        inFlight := s.inFlight.erase n
        log := consume handlers subject n o :: s.log }) ∨
      ∃ n, a = .crash n ∧ s' = { s with inFlight := s.inFlight.erase n } := by
  cases a with
  | deliver =>
    simp only [step] at h
    split at h
    · cases h
    · cases h
      exact .inl ⟨rfl, rfl⟩
  | respond n o =>
    simp only [step] at h
    split at h
    · cases h
      exact .inr (.inl ⟨n, o, rfl, rfl⟩)
    · cases h
  | crash n =>
    simp only [step] at h
    split at h
    · cases h
      exact .inr (.inr ⟨n, rfl, rfl⟩)
    · cases h

theorem step_log {a : Action} (h : step handlers subject s a = some s') :
    (∀ calls ∈ s'.log, Justified calls) ↔
      (∀ calls ∈ s.log, Justified calls) ∧ ¬ a.Unrecorded handlers subject := by
  obtain ⟨rfl, rfl⟩ | ⟨n, o, rfl, rfl⟩ | ⟨n, rfl, rfl⟩ := step_cases h
  · simp [Action.Unrecorded]
  · rw [forall_mem_cons, justified_consume_iff, and_comm]
    rfl
  · simp [Action.Unrecorded]

/-- The server only has an acknowledgement that some callback has sent. -/
def AckSent (s : State) : Prop := s.acknowledged = true → ∃ calls ∈ s.log, Call.ack ∈ calls

theorem step_ackSent (s : State) (a : Action) (s' : State) (h : AckSent s)
    (hs : step handlers subject s a = some s') : AckSent s' := by
  obtain ⟨rfl, rfl⟩ | ⟨n, o, rfl, rfl⟩ | ⟨n, rfl, rfl⟩ := step_cases hs
  · exact h
  · intro hack
    simp only [Bool.or_eq_true, Bool.and_eq_true, decide_eq_true_eq] at hack
    rcases hack with hold | ⟨hmem, -⟩
    · obtain ⟨calls, hcalls, hmem⟩ := h hold
      exact ⟨calls, mem_cons_of_mem _ hcalls, hmem⟩
    · exact ⟨_, mem_cons_self, hmem⟩
  · exact h

theorem exec_log {as : List Action} (h : exec (step handlers subject) s as = some s') :
    (∀ calls ∈ s'.log, Justified calls) ↔
      (∀ calls ∈ s.log, Justified calls) ∧ ∀ a ∈ as, ¬ a.Unrecorded handlers subject := by
  induction as generalizing s with
  | nil =>
    cases h
    simp
  | cons a as ih =>
    obtain ⟨s₁, hs, hr⟩ := exec_cons_eq_some.mp h
    rw [ih hr, step_log hs, forall_mem_cons, and_assoc]

/-- **When the subscriber acknowledges for a reason.** In every run all acknowledgements have one
exactly if no delivery from the fifth on fails in both handlers; and a message that has then left
the stream was handled, or its failure recorded. -/
theorem acks_justified_iff {as : List Action}
    (h : exec (step handlers subject) init as = some s) :
    ((∀ calls ∈ s.log, Justified calls) ↔ ∀ a ∈ as, ¬ a.Unrecorded handlers subject) ∧
      ((∀ a ∈ as, ¬ a.Unrecorded handlers subject) → s.acknowledged = true →
        ∃ calls ∈ s.log, ∃ c ∈ calls, c.settles = true) := by
  have hlog : (∀ calls ∈ s.log, Justified calls) ↔ ∀ a ∈ as, ¬ a.Unrecorded handlers subject := by
    rw [exec_log h]
    simp [init]
  refine ⟨hlog, fun hrecorded hack => ?_⟩
  have hsent : AckSent s :=
    exec_invariant step_ackSent (fun hfalse => by cases hfalse) h
  obtain ⟨calls, hcalls, hmem⟩ := hsent hack
  exact ⟨calls, hcalls, hlog.mpr hrecorded calls hcalls hmem⟩

end Runs

/-! ## A message that is lost -/

/-- `ScanNodeSBOMSubject`. -/
def scanSubject : String := "sbomscanner.nodesbom.scan"

/-- Both handlers fail, as they do while the API server is away. -/
def bothFail : Outcome := ⟨none, some "connection refused", some "connection refused", none⟩

def handledNow : Outcome := ⟨none, none, none, none⟩

/-- The handler fails once and then succeeds. -/
def retriedRun : List Action := [.deliver, .respond 1 bothFail, .deliver, .respond 2 handledNow]

def retriedState : State :=
  ⟨true, 2, [], [[.handle none, .ack], [.handle (some "connection refused"), .nakWithDelay 1]]⟩

theorem acks_justified_iff_retried :
    exec (step [scanSubject] scanSubject) init retriedRun = some retriedState ∧
      ∀ calls ∈ retriedState.log, Justified calls := by
  have hrun : exec (step [scanSubject] scanSubject) init retriedRun = some retriedState := by decide
  exact ⟨hrun, (acks_justified_iff hrun).1.mpr (by decide)⟩

def failingRun : List Action :=
  (List.range maxDeliver).flatMap fun n => [.deliver, .respond (n + 1) bothFail]

/-- Five failures, the last of which the failure handler cannot record: the message is gone, and
nothing has settled it. -/
theorem unrecorded_message_acknowledged :
    ∃ s, exec (step [scanSubject] scanSubject) init failingRun = some s ∧
      s.acknowledged = true ∧ ∀ calls ∈ s.log, ∀ c ∈ calls, c.settles = false := by
  refine ⟨(exec (step [scanSubject] scanSubject) init failingRun).getD init, ?_⟩
  decide +kernel

end SbomScanner.Messaging

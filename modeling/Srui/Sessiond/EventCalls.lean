import Srui.Sessiond.EventProcessing

/-!
A session under any number of concurrent calls: each step is one critical section,
of an event that arrives, of a call whose policy or handlers have ended, or of a
transaction. `EventSystem` is the session while its mutex is sound, `GuardedSystem`
the session behind a mutex that a panic may poison.
-/

namespace Srui.Sessiond.EventCalls

open Std Basic.Machine EventDedupe.Deduplicators SemanticTree.Values SemanticTree.Limits
open SemanticTree.Stores SemanticTree.Operations SemanticTree.Wire SemanticTree.Events
open Journal.TransactionJournals Sdk.UiTransactions Sessiond.Sessions Sessiond.SessionCommits
open Sessiond.TextEditTrackers Sessiond.EventProcessing

/-- What a call does while it does not hold the lock. -/
inductive Phase where
  | deciding (request : TextEditRequest) (generation : Nat)
  | dispatching (kind : HandlerDispatchKind)

/-- A `process_event` call between two of its critical sections. -/
structure Attempt where
  event : WireEvent
  phase : Phase

/-- The session, and the calls that wait for something outside its mutex. -/
structure EventSystem where
  inner : SessionInner
  attempts : List Attempt

/-- The critical sections, in any order. A call is named by its place among those that
are under way; `transaction` and `commitTransaction` are also what policies and handlers
do to the session. -/
inductive Input where
  | processEvent (event : WireEvent)
  | decided (place : Nat) (decision : TextEditDecision)
  | policyPanicked (place : Nat) (message : String)
  | dispatched (place : Nat) (dispatch : Dispatch)
  | transaction (f : Revision → Revision → UiClosure Unit)
  | commitTransaction (tx : WireTransaction)

structure Return where
  identity : Event
  result : Outcome ProcessError EventOutcome

def goOn (attempts : List Attempt) (inner : SessionInner) (attempt : Attempt) :
    EventSystem × Option Return :=
  (⟨inner, attempt :: attempts⟩, none)

def finish (attempts : List Attempt) (inner : SessionInner) (identity : Event)
    (result : Outcome ProcessError EventOutcome) : EventSystem × Option Return :=
  (⟨inner, attempts⟩, some ⟨identity, result⟩)

/-- Whether an operation is a `DeleteNode`. -/
def deletesNode : Operation → Bool
  | .deleteNode _ => true
  | _ => false

/-- The streams of deleted nodes go with the commit that deletes them. -/
def advance (inner : SessionInner) (session : Session) (ops : List Operation) : SessionInner :=
  { inner with
    session := session
    textEditTracker :=
      if ops.any deletesNode then (reclaimMissingNodes inner.textEditTracker session.store).1
      else inner.textEditTracker }

variable (env : Externals)

/-- `process_event` as far as it holds the lock. -/
def receive (s : EventSystem) (event : WireEvent) : EventSystem × Option Return :=
  match beginEvent env s.inner event with
  | (inner, .error fault) =>
    finish s.attempts inner (admissionIdentity env event) (.error fault)
  | (inner, .ok (.returned outcome)) =>
    finish s.attempts inner (admissionIdentity env event) (.ok outcome)
  | (inner, .ok (.deciding request generation)) =>
    goOn s.attempts inner ⟨event, .deciding request generation⟩
  | (inner, .ok .dispatching) =>
    goOn s.attempts inner ⟨event, .dispatching .ordinary⟩

def decideCall (s : EventSystem) (place : Nat) (decision : TextEditDecision) :
    EventSystem × Option Return :=
  match s.attempts[place]? with
  | some ⟨event, .deciding request generation⟩ =>
    let others := s.attempts.eraseIdx place
    match commitTextEditDecision env s.inner event request generation decision with
    | (inner, .error fault) =>
      finish others inner (identityOf event) (.error fault)
    | (inner, .ok (.settled outcome)) =>
      finish others inner (identityOf event) (.ok outcome)
    | (inner, .ok (.dispatchAccepted _)) =>
      goOn others inner ⟨event, .dispatching .committedTextEdit⟩
  | _ => (s, none)

def abandonCall (s : EventSystem) (place : Nat) (message : String) : EventSystem × Option Return :=
  match s.attempts[place]? with
  | some ⟨event, .deciding request _⟩ =>
    finish (s.attempts.eraseIdx place)
      (abandonTextEditAfterPanic s.inner event request) (identityOf event)
      (err (.handlerPanicked message))
  | _ => (s, none)

def settleCall (s : EventSystem) (place : Nat) (dispatch : Dispatch) :
    EventSystem × Option Return :=
  match s.attempts[place]? with
  | some ⟨event, .dispatching kind⟩ =>
    let others := s.attempts.eraseIdx place
    match finishDispatch env s.inner event kind dispatch with
    | (inner, .ok outcome) => finish others inner (identityOf event) (.ok outcome)
    | (inner, .error e) => finish others inner (identityOf event) (err e)
  | _ => (s, none)

def stepWith (s : EventSystem) : Input → EventSystem × Option Return
  | .processEvent event => receive env s event
  | .decided place decision => decideCall env s place decision
  | .policyPanicked place message => abandonCall s place message
  | .dispatched place dispatch => settleCall env s place dispatch
  | .transaction f =>
    let session := (transactionWithResult s.inner.session f).1
    (⟨advance s.inner session (transactionOperations s.inner.session f), s.attempts⟩, none)
  | .commitTransaction tx =>
    let session := (commitTransaction s.inner.session tx).1
    (⟨advance s.inner session (wireOperations s.inner.session tx), s.attempts⟩, none)

def step (s : EventSystem) (input : Input) : EventSystem := (stepWith env s input).1

/-! ### The mutex -/

/-- The session behind its mutex, which a panic inside poisons. -/
structure GuardedSystem where
  system : EventSystem
  poisoned : Bool

/-- A critical section, or a panic in the closure of a `with_store` call, which holds
the mutex, be it in a handler, a policy or elsewhere. -/
inductive GuardedInput where
  | critical (input : Input)
  | queryPanicked

def isPanic {ε α : Type} : Outcome ε α → Bool
  | .error .panicked => true
  | _ => false

/-- Whether a critical section ends in a panic, and so drops the guard in one. What the
closure of a transaction does is caught before that. -/
def panicsHolding (s : EventSystem) : Input → Bool
  | .processEvent event => isPanic (beginEvent env s.inner event).2
  | .decided place decision =>
    match s.attempts[place]? with
    | some ⟨event, .deciding request generation⟩ =>
      isPanic (commitTextEditDecision env s.inner event request generation decision).2
    | _ => false
  | .transaction f => isPanic (transactionWithResult s.inner.session f).2
  | .commitTransaction tx => isPanic (Sessions.commitTransaction s.inner.session tx).2
  | .policyPanicked _ _ => false
  | .dispatched _ _ => false

/-- `lock().map_err(|_| SessionError::LockPoisoned)?` in each of the critical sections:
the call ends there and the session stays as it is. -/
def refuse (s : EventSystem) : Input → EventSystem × Option Return
  | .processEvent event =>
    finish s.attempts s.inner (admissionIdentity env event) (err .lockPoisoned)
  | .decided place _ => refuseCall place
  | .policyPanicked place _ => refuseCall place
  | .dispatched place _ =>
    match s.attempts[place]? with
    | some ⟨event, .dispatching _⟩ =>
      finish (s.attempts.eraseIdx place) s.inner (identityOf event) (err .lockPoisoned)
    | _ => (s, none)
  | .transaction _ => (s, none)
  | .commitTransaction _ => (s, none)
where
  refuseCall (place : Nat) : EventSystem × Option Return :=
    match s.attempts[place]? with
    | some ⟨event, .deciding _ _⟩ =>
      finish (s.attempts.eraseIdx place) s.inner (identityOf event) (err .lockPoisoned)
    | _ => (s, none)

/-- A poisoned mutex refuses every later section. -/
def guardedStepWith (s : GuardedSystem) : GuardedInput → GuardedSystem × Option Return
  | .queryPanicked => (⟨s.system, true⟩, none)
  | .critical input =>
    if s.poisoned then
      let (system, ended) := refuse env s.system input
      (⟨system, true⟩, ended)
    else
      let (system, ended) := stepWith env s.system input
      (⟨system, panicsHolding env s.system input⟩, ended)

def opened (limits : StoreLimits) (capacity maxEntries maxWindows maxStreams : Nat) :
    EventSystem where
  inner :=
    { session := ⟨SemanticStore.withLimits limits, TransactionJournal.new capacity⟩
      dedupe := EventDeduplicator.withLimits maxEntries maxWindows
      textEditTracker := TextEditTracker.new maxStreams }
  attempts := []

theorem held_by_one {κ : Type} (key : Attempt → Option κ) {attempts : List Attempt} {place : Nat}
    {attempt : Attempt} {k : κ} (hplace : attempts[place]? = some attempt)
    (hkey : key attempt = some k) (hnodup : (attempts.filterMap key).Nodup) :
    k ∉ (attempts.eraseIdx place).filterMap key := by
  obtain ⟨hlt, hget⟩ := List.getElem?_eq_some_iff.mp hplace
  have hperm := (List.getElem_cons_eraseIdx_perm hlt).filterMap key
  rw [hget, List.filterMap_cons, hkey] at hperm
  exact (List.nodup_cons.mp (hperm.nodup_iff.mpr hnodup)).1

end Srui.Sessiond.EventCalls

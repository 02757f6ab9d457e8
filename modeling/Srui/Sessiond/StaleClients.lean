import Srui.Sessiond.Hubs

/-!
The marker that makes a client resync after its queue has overflowed: set by a publish, read by
the handshake and cleared by the connection, in critical sections of their own.

Encoding a snapshot, and all that a handshake can refuse, is left to a step that ends the
connection; closing the hub is left out.
-/

namespace Srui.Sessiond.StaleClients

open Std SemanticTree.Values SemanticTree.Wire Sdk.UiTransactions EventDedupe.Windows
open Journal.TransactionJournals Sessiond.Sessions Sessiond.Outbound

/-- `StaleClientRegistry::contains`. -/
def contains (registry : StaleClientRegistry) (clientInstanceId : Bytes) : Bool :=
  registry.entries.contains clientInstanceId

/-- `StaleClientRegistry::clear_client`. -/
def clearClient (registry : StaleClientRegistry) (clientInstanceId : Bytes) :
    StaleClientRegistry :=
  if registry.entries.contains clientInstanceId then
    { order := registry.order.filter (· ≠ clientInstanceId)
      entries := registry.entries.erase clientInstanceId }
  else registry

theorem noSubscriber_fresh : ∀ sub ∈ ([] : List Subscriber), sub.handle < 0 := by simp

/-- `OutboundHub::new`. -/
def OutboundHub.new : OutboundHub where
  subscribers := []
  states := fun _ => ⟨0, 0, 0, [], none, 0, none, true⟩
  nextHandle := 0
  staleClients := ⟨[], ∅⟩
  isClosed := false
  distinct := List.nodup_nil
  fresh := noSubscriber_fresh

variable (frameLen : WireTransaction → Nat)

/-- `OutboundHub::publish` up to the release of the subscribers, with the clients to mark. -/
def publishSubscribers (hub : OutboundHub) (tx : WireTransaction) :
    OutboundHub × List (Bytes × Nat) :=
  if hub.isClosed then (hub, [])
  else
    let pass := publishPass frameLen hub tx
    ({ hub with
        subscribers := pass.kept
        states := pass.states
        distinct := publishPass_distinct frameLen hub tx
        fresh := publishPass_fresh frameLen hub tx },
      pass.staleMarked)

/-- The rest of `OutboundHub::publish`, under the lock of the registry. -/
def markStaleClients (hub : OutboundHub) (staleMarked : List (Bytes × Nat)) : OutboundHub :=
  { hub with
    staleClients :=
      staleMarked.foldl (fun registry entry => mark registry entry.1 entry.2) hub.staleClients }

inductive ResyncCause where
  | replacedIncarnation
  | outboundQueueOverflow
  | journalGap
deriving DecidableEq, Repr

inductive SessionContinuity where
  | replaced
  | sameSession
deriving DecidableEq, Repr

/-- `ResyncCause::continuity`. -/
def ResyncCause.continuity : ResyncCause → SessionContinuity
  | .replacedIncarnation => .replaced
  | .outboundQueueOverflow | .journalGap => .sameSession

inductive Request where
  | hello
  | resume (sessionId : String) (lastAppliedRevision : Revision)
deriving DecidableEq, Repr

inductive CatchUp where
  | welcome
  | replay
  | resync (cause : ResyncCause)
deriving DecidableEq, Repr

/-- `MAX_OPTIMISTIC_SNAPSHOT_EXPORT_ATTEMPTS`. -/
def maxOptimisticSnapshotExportAttempts : Nat := 3

/-- Where a connection is: at the head of the loop of its handshake, exporting a snapshot without
the lock, writing the catch-up on its subscription, between the reading of `termination` and the
clearing of the marker, or serving. -/
inductive Stage where
  | starting (optimisticAttempts : Nat)
  | exporting (catchUp : CatchUp) (snapshotRevision : Revision)
      (optimisticAttempts : Fin maxOptimisticSnapshotExportAttempts)
  | delivering (handle : Nat) (catchUp : CatchUp)
  | settling (handle : Nat)
  | serving (handle : Nat)
deriving DecidableEq, Repr

def Stage.handle : Stage → Option Nat
  | .starting _ | .exporting _ _ _ => none
  | .delivering handle _ | .settling handle | .serving handle => some handle

structure Connection where
  clientInstanceId : Bytes
  request : Request
  stage : Stage
deriving DecidableEq, Repr

/-- A session, its hub and its connections. `staleMarked` is what a publish has still to mark: it
holds the session's lock as long as there is any. `dropped` are the receivers whose channel is
not closed yet. The last three record the latest subscription of a client, whether the catch-up
on it was delivered and checked for overflow, and the clients that have overflowed. -/
structure Server where
  sessionId : String
  session : Session
  outboundQueueCapacity : Nat
  maxTransactionOperations : Nat
  maxFrameSize : Nat
  hub : OutboundHub := OutboundHub.new
  staleMarked : List (Bytes × Nat) := []
  connections : List (Option Connection) := []
  dropped : List Nat := []
  latest : Bytes → Option Nat := fun _ => none
  settled : Bytes → Bool := fun _ => false
  overflowed : Finset Bytes := ∅

def Server.new (sessionId : String) (session : Session)
    (outboundQueueCapacity maxTransactionOperations maxFrameSize : Nat) : Server :=
  { sessionId, session, outboundQueueCapacity, maxTransactionOperations, maxFrameSize }

/-- One critical section, or one step of a connection between two of them. -/
inductive Section where
  | transaction (f : Revision → Revision → UiClosure Unit)
  | commitTransaction (tx : WireTransaction)
  | markStale
  | connect (clientInstanceId : Bytes) (request : Request)
  | bootstrap (connection : Nat)
  | refuse (connection : Nat)
  | finishCatchUp (connection : Nat)
  | clearStale (connection : Nat)
  | take (connection : Nat)
  | drop (connection : Nat)
  | closeNotify (handle : Nat)

namespace Server

variable (s : Server)

def connection (k : Nat) : Option Connection := s.connections[k]?.join

def setConnection (k : Nat) (conn : Option Connection) : Server :=
  { s with connections := s.connections.set k conn }

def setState (handle : Nat) (state : SubscriberState) : Server :=
  { s with hub := { s.hub with states := Function.update s.hub.states handle state } }

/-- `OutboundHub::is_client_stale`. -/
def isClientStale (clientInstanceId : Bytes) : Bool :=
  contains s.hub.staleClients clientInstanceId

def latestOverflowed (clientInstanceId : Bytes) : Bool :=
  (s.latest clientInstanceId).any fun handle => (s.hub.states handle).staleReason.isSome

def publishCommit (session : Session) (tx : WireTransaction) : Server :=
  let published := publishSubscribers frameLen s.hub tx
  { s with
    session := session
    hub := published.1
    staleMarked := published.2
    overflowed := s.overflowed ∪ (published.2.map Prod.fst).toFinset }

def transaction (f : Revision → Revision → UiClosure Unit) : Server :=
  match transactionWithResult s.session f with
  | (session, .ok (_, tx)) => s.publishCommit frameLen session tx
  | (session, .error _) => { s with session := session }

def commitTransaction (tx : WireTransaction) : Server :=
  match Sessions.commitTransaction s.session tx with
  | (session, .ok wire) => s.publishCommit frameLen session wire
  | (session, .error _) => { s with session := session }

def markStale : Server := { s with hub := markStaleClients s.hub s.staleMarked, staleMarked := [] }

def deliver (k : Nat) (conn : Connection) (catchUp : CatchUp) (hub : OutboundHub)
    (handle : Nat) : Server :=
  { s with
    hub := hub
    latest := Function.update s.latest conn.clientInstanceId (some handle)
    settled := Function.update s.settled conn.clientInstanceId false }.setConnection k
      (some { conn with stage := .delivering handle catchUp })

/-- `Session::subscribe_client_locked`. -/
def subscribeClientLocked (k : Nat) (conn : Connection) (catchUp : CatchUp) : Server :=
  match subscribe s.hub conn.clientInstanceId s.outboundQueueCapacity s.maxTransactionOperations
      s.maxFrameSize with
  | .error _ => s.setConnection k none
  | .ok (hub, handle) => s.deliver k conn catchUp hub handle

def exportSnapshot (k : Nat) (conn : Connection) (catchUp : CatchUp)
    (optimisticAttempts : Nat) : Server :=
  if hattempts : optimisticAttempts < maxOptimisticSnapshotExportAttempts then
    s.setConnection k (some { conn with
      stage := .exporting catchUp s.session.store.revision ⟨optimisticAttempts, hattempts⟩ })
  else s.subscribeClientLocked k conn catchUp

/-- The lock is taken again after the export: the snapshot is used if it is still `current`. -/
def useSnapshot (k : Nat) (conn : Connection) (catchUp : CatchUp) (optimisticAttempts : Nat)
    (current : Bool) : Server :=
  if current then s.subscribeClientLocked k conn catchUp
  else s.setConnection k (some { conn with stage := .starting (optimisticAttempts + 1) })

/-- `Session::bootstrap_fresh_client`, up to the export or from it on. -/
def bootstrapFreshClient (k : Nat) (conn : Connection) : Server :=
  match conn.stage with
  | .starting optimisticAttempts => s.exportSnapshot k conn .welcome optimisticAttempts
  | .exporting _ snapshotRevision optimisticAttempts =>
    s.useSnapshot k conn .welcome optimisticAttempts
      (s.session.store.revision = snapshotRevision)
  | _ => s

/-- `determine_resync_cause`. -/
def determineResyncCause (clientInstanceId : Bytes) (sessionId : String)
    (lastAppliedRevision : Revision) : Option ResyncCause :=
  if sessionId ≠ s.sessionId then some .replacedIncarnation
  else if s.isClientStale clientInstanceId then some .outboundQueueOverflow
  else if (iterFrom s.session.journal lastAppliedRevision).isNone then some .journalGap
  else none

/-- `Session::bootstrap_resume`, up to the export or from it on. -/
def bootstrapResume (k : Nat) (conn : Connection) (sessionId : String)
    (lastAppliedRevision : Revision) : Server :=
  let due := s.determineResyncCause conn.clientInstanceId sessionId lastAppliedRevision
  match conn.stage with
  | .starting optimisticAttempts =>
    match due with
    | none => s.subscribeClientLocked k conn .replay
    | some cause => s.exportSnapshot k conn (.resync cause) optimisticAttempts
  | .exporting catchUp snapshotRevision optimisticAttempts =>
    s.useSnapshot k conn catchUp optimisticAttempts
      (s.session.store.revision = snapshotRevision ∧ due.map CatchUp.resync = some catchUp)
  | _ => s

def bootstrap (k : Nat) : Server :=
  match s.connection k with
  | some conn =>
    match conn.request with
    | .hello => s.bootstrapFreshClient k conn
    | .resume sessionId lastAppliedRevision =>
      s.bootstrapResume k conn sessionId lastAppliedRevision
  | none => s

def refuse (k : Nat) : Server :=
  match s.connection k with
  | some conn => if conn.stage.handle = none then s.setConnection k none else s
  | none => s

def serve (k : Nat) (conn : Connection) (handle : Nat) : Server :=
  { s with settled := Function.update s.settled conn.clientInstanceId true }.setConnection k
    (some { conn with stage := .serving handle })

/-- The last frame of the catch-up is written; `clear_stale_if_settled` follows unless it was a
replay, and here reads `OutboundReceiver::termination`. -/
def finishCatchUp (k : Nat) : Server :=
  match s.connection k with
  | some conn =>
    match conn.stage with
    | .delivering handle catchUp =>
      let state := s.hub.states handle
      if catchUp ≠ .replay ∧ state.staleReason = none ∧ state.isClosed = false then
        s.setConnection k (some { conn with stage := .settling handle })
      else s.serve k conn handle
    | _ => s
  | none => s

/-- `OutboundHub::clear_stale_client`, at the end of `clear_stale_if_settled`. -/
def clearStale (k : Nat) : Server :=
  match s.connection k with
  | some conn =>
    match conn.stage with
    | .settling handle =>
      { s with hub := { s.hub with
          staleClients := clearClient s.hub.staleClients conn.clientInstanceId }
      }.serve k conn handle
    | _ => s
  | none => s

/-- `OutboundReceiver::try_recv_class` for the transactions. -/
def take (k : Nat) : Server :=
  match s.connection k with
  | some conn =>
    match conn.stage with
    | .serving handle =>
      if (s.hub.states handle).staleReason.isSome then s
      else s.setState handle (popTransaction (s.hub.states handle)).1
    | _ => s
  | none => s

/-- `OutboundReceiver::drop`, when the connection ends. -/
def drop (k : Nat) : Server :=
  match s.connection k with
  | some conn =>
    match conn.stage with
    | .delivering handle _ | .serving handle =>
      { s.setState handle (clear { s.hub.states handle with isClosed := true }) with
        dropped := s.dropped ++ [handle] }.setConnection k none
    | _ => s
  | none => s

def closeSubscriber (handle : Nat) (sub : Subscriber) : Subscriber :=
  if sub.handle = handle then { sub with notifyClosed := true } else sub

@[simp] theorem closeSubscriber_handle (handle : Nat) (sub : Subscriber) :
    (closeSubscriber handle sub).handle = sub.handle := by
  unfold closeSubscriber
  split <;> rfl

@[simp] theorem closeSubscriber_clientInstanceId (handle : Nat) (sub : Subscriber) :
    (closeSubscriber handle sub).clientInstanceId = sub.clientInstanceId := by
  unfold closeSubscriber
  split <;> rfl

def closeNotify (handle : Nat) : Server :=
  if handle ∈ s.dropped then
    { s with
      dropped := s.dropped.erase handle
      hub := { s.hub with
        subscribers := s.hub.subscribers.map (closeSubscriber handle)
        distinct := by simpa [Function.comp_def] using s.hub.distinct
        fresh := by simpa using s.hub.fresh } }
  else s

/-- The sections of the calls. One that is not due does nothing, and neither does one that waits
for the lock of the session. -/
def step : Section → Server
  | .transaction f => if s.staleMarked = [] then s.transaction frameLen f else s
  | .commitTransaction tx => if s.staleMarked = [] then s.commitTransaction frameLen tx else s
  | .markStale => s.markStale
  | .connect clientInstanceId request =>
    { s with connections := s.connections ++ [some ⟨clientInstanceId, request, .starting 0⟩] }
  | .bootstrap k => if s.staleMarked = [] then s.bootstrap k else s
  | .refuse k => s.refuse k
  | .finishCatchUp k => s.finishCatchUp k
  | .clearStale k => s.clearStale k
  | .take k => s.take k
  | .drop k => s.drop k
  | .closeNotify handle => s.closeNotify handle

end Server

end Srui.Sessiond.StaleClients

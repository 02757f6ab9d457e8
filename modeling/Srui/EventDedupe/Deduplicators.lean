import Srui.EventDedupe.Windows

/-!
The deduplicator: one receive window per client instance in least-recently-used
order, and the frontiers of the clients whose windows were evicted.
-/

namespace Srui.EventDedupe.Deduplicators

open Std EventDedupe.Windows

structure Event where
  clientInstanceId : Bytes
  eventSeq : Nat
  eventId : Bytes
  eventType : EventType
deriving DecidableEq, Repr

structure EventDeduplicator where
  maxEntriesPerClient : Nat
  maxClientWindows : Nat
  clients : ExtTreeMap Bytes ClientDedupeWindow
  clientOrder : List Bytes
  evictedFrontiers : ExtTreeMap Bytes Nat
  frontierOrder : List Bytes
deriving DecidableEq

/-- `EventDeduplicator::with_limits`. -/
def EventDeduplicator.withLimits (maxEntriesPerClient maxClientWindows : Nat) :
    EventDeduplicator where
  maxEntriesPerClient := max maxEntriesPerClient 1
  maxClientWindows := max maxClientWindows 1
  clients := ∅
  clientOrder := []
  evictedFrontiers := ∅
  frontierOrder := []

/-- `EventDeduplicator::touch_client`. -/
def touchClient (d : EventDeduplicator) (client : Bytes) : EventDeduplicator :=
  match d.clientOrder.idxOf? client with
  | none => d
  | some position =>
    if position + 1 = d.clientOrder.length then d
    else { d with clientOrder := d.clientOrder.eraseIdx position ++ [client] }

def trimFrontiers (limit : Nat) :
    List Bytes → ExtTreeMap Bytes Nat → List Bytes × ExtTreeMap Bytes Nat
  | [], frontiers => ([], frontiers)
  | oldest :: rest, frontiers =>
    if (oldest :: rest).length > limit then trimFrontiers limit rest (frontiers.erase oldest)
    else (oldest :: rest, frontiers)

/-- `EventDeduplicator::retain_frontier`. -/
def retainFrontier (d : EventDeduplicator) (client : Bytes) (frontier : Nat) :
    EventDeduplicator :=
  if frontier = 0 then d
  else
    let order :=
      if d.evictedFrontiers.contains client then d.frontierOrder else d.frontierOrder ++ [client]
    let trimmed := trimFrontiers d.maxClientWindows order
      (d.evictedFrontiers.insert client frontier)
    { d with frontierOrder := trimmed.1, evictedFrontiers := trimmed.2 }

def evictableClient (d : EventDeduplicator) (client : Bytes) : Bool :=
  match d.clients[client]? with
  | some window => !isPinned window
  | none => false

def evictClient (d : EventDeduplicator) (client : Bytes) : EventDeduplicator :=
  retainFrontier
    { d with clientOrder := d.clientOrder.eraseP (evictableClient d)
             clients := d.clients.erase client }
    client ((d.clients[client]?.map ClientDedupeWindow.lastContiguousProcessedSeq).getD 0)

/-- `EventDeduplicator::make_room_for_new_client`; the loop takes one window a
round, so it ends within as many rounds as there are windows. -/
def makeRoomForNewClient : Nat → EventDeduplicator →
    EventDeduplicator × Except EventSequenceError Unit
  | 0, d =>
    if d.clients.size < d.maxClientWindows then (d, .ok ())
    else (d, .error (.clientWindowCapacityExhausted d.maxClientWindows))
  | rounds + 1, d =>
    if d.clients.size < d.maxClientWindows then (d, .ok ())
    else
      match d.clientOrder.find? (evictableClient d) with
      | none => (d, .error (.clientWindowCapacityExhausted d.maxClientWindows))
      | some client => makeRoomForNewClient rounds (evictClient d client)

/-- `EventDeduplicator::window_for_new_client`. -/
def windowForNewClient (d : EventDeduplicator) (client : Bytes) :
    EventDeduplicator × ClientDedupeWindow :=
  match d.evictedFrontiers[client]? with
  | none => (d, ClientDedupeWindow.new)
  | some frontier =>
    ({ d with evictedFrontiers := d.evictedFrontiers.erase client
              frontierOrder := d.frontierOrder.filter (· ≠ client) },
      ClientDedupeWindow.startingAt frontier)

def addClient (d : EventDeduplicator) (client : Bytes) (window : ClientDedupeWindow) :
    EventDeduplicator :=
  { d with clients := d.clients.insert client window, clientOrder := d.clientOrder ++ [client] }

def putWindow (d : EventDeduplicator) (client : Bytes) (window : ClientDedupeWindow) :
    EventDeduplicator :=
  { d with clients := d.clients.insert client window }

/-- `EventDeduplicator::record`. -/
def record (d : EventDeduplicator) (client eventId : Bytes) : EventDeduplicator × Bool :=
  if eventId = [] then (d, true)
  else
    let outcome : EventOutcomeRecord := ⟨true, 0, ""⟩
    match d.clients[client]? with
    | some window =>
      let inserted := insertLegacySettled window eventId outcome d.maxEntriesPerClient
      (putWindow (touchClient d client) client inserted.1, inserted.2)
    | none =>
      let inserted :=
        insertLegacySettled ClientDedupeWindow.new eventId outcome d.maxEntriesPerClient
      match makeRoomForNewClient d.clients.size d with
      | (d, .error _) => (d, false)
      | (d, .ok ()) => (addClient d client inserted.1, inserted.2)

/-- `EventDeduplicator::admit_event`. -/
def admitEvent (d : EventDeduplicator) (event : Event) :
    EventDeduplicator × Except EventSequenceError RecordOutcome :=
  if event.eventId = [] then (d, .error .missingEventId)
  else
    match d.clients[event.clientInstanceId]? with
    | some window =>
      let admitted :=
        admitToWindow window event.eventId event.eventSeq event.eventType d.maxEntriesPerClient
      (putWindow (touchClient d event.clientInstanceId) event.clientInstanceId admitted.1,
        admitted.2)
    | none =>
      let rebuilt := windowForNewClient d event.clientInstanceId
      let restoredFrontier := rebuilt.2.lastContiguousProcessedSeq
      match admitToWindow rebuilt.2 event.eventId event.eventSeq event.eventType
          d.maxEntriesPerClient with
      | (_, .error error) =>
        (retainFrontier rebuilt.1 event.clientInstanceId restoredFrontier, .error error)
      | (window, .ok outcome) =>
        match makeRoomForNewClient rebuilt.1.clients.size rebuilt.1 with
        | (d, .error error) =>
          (retainFrontier d event.clientInstanceId restoredFrontier, .error error)
        | (d, .ok ()) => (addClient d event.clientInstanceId window, .ok outcome)

/-- `EventDeduplicator::last_contiguous_processed_seq`. -/
def lastContiguousProcessedSeq (d : EventDeduplicator) (client : Bytes) : Nat :=
  match d.clients[client]? with
  | some window => window.lastContiguousProcessedSeq
  | none => d.evictedFrontiers[client]?.getD 0

/-- `EventDeduplicator::settle_event`. -/
def settleEvent (d : EventDeduplicator) (event : Event) (outcome : EventOutcomeRecord) :
    EventDeduplicator × Nat :=
  if event.eventId = [] then (d, lastContiguousProcessedSeq d event.clientInstanceId)
  else
    match d.clients[event.clientInstanceId]? with
    | none => (touchClient d event.clientInstanceId, 0)
    | some window =>
      let settled := settle window event.eventId outcome
      (putWindow (touchClient d event.clientInstanceId) event.clientInstanceId settled.1,
        settled.2)

/-- `EventDeduplicator::abandon_event`. -/
def abandonEvent (d : EventDeduplicator) (event : Event) : EventDeduplicator :=
  if event.eventId = [] then d
  else
    match d.clients[event.clientInstanceId]? with
    | none => d
    | some window => putWindow d event.clientInstanceId (abandon window event.eventId)

/-- `EventDeduplicator::admit_and_settle`. -/
def admitAndSettle (d : EventDeduplicator) (event : Event) (outcome : EventOutcomeRecord) :
    EventDeduplicator × Except EventSequenceError Nat :=
  match admitEvent d event with
  | (d, .error error) => (d, .error error)
  | (d, .ok (.duplicate _ lastProcessedEventSeq)) => (d, .ok lastProcessedEventSeq)
  | (d, .ok _) =>
    let settled := settleEvent d event outcome
    (settled.1, .ok settled.2)

/-- `EventDeduplicator::remove_client`. -/
def removeClient (d : EventDeduplicator) (client : Bytes) : EventDeduplicator :=
  { d with clients := d.clients.erase client
           clientOrder := d.clientOrder.filter (· ≠ client)
           evictedFrontiers := d.evictedFrontiers.erase client
           frontierOrder := d.frontierOrder.filter (· ≠ client) }

/-- `EventDeduplicator::clear`. -/
def clear (d : EventDeduplicator) : EventDeduplicator :=
  { d with clients := ∅, clientOrder := [], evictedFrontiers := ∅, frontierOrder := [] }

inductive Call where
  | admitEvent (event : Event)
  | settleEvent (event : Event) (outcome : EventOutcomeRecord)
  | abandonEvent (event : Event)
  | admitAndSettle (event : Event) (outcome : EventOutcomeRecord)
  | record (client eventId : Bytes)
  | removeClient (client : Bytes)
  | clear
deriving DecidableEq, Repr

def callStep (d : EventDeduplicator) : Call → EventDeduplicator
  | .admitEvent event => (admitEvent d event).1
  | .settleEvent event outcome => (settleEvent d event outcome).1
  | .abandonEvent event => abandonEvent d event
  | .admitAndSettle event outcome => (admitAndSettle d event outcome).1
  | .record client eventId => (record d client eventId).1
  | .removeClient client => removeClient d client
  | .clear => clear d

def Call.isDelivery : Call → Bool
  | .admitEvent _ => true
  | .settleEvent _ _ => true
  | .abandonEvent _ => true
  | .admitAndSettle _ _ => true
  | _ => false

end Srui.EventDedupe.Deduplicators

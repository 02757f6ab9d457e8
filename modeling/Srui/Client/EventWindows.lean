import Srui.Basic.Ledgers
import Srui.SemanticTree.Events

/-!
The contiguous send window of the event outbox: the sequences it has allocated,
the events it retains for replay, and what the server has acknowledged.

`SequenceWindow` holds the five fields of `EventOutbox` that make up the window.
-/

namespace Srui.Client.EventWindows

open Std Basic.Machine Basic.Ledgers SemanticTree.Values SemanticTree.Events

abbrev Bytes := List UInt8
abbrev EventId := Bytes
abbrev ClientInstanceId := Bytes

abbrev Event := DomainEvent

deriving instance DecidableEq for DomainEvent

inductive EventOutboxError where
  | sequenceWindowExhausted (limit : Nat)
  | eventSequenceAlreadyAcknowledged (eventSeq : Nat)
  | resumeNotConfirmed
  | pendingEventIdentityConflict (eventId : EventId)
  | textEditDiscardMismatch
  /-- What `SRUIFraming.encodeFramed` throws. -/
  | framing
deriving DecidableEq

structure SequenceWindow where
  currentEventSeq : Nat := 0
  pendingEvents : ExtTreeMap EventId Event := ∅
  pendingOrder : List EventId := []
  lastAckedEventSeq : Nat := 0
  acknowledgedOutOfOrder : Finset Nat := ∅
deriving DecidableEq

def ensureSequenceWindowCapacity (maxPendingEvents : Nat) (w : SequenceWindow) :
    Outcome EventOutboxError Unit :=
  -- The subtraction of two `UInt64` traps when it underflows.
  if w.currentEventSeq < w.lastAckedEventSeq then .error .panicked
  else if w.currentEventSeq < u64Max ∧
      w.currentEventSeq - w.lastAckedEventSeq < maxPendingEvents ∧
      w.pendingEvents.size < maxPendingEvents then .ok ()
  else err (.sequenceWindowExhausted maxPendingEvents)

def retainPending (maxPendingEvents : Nat) (w : SequenceWindow) (event : Event) :
    Outcome EventOutboxError SequenceWindow :=
  match w.pendingEvents[event.eventId]? with
  | some retained =>
    if retained = event then .ok w else err (.pendingEventIdentityConflict event.eventId)
  | none =>
    if event.eventSeq ≤ w.lastAckedEventSeq then
      err (.eventSequenceAlreadyAcknowledged event.eventSeq)
    else if maxPendingEvents < event.eventSeq - w.lastAckedEventSeq then
      err (.sequenceWindowExhausted maxPendingEvents)
    else
      .ok { w with pendingEvents := w.pendingEvents.insert event.eventId event,
                   pendingOrder := w.pendingOrder ++ [event.eventId] }

/-- Checks the capacity, makes the event of the next sequence, frames and retains it:
the part that `allocateAndSend` and `prepareTextEdit` have in common. -/
def allocate (encodes : Event → Bool) (maxPendingEvents : Nat) (w : SequenceWindow)
    (makeEvent : Nat → Event) : Outcome EventOutboxError (SequenceWindow × Event) := do
  ensureSequenceWindowCapacity maxPendingEvents w
  let nextEventSeq := w.currentEventSeq + 1
  let event := makeEvent nextEventSeq
  if encodes event then
    let retained ← retainPending maxPendingEvents w event
    .ok ({ retained with currentEventSeq := nextEventSeq }, event)
  else err .framing

def advanceContiguousAcknowledgement (w : SequenceWindow) : SequenceWindow :=
  let advanced := advance (w.currentEventSeq - w.lastAckedEventSeq) w.lastAckedEventSeq
    w.acknowledgedOutOfOrder
  { w with lastAckedEventSeq := advanced.1, acknowledgedOutOfOrder := advanced.2 }

def recordSelectiveAcknowledgement (w : SequenceWindow) (eventSeq : Nat) : SequenceWindow :=
  if w.lastAckedEventSeq < eventSeq ∧ eventSeq ≤ w.currentEventSeq then
    advanceContiguousAcknowledgement
      { w with acknowledgedOutOfOrder := insert eventSeq w.acknowledgedOutOfOrder }
  else w

/-- `pendingEvents.removeValue(forKey:)` with `pendingOrder.removeAll`. -/
def forget (w : SequenceWindow) (id : EventId) : SequenceWindow :=
  { w with pendingEvents := w.pendingEvents.erase id,
           pendingOrder := w.pendingOrder.filter fun other => decide (other ≠ id) }

def acknowledgeEvent (w : SequenceWindow) (id : EventId) : SequenceWindow :=
  match w.pendingEvents[id]? with
  | none => w
  | some event => recordSelectiveAcknowledgement (forget w id) event.eventSeq

def pendingValues (w : SequenceWindow) : List Event := w.pendingEvents.toList.map Prod.snd

def bySequence (a b : Event) : Prop := a.eventSeq ≤ b.eventSeq

instance : DecidableRel bySequence := fun _ _ => inferInstanceAs (Decidable (_ ≤ _))

def coveredEvents (w : SequenceWindow) (seq : Nat) : List Event :=
  ((pendingValues w).filter fun event => decide (event.eventSeq ≤ seq)).insertionSort bySequence

def acknowledgeEvents (w : SequenceWindow) (seq : Nat) : SequenceWindow × List Event :=
  if w.lastAckedEventSeq < seq ∧ seq ≤ w.currentEventSeq then
    let settled := coveredEvents w seq
    let pendingEvents := settled.foldl (fun events event => events.erase event.eventId)
      w.pendingEvents
    (advanceContiguousAcknowledgement
      { w with lastAckedEventSeq := seq,
               acknowledgedOutOfOrder := w.acknowledgedOutOfOrder.filter (seq < ·),
               pendingEvents := pendingEvents,
               pendingOrder := w.pendingOrder.filter fun id => pendingEvents.contains id },
      settled)
  else (w, [])

/-- The roll-back guarded in `rejectPreparedTextEdit` and in `cancelPendingWrites`. -/
def rollBack (w : SequenceWindow) (event : Event) : SequenceWindow × Bool :=
  if w.pendingOrder.getLast? = some event.eventId ∧
      w.pendingEvents[event.eventId]? = some event ∧ w.currentEventSeq = event.eventSeq then
    ({ w with pendingEvents := w.pendingEvents.erase event.eventId,
              pendingOrder := w.pendingOrder.dropLast,
              currentEventSeq := w.currentEventSeq - 1 }, true)
  else (w, false)

/-- What `applyReplacementFrontierState` leaves of the window. -/
def SequenceWindow.startingAt (lastProcessedEventSeq : Nat) : SequenceWindow where
  currentEventSeq := lastProcessedEventSeq
  lastAckedEventSeq := lastProcessedEventSeq

structure PendingTextEditDescriptor where
  eventId : EventId
  eventSeq : Nat
  nodeId : NodeId
  editSeq : EditSeq
deriving DecidableEq

structure PendingTextEditRef where
  eventId : Bytes
  eventSeq : Nat
  nodeId : Nat
  editSeq : Nat
deriving DecidableEq

/-- `PendingTextEditDescriptor.init?(wire:)`. -/
def PendingTextEditDescriptor.ofWire (wire : PendingTextEditRef) :
    Option PendingTextEditDescriptor :=
  match EditSeq.new wire.editSeq with
  | none => none
  | some editSeq =>
    if wire.eventId = [] ∨ maxEventIdBytes < wire.eventId.length ∨ wire.eventSeq = 0 then none
    else some ⟨wire.eventId, wire.eventSeq, wire.nodeId, editSeq⟩

/-- The four fields that `identityKey` renders into one string. -/
def identityKey (ref : PendingTextEditDescriptor) : EventId × Nat × NodeId × Nat :=
  (ref.eventId, ref.eventSeq, ref.nodeId, ref.editSeq.get)

def retainedEvents (w : SequenceWindow) : List Event :=
  w.pendingOrder.filterMap fun id => w.pendingEvents[id]?

def assignedTextEditEvents (w : SequenceWindow) : List Event :=
  (retainedEvents w).filter fun event => decide (event.eventType = eventTextEdit)

def descriptor? (event : Event) : Option PendingTextEditDescriptor :=
  event.editSeq.map fun editSeq => ⟨event.eventId, event.eventSeq, event.nodeId, editSeq⟩

def assignedTextEditDescriptors (w : SequenceWindow) : List PendingTextEditDescriptor :=
  (assignedTextEditEvents w).filterMap descriptor?

def assignedTextEvent (w : SequenceWindow) (nodeId : NodeId) : Option Event :=
  (pendingValues w).find? fun event =>
    decide (event.eventType = eventTextEdit ∧ event.nodeId = nodeId)

def textEditsToCancel (w : SequenceWindow) (refs : List PendingTextEditDescriptor)
    (requireExactMatch : Bool) : Except EventOutboxError (List PendingTextEditDescriptor) :=
  let assigned := assignedTextEditDescriptors w
  if requireExactMatch then
    if assigned.length = refs.length ∧
        (assigned.map identityKey).toFinset = (refs.map identityKey).toFinset then .ok refs
    else .error .textEditDiscardMismatch
  else .ok assigned

/-- One round of the loop in `cancelAssignedTextEdits`. -/
def cancelTextEdit (w : SequenceWindow) (ref : PendingTextEditDescriptor) : SequenceWindow :=
  match w.pendingEvents[ref.eventId]? with
  | some event => recordSelectiveAcknowledgement (forget w ref.eventId) event.eventSeq
  | none => recordSelectiveAcknowledgement w ref.eventSeq

def cancelTextEdits (w : SequenceWindow) (condemned : List PendingTextEditDescriptor) :
    SequenceWindow :=
  condemned.foldl cancelTextEdit w

end Srui.Client.EventWindows

import Srui.Basic.FiniteMaps
import Srui.Basic.Machine

/-!
The receive window of one client: which event identities it has admitted, the
sequence each of them owns, and the contiguous frontier of settled sequences.
-/

namespace Srui.EventDedupe.Windows

open Std Basic.Machine

abbrev Bytes := List UInt8

abbrev EventType := Option (Nat × Nat)

structure EventOutcomeRecord where
  accepted : Bool
  revisionAfterEffect : Nat
  rejectReason : String
deriving DecidableEq, Repr

/-- A new event violated the bounded, contiguous receive window. -/
inductive EventSequenceError where
  | missingEventId
  | replaySequenceMismatch (expectedEventSeq receivedEventSeq : Nat)
  | replayEventTypeMismatch (expected received : EventType)
  | sequenceAlreadyAssigned (eventSeq : Nat)
  | outsideReceiveWindow (eventSeq firstAcceptableSeq lastAcceptableSeq : Nat)
  | receiveWindowFull
  | clientWindowCapacityExhausted (limit : Nat)
deriving DecidableEq, Repr

inductive RecordOutcome where
  | fresh (lastProcessedEventSeq : Nat)
  | pending (lastProcessedEventSeq : Nat)
  | duplicate (prior : EventOutcomeRecord) (lastProcessedEventSeq : Nat)
deriving DecidableEq, Repr

inductive EventRecord where
  | inFlight (eventSeq : Nat) (eventType : EventType)
  | settled (eventSeq : Nat) (eventType : EventType) (outcome : EventOutcomeRecord)
deriving DecidableEq, Repr

def EventRecord.eventSeq : EventRecord → Nat
  | .inFlight eventSeq _ => eventSeq
  | .settled eventSeq _ _ => eventSeq

def EventRecord.eventType : EventRecord → EventType
  | .inFlight _ eventType => eventType
  | .settled _ eventType _ => eventType

/-- `EventRecord::is_evictable`. -/
def EventRecord.isEvictable (lastContiguousProcessedSeq : Nat) : EventRecord → Bool
  | .inFlight _ _ => false
  | .settled eventSeq _ _ => decide (eventSeq = 0 ∨ eventSeq ≤ lastContiguousProcessedSeq)

def EventRecord.isInFlight : EventRecord → Bool
  | .inFlight _ _ => true
  | .settled _ _ _ => false

structure ClientDedupeWindow where
  seenIds : ExtTreeMap Bytes EventRecord
  idsBySeq : ExtTreeMap Nat Bytes
  order : List Bytes
  lastContiguousProcessedSeq : Nat
  settledOutOfOrder : Finset Nat
deriving DecidableEq

/-- `ClientDedupeWindow::new`, with the frontier a returning client starts from. -/
def ClientDedupeWindow.startingAt (frontier : Nat) : ClientDedupeWindow where
  seenIds := ∅
  idsBySeq := ∅
  order := []
  lastContiguousProcessedSeq := frontier
  settledOutOfOrder := ∅

/-- `ClientDedupeWindow::new`. -/
def ClientDedupeWindow.new : ClientDedupeWindow := ClientDedupeWindow.startingAt 0

/-- `ClientDedupeWindow::has_in_flight`. -/
def hasInFlight (w : ClientDedupeWindow) : Bool :=
  w.seenIds.toList.any fun entry => entry.2.isInFlight

/-- `ClientDedupeWindow::is_pinned`. -/
def isPinned (w : ClientDedupeWindow) : Bool :=
  hasInFlight w || decide (w.settledOutOfOrder ≠ ∅)

def evictableId (w : ClientDedupeWindow) (id : Bytes) : Bool :=
  match w.seenIds[id]? with
  | some record => record.isEvictable w.lastContiguousProcessedSeq
  | none => false

def dropRecord (w : ClientDedupeWindow) (id : Bytes) : ClientDedupeWindow :=
  match w.seenIds[id]? with
  | none => w
  | some record =>
    if record.eventSeq ≠ 0 then
      { w with seenIds := w.seenIds.erase id, idsBySeq := w.idsBySeq.erase record.eventSeq,
               settledOutOfOrder := w.settledOutOfOrder.erase record.eventSeq }
    else { w with seenIds := w.seenIds.erase id }

/-- `ClientDedupeWindow::evict_oldest_settled`; `none` when nothing is evictable. -/
def evictOldestSettled (w : ClientDedupeWindow) : Option ClientDedupeWindow :=
  match w.order.find? (evictableId w) with
  | none => none
  | some id => some (dropRecord { w with order := w.order.eraseP (evictableId w) } id)

/-- The eviction loop before an insertion: evicts while the table is full. It
runs at most once for each record, since every round drops one. -/
def makeSpace (maxEntries : Nat) : Nat → ClientDedupeWindow → ClientDedupeWindow × Bool
  | rounds, w =>
    if w.seenIds.size < maxEntries then (w, true)
    else
      match rounds with
      | 0 => (w, false)
      | rounds + 1 =>
        match evictOldestSettled w with
        | none => (w, false)
        | some w => makeSpace maxEntries rounds w

def replayOutcome (w : ClientDedupeWindow) (record : EventRecord) (eventSeq : Nat)
    (eventType : EventType) : Except EventSequenceError RecordOutcome :=
  if eventSeq ≠ record.eventSeq then
    .error (.replaySequenceMismatch record.eventSeq eventSeq)
  else if record.eventType ≠ eventType ∧ record.eventSeq ≠ 0 then
    .error (.replayEventTypeMismatch record.eventType eventType)
  else
    match record with
    | .inFlight _ _ => .ok (.pending w.lastContiguousProcessedSeq)
    | .settled _ _ outcome => .ok (.duplicate outcome w.lastContiguousProcessedSeq)

def fileInFlight (w : ClientDedupeWindow) (eventId : Bytes) (eventSeq : Nat)
    (eventType : EventType) : ClientDedupeWindow :=
  { w with order := w.order ++ [eventId], idsBySeq := w.idsBySeq.insert eventSeq eventId,
           seenIds := w.seenIds.insert eventId (.inFlight eventSeq eventType) }

/-- `ClientDedupeWindow::admit`. -/
def admitToWindow (w : ClientDedupeWindow) (eventId : Bytes) (eventSeq : Nat) (eventType : EventType)
    (maxEntries : Nat) : ClientDedupeWindow × Except EventSequenceError RecordOutcome :=
  match w.seenIds[eventId]? with
  | some record => (w, replayOutcome w record eventSeq eventType)
  | none =>
    if w.idsBySeq.contains eventSeq then (w, .error (.sequenceAlreadyAssigned eventSeq))
    else
      let firstAcceptableSeq := saturatingAdd w.lastContiguousProcessedSeq 1
      let lastAcceptableSeq := saturatingAdd w.lastContiguousProcessedSeq maxEntries
      if eventSeq = 0 ∨ eventSeq ≤ w.lastContiguousProcessedSeq ∨
          eventSeq > lastAcceptableSeq then
        (w, .error (.outsideReceiveWindow eventSeq firstAcceptableSeq lastAcceptableSeq))
      else
        match makeSpace maxEntries w.seenIds.size w with
        | (w, false) => (w, .error .receiveWindowFull)
        | (w, true) =>
          (fileInFlight w eventId eventSeq eventType,
            .ok (.fresh w.lastContiguousProcessedSeq))

/-- `ClientDedupeWindow::insert_legacy_settled`. -/
def insertLegacySettled (w : ClientDedupeWindow) (eventId : Bytes) (outcome : EventOutcomeRecord)
    (maxEntries : Nat) : ClientDedupeWindow × Bool :=
  if w.seenIds.contains eventId then (w, false)
  else
    match makeSpace maxEntries w.seenIds.size w with
    | (w, false) => (w, false)
    | (w, true) =>
      ({ w with order := w.order ++ [eventId],
                seenIds := w.seenIds.insert eventId (.settled 0 none outcome) }, true)

def advanceFrontier : Nat → Nat → Finset Nat → Nat × Finset Nat
  | 0, frontier, ahead => (frontier, ahead)
  | rounds + 1, frontier, ahead =>
    match checkedAdd frontier 1 with
    | none => (frontier, ahead)
    | some next =>
      if next ∈ ahead then advanceFrontier rounds next (ahead.erase next)
      else (frontier, ahead)

/-- `ClientDedupeWindow::note_settled_sequence`. -/
def noteSettledSequence (w : ClientDedupeWindow) (eventSeq : Nat) : ClientDedupeWindow :=
  if eventSeq = 0 ∨ eventSeq ≤ w.lastContiguousProcessedSeq then w
  else if eventSeq = saturatingAdd w.lastContiguousProcessedSeq 1 then
    let advanced := advanceFrontier w.settledOutOfOrder.card eventSeq w.settledOutOfOrder
    { w with lastContiguousProcessedSeq := advanced.1, settledOutOfOrder := advanced.2 }
  else { w with settledOutOfOrder := insert eventSeq w.settledOutOfOrder }

/-- `ClientDedupeWindow::settle`, with the frontier it returns. -/
def settle (w : ClientDedupeWindow) (eventId : Bytes) (outcome : EventOutcomeRecord) :
    ClientDedupeWindow × Nat :=
  match w.seenIds[eventId]? with
  | some (.inFlight eventSeq eventType) =>
    let settled := noteSettledSequence
      { w with seenIds := w.seenIds.insert eventId (.settled eventSeq eventType outcome) }
      eventSeq
    (settled, settled.lastContiguousProcessedSeq)
  | _ => (w, w.lastContiguousProcessedSeq)

/-- `ClientDedupeWindow::abandon`. -/
def abandon (w : ClientDedupeWindow) (eventId : Bytes) : ClientDedupeWindow :=
  match w.seenIds[eventId]? with
  | some (.inFlight eventSeq _) =>
    { w with seenIds := w.seenIds.erase eventId, idsBySeq := w.idsBySeq.erase eventSeq,
             order := w.order.filter (· ≠ eventId) }
  | _ => w

end Srui.EventDedupe.Windows

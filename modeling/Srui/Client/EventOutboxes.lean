import Srui.Client.EventWindows

/-!
The client's event outbox, an actor, with the write tasks it has queued.

An `async` method is taken apart at its suspensions. What runs between two of them
is one actor turn, a function here; the locals a later turn still uses are its
arguments. Turns of different calls may follow each other in any order. The text-lane
waiters re-check their guards whenever they run and hold no state of their own.

`encodes` says which events `SRUIFraming.encodeFramed` frames. Identities made from
`UUID()` and what MainActor answers are inputs. Epochs, generations and incarnation
numbers are naturals.
-/

namespace Srui.Client.EventOutboxes

open Std Basic.Machine SemanticTree.Values SemanticTree.Events Client.EventWindows

/-- A value of `UUID`. -/
abbrev Token := Nat

/-- `EventOutboxConnectionBinding`: the epoch of one transport binding. -/
abbrev ConnectionBinding := Nat

structure SessionIncarnation where
  binding : ConnectionBinding
  sequence : Nat
deriving DecidableEq

/-! ### Write tasks -/

structure RetainedWrite where
  event : Event
  binding : ConnectionBinding
  sessionIncarnation : SessionIncarnation
  resumeEpoch : Nat
  sessionId : Option String
deriving DecidableEq

/-- The retry loop's lease, with the values its closure captured. -/
structure Lease where
  resumeScope : Nat
  token : Token
  binding : ConnectionBinding
  sessionIncarnation : SessionIncarnation
deriving DecidableEq

/-- Whose task awaits a replay: a caller of the outbox, or the retry loop. -/
inductive ReplayOwner where
  | caller
  | loop (lease : Lease)
deriving DecidableEq

structure ReplayWrite where
  remaining : List Event
  binding : ConnectionBinding
  sessionIncarnation : SessionIncarnation
  owner : ReplayOwner
deriving DecidableEq

inductive WriteBody where
  | retained (write : RetainedWrite)
  /-- A text edit behind its gate, with what the gate has decided. -/
  | prepared (write : RetainedWrite) (decision : Option Bool)
  | replay (write : ReplayWrite)
deriving DecidableEq

/-- A task made by `enqueueSend`. `sending` while `transport.send` is in flight. -/
structure WriteTask where
  body : WriteBody
  predecessor : Option Nat
  chain : Nat
  cancelled : Bool := false
  sending : Bool := false
  finished : Bool := false
deriving DecidableEq

/-- An event handed to `transport.send`, and the write chain it went over. -/
structure Transmission where
  event : Event
  chain : Nat
deriving DecidableEq

/-! ### The actor -/

structure PreparedTextEdit where
  event : Event
  token : Token
deriving DecidableEq

structure PreparedTextEditSend where
  event : Event
  task : Nat
deriving DecidableEq

/-- `PreparedTextEditAuthorizationFence`. -/
structure AuthorizationFence where
  preparedEventIds : Finset EventId := ∅
  assignedEventIds : Finset EventId := ∅
  revokedEventIds : Finset EventId := ∅
deriving DecidableEq

structure TextEditAcknowledgementBarrier where
  nodeId : NodeId
  eventId : EventId
  revisionAfterEffect : Nat
  rejected : Bool
deriving DecidableEq

structure ResyncRenderOwnership where
  generation : Option Nat
  binding : ConnectionBinding
  token : Token
deriving DecidableEq

structure LiveRenderOwnership where
  binding : ConnectionBinding
  sessionIncarnation : SessionIncarnation
  token : Token
deriving DecidableEq

structure ResumeRecoveryRenderOwnership where
  generation : Nat
  binding : ConnectionBinding
  token : Token
deriving DecidableEq

structure PendingResyncBoundaryCleanup where
  token : Token
  acknowledgementBarriersAtStart : ExtTreeMap NodeId TextEditAcknowledgementBarrier
deriving DecidableEq

structure PendingResumeRecoveryRenderInvalidation where
  generation : Nat
  token : Token
deriving DecidableEq

structure RenderLatches where
  resyncRenderOwnership : Option ResyncRenderOwnership := none
  liveRenderOwnership : Option LiveRenderOwnership := none
  resumeRecoveryRenderOwnership : Option ResumeRecoveryRenderOwnership := none
  pendingResyncBoundaryCleanup : Option PendingResyncBoundaryCleanup := none
  pendingLiveRenderInvalidation : Option Token := none
  pendingResumeRecoveryRenderInvalidation : Option PendingResumeRecoveryRenderInvalidation := none
deriving DecidableEq

structure SameSessionResumePreparation where
  sessionId : String
  generation : Nat
  binding : ConnectionBinding
  sessionIncarnation : SessionIncarnation
  frontierSettledTextEdits : List Event
  assignedTextEdits : List Event
deriving DecidableEq

structure EventOutbox where
  clientInstanceId : ClientInstanceId
  maxPendingEvents : Nat
  window : SequenceWindow := {}
  activeSessionId : Option String := none
  activeConnectionBinding : Option ConnectionBinding := none
  activeSessionIncarnation : Option SessionIncarnation := none
  resyncBoundaryTransitionEpoch : Nat := 0
  activeResumeGeneration : Option Nat := none
  lastIssuedResumeGeneration : Nat := 0
  pendingResumeFinalizationGeneration : Option Nat := none
  acceptsNewEvents : Bool := true
  replayLease : Option Lease := none
  renders : RenderLatches := {}
  fence : AuthorizationFence := {}
  preparedTextEditSends : ExtTreeMap Token PreparedTextEditSend := ∅
  authorizedPreparedTextEditSends : ExtTreeMap Token PreparedTextEditSend := ∅
  lifecycleSuspendedPreparedTextEdits : ExtTreeMap Token Event := ∅
  lifecycleAuthorizedPreparedTextEdits : ExtTreeMap Token Event := ∅
  textAcknowledgementBarriers : ExtTreeMap NodeId TextEditAcknowledgementBarrier := ∅
  sendTail : Option Nat := none
  /-- The tasks queued so far, and how many write chains were cut before this one. -/
  writes : List WriteTask := []
  chain : Nat := 0
  /-- `EventOutboxConnectionBindingEpochAllocator.lastIssuedEpoch`. -/
  lastIssuedEpoch : Nat := 0
  /-- What the transport was handed, oldest first, since the session began. -/
  sent : List Transmission := []
  /-- The preparations `prepareSameSessionResume` has returned. -/
  preparations : List SameSessionResumePreparation := []
deriving DecidableEq

/-- `EventOutbox.init`. -/
def EventOutbox.new (clientInstanceId : ClientInstanceId) (maxPendingEvents : Int) :
    EventOutbox where
  clientInstanceId := clientInstanceId
  maxPendingEvents := (max 1 maxPendingEvents).toNat

/-! ### Tasks and gates -/

def adjustTask (o : EventOutbox) (task : Nat) (change : WriteTask → WriteTask) : EventOutbox :=
  { o with writes := o.writes.modify task change }

def cancelTask (o : EventOutbox) (task : Nat) : EventOutbox :=
  adjustTask o task fun t => { t with cancelled := true }

def finishTask (o : EventOutbox) (task : Nat) : EventOutbox :=
  adjustTask o task fun t => { t with sending := false, finished := true }

/-- `PreparedTextEditSendGate.resolve`, on the body that waits at the gate. -/
def WriteBody.decide (shouldSend : Bool) : WriteBody → WriteBody
  | .prepared write none => .prepared write (some shouldSend)
  | body => body

def gateUndecided (o : EventOutbox) (task : Nat) : Bool :=
  match o.writes[task]? with
  | some { body := .prepared _ none, .. } => true
  | _ => false

def resolveGate (o : EventOutbox) (task : Nat) (shouldSend : Bool) : EventOutbox :=
  adjustTask o task fun t => { t with body := t.body.decide shouldSend }

def enqueueSend (o : EventOutbox) (body : WriteBody) : EventOutbox :=
  { o with writes := o.writes ++ [{ body := body, predecessor := o.sendTail, chain := o.chain }],
           sendTail := some o.writes.length }

def WriteTask.ownedBy (lease : Lease) (t : WriteTask) : Bool :=
  match t.body with
  | .replay write => decide (write.owner = .loop lease)
  | _ => false

def cancelReplayRetryLoop (o : EventOutbox) : EventOutbox :=
  match o.replayLease with
  | none => o
  | some lease =>
    { o with replayLease := none,
             writes := o.writes.map fun t =>
               if t.ownedBy lease then { t with cancelled := true } else t }

def cancelReplayRetryLoopIfSettled (o : EventOutbox) : EventOutbox :=
  if o.window.pendingEvents.isEmpty then cancelReplayRetryLoop o else o

/-! ### The authorization fence -/

def AuthorizationFence.register (f : AuthorizationFence) (id : EventId) : AuthorizationFence :=
  { f with preparedEventIds := insert id f.preparedEventIds }

def AuthorizationFence.markAssigned (f : AuthorizationFence) (id : EventId) :
    AuthorizationFence :=
  if id ∈ f.preparedEventIds then { f with assignedEventIds := insert id f.assignedEventIds }
  else f

def AuthorizationFence.revoke (f : AuthorizationFence) (id : EventId) : AuthorizationFence :=
  if id ∈ f.preparedEventIds then { f with revokedEventIds := insert id f.revokedEventIds }
  else f

def AuthorizationFence.retire (f : AuthorizationFence) (id : EventId) : AuthorizationFence where
  preparedEventIds := f.preparedEventIds.erase id
  assignedEventIds := f.assignedEventIds.erase id
  revokedEventIds := f.revokedEventIds.erase id

/-- What `consumeAssignedForLifecycle` answers; it also retires the identity. -/
def AuthorizationFence.assignedForLifecycle (f : AuthorizationFence) (id : EventId) : Bool :=
  decide (id ∈ f.preparedEventIds ∧ id ∈ f.assignedEventIds ∧ id ∉ f.revokedEventIds)

def retire (o : EventOutbox) (id : EventId) : EventOutbox := { o with fence := o.fence.retire id }

/-! ### Acknowledgement -/

def acknowledgeEventId (o : EventOutbox) (id : EventId) : EventOutbox :=
  let o := retire o id
  if o.window.pendingEvents.contains id then
    cancelReplayRetryLoopIfSettled { o with window := acknowledgeEvent o.window id }
  else o

def acknowledgeEventsThrough (o : EventOutbox) (seq : Nat) : EventOutbox × List Event :=
  if o.window.lastAckedEventSeq < seq ∧ seq ≤ o.window.currentEventSeq then
    let settled := (acknowledgeEvents o.window seq).2
    let o := settled.foldl (fun o event => retire o event.eventId) o
    (cancelReplayRetryLoopIfSettled { o with window := (acknowledgeEvents o.window seq).1 }, settled)
  else (o, [])

def cancelCondemned (o : EventOutbox) (condemned : List PendingTextEditDescriptor) :
    EventOutbox :=
  let o := condemned.foldl (fun o ref => retire o ref.eventId) o
  cancelReplayRetryLoopIfSettled { o with window := cancelTextEdits o.window condemned }

def cancelAssignedTextEdits (o : EventOutbox) (confirming : List PendingTextEditDescriptor)
    (requireExactMatch : Bool) : Except EventOutboxError EventOutbox :=
  match textEditsToCancel o.window confirming requireExactMatch with
  | .error e => .error e
  | .ok condemned => .ok (cancelCondemned o condemned)

/-- The wire references of a discard list; `none` where the exact match already fails. -/
def confirmingRefs (refs : List PendingTextEditRef) (requireExactMatch : Bool) :
    Option (List PendingTextEditDescriptor) :=
  let confirming := refs.filterMap PendingTextEditDescriptor.ofWire
  if requireExactMatch ∧ confirming.length ≠ refs.length then none else some confirming

/-- The overload that first checks who owns the reconnect latch. -/
def cancelAssignedTextEditsOnlyIf (o : EventOutbox) (refs : List PendingTextEditRef)
    (requireExactMatch : Bool) (generation : Option Nat) : Except EventOutboxError EventOutbox :=
  if o.activeResumeGeneration ≠ generation then .ok o
  else
    match confirmingRefs refs requireExactMatch with
    | none => .error .textEditDiscardMismatch
    | some confirming => cancelAssignedTextEdits o confirming requireExactMatch

/-! ### Sending -/

/-- The three kinds of event that `allocateAndSend` is called for. -/
inductive EventDraft where
  | activate
  | valueChanged (value : Value)
  | selectionChanged (itemId : ItemId)
deriving DecidableEq

/-- `Event.activate`, `Event.valueChanged` and `Event.selectionChanged`, with
`withClientInstanceId`. -/
def EventDraft.makeEvent (draft : EventDraft) (clientInstanceId : ClientInstanceId)
    (observedRevision : Revision) (nodeId : NodeId) (eventId : EventId) (eventSeq : Nat) :
    Event where
  clientInstanceId := some clientInstanceId
  eventSeq := eventSeq
  eventId := eventId
  observedRevision := observedRevision
  nodeId := nodeId
  eventType :=
    match draft with
    | .activate => ⟨0, 1⟩
    | .valueChanged _ => ⟨0, 2⟩
    | .selectionChanged _ => ⟨0, 3⟩
  arguments :=
    match draft with
    | .activate => ∅
    | .valueChanged value => collectProperties [(SemanticTree.Events.value, value)]
    | .selectionChanged itemId =>
      collectProperties [(SemanticTree.Events.value, .scalar (.itemId itemId))]
  editSeq := none

/-- `Event.textEdit`, with `withClientInstanceId`. -/
def textEdit (clientInstanceId : ClientInstanceId) (observedRevision : Revision)
    (nodeId : NodeId) (value : String) (editSeq : EditSeq) (eventId : EventId) (eventSeq : Nat) :
    Event where
  clientInstanceId := some clientInstanceId
  eventSeq := eventSeq
  eventId := eventId
  observedRevision := observedRevision
  nodeId := nodeId
  eventType := eventTextEdit
  arguments := collectProperties [(SemanticTree.Events.text, .scalar (.string value))]
  editSeq := some editSeq

def resolveSessionIncarnation (o : EventOutbox) (supplied : Option SessionIncarnation)
    (binding : ConnectionBinding) : Option SessionIncarnation :=
  if o.activeConnectionBinding = some binding then
    match o.activeSessionIncarnation with
    | none => none
    | some expected => if supplied = none ∨ supplied = some expected then some expected else none
  else none

def captureWrite (o : EventOutbox) (event : Event) (binding : ConnectionBinding)
    (sessionIncarnation : SessionIncarnation) : RetainedWrite where
  event := event
  binding := binding
  sessionIncarnation := sessionIncarnation
  resumeEpoch := o.lastIssuedResumeGeneration
  sessionId := o.activeSessionId

def admitsNewEvent (o : EventOutbox) (binding : ConnectionBinding)
    (sessionIncarnation : SessionIncarnation) : Bool :=
  decide (o.activeConnectionBinding = some binding ∧
    o.activeSessionIncarnation = some sessionIncarnation ∧ o.acceptsNewEvents = true)

variable (encodes : Event → Bool)

/-- The turn of `allocateAndSend` that follows `waitForPreparedTextEditResolution`;
while a slot is closed the call still waits. -/
def allocateAndSend (o : EventOutbox) (binding : ConnectionBinding)
    (sessionIncarnation : SessionIncarnation) (makeEvent : Nat → Event) :
    EventOutbox × Outcome EventOutboxError (Option Event) :=
  if o.preparedTextEditSends.isEmpty then
    if admitsNewEvent o binding sessionIncarnation then
      match allocate encodes o.maxPendingEvents o.window makeEvent with
      | .error fault => (o, .error fault)
      | .ok (window, event) =>
        (enqueueSend { o with window := window }
          (.retained (captureWrite o event binding sessionIncarnation)), .ok (some event))
    else (o, err .resumeNotConfirmed)
  else (o, .ok none)

def prepareTextEdit (o : EventOutbox) (nodeId : NodeId) (value : String) (editSeq : EditSeq)
    (observedRevision : Revision) (binding : ConnectionBinding)
    (supplied : Option SessionIncarnation) (eventId : EventId) (token : Token) :
    EventOutbox × Outcome EventOutboxError (Option PreparedTextEdit) :=
  match resolveSessionIncarnation o supplied binding with
  | none => (o, err .resumeNotConfirmed)
  | some sessionIncarnation =>
    if admitsNewEvent o binding sessionIncarnation then
      if o.preparedTextEditSends.isEmpty ∧ assignedTextEvent o.window nodeId = none ∧
          o.textAcknowledgementBarriers[nodeId]? = none then
        match allocate encodes o.maxPendingEvents o.window
            (textEdit o.clientInstanceId observedRevision nodeId value editSeq eventId) with
        | .error fault => (o, .error fault)
        | .ok (window, event) =>
          let queued := enqueueSend { o with window := window }
            (.prepared (captureWrite o event binding sessionIncarnation) none)
          ({ queued with
              preparedTextEditSends :=
                o.preparedTextEditSends.insert token ⟨event, o.writes.length⟩,
              fence := o.fence.register event.eventId }, .ok (some ⟨event, token⟩))
      else (o, .ok none)
    else (o, err .resumeNotConfirmed)

/-- `notePreparedTextEditAssigned`, from outside the actor. -/
def notePreparedTextEditAssigned (o : EventOutbox) (eventId : EventId) : EventOutbox :=
  { o with fence := o.fence.markAssigned eventId }

/-- `revokeUnauthorizedPreparedTextEdit`, from outside the actor. -/
def revokeUnauthorizedPreparedTextEdit (o : EventOutbox) (eventId : EventId) : EventOutbox :=
  { o with fence := o.fence.revoke eventId }

/-- The last lines of `rejectPreparedTextEdit`. -/
def rollBackRejected (o : EventOutbox) (event : Event) (canceledBeforeSend : Bool) :
    EventOutbox × Bool :=
  let o := retire o event.eventId
  if canceledBeforeSend then
    ({ o with window := (rollBack o.window event).1 }, (rollBack o.window event).2)
  else (o, false)

def rejectPreparedTextEdit (o : EventOutbox) (prepared : PreparedTextEdit) :
    EventOutbox × Bool :=
  let slot := o.preparedTextEditSends[prepared.token]?
  -- `removeValue` takes the slot out before its event is compared.
  let o := { o with preparedTextEditSends := o.preparedTextEditSends.erase prepared.token }
  match slot.filter fun retained => decide (retained.event = prepared.event) with
  | some retained =>
    let canceledBeforeSend := gateUndecided o retained.task
    rollBackRejected (cancelTask (resolveGate o retained.task false) retained.task)
      prepared.event canceledBeforeSend
  | none =>
    if o.lifecycleSuspendedPreparedTextEdits[prepared.token]? = some prepared.event then
      rollBackRejected
        { o with lifecycleSuspendedPreparedTextEdits :=
            o.lifecycleSuspendedPreparedTextEdits.erase prepared.token }
        prepared.event true
    else (retire o prepared.event.eventId, false)

def authorizePreparedTextEdit (o : EventOutbox) (prepared : PreparedTextEdit) :
    EventOutbox × Bool :=
  let revoked := decide (prepared.event.eventId ∈ o.fence.revokedEventIds)
  let o := retire o prepared.event.eventId
  if revoked then ((rejectPreparedTextEdit o prepared).1, false)
  else
    match o.preparedTextEditSends[prepared.token]?.filter
        fun retained => decide (retained.event = prepared.event) with
    | some retained =>
      if gateUndecided o retained.task then
        ({ resolveGate o retained.task true with
            preparedTextEditSends := o.preparedTextEditSends.erase prepared.token,
            authorizedPreparedTextEditSends :=
              o.authorizedPreparedTextEditSends.insert prepared.token retained }, true)
      else (o, false)
    | none =>
      if o.lifecycleSuspendedPreparedTextEdits[prepared.token]? = some prepared.event ∧
          o.window.pendingEvents[prepared.event.eventId]? = some prepared.event then
        ({ o with
            lifecycleSuspendedPreparedTextEdits :=
              o.lifecycleSuspendedPreparedTextEdits.erase prepared.token,
            lifecycleAuthorizedPreparedTextEdits :=
              o.lifecycleAuthorizedPreparedTextEdits.insert prepared.token prepared.event },
          true)
      else
        (o, decide ((o.authorizedPreparedTextEditSends[prepared.token]?.map
              PreparedTextEditSend.event) = some prepared.event ∨
            o.lifecycleAuthorizedPreparedTextEdits[prepared.token]? = some prepared.event))

/-- The turn of `releasePreparedTextEdit` before it awaits the write. -/
def releasePreparedTextEdit (o : EventOutbox) (prepared : PreparedTextEdit) : EventOutbox :=
  let slot := o.authorizedPreparedTextEditSends[prepared.token]?
  let o := { o with authorizedPreparedTextEditSends :=
    o.authorizedPreparedTextEditSends.erase prepared.token }
  match slot.filter fun retained => decide (retained.event = prepared.event) with
  | some _ => o
  | none =>
    { o with lifecycleAuthorizedPreparedTextEdits :=
        o.lifecycleAuthorizedPreparedTextEdits.erase prepared.token }

def enqueueReplay (o : EventOutbox) (binding : ConnectionBinding)
    (sessionIncarnation : SessionIncarnation) (owner : ReplayOwner) : EventOutbox :=
  enqueueSend o (.replay ⟨retainedEvents o.window, binding, sessionIncarnation, owner⟩)

/-- `resendPendingEvents`, up to the point where it awaits the write. -/
def resendPendingEvents (o : EventOutbox) (binding : ConnectionBinding)
    (supplied : Option SessionIncarnation) (owner : ReplayOwner) : EventOutbox :=
  match resolveSessionIncarnation o supplied binding with
  | none => o
  | some sessionIncarnation => enqueueReplay o binding sessionIncarnation owner

/-! ### Cutting the write chain -/

/-- What the first loop of `cancelPendingWrites` does with one closed slot. -/
def cancelPreparedSlot (retain : Bool) (state : EventOutbox × List Event)
    (entry : Token × PreparedTextEditSend) : EventOutbox × List Event :=
  let event := entry.2.event
  let o := cancelTask (resolveGate state.1 entry.2.task false) entry.2.task
  if o.window.pendingEvents[event.eventId]? = some event then
    if retain then
      ({ o with lifecycleSuspendedPreparedTextEdits :=
          o.lifecycleSuspendedPreparedTextEdits.insert entry.1 event }, state.2)
    else if o.fence.assignedForLifecycle event.eventId then
      ({ retire o event.eventId with lifecycleAuthorizedPreparedTextEdits :=
          o.lifecycleAuthorizedPreparedTextEdits.insert entry.1 event }, state.2)
    else (retire o event.eventId, state.2 ++ [event])
  else (o, state.2)

def settleSuspended (state : EventOutbox × List Event) (entry : Token × Event) :
    EventOutbox × List Event :=
  let o := state.1
  if o.fence.assignedForLifecycle entry.2.eventId then
    ({ retire o entry.2.eventId with lifecycleAuthorizedPreparedTextEdits :=
        o.lifecycleAuthorizedPreparedTextEdits.insert entry.1 entry.2 }, state.2)
  else (retire o entry.2.eventId, state.2 ++ [entry.2])

def rollBackAll (o : EventOutbox) (events : List Event) : EventOutbox :=
  let newestFirst := events.insertionSort fun a b => b.eventSeq ≤ a.eventSeq
  { o with window := newestFirst.foldl (fun window event => (rollBack window event).1) o.window }

def cancelAuthorizedSlot (o : EventOutbox) (entry : Token × PreparedTextEditSend) :
    EventOutbox :=
  let o := cancelTask o entry.2.task
  if o.window.pendingEvents[entry.2.event.eventId]? = some entry.2.event then
    { o with lifecycleAuthorizedPreparedTextEdits :=
        o.lifecycleAuthorizedPreparedTextEdits.insert entry.1 entry.2.event }
  else o

def dropSendTail (o : EventOutbox) : EventOutbox :=
  let o := match o.sendTail with
    | none => o
    | some tail => cancelTask o tail
  { o with sendTail := none, chain := o.chain + 1 }

def cancelPreparedSlots (o : EventOutbox) (retain : Bool) : EventOutbox × List Event :=
  let cancelled := o.preparedTextEditSends.toList.foldl (cancelPreparedSlot retain) (o, [])
  ({ cancelled.1 with preparedTextEditSends := ∅ }, cancelled.2)

def settleSuspendedEdits (o : EventOutbox) (rollbacks : List Event) : EventOutbox :=
  let settled := o.lifecycleSuspendedPreparedTextEdits.toList.foldl settleSuspended (o, rollbacks)
  rollBackAll { settled.1 with lifecycleSuspendedPreparedTextEdits := ∅ } settled.2

def cancelAuthorizedSlots (o : EventOutbox) : EventOutbox :=
  { o.authorizedPreparedTextEditSends.toList.foldl cancelAuthorizedSlot o with
      authorizedPreparedTextEditSends := ∅ }

def cancelPendingWrites (o : EventOutbox) (retainUnauthorizedPreparedTextEdits : Bool) :
    EventOutbox :=
  let slots := cancelPreparedSlots o retainUnauthorizedPreparedTextEdits
  let settled :=
    if retainUnauthorizedPreparedTextEdits then slots.1
    else settleSuspendedEdits slots.1 slots.2
  dropSendTail (cancelAuthorizedSlots settled)

/-! ### What a queued write does -/

def mayTransmitRetainedEvent (o : EventOutbox) (write : RetainedWrite) : Bool :=
  decide (o.activeConnectionBinding = some write.binding ∧
    o.activeSessionIncarnation = some write.sessionIncarnation ∧
    o.window.pendingEvents[write.event.eventId]? = some write.event ∧
    o.lastIssuedResumeGeneration = write.resumeEpoch ∧ o.activeSessionId = write.sessionId ∧
    o.acceptsNewEvents = true)

/-- The guard of `sendReplayEventIfActive`. -/
def mayReplayEvent (o : EventOutbox) (write : ReplayWrite) (event : Event) : Bool :=
  decide (o.activeConnectionBinding = some write.binding ∧
    o.activeSessionIncarnation = some write.sessionIncarnation ∧
    o.window.pendingEvents[event.eventId]? = some event)

/-- `transport.send` begins. -/
def handOver (o : EventOutbox) (task : Nat) (event : Event) (chain : Nat) : EventOutbox :=
  { adjustTask o task (fun t => { t with sending := true }) with
      sent := o.sent ++ [⟨event, chain⟩] }

/-- `sendRetainedEventIfActive`. The turn of `mayTransmitRetainedEvent` that an ordinary
write takes first asks the same question. -/
def sendRetainedEventIfActive (o : EventOutbox) (task : Nat) (t : WriteTask)
    (write : RetainedWrite) : EventOutbox :=
  if mayTransmitRetainedEvent o write ∧ t.cancelled = false then
    handOver o task write.event t.chain
  else finishTask o task

def takeReplayEvent (o : EventOutbox) (task : Nat) (write : ReplayWrite) (rest : List Event) :
    EventOutbox :=
  adjustTask o task fun t => { t with body := .replay { write with remaining := rest } }

/-- One round of the loop in `resendPendingEvents`. -/
def sendReplayEventIfActive (o : EventOutbox) (task : Nat) (t : WriteTask)
    (write : ReplayWrite) : EventOutbox :=
  match write.remaining with
  | [] => finishTask o task
  | event :: rest =>
    if t.cancelled then finishTask o task
    else if mayReplayEvent o write event then
      if encodes event then handOver (takeReplayEvent o task write rest) task event t.chain
      else finishTask o task
    else takeReplayEvent o task write rest

def predecessorFinished (o : EventOutbox) (t : WriteTask) : Bool :=
  match t.predecessor with
  | none => true
  | some p => (o.writes[p]?.map WriteTask.finished).getD true

def runWrite (o : EventOutbox) (task : Nat) : EventOutbox :=
  match o.writes[task]? with
  | none => o
  | some t =>
    if t.finished ∨ t.sending ∨ predecessorFinished o t = false then o
    else
      match t.body with
      | .retained write => sendRetainedEventIfActive o task t write
      | .prepared _ none =>
        -- A gate that is awaited by a cancelled task resolves to false.
        if t.cancelled then finishTask (resolveGate o task false) task else o
      | .prepared _ (some false) => finishTask o task
      | .prepared write (some true) => sendRetainedEventIfActive o task t write
      | .replay write => sendReplayEventIfActive encodes o task t write

/-- `transport.send` returns, or throws. -/
def transportSendEnded (o : EventOutbox) (task : Nat) (succeeded : Bool) : EventOutbox :=
  match o.writes[task]? with
  | none => o
  | some t =>
    if t.sending then
      match t.body with
      | .replay _ =>
        if succeeded then adjustTask o task fun t => { t with sending := false }
        else finishTask o task
      | _ => finishTask o task
    else o

def cancelReplayCaller (o : EventOutbox) (task : Nat) : EventOutbox :=
  match o.writes[task]? with
  | some { body := .replay { owner := .caller, .. }, .. } => cancelTask o task
  | _ => o

end Srui.Client.EventOutboxes

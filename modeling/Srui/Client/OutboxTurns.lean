import Srui.Basic.Runs
import Srui.Client.EventOutboxes

/-!
The lifecycle of the event outbox: connection bindings, resume attempts, resyncs and
session replacement, and the machine whose steps are the outbox's turns.
-/

namespace Srui.Client.OutboxTurns

open Std SemanticTree.Values SemanticTree.Events Client.EventWindows Client.EventOutboxes

/-! ### Render latches -/

def adoptOrBeginResyncBoundaryCleanup (o : EventOutbox) : EventOutbox :=
  match o.renders.pendingResyncBoundaryCleanup, o.renders.resyncRenderOwnership with
  | none, some ownership =>
    { o with renders := { o.renders with
        resyncRenderOwnership := none,
        pendingResyncBoundaryCleanup :=
          some ⟨ownership.token, o.textAcknowledgementBarriers⟩ } }
  | _, _ => o

def adoptOrBeginLiveRenderInvalidation (o : EventOutbox) : EventOutbox :=
  match o.renders.pendingLiveRenderInvalidation, o.renders.liveRenderOwnership with
  | none, some ownership =>
    { o with renders := { o.renders with
        liveRenderOwnership := none,
        pendingLiveRenderInvalidation := some ownership.token } }
  | _, _ => o

def adoptOrBeginResumeRecoveryRenderInvalidation (o : EventOutbox) : EventOutbox :=
  match o.renders.pendingResumeRecoveryRenderInvalidation,
      o.renders.resumeRecoveryRenderOwnership with
  | none, some ownership =>
    { o with renders := { o.renders with
        resumeRecoveryRenderOwnership := none,
        pendingResumeRecoveryRenderInvalidation :=
          some ⟨ownership.generation, ownership.token⟩ } }
  | _, _ => o

def adoptOrBeginInvalidations (o : EventOutbox) : EventOutbox :=
  adoptOrBeginResumeRecoveryRenderInvalidation
    (adoptOrBeginLiveRenderInvalidation (adoptOrBeginResyncBoundaryCleanup o))

def beginResyncBoundaryTransition (o : EventOutbox) : EventOutbox :=
  { o with resyncBoundaryTransitionEpoch := o.resyncBoundaryTransitionEpoch + 1 }

def applyFullResyncTextBoundaryState (o : EventOutbox) : EventOutbox :=
  { o with textAcknowledgementBarriers := ∅ }

def removeBarriers (o : EventOutbox) (captured : List TextEditAcknowledgementBarrier) :
    EventOutbox :=
  let remaining := captured.foldl (fun barriers barrier =>
      if barriers[barrier.nodeId]? = some barrier then barriers.erase barrier.nodeId
      else barriers) o.textAcknowledgementBarriers
  { o with textAcknowledgementBarriers := remaining }

def finishResyncBoundaryCleanup (o : EventOutbox) (cleanup : PendingResyncBoundaryCleanup)
    (renderedBoundaryEpoch : Option Nat) (transitionEpoch : Nat) : EventOutbox :=
  if o.resyncBoundaryTransitionEpoch = transitionEpoch ∧
      o.renders.pendingResyncBoundaryCleanup.map PendingResyncBoundaryCleanup.token =
        some cleanup.token then
    let o :=
      if renderedBoundaryEpoch.isSome then applyFullResyncTextBoundaryState o
      else removeBarriers o (cleanup.acknowledgementBarriersAtStart.toList.map Prod.snd)
    { o with renders := { o.renders with pendingResyncBoundaryCleanup := none } }
  else o

def finishLiveRenderInvalidation (o : EventOutbox) (token : Token) (transitionEpoch : Nat) :
    EventOutbox :=
  if o.resyncBoundaryTransitionEpoch = transitionEpoch ∧
      o.renders.pendingLiveRenderInvalidation = some token then
    { o with renders := { o.renders with pendingLiveRenderInvalidation := none } }
  else o

def finishResumeRecoveryRenderInvalidation (o : EventOutbox) (token : Token)
    (transitionEpoch : Nat) : EventOutbox :=
  if o.resyncBoundaryTransitionEpoch = transitionEpoch ∧
      o.renders.pendingResumeRecoveryRenderInvalidation.map
        PendingResumeRecoveryRenderInvalidation.token = some token then
    { o with renders := { o.renders with pendingResumeRecoveryRenderInvalidation := none } }
  else o

def RenderLatches.clearOfRenders (r : RenderLatches) : Bool :=
  r.pendingResyncBoundaryCleanup.isNone && r.liveRenderOwnership.isNone &&
    r.pendingLiveRenderInvalidation.isNone && r.resumeRecoveryRenderOwnership.isNone &&
    r.pendingResumeRecoveryRenderInvalidation.isNone

def ownsResyncScope (o : EventOutbox) (generation : Option Nat) (binding : ConnectionBinding) :
    Bool :=
  decide (o.activeConnectionBinding = some binding ∧ o.activeResumeGeneration = generation) &&
    RenderLatches.clearOfRenders o.renders

def ownsResyncRender (o : EventOutbox) (ownership : ResyncRenderOwnership) : Bool :=
  decide (o.renders.resyncRenderOwnership = some ownership)

def ownsResumeRecoveryRender (o : EventOutbox) (ownership : ResumeRecoveryRenderOwnership) :
    Bool :=
  decide (o.activeConnectionBinding = some ownership.binding ∧
    o.activeResumeGeneration = some ownership.generation ∧
    o.renders.resumeRecoveryRenderOwnership = some ownership ∧
    o.renders.pendingResumeRecoveryRenderInvalidation = none)

def dropResyncRender (o : EventOutbox) : EventOutbox :=
  { o with renders := { o.renders with resyncRenderOwnership := none } }

def advanceSessionIncarnation (o : EventOutbox) (binding : ConnectionBinding) :
    Option EventOutbox :=
  match o.activeSessionIncarnation with
  | none => none
  | some current =>
    if o.activeConnectionBinding = some binding ∧ current.binding = binding then
      some { o with activeSessionIncarnation := some ⟨binding, current.sequence + 1⟩ }
    else none

/-! ### Connection bindings -/

/-- `beginConnectionBinding` up to `onActivated`. The process-wide allocator only ever
issues a greater epoch. -/
def beginConnectionBinding (o : EventOutbox) (epoch : ConnectionBinding) : EventOutbox :=
  if o.lastIssuedEpoch < epoch then
    { beginResyncBoundaryTransition o with
        lastIssuedEpoch := epoch,
        activeConnectionBinding := some epoch,
        activeSessionIncarnation := some ⟨epoch, 0⟩ }
  else o

/-- The rest of `beginConnectionBinding`, up to the invalidations it awaits. -/
def activateConnectionBinding (o : EventOutbox) (epoch : ConnectionBinding)
    (transitionEpoch : Nat) : EventOutbox :=
  if o.resyncBoundaryTransitionEpoch = transitionEpoch ∧
      o.activeConnectionBinding = some epoch ∧
      o.activeSessionIncarnation = some ⟨epoch, 0⟩ then
    let o := { o with
      activeResumeGeneration := none,
      pendingResumeFinalizationGeneration := none,
      acceptsNewEvents := false }
    adoptOrBeginInvalidations (cancelPendingWrites (cancelReplayRetryLoop o) false)
  else o

def issueResumeGeneration (o : EventOutbox) : EventOutbox :=
  { o with
      pendingResumeFinalizationGeneration := none,
      lastIssuedResumeGeneration := o.lastIssuedResumeGeneration + 1,
      activeResumeGeneration := some (o.lastIssuedResumeGeneration + 1),
      acceptsNewEvents := false }

/-- `beginResumeAttempt`, up to the invalidations it awaits. -/
def beginResumeAttempt (o : EventOutbox) (binding : ConnectionBinding) : EventOutbox :=
  if o.activeConnectionBinding = some binding then
    adoptOrBeginInvalidations (issueResumeGeneration
      (cancelPendingWrites (cancelReplayRetryLoop (beginResyncBoundaryTransition o)) true))
  else o

/-- The renders `stopResumeWork` invalidates. -/
def adoptOwnedInvalidations (o : EventOutbox) (generation : Nat) : EventOutbox :=
  let o :=
    if o.renders.pendingResyncBoundaryCleanup.isSome ∨
        o.renders.resyncRenderOwnership.map ResyncRenderOwnership.generation =
          some (some generation) then
      adoptOrBeginResyncBoundaryCleanup o
    else o
  if o.renders.pendingResumeRecoveryRenderInvalidation.map
        PendingResumeRecoveryRenderInvalidation.generation = some generation ∨
      o.renders.resumeRecoveryRenderOwnership.map
        ResumeRecoveryRenderOwnership.generation = some generation then
    adoptOrBeginResumeRecoveryRenderInvalidation o
  else o

/-- The latches `stopResumeWork` gives up. -/
def releaseGeneration (o : EventOutbox) (generation : Nat) : EventOutbox :=
  { o with
      activeResumeGeneration :=
        if o.activeResumeGeneration = some generation then none else o.activeResumeGeneration,
      pendingResumeFinalizationGeneration :=
        if o.pendingResumeFinalizationGeneration = some generation then none
        else o.pendingResumeFinalizationGeneration }

def cancelReplayOf (o : EventOutbox) (generation : Nat) : EventOutbox :=
  if o.replayLease.map Lease.resumeScope = some generation then cancelReplayRetryLoop o else o

/-- `stopResumeWork`, up to the invalidations it awaits. -/
def stopResumeWork (o : EventOutbox) (generation : Nat) : EventOutbox :=
  if o.activeResumeGeneration = some generation ∨
      o.pendingResumeFinalizationGeneration = some generation ∨
      o.replayLease.map Lease.resumeScope = some generation then
    { cancelReplayOf (releaseGeneration (adoptOwnedInvalidations
        (beginResyncBoundaryTransition o) generation) generation) generation with
        acceptsNewEvents := false }
  else o

def commitResumeWork (o : EventOutbox) (generation : Nat) : EventOutbox :=
  if o.pendingResumeFinalizationGeneration = some generation then
    { o with pendingResumeFinalizationGeneration := none }
  else o

/-! ### The allocation latch -/

def suspendNewEvents (o : EventOutbox) (binding : ConnectionBinding) : EventOutbox :=
  if o.activeConnectionBinding = some binding then { o with acceptsNewEvents := false } else o

def suspendForTeardown (o : EventOutbox) (binding : ConnectionBinding) : EventOutbox :=
  if o.activeConnectionBinding = some binding then
    cancelPendingWrites (cancelReplayRetryLoop (suspendNewEvents o binding)) true
  else o

def allowNewEvents (o : EventOutbox) (binding : ConnectionBinding) : EventOutbox :=
  if o.activeConnectionBinding = some binding ∧ o.activeResumeGeneration = none ∧
      o.renders.resyncRenderOwnership = none ∧ RenderLatches.clearOfRenders o.renders then
    { o with acceptsNewEvents := true }
  else o

def finishResync (o : EventOutbox) (generation : Nat) : EventOutbox :=
  if o.activeResumeGeneration = some generation ∧
      o.renders.resyncRenderOwnership = none ∧ RenderLatches.clearOfRenders o.renders then
    { o with acceptsNewEvents := true, activeResumeGeneration := none,
             pendingResumeFinalizationGeneration := some generation }
  else o

/-- The resync render a call found when it began, re-checked after its invalidation.
Only the binding and the token are compared. -/
def resyncRenderUnchanged (o : EventOutbox) (captured : Option ResyncRenderOwnership) : Bool :=
  match captured, o.renders.resyncRenderOwnership with
  | none, none => true
  | some captured, some current =>
    decide (current.binding = captured.binding ∧ current.token = captured.token)
  | _, _ => false

/-- `confirmFreshSession`; the last turn of it if a resync render had to be invalidated. -/
def confirmFreshSession (o : EventOutbox) (id : String) (binding : ConnectionBinding)
    (captured : Option ResyncRenderOwnership) : EventOutbox :=
  if o.activeConnectionBinding = some binding ∧ o.activeResumeGeneration = none ∧
      resyncRenderUnchanged o captured then
    let o := if captured.isSome then applyFullResyncTextBoundaryState (dropResyncRender o) else o
    { cancelReplayRetryLoop o with
        pendingResumeFinalizationGeneration := none,
        activeSessionId := some id,
        acceptsNewEvents := true }
  else o

/-! ### Resync renders -/

/-- The publication in `commitValidatedResyncSnapshot`. -/
def commitResyncSnapshot (o : EventOutbox) (generation : Option Nat)
    (binding : ConnectionBinding) (sessionIncarnation : SessionIncarnation) (committed : Bool) :
    EventOutbox :=
  if ownsResyncScope o generation binding ∧
      o.activeSessionIncarnation = some sessionIncarnation ∧ committed then
    (advanceSessionIncarnation o binding).getD o
  else o

/-- What binding, incarnation and reconnect latch must still be after a native
callback: the answer of `performNativeTextLifecycle`. -/
def lifecycleUnchanged (o : EventOutbox) (binding : ConnectionBinding)
    (sessionIncarnation : SessionIncarnation) (resumeGeneration : Option Nat) : Bool :=
  decide (o.activeConnectionBinding = some binding ∧
    o.activeSessionIncarnation = some sessionIncarnation ∧
    o.activeResumeGeneration = resumeGeneration)

/-- The render token `commitValidatedResyncSnapshot` takes after its native callback. -/
def activateResyncRender (o : EventOutbox) (generation : Option Nat)
    (binding : ConnectionBinding) (sessionIncarnation : SessionIncarnation) (token : Token) :
    EventOutbox :=
  if lifecycleUnchanged o binding sessionIncarnation generation then
    { o with renders := { o.renders with
        resyncRenderOwnership := some ⟨generation, binding, token⟩ } }
  else o

/-- `applyFullResyncTextBoundary` after the fence consumed its token. -/
def applyFullResyncTextBoundary (o : EventOutbox) (ownership : ResyncRenderOwnership) :
    EventOutbox :=
  if ownsResyncScope o ownership.generation ownership.binding ∧ ownsResyncRender o ownership then
    dropResyncRender (applyFullResyncTextBoundaryState o)
  else o

/-- `abortResyncRender`, up to the invalidation it awaits. -/
def abortResyncRender (o : EventOutbox) (ownership : ResyncRenderOwnership) : EventOutbox :=
  if ownsResyncScope o ownership.generation ownership.binding ∧ ownsResyncRender o ownership then
    applyFullResyncTextBoundaryState { o with acceptsNewEvents := false }
  else o

/-- The last turn of `abortResyncRender`. -/
def abandonResyncRender (o : EventOutbox) (ownership : ResyncRenderOwnership) : EventOutbox :=
  if ownsResyncRender o ownership then dropResyncRender o else o

def commitLiveRender (o : EventOutbox) (binding : ConnectionBinding)
    (supplied : Option SessionIncarnation) (committed : Bool) (token : Token) : EventOutbox :=
  match resolveSessionIncarnation o supplied binding with
  | none => o
  | some sessionIncarnation =>
    if o.activeResumeGeneration = none ∧ o.acceptsNewEvents = true ∧
        o.renders.resyncRenderOwnership = none ∧ RenderLatches.clearOfRenders o.renders ∧
        committed then
      { o with renders := { o.renders with
          liveRenderOwnership := some ⟨binding, sessionIncarnation, token⟩ } }
    else o

/-- `completeLiveRender` after the fence consumed its token. -/
def completeLiveRender (o : EventOutbox) (ownership : LiveRenderOwnership) : EventOutbox :=
  if o.activeConnectionBinding = some ownership.binding ∧
      o.activeSessionIncarnation = some ownership.sessionIncarnation ∧
      o.renders.liveRenderOwnership = some ownership then
    { o with renders := { o.renders with liveRenderOwnership := none } }
  else o

def beginResumeRecoveryRender (o : EventOutbox) (binding : ConnectionBinding)
    (generation : Nat) (token : Token) : EventOutbox :=
  if o.activeConnectionBinding = some binding ∧ o.activeResumeGeneration = some generation ∧
      o.acceptsNewEvents = false ∧ o.renders.resyncRenderOwnership = none ∧
      RenderLatches.clearOfRenders o.renders then
    { o with renders := { o.renders with
        resumeRecoveryRenderOwnership := some ⟨generation, binding, token⟩ } }
  else o

/-- `completeResumeRecoveryRender` after the fence consumed its token, and the last
turn of `abortResumeRecoveryRender`. -/
def completeResumeRecoveryRender (o : EventOutbox) (ownership : ResumeRecoveryRenderOwnership) :
    EventOutbox :=
  if ownsResumeRecoveryRender o ownership then
    { o with renders := { o.renders with resumeRecoveryRenderOwnership := none } }
  else o

/-- `abortResumeRecoveryRender`, up to the invalidation it awaits. -/
def abortResumeRecoveryRender (o : EventOutbox) (ownership : ResumeRecoveryRenderOwnership) :
    EventOutbox :=
  if ownsResumeRecoveryRender o ownership then { o with acceptsNewEvents := false } else o

/-- The last turn of `releaseTextAcknowledgements`. -/
def releaseTextAcknowledgements (o : EventOutbox) (ready : List TextEditAcknowledgementBarrier)
    (binding : ConnectionBinding) (sessionIncarnation : SessionIncarnation) : EventOutbox :=
  if o.activeConnectionBinding = some binding ∧
      o.activeSessionIncarnation = some sessionIncarnation then removeBarriers o ready
  else o

/-! ### Same-session resume -/

/-- The part of `prepareSameSessionResume` after a discard list, if there is one, was
cancelled. -/
def adoptResumeFrontier (o : EventOutbox) (id : String) (lastProcessedEventSeq generation : Nat)
    (binding : ConnectionBinding) (sessionIncarnation : SessionIncarnation) : EventOutbox :=
  let settled := acknowledgeEventsThrough { o with activeSessionId := some id }
    lastProcessedEventSeq
  let o := settled.1
  { o with
      lifecycleAuthorizedPreparedTextEdits :=
        o.lifecycleSuspendedPreparedTextEdits.toList.foldl
          (fun edits entry => edits.insertIfNew entry.1 entry.2)
          o.lifecycleAuthorizedPreparedTextEdits,
      lifecycleSuspendedPreparedTextEdits := ∅,
      preparations := o.preparations ++ [⟨id, generation, binding, sessionIncarnation,
        settled.2.filter fun event => decide (event.eventType = eventTextEdit),
        assignedTextEditEvents o.window⟩] }

/-- The last turn of `prepareSameSessionResume`, and the only one when there is no
native callback to run. -/
def prepareSameSessionResume (o : EventOutbox) (id : String)
    (lastProcessedEventSeq generation : Nat) (binding : ConnectionBinding)
    (sessionIncarnation : SessionIncarnation) (discarded : Option (List PendingTextEditRef))
    (requireExactTextMatch : Bool) : Except EventOutboxError EventOutbox :=
  if lifecycleUnchanged o binding sessionIncarnation (some generation) then
    match discarded with
    | none =>
      .ok (adoptResumeFrontier o id lastProcessedEventSeq generation binding sessionIncarnation)
    | some refs =>
      match confirmingRefs refs requireExactTextMatch with
      | none => .error .textEditDiscardMismatch
      | some confirming =>
        match cancelAssignedTextEdits o confirming requireExactTextMatch with
        | .error e => .error e
        | .ok o =>
          .ok (adoptResumeFrontier o id lastProcessedEventSeq generation binding
            sessionIncarnation)
  else .ok o

/-- The guard both turns of `completeSameSessionResume` start with. -/
def ownsPreparation (o : EventOutbox) (preparation : SameSessionResumePreparation) : Bool :=
  lifecycleUnchanged o preparation.binding preparation.sessionIncarnation
    (some preparation.generation) && decide (o.activeSessionId = some preparation.sessionId)

/-- `completeSameSessionResume`, up to the replay it awaits. A preparation comes from
`prepareSameSessionResume`. -/
def replayPreparation (o : EventOutbox) (preparation : SameSessionResumePreparation) :
    EventOutbox :=
  if preparation ∈ o.preparations ∧ ownsPreparation o preparation then
    resendPendingEvents o preparation.binding (some preparation.sessionIncarnation) .caller
  else o

def startReplayRetryLoop (o : EventOutbox) (generation : Nat) (binding : ConnectionBinding)
    (sessionIncarnation : SessionIncarnation) (token : Token) : EventOutbox :=
  let o := cancelReplayRetryLoop o
  if o.activeConnectionBinding = some binding ∧ o.activeResumeGeneration = some generation ∧
      o.window.pendingEvents.isEmpty = false then
    { o with replayLease := some ⟨generation, token, binding, sessionIncarnation⟩ }
  else o

/-- The turn of `completeSameSessionResume` after its replay. -/
def completeSameSessionResume (o : EventOutbox) (preparation : SameSessionResumePreparation)
    (enableNewEventsAfterReplay : Bool) (token : Token) : EventOutbox :=
  if preparation ∈ o.preparations ∧ ownsPreparation o preparation then
    let o := startReplayRetryLoop { o with acceptsNewEvents := enableNewEventsAfterReplay }
      preparation.generation preparation.binding preparation.sessionIncarnation token
    if enableNewEventsAfterReplay then
      { o with activeResumeGeneration := none,
               pendingResumeFinalizationGeneration := some preparation.generation }
    else o
  else o

/-- `replayPendingEvents`, which the retry loop calls, up to the replay it awaits. -/
def replayPendingEvents (o : EventOutbox) : EventOutbox :=
  match o.replayLease with
  | none => o
  | some lease =>
    if o.activeConnectionBinding = some lease.binding ∧
        o.activeSessionIncarnation = some lease.sessionIncarnation ∧
        o.window.pendingEvents.isEmpty = false then
      resendPendingEvents o lease.binding (some lease.sessionIncarnation) (.loop lease)
    else o

def finishReplayRetryLoop (o : EventOutbox) : EventOutbox :=
  match o.replayLease with
  | none => o
  | some lease =>
    if o.writes.all fun t => !t.ownedBy lease || t.finished then { o with replayLease := none }
    else o

/-! ### Live resync and replacement -/

/-- The first turn of the live-resync calls and of `applyReplacementFrontier`. -/
def closeAllocation (o : EventOutbox) (binding : ConnectionBinding) : EventOutbox :=
  if o.activeConnectionBinding = some binding ∧ o.activeResumeGeneration = none then
    { o with acceptsNewEvents := false }
  else o

/-- `applyLiveResyncFrontier`; the last turn of it if a resync render had to be
invalidated. -/
def applyLiveResyncFrontier (o : EventOutbox) (lastProcessedEventSeq : Nat)
    (binding : ConnectionBinding) (captured : Option ResyncRenderOwnership) : EventOutbox :=
  if o.activeConnectionBinding = some binding ∧ o.activeResumeGeneration = none ∧
      resyncRenderUnchanged o captured then
    let o := if captured.isSome then dropResyncRender o else { o with acceptsNewEvents := false }
    (acknowledgeEventsThrough o lastProcessedEventSeq).1
  else o

/-- `applyLiveSameSessionResync` gives up the resync render it found. -/
def releaseLiveResyncRender (o : EventOutbox) (sessionIncarnation : SessionIncarnation)
    (captured : ResyncRenderOwnership) : EventOutbox :=
  if lifecycleUnchanged o captured.binding sessionIncarnation none ∧ ownsResyncRender o captured then
    dropResyncRender o
  else o

/-- The last turn of `applyLiveSameSessionResync`. -/
def applyLiveSameSessionResync (o : EventOutbox) (lastProcessedEventSeq : Nat)
    (binding : ConnectionBinding) (sessionIncarnation : SessionIncarnation)
    (assigned : List PendingTextEditDescriptor) : Except EventOutboxError EventOutbox :=
  if lifecycleUnchanged o binding sessionIncarnation none ∧
      (assigned.all fun ref => decide (ref.eventSeq ≤ lastProcessedEventSeq)) then
    match cancelAssignedTextEdits o assigned true with
    | .error e => .error e
    | .ok o => .ok (acknowledgeEventsThrough o lastProcessedEventSeq).1
  else .ok o

/-- `applyReplacementFrontier` and `prepareReplacedSession` up to their native callback;
only the former has no generation, and it closes allocation first. -/
def beginReplacement (o : EventOutbox) (generation : Option Nat) (binding : ConnectionBinding)
    (captured : Option ResyncRenderOwnership) : EventOutbox :=
  if o.activeConnectionBinding = some binding ∧ o.activeResumeGeneration = generation ∧
      resyncRenderUnchanged o captured then
    let o := if generation = none ∧ captured = none then { o with acceptsNewEvents := false } else o
    let o := if captured.isSome then dropResyncRender o else o
    (advanceSessionIncarnation o binding).getD o
  else o

/-- What `applyReplacementFrontierState` does before it cuts the write chain. A new
session lifetime begins. -/
def abandonIntents (o : EventOutbox) (id : String) (lastProcessedEventSeq : Nat) : EventOutbox :=
  { cancelReplayRetryLoop o with
      pendingResumeFinalizationGeneration := none,
      activeSessionId := some id,
      acceptsNewEvents := false,
      window := SequenceWindow.startingAt lastProcessedEventSeq,
      textAcknowledgementBarriers := ∅,
      sent := [] }

def forgetPreparedEdits (o : EventOutbox) : EventOutbox :=
  { o with
      lifecycleSuspendedPreparedTextEdits := ∅,
      lifecycleAuthorizedPreparedTextEdits := ∅,
      fence := {} }

/-- The last turn of both: `applyReplacementFrontierState`. -/
def applyReplacementFrontierState (o : EventOutbox) (id : String) (lastProcessedEventSeq : Nat)
    (generation : Option Nat) (binding : ConnectionBinding)
    (sessionIncarnation : SessionIncarnation) : EventOutbox :=
  if lifecycleUnchanged o binding sessionIncarnation generation then
    forgetPreparedEdits (cancelPendingWrites (abandonIntents o id lastProcessedEventSeq) true)
  else o

/-! ### Acknowledgements from the wire -/

structure Acknowledgement where
  clientInstanceId : ClientInstanceId
  eventId : EventId
  settledEventSeq : Option Nat
  throughSeq : Nat
  sessionId : String
  revisionAfterEffect : Option Nat
  textEditRejected : Bool
deriving DecidableEq

/-- The event that an acknowledgement names; `none` when it does not bind. -/
def namedEvent (w : SequenceWindow) (ack : Acknowledgement) : Option (Option Event) :=
  match ack.settledEventSeq with
  | none => some w.pendingEvents[ack.eventId]?
  | some settledEventSeq =>
    if w.currentEventSeq < settledEventSeq then none
    else
      let eventBySequence := (pendingValues w).find? fun event =>
        decide (event.eventSeq = settledEventSeq)
      if ack.textEditRejected then some eventBySequence
      else
        match w.pendingEvents[ack.eventId]? with
        | some event => if event.eventSeq = settledEventSeq then some (some event) else none
        | none => if eventBySequence.isSome then none else some none

def settledIdentity (ack : Acknowledgement) (event : Option Event) : Option EventId :=
  if ack.settledEventSeq = none then some ack.eventId else event.map DomainEvent.eventId

def raiseBarrier (ack : Acknowledgement) (identity : Option EventId)
    (barriers : ExtTreeMap NodeId TextEditAcknowledgementBarrier) (event : Event) :
    ExtTreeMap NodeId TextEditAcknowledgementBarrier :=
  if event.eventType = eventTextEdit then
    let effectRevision := ack.revisionAfterEffect.getD 0
    let barrier : TextEditAcknowledgementBarrier :=
      ⟨event.nodeId, event.eventId, effectRevision,
        if some event.eventId = identity then ack.textEditRejected else true⟩
    match barriers[event.nodeId]? with
    | some current =>
      if current.revisionAfterEffect ≤ effectRevision then barriers.insert event.nodeId barrier
      else barriers
    | none => barriers.insert event.nodeId barrier
  else barriers

def settleAcknowledgement (o : EventOutbox) (binding : ConnectionBinding)
    (supplied : Option SessionIncarnation) (ack : Acknowledgement) : EventOutbox :=
  match resolveSessionIncarnation o supplied binding with
  | none => o
  | some _ =>
    if ack.clientInstanceId = o.clientInstanceId ∧ ack.sessionId ≠ "" ∧
        o.activeSessionId = some ack.sessionId then
      match namedEvent o.window ack with
      | none => o
      | some event =>
        let identity := settledIdentity ack event
        let settled := acknowledgeEventsThrough o ack.throughSeq
        let settledEvents :=
          match event with
          | none => settled.2
          | some event =>
            if settled.2.any fun other => decide (other.eventId = event.eventId) then
              settled.2
            else (settled.2 ++ [event]).insertionSort bySequence
        let barriers := settledEvents.foldl (raiseBarrier ack identity)
          settled.1.textAcknowledgementBarriers
        let o := { settled.1 with textAcknowledgementBarriers := barriers }
        match identity with
        | none => o
        | some id => acknowledgeEventId o id
    else o

/-! ### The machine -/

inductive Turn where
  | allocateAndSend (draft : EventDraft) (observedRevision : Revision) (nodeId : NodeId)
      (binding : ConnectionBinding) (sessionIncarnation : SessionIncarnation) (eventId : EventId)
  | prepareTextEdit (nodeId : NodeId) (value : String) (editSeq : EditSeq)
      (observedRevision : Revision) (binding : ConnectionBinding)
      (supplied : Option SessionIncarnation) (eventId : EventId) (token : Token)
  | notePreparedTextEditAssigned (eventId : EventId)
  | revokeUnauthorizedPreparedTextEdit (eventId : EventId)
  | authorizePreparedTextEdit (prepared : PreparedTextEdit)
  | releasePreparedTextEdit (prepared : PreparedTextEdit)
  | rejectPreparedTextEdit (prepared : PreparedTextEdit)
  | cancelAssignedTextEdits (confirming : List PendingTextEditDescriptor)
      (requireExactMatch : Bool)
  | cancelAssignedTextEditsOnlyIf (refs : List PendingTextEditRef) (requireExactMatch : Bool)
      (generation : Option Nat)
  | settleAcknowledgement (binding : ConnectionBinding) (supplied : Option SessionIncarnation)
      (ack : Acknowledgement)
  | resendPendingEvents (binding : ConnectionBinding) (supplied : Option SessionIncarnation)
  | beginConnectionBinding (epoch : ConnectionBinding)
  | activateConnectionBinding (epoch : ConnectionBinding) (transitionEpoch : Nat)
  | finishResyncBoundaryCleanup (cleanup : PendingResyncBoundaryCleanup)
      (renderedBoundaryEpoch : Option Nat) (transitionEpoch : Nat)
  | finishLiveRenderInvalidation (token : Token) (transitionEpoch : Nat)
  | finishResumeRecoveryRenderInvalidation (token : Token) (transitionEpoch : Nat)
  | beginResumeAttempt (binding : ConnectionBinding)
  | prepareSameSessionResume (id : String) (lastProcessedEventSeq generation : Nat)
      (binding : ConnectionBinding) (sessionIncarnation : SessionIncarnation)
      (discarded : Option (List PendingTextEditRef)) (requireExactTextMatch : Bool)
  | replayPreparation (preparation : SameSessionResumePreparation)
  | completeSameSessionResume (preparation : SameSessionResumePreparation)
      (enableNewEventsAfterReplay : Bool) (token : Token)
  | replayPendingEvents
  | finishReplayRetryLoop
  | commitResumeWork (generation : Nat)
  | stopResumeWork (generation : Nat)
  | confirmFreshSession (id : String) (binding : ConnectionBinding)
      (captured : Option ResyncRenderOwnership)
  | suspendNewEvents (binding : ConnectionBinding)
  | suspendForTeardown (binding : ConnectionBinding)
  | allowNewEvents (binding : ConnectionBinding)
  | finishResync (generation : Nat)
  | commitResyncSnapshot (generation : Option Nat) (binding : ConnectionBinding)
      (sessionIncarnation : SessionIncarnation) (committed : Bool)
  | activateResyncRender (generation : Option Nat) (binding : ConnectionBinding)
      (sessionIncarnation : SessionIncarnation) (token : Token)
  | applyFullResyncTextBoundary (ownership : ResyncRenderOwnership)
  | abortResyncRender (ownership : ResyncRenderOwnership)
  | abandonResyncRender (ownership : ResyncRenderOwnership)
  | commitLiveRender (binding : ConnectionBinding) (supplied : Option SessionIncarnation)
      (committed : Bool) (token : Token)
  | completeLiveRender (ownership : LiveRenderOwnership)
  | beginResumeRecoveryRender (binding : ConnectionBinding) (generation : Nat) (token : Token)
  | completeResumeRecoveryRender (ownership : ResumeRecoveryRenderOwnership)
  | abortResumeRecoveryRender (ownership : ResumeRecoveryRenderOwnership)
  | releaseTextAcknowledgements (ready : List TextEditAcknowledgementBarrier)
      (binding : ConnectionBinding) (sessionIncarnation : SessionIncarnation)
  | closeAllocation (binding : ConnectionBinding)
  | applyLiveResyncFrontier (lastProcessedEventSeq : Nat) (binding : ConnectionBinding)
      (captured : Option ResyncRenderOwnership)
  | releaseLiveResyncRender (sessionIncarnation : SessionIncarnation)
      (captured : ResyncRenderOwnership)
  | applyLiveSameSessionResync (lastProcessedEventSeq : Nat) (binding : ConnectionBinding)
      (sessionIncarnation : SessionIncarnation) (assigned : List PendingTextEditDescriptor)
  | beginReplacement (generation : Option Nat) (binding : ConnectionBinding)
      (captured : Option ResyncRenderOwnership)
  | applyReplacementFrontierState (id : String) (lastProcessedEventSeq : Nat)
      (generation : Option Nat) (binding : ConnectionBinding)
      (sessionIncarnation : SessionIncarnation)
  | runWrite (task : Nat)
  | transportSendEnded (task : Nat) (succeeded : Bool)
  | cancelReplayCaller (task : Nat)

def unlessThrown (o : EventOutbox) : Except EventOutboxError EventOutbox → EventOutbox
  | .ok next => next
  | .error _ => o

def step (encodes : Event → Bool) (o : EventOutbox) : Turn → EventOutbox
  | .allocateAndSend draft observedRevision nodeId binding sessionIncarnation eventId =>
    (allocateAndSend encodes o binding sessionIncarnation
      (draft.makeEvent o.clientInstanceId observedRevision nodeId eventId)).1
  | .prepareTextEdit nodeId value editSeq observedRevision binding supplied eventId token =>
    (prepareTextEdit encodes o nodeId value editSeq observedRevision binding supplied eventId
      token).1
  | .notePreparedTextEditAssigned eventId => notePreparedTextEditAssigned o eventId
  | .revokeUnauthorizedPreparedTextEdit eventId => revokeUnauthorizedPreparedTextEdit o eventId
  | .authorizePreparedTextEdit prepared => (authorizePreparedTextEdit o prepared).1
  | .releasePreparedTextEdit prepared => releasePreparedTextEdit o prepared
  | .rejectPreparedTextEdit prepared => (rejectPreparedTextEdit o prepared).1
  | .cancelAssignedTextEdits confirming requireExactMatch =>
    unlessThrown o (cancelAssignedTextEdits o confirming requireExactMatch)
  | .cancelAssignedTextEditsOnlyIf refs requireExactMatch generation =>
    unlessThrown o (cancelAssignedTextEditsOnlyIf o refs requireExactMatch generation)
  | .settleAcknowledgement binding supplied ack => settleAcknowledgement o binding supplied ack
  | .resendPendingEvents binding supplied => resendPendingEvents o binding supplied .caller
  | .beginConnectionBinding epoch => beginConnectionBinding o epoch
  | .activateConnectionBinding epoch transitionEpoch =>
    activateConnectionBinding o epoch transitionEpoch
  | .finishResyncBoundaryCleanup cleanup renderedBoundaryEpoch transitionEpoch =>
    finishResyncBoundaryCleanup o cleanup renderedBoundaryEpoch transitionEpoch
  | .finishLiveRenderInvalidation token transitionEpoch =>
    finishLiveRenderInvalidation o token transitionEpoch
  | .finishResumeRecoveryRenderInvalidation token transitionEpoch =>
    finishResumeRecoveryRenderInvalidation o token transitionEpoch
  | .beginResumeAttempt binding => beginResumeAttempt o binding
  | .prepareSameSessionResume id lastProcessedEventSeq generation binding sessionIncarnation
      discarded requireExactTextMatch =>
    unlessThrown o (prepareSameSessionResume o id lastProcessedEventSeq generation binding
      sessionIncarnation discarded requireExactTextMatch)
  | .replayPreparation preparation => replayPreparation o preparation
  | .completeSameSessionResume preparation enableNewEventsAfterReplay token =>
    completeSameSessionResume o preparation enableNewEventsAfterReplay token
  | .replayPendingEvents => replayPendingEvents o
  | .finishReplayRetryLoop => finishReplayRetryLoop o
  | .commitResumeWork generation => commitResumeWork o generation
  | .stopResumeWork generation => stopResumeWork o generation
  | .confirmFreshSession id binding captured => confirmFreshSession o id binding captured
  | .suspendNewEvents binding => suspendNewEvents o binding
  | .suspendForTeardown binding => suspendForTeardown o binding
  | .allowNewEvents binding => allowNewEvents o binding
  | .finishResync generation => finishResync o generation
  | .commitResyncSnapshot generation binding sessionIncarnation committed =>
    commitResyncSnapshot o generation binding sessionIncarnation committed
  | .activateResyncRender generation binding sessionIncarnation token =>
    activateResyncRender o generation binding sessionIncarnation token
  | .applyFullResyncTextBoundary ownership => applyFullResyncTextBoundary o ownership
  | .abortResyncRender ownership => abortResyncRender o ownership
  | .abandonResyncRender ownership => abandonResyncRender o ownership
  | .commitLiveRender binding supplied committed token =>
    commitLiveRender o binding supplied committed token
  | .completeLiveRender ownership => completeLiveRender o ownership
  | .beginResumeRecoveryRender binding generation token =>
    beginResumeRecoveryRender o binding generation token
  | .completeResumeRecoveryRender ownership => completeResumeRecoveryRender o ownership
  | .abortResumeRecoveryRender ownership => abortResumeRecoveryRender o ownership
  | .releaseTextAcknowledgements ready binding sessionIncarnation =>
    releaseTextAcknowledgements o ready binding sessionIncarnation
  | .closeAllocation binding => closeAllocation o binding
  | .applyLiveResyncFrontier lastProcessedEventSeq binding captured =>
    applyLiveResyncFrontier o lastProcessedEventSeq binding captured
  | .releaseLiveResyncRender sessionIncarnation captured =>
    releaseLiveResyncRender o sessionIncarnation captured
  | .applyLiveSameSessionResync lastProcessedEventSeq binding sessionIncarnation assigned =>
    unlessThrown o (applyLiveSameSessionResync o lastProcessedEventSeq binding
      sessionIncarnation assigned)
  | .beginReplacement generation binding captured =>
    beginReplacement o generation binding captured
  | .applyReplacementFrontierState id lastProcessedEventSeq generation binding
      sessionIncarnation =>
    applyReplacementFrontierState o id lastProcessedEventSeq generation binding
      sessionIncarnation
  | .runWrite task => runWrite encodes o task
  | .transportSendEnded task succeeded => transportSendEnded o task succeeded
  | .cancelReplayCaller task => cancelReplayCaller o task

end Srui.Client.OutboxTurns

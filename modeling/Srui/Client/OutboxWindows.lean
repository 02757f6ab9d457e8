import Srui.Client.OutboxTurns
import Srui.Client.WindowIntegrity

/-!
Every turn of the outbox moves its send window by the window's own operations, so the
window is sound in every state the outbox can reach.
-/

namespace Srui.Client.OutboxWindows

open Std Basic.Runs SemanticTree.Values SemanticTree.Events Client.EventWindows
open Client.WindowIntegrity Client.EventOutboxes Client.OutboxTurns

/-- What the window's operations can make of a window. Only with word from the server,
when `settles`, do they touch what it has acknowledged. -/
inductive Moves (maxPendingEvents : Nat) (settles : Prop) :
    SequenceWindow → SequenceWindow → Prop where
  | stay (w) : Moves maxPendingEvents settles w w
  | allocate {encodes makeEvent w w' event} (hmake : ∀ n, (makeEvent n).eventSeq = n)
      (hok : allocate encodes maxPendingEvents w makeEvent = .ok (w', event)) :
      Moves maxPendingEvents settles w w'
  | acknowledge (hsettles : settles) (w id) :
      Moves maxPendingEvents settles w (acknowledgeEvent w id)
  | acknowledgeThrough (hsettles : settles) (w seq) :
      Moves maxPendingEvents settles w (acknowledgeEvents w seq).1
  | cancel (hsettles : settles) {w refs requireExactMatch condemned}
      (hok : textEditsToCancel w refs requireExactMatch = .ok condemned) :
      Moves maxPendingEvents settles w (cancelTextEdits w condemned)
  | rollBack (w event) : Moves maxPendingEvents settles w (rollBack w event).1
  | restart (hsettles : settles) (w frontier) :
      Moves maxPendingEvents settles w (SequenceWindow.startingAt frontier)
  | trans {a b c} : Moves maxPendingEvents settles a b → Moves maxPendingEvents settles b c →
      Moves maxPendingEvents settles a c

variable {settles : Prop}

variable {w : SequenceWindow} {maxPendingEvents : Nat}

theorem Moves.windowed {w' : SequenceWindow}
    (h : Moves maxPendingEvents settles w w') (hw : Windowed maxPendingEvents w) :
    Windowed maxPendingEvents w' := by
  induction h with
  | stay w => exact hw
  | allocate hmake hok => exact hw.allocate hmake hok
  | acknowledge _ w id => exact hw.acknowledgeEvent id
  | acknowledgeThrough _ w seq => exact hw.acknowledgeEvents seq
  | cancel _ hok =>
    obtain ⟨hnodup, hpending⟩ := textEditsToCancel_pending hw.listed hok
    refine hw.cancelTextEdits hnodup ?_
    intro ref href
    obtain ⟨e, he, -⟩ := hpending ref href
    exact ⟨e, he⟩
  | rollBack w event => exact hw.rollBack event
  | restart _ w frontier => exact windowed_startingAt frontier
  | trans _ _ ih ih' => exact ih' (ih hw)

theorem moves_rollBacks (events : List Event) (w : SequenceWindow) :
    Moves maxPendingEvents settles w
      (events.foldl (fun window event => (rollBack window event).1) w) := by
  induction events generalizing w with
  | nil => exact Moves.stay w
  | cons event rest ih => exact (Moves.rollBack w event).trans (ih _)

/-! ### What leaves the writes alone -/

theorem foldl_keeps {σ ι τ : Type} {f : σ → ι → σ} (part : σ → τ)
    (h : ∀ s i, part (f s i) = part s) (l : List ι) (s : σ) : part (l.foldl f s) = part s := by
  induction l generalizing s with
  | nil => rfl
  | cons i rest ih => exact (ih _).trans (h s i)

theorem map_modify {α β : Type} (g : α → β) (f : α → α) (f' : β → β)
    (h : ∀ a, g (f a) = f' (g a)) (l : List α) (n : Nat) :
    (l.modify n f).map g = (l.map g).modify n f' := by
  apply List.ext_getElem?
  intro i
  rw [List.getElem?_map, List.getElem?_modify, List.getElem?_modify, List.getElem?_map]
  rcases l[i]? with - | a
  · rfl
  · rcases Classical.em (n = i) with heq | hne
    · simp [heq, h]
    · simp [hne]

/-- What transmission depends on. Whether a task was cancelled is left out. -/
structure WriteView where
  maxPendingEvents : Nat
  window : SequenceWindow
  sent : List Transmission
  tasks : List WriteTask
  slots : ExtTreeMap Token PreparedTextEditSend
  suspended : ExtTreeMap Token Event
  sendTail : Option Nat
  chain : Nat
  binding : Option ConnectionBinding
  incarnation : Option SessionIncarnation
  lastIssuedEpoch : Nat

def WriteTask.uncancelled (t : WriteTask) : WriteTask := { t with cancelled := false }

def view (o : EventOutbox) : WriteView where
  maxPendingEvents := o.maxPendingEvents
  window := o.window
  sent := o.sent
  tasks := o.writes.map WriteTask.uncancelled
  slots := o.preparedTextEditSends
  suspended := o.lifecycleSuspendedPreparedTextEdits
  sendTail := o.sendTail
  chain := o.chain
  binding := o.activeConnectionBinding
  incarnation := o.activeSessionIncarnation
  lastIssuedEpoch := o.lastIssuedEpoch

/-- The view after `enqueueSend`. -/
def WriteView.enqueue (v : WriteView) (body : WriteBody) : WriteView :=
  { v with tasks := v.tasks ++ [{ body := body, predecessor := v.sendTail, chain := v.chain }],
           sendTail := some v.tasks.length }

def core (o : EventOutbox) : Nat × SequenceWindow × List Transmission :=
  (o.maxPendingEvents, o.window, o.sent)

variable {resets : Prop} {encodes : Event → Bool} {o o' o'' : EventOutbox}

theorem core_of_view (h : view o' = view o) : core o' = core o :=
  congrArg (fun v => (v.maxPendingEvents, v.window, v.sent)) h

theorem view_adjustTask (f f' : WriteTask → WriteTask)
    (h : ∀ t, WriteTask.uncancelled (f t) = f' (WriteTask.uncancelled t)) (n : Nat) :
    view (adjustTask o n f) = { view o with tasks := (view o).tasks.modify n f' } := by
  simp only [view, adjustTask, map_modify _ f f' h]

@[simp] theorem view_cancelTask (n : Nat) : view (cancelTask o n) = view o := by
  have hsame : (o.writes.modify n fun t => { t with cancelled := true }).map
      WriteTask.uncancelled = o.writes.map WriteTask.uncancelled := by
    rw [map_modify WriteTask.uncancelled (fun t => { t with cancelled := true }) id
      (fun _ => rfl)]
    apply List.ext_getElem?
    intro i
    rw [List.getElem?_modify]
    simp
  simp only [view, cancelTask, adjustTask, hsame]

@[simp] theorem view_cancelReplayRetryLoop : view (cancelReplayRetryLoop o) = view o := by
  rw [cancelReplayRetryLoop]
  split
  · rfl
  · rename_i lease _
    have hsame : (o.writes.map fun t =>
        if t.ownedBy lease then { t with cancelled := true } else t).map WriteTask.uncancelled =
          o.writes.map WriteTask.uncancelled := by
      rw [List.map_map]
      apply List.map_congr_left
      intro t _
      show WriteTask.uncancelled (if t.ownedBy lease then _ else t) = _
      split <;> rfl
    simp only [view, hsame]

@[simp] theorem view_cancelReplayRetryLoopIfSettled :
    view (cancelReplayRetryLoopIfSettled o) = view o := by
  rw [cancelReplayRetryLoopIfSettled]
  split
  · exact view_cancelReplayRetryLoop
  · rfl

theorem view_retireAll {ι : Type} (id : ι → EventId) (l : List ι) :
    view (l.foldl (fun o i => retire o (id i)) o) = view o :=
  foldl_keeps (f := fun o i => retire o (id i)) view (fun _ _ => rfl) l o

@[simp] theorem view_adoptOrBeginResyncBoundaryCleanup :
    view (adoptOrBeginResyncBoundaryCleanup o) = view o := by
  rw [adoptOrBeginResyncBoundaryCleanup]
  split <;> rfl

@[simp] theorem view_adoptOrBeginLiveRenderInvalidation :
    view (adoptOrBeginLiveRenderInvalidation o) = view o := by
  rw [adoptOrBeginLiveRenderInvalidation]
  split <;> rfl

@[simp] theorem view_adoptOrBeginResumeRecoveryRenderInvalidation :
    view (adoptOrBeginResumeRecoveryRenderInvalidation o) = view o := by
  rw [adoptOrBeginResumeRecoveryRenderInvalidation]
  split <;> rfl

@[simp] theorem view_adoptOrBeginInvalidations :
    view (adoptOrBeginInvalidations o) = view o := by
  rw [adoptOrBeginInvalidations, view_adoptOrBeginResumeRecoveryRenderInvalidation,
    view_adoptOrBeginLiveRenderInvalidation, view_adoptOrBeginResyncBoundaryCleanup]

theorem view_adoptOwnedInvalidations (generation : Nat) :
    view (adoptOwnedInvalidations o generation) = view o := by
  rw [adoptOwnedInvalidations]
  split <;> split <;> simp

theorem view_cancelReplayOf (generation : Nat) : view (cancelReplayOf o generation) = view o := by
  rw [cancelReplayOf]
  split
  · exact view_cancelReplayRetryLoop
  · rfl

theorem view_stopResumeWork (generation : Nat) : view (stopResumeWork o generation) = view o := by
  rw [stopResumeWork]
  split
  swap
  · rfl
  calc view (cancelReplayOf (releaseGeneration (adoptOwnedInvalidations
          (beginResyncBoundaryTransition o) generation) generation) generation)
      = view (adoptOwnedInvalidations (beginResyncBoundaryTransition o) generation) :=
        view_cancelReplayOf generation
    _ = view o := view_adoptOwnedInvalidations generation

theorem view_finishResyncBoundaryCleanup (cleanup : PendingResyncBoundaryCleanup)
    (rendered : Option Nat) (transitionEpoch : Nat) :
    view (finishResyncBoundaryCleanup o cleanup rendered transitionEpoch) = view o := by
  rw [finishResyncBoundaryCleanup]
  split
  · dsimp only
    split <;> rfl
  · rfl

theorem view_confirmFreshSession (id : String) (binding : ConnectionBinding)
    (captured : Option ResyncRenderOwnership) :
    view (confirmFreshSession o id binding captured) = view o := by
  rw [confirmFreshSession]
  split
  swap
  · rfl
  refine Eq.trans (b := view (cancelReplayRetryLoop _)) rfl ?_
  rw [view_cancelReplayRetryLoop]
  split <;> rfl

theorem view_startReplayRetryLoop (generation : Nat) (binding : ConnectionBinding)
    (sessionIncarnation : SessionIncarnation) (token : Token) :
    view (startReplayRetryLoop o generation binding sessionIncarnation token) = view o := by
  rw [startReplayRetryLoop]
  split
  · exact view_cancelReplayRetryLoop
  · exact view_cancelReplayRetryLoop

theorem view_completeSameSessionResume (preparation : SameSessionResumePreparation)
    (enableNewEventsAfterReplay : Bool) (token : Token) :
    view (completeSameSessionResume o preparation enableNewEventsAfterReplay token) = view o := by
  rw [completeSameSessionResume]
  split
  swap
  · rfl
  dsimp only
  split
  · exact view_startReplayRetryLoop ..
  · exact view_startReplayRetryLoop ..

theorem view_settleSuspended (state : EventOutbox × List Event) (entry : Token × Event) :
    view (settleSuspended state entry).1 = view state.1 := by
  rw [settleSuspended]
  split <;> rfl

theorem view_cancelAuthorizedSlots : view (cancelAuthorizedSlots o) = view o := by
  refine foldl_keeps view (fun o entry => ?_) _ o
  rw [cancelAuthorizedSlot]
  split
  all_goals exact view_cancelTask (o := o) entry.2.task

theorem view_cancelReplayCaller (task : Nat) : view (cancelReplayCaller o task) = view o := by
  rw [cancelReplayCaller]
  split
  · exact view_cancelTask task
  · rfl

@[simp] theorem core_resendPendingEvents (binding : ConnectionBinding)
    (supplied : Option SessionIncarnation) (owner : ReplayOwner) :
    core (resendPendingEvents o binding supplied owner) = core o := by
  rw [resendPendingEvents]
  split <;> rfl

@[simp] theorem core_dropSendTail : core (dropSendTail o) = core o := by
  rw [dropSendTail]
  split <;> rfl

theorem core_advanceSessionIncarnation (binding : ConnectionBinding) :
    core ((advanceSessionIncarnation o binding).getD o) = core o := by
  rw [advanceSessionIncarnation]
  split
  · rfl
  · split <;> rfl

theorem core_cancelPreparedSlot (retain : Bool) (state : EventOutbox × List Event)
    (entry : Token × PreparedTextEditSend) :
    core (cancelPreparedSlot retain state entry).1 = core state.1 := by
  rw [cancelPreparedSlot]
  split
  · split
    · rfl
    · split <;> rfl
  · rfl

/-! ### One turn -/

/-- An outbox whose window has moved by window operations, and that forgets what it
transmitted only when it `resets`. -/
structure Follows (settles resets : Prop) (o o' : EventOutbox) : Prop where
  maxPendingEvents : o'.maxPendingEvents = o.maxPendingEvents
  moves : Moves o.maxPendingEvents settles o.window o'.window
  sent : ¬resets → o.sent <+: o'.sent

theorem follows_of_core (h : core o' = core o) :
    Follows settles resets o o' := by
  obtain ⟨hmax, hrest⟩ := Prod.mk.inj h
  obtain ⟨hwindow, hsent⟩ := Prod.mk.inj hrest
  exact ⟨hmax, hwindow ▸ Moves.stay _, fun _ => hsent ▸ List.prefix_refl _⟩

theorem follows_window (h : Moves o.maxPendingEvents settles o.window w) :
    Follows settles resets o { o with window := w } :=
  ⟨rfl, h, fun _ => List.prefix_refl _⟩

theorem Follows.trans (h : Follows settles resets o o')
    (h' : Follows settles resets o' o'') : Follows settles resets o o'' :=
  ⟨h'.maxPendingEvents.trans h.maxPendingEvents,
    h.moves.trans (h.maxPendingEvents ▸ h'.moves),
    fun hkeeps => (h.sent hkeeps).trans (h'.sent hkeeps)⟩

theorem Follows.core_right (h : Follows settles resets o o')
    (hcore : core o'' = core o') : Follows settles resets o o'' := h.trans (follows_of_core hcore)

theorem Follows.core_left (h : Follows settles resets o' o'')
    (hcore : core o' = core o) : Follows settles resets o o'' := (follows_of_core hcore).trans h

theorem follows_acknowledgeEventId (hsettles : settles) (id : EventId) :
    Follows settles resets o (acknowledgeEventId o id) := by
  rw [acknowledgeEventId]
  split
  · have hmoved : Follows settles resets (retire o id)
        { retire o id with window := acknowledgeEvent o.window id } :=
      follows_window (Moves.acknowledge hsettles _ _)
    have hretired : Follows settles resets o (retire o id) := follows_of_core rfl
    exact (hretired.trans hmoved).core_right (core_of_view view_cancelReplayRetryLoopIfSettled)
  · exact follows_of_core rfl

theorem follows_acknowledgeEventsThrough (hsettles : settles) (seq : Nat) :
    Follows settles resets o (acknowledgeEventsThrough o seq).1 := by
  rw [acknowledgeEventsThrough]
  split
  swap
  · exact follows_of_core rfl
  dsimp only
  have hretired := core_of_view (view_retireAll (o := o) DomainEvent.eventId
    (acknowledgeEvents o.window seq).2)
  generalize (acknowledgeEvents o.window seq).2.foldl
    (fun o event => retire o event.eventId) o = retired at hretired ⊢
  refine (follows_of_core hretired).trans ?_
  have hmoved : Follows settles resets retired
      { retired with window := (acknowledgeEvents retired.window seq).1 } :=
    follows_window (Moves.acknowledgeThrough hsettles _ _)
  exact hmoved.core_right (core_of_view view_cancelReplayRetryLoopIfSettled)

theorem follows_cancelAssignedTextEdits (hsettles : settles)
    {confirming : List PendingTextEditDescriptor}
    {requireExactMatch : Bool}
    (hok : cancelAssignedTextEdits o confirming requireExactMatch = .ok o') :
    Follows settles resets o o' := by
  rw [cancelAssignedTextEdits] at hok
  split at hok
  · cases hok
  rename_i condemned hcondemned
  cases hok
  rw [cancelCondemned]
  have hretired := core_of_view (view_retireAll (o := o) PendingTextEditDescriptor.eventId condemned)
  generalize condemned.foldl (fun o ref => retire o ref.eventId) o = retired at hretired ⊢
  have hwindow : retired.window = o.window := congrArg (fun part => part.2.1) hretired
  refine (follows_of_core hretired).trans ?_
  have hmoved : Follows settles resets retired
      { retired with window := cancelTextEdits retired.window condemned } :=
    follows_window (Moves.cancel hsettles (hwindow ▸ hcondemned))
  exact hmoved.core_right (core_of_view view_cancelReplayRetryLoopIfSettled)

theorem follows_rollBackRejected (event : Event) (canceledBeforeSend : Bool) :
    Follows settles resets o (rollBackRejected o event canceledBeforeSend).1 := by
  rw [rollBackRejected]
  split
  · exact (follows_window (Moves.rollBack _ _)).core_left rfl
  · exact follows_of_core rfl

theorem follows_rejectPreparedTextEdit (prepared : PreparedTextEdit) :
    Follows settles resets o (rejectPreparedTextEdit o prepared).1 := by
  rw [rejectPreparedTextEdit]
  split
  · exact (follows_rollBackRejected _ _).core_left rfl
  · split
    · exact (follows_rollBackRejected _ _).core_left rfl
    · exact follows_of_core rfl

theorem follows_authorizePreparedTextEdit (prepared : PreparedTextEdit) :
    Follows settles resets o (authorizePreparedTextEdit o prepared).1 := by
  rw [authorizePreparedTextEdit]
  split
  · exact (follows_rejectPreparedTextEdit prepared).core_left rfl
  · split
    · split <;> exact follows_of_core rfl
    · split <;> exact follows_of_core rfl

theorem follows_rollBackAll (events : List Event) :
    Follows settles resets o (rollBackAll o events) :=
  follows_window (moves_rollBacks _ _)

theorem core_cancelPreparedSlots (retain : Bool) :
    core (cancelPreparedSlots o retain).1 = core o :=
  foldl_keeps (fun state => core state.1) (core_cancelPreparedSlot retain) _ (o, [])

theorem follows_settleSuspendedEdits (rollbacks : List Event) :
    Follows settles resets o (settleSuspendedEdits o rollbacks) := by
  have hsettled := core_of_view (foldl_keeps (fun state => view state.1) view_settleSuspended
    o.lifecycleSuspendedPreparedTextEdits.toList (o, rollbacks))
  exact (follows_rollBackAll _).core_left hsettled

theorem follows_cancelPendingWrites (retain : Bool) : Follows settles resets o
    (cancelPendingWrites o retain) := by
  rw [cancelPendingWrites]
  refine Follows.core_right ?_ (core_dropSendTail.trans (core_of_view view_cancelAuthorizedSlots))
  split
  · exact follows_of_core (core_cancelPreparedSlots retain)
  · exact (follows_of_core (core_cancelPreparedSlots retain)).trans
      (follows_settleSuspendedEdits _)

theorem core_cancelPendingWrites_retaining : core (cancelPendingWrites o true) = core o := by
  rw [cancelPendingWrites, if_pos rfl]
  exact core_dropSendTail.trans
    ((core_of_view view_cancelAuthorizedSlots).trans (core_cancelPreparedSlots true))

theorem follows_allocateAndSend (binding : ConnectionBinding)
    (sessionIncarnation : SessionIncarnation) {makeEvent : Nat → Event}
    (hmake : ∀ n, (makeEvent n).eventSeq = n) :
    Follows settles resets o (allocateAndSend encodes o binding sessionIncarnation makeEvent).1 := by
  rw [allocateAndSend]
  split
  · split
    · split
      · exact follows_of_core rfl
      · rename_i hok
        exact (follows_window (Moves.allocate hmake hok)).core_right rfl
    · exact follows_of_core rfl
  · exact follows_of_core rfl

theorem follows_prepareTextEdit (nodeId : NodeId) (value : String) (editSeq : EditSeq)
    (observedRevision : Revision) (binding : ConnectionBinding)
    (supplied : Option SessionIncarnation) (eventId : EventId) (token : Token) :
    Follows settles resets o (prepareTextEdit encodes o nodeId value editSeq observedRevision binding supplied
      eventId token).1 := by
  rw [prepareTextEdit]
  split
  · exact follows_of_core rfl
  split
  · split
    · split
      · exact follows_of_core rfl
      · rename_i hok
        exact (follows_window (Moves.allocate (fun _ => rfl) hok)).core_right rfl
    · exact follows_of_core rfl
  · exact follows_of_core rfl

theorem follows_settleAcknowledgement (hsettles : settles) (binding : ConnectionBinding)
    (supplied : Option SessionIncarnation) (ack : Acknowledgement) :
    Follows settles resets o (settleAcknowledgement o binding supplied ack) := by
  rw [settleAcknowledgement]
  split
  · exact follows_of_core rfl
  split
  · split
    · exact follows_of_core rfl
    rename_i event hnamed
    dsimp only
    split
    · exact (follows_acknowledgeEventsThrough hsettles ack.throughSeq).core_right rfl
    · exact (follows_acknowledgeEventsThrough hsettles ack.throughSeq).trans
        ((follows_acknowledgeEventId hsettles _).core_left rfl)
  · exact follows_of_core rfl

theorem follows_adoptResumeFrontier (hsettles : settles) (id : String)
    (lastProcessedEventSeq generation : Nat)
    (binding : ConnectionBinding) (sessionIncarnation : SessionIncarnation) :
    Follows settles resets o (adoptResumeFrontier o id lastProcessedEventSeq generation binding
      sessionIncarnation) := by
  refine Follows.core_right (Follows.core_left
    (follows_acknowledgeEventsThrough hsettles (o := { o with activeSessionId := some id })
      lastProcessedEventSeq) ?_) ?_ <;> rfl

theorem follows_prepareSameSessionResume (hsettles : settles) {id : String}
    {lastProcessedEventSeq generation : Nat}
    {binding : ConnectionBinding} {sessionIncarnation : SessionIncarnation}
    {discarded : Option (List PendingTextEditRef)} {requireExactTextMatch : Bool}
    (hok : prepareSameSessionResume o id lastProcessedEventSeq generation binding
      sessionIncarnation discarded requireExactTextMatch = .ok o') : Follows settles resets o o' := by
  rw [prepareSameSessionResume.eq_def] at hok
  split at hok
  swap
  · cases hok
    exact follows_of_core rfl
  split at hok
  · cases hok
    exact follows_adoptResumeFrontier hsettles ..
  split at hok
  · cases hok
  split at hok
  · cases hok
  rename_i hcancelled
  cases hok
  exact (follows_cancelAssignedTextEdits hsettles hcancelled).trans
    (follows_adoptResumeFrontier hsettles ..)

theorem core_replayPendingEvents : core (replayPendingEvents o) = core o := by
  rw [replayPendingEvents]
  split
  · rfl
  split
  · exact core_resendPendingEvents ..
  · rfl

theorem follows_applyLiveResyncFrontier (hsettles : settles) (lastProcessedEventSeq : Nat)
    (binding : ConnectionBinding) (captured : Option ResyncRenderOwnership) :
    Follows settles resets o (applyLiveResyncFrontier o lastProcessedEventSeq binding captured) := by
  rw [applyLiveResyncFrontier]
  split
  swap
  · exact follows_of_core rfl
  refine (follows_acknowledgeEventsThrough hsettles _).core_left ?_
  split <;> rfl

theorem follows_applyLiveSameSessionResync (hsettles : settles) {lastProcessedEventSeq : Nat}
    {binding : ConnectionBinding} {sessionIncarnation : SessionIncarnation}
    {assigned : List PendingTextEditDescriptor}
    (hok : applyLiveSameSessionResync o lastProcessedEventSeq binding sessionIncarnation
      assigned = .ok o') : Follows settles resets o o' := by
  rw [applyLiveSameSessionResync] at hok
  split at hok
  swap
  · cases hok
    exact follows_of_core rfl
  split at hok
  · cases hok
  rename_i hcancelled
  cases hok
  exact (follows_cancelAssignedTextEdits hsettles hcancelled).trans
    (follows_acknowledgeEventsThrough hsettles _)

theorem core_beginReplacement (generation : Option Nat) (binding : ConnectionBinding)
    (captured : Option ResyncRenderOwnership) :
    core (beginReplacement o generation binding captured) = core o := by
  rw [beginReplacement]
  split
  swap
  · rfl
  refine (core_advanceSessionIncarnation binding).trans ?_
  split <;> split <;> rfl

theorem follows_applyReplacementFrontierState (hsettles : settles) (hresets : resets) (id : String)
    (lastProcessedEventSeq : Nat)
    (generation : Option Nat) (binding : ConnectionBinding)
    (sessionIncarnation : SessionIncarnation) :
    Follows settles resets o (applyReplacementFrontierState o id lastProcessedEventSeq generation binding
      sessionIncarnation) := by
  rw [applyReplacementFrontierState]
  split
  swap
  · exact follows_of_core rfl
  have habandon : Follows settles resets o (abandonIntents o id lastProcessedEventSeq) :=
    ⟨congrArg WriteView.maxPendingEvents (view_cancelReplayRetryLoop (o := o)), Moves.restart hsettles _ _,
      fun hkeeps => absurd hresets hkeeps⟩
  exact (habandon.trans (follows_cancelPendingWrites true)).core_right rfl

theorem follows_handOver (task : Nat) (event : Event) (chain : Nat) :
    Follows settles resets o (handOver o task event chain) :=
  ⟨rfl, Moves.stay _, fun _ => List.prefix_append _ _⟩

theorem follows_sendRetainedEventIfActive (task : Nat) (t : WriteTask) (write : RetainedWrite) :
    Follows settles resets o (sendRetainedEventIfActive o task t write) := by
  rw [sendRetainedEventIfActive]
  split
  · exact follows_handOver ..
  · exact follows_of_core rfl

theorem follows_sendReplayEventIfActive (task : Nat) (t : WriteTask) (write : ReplayWrite) :
    Follows settles resets o (sendReplayEventIfActive encodes o task t write) := by
  rw [sendReplayEventIfActive]
  split
  · exact follows_of_core rfl
  split
  · exact follows_of_core rfl
  split
  · split
    · exact (follows_handOver ..).core_left rfl
    · exact follows_of_core rfl
  · exact follows_of_core rfl

theorem follows_runWrite (task : Nat) : Follows settles resets o (runWrite encodes o task) := by
  rw [runWrite]
  split
  · exact follows_of_core rfl
  split
  · exact follows_of_core rfl
  split
  · exact follows_sendRetainedEventIfActive ..
  · split
    · exact follows_of_core rfl
    · exact follows_of_core rfl
  · exact follows_of_core rfl
  · exact follows_sendRetainedEventIfActive ..
  · exact follows_sendReplayEventIfActive ..

theorem core_transportSendEnded (task : Nat) (succeeded : Bool) :
    core (transportSendEnded o task succeeded) = core o := by
  rw [transportSendEnded]
  split
  · rfl
  split
  · split
    · split <;> rfl
    · rfl
  · rfl

def Settles : Turn → Prop
  | .cancelAssignedTextEdits .. => True
  | .cancelAssignedTextEditsOnlyIf .. => True
  | .settleAcknowledgement .. => True
  | .prepareSameSessionResume .. => True
  | .applyLiveResyncFrontier .. => True
  | .applyLiveSameSessionResync .. => True
  | .applyReplacementFrontierState .. => True
  | _ => False

/-- The turn that begins a new session lifetime. -/
def Resets : Turn → Prop
  | .applyReplacementFrontierState .. => True
  | _ => False

/-- The turns that may move the window or hand an event over. -/
def Touches : Turn → Prop
  | .allocateAndSend .. => True
  | .prepareTextEdit .. => True
  | .authorizePreparedTextEdit .. => True
  | .rejectPreparedTextEdit .. => True
  | .activateConnectionBinding .. => True
  | .runWrite .. => True
  | turn => Settles turn

/-- The turns that may change what transmission depends on. -/
def Writes : Turn → Prop
  | .resendPendingEvents .. => True
  | .beginConnectionBinding .. => True
  | .beginResumeAttempt .. => True
  | .replayPreparation .. => True
  | .replayPendingEvents => True
  | .suspendForTeardown .. => True
  | .commitResyncSnapshot .. => True
  | .beginReplacement .. => True
  | .transportSendEnded .. => True
  | turn => Touches turn

theorem step_view {turn : Turn} (hquiet : ¬Writes turn) :
    view (step encodes o turn) = view o := by
  cases turn with
  | notePreparedTextEditAssigned | revokeUnauthorizedPreparedTextEdit => rfl
  | releasePreparedTextEdit prepared =>
    rw [step, releasePreparedTextEdit]
    split <;> rfl
  | finishResyncBoundaryCleanup =>
    exact view_finishResyncBoundaryCleanup ..
  | finishLiveRenderInvalidation =>
    rw [step, finishLiveRenderInvalidation]
    split <;> rfl
  | finishResumeRecoveryRenderInvalidation =>
    rw [step, finishResumeRecoveryRenderInvalidation]
    split <;> rfl
  | completeSameSessionResume => exact view_completeSameSessionResume ..
  | finishReplayRetryLoop =>
    rw [step, finishReplayRetryLoop]
    split
    · rfl
    · split <;> rfl
  | commitResumeWork =>
    rw [step, commitResumeWork]
    split <;> rfl
  | stopResumeWork generation => exact view_stopResumeWork generation
  | confirmFreshSession => exact view_confirmFreshSession ..
  | suspendNewEvents =>
    rw [step, suspendNewEvents]
    split <;> rfl
  | allowNewEvents =>
    rw [step, allowNewEvents]
    split <;> rfl
  | finishResync =>
    rw [step, finishResync]
    split <;> rfl
  | activateResyncRender =>
    rw [step, activateResyncRender]
    split <;> rfl
  | applyFullResyncTextBoundary =>
    rw [step, applyFullResyncTextBoundary]
    split <;> rfl
  | abortResyncRender =>
    rw [step, abortResyncRender]
    split <;> rfl
  | abandonResyncRender =>
    rw [step, abandonResyncRender]
    split <;> rfl
  | commitLiveRender =>
    rw [step, commitLiveRender]
    split
    · rfl
    · split <;> rfl
  | completeLiveRender =>
    rw [step, completeLiveRender]
    split <;> rfl
  | beginResumeRecoveryRender =>
    rw [step, beginResumeRecoveryRender]
    split <;> rfl
  | completeResumeRecoveryRender =>
    rw [step, completeResumeRecoveryRender]
    split <;> rfl
  | abortResumeRecoveryRender =>
    rw [step, abortResumeRecoveryRender]
    split <;> rfl
  | releaseTextAcknowledgements =>
    rw [step, releaseTextAcknowledgements]
    split <;> rfl
  | closeAllocation =>
    rw [step, closeAllocation]
    split <;> rfl
  | releaseLiveResyncRender =>
    rw [step, releaseLiveResyncRender]
    split <;> rfl
  | cancelReplayCaller task => exact view_cancelReplayCaller task
  | _ => exact (hquiet trivial).elim

theorem step_core {turn : Turn} (hquiet : ¬Touches turn) : core (step encodes o turn) = core o := by
  rcases Classical.em (Writes turn) with hwrites | hstill
  swap
  · exact core_of_view (step_view hstill)
  cases turn with
  | resendPendingEvents => exact core_resendPendingEvents ..
  | beginConnectionBinding epoch =>
    rw [step, beginConnectionBinding]
    split <;> rfl
  | beginResumeAttempt binding =>
    rw [step, beginResumeAttempt]
    split
    · refine (core_of_view view_adoptOrBeginInvalidations).trans ?_
      refine (core_cancelPendingWrites_retaining (o := cancelReplayRetryLoop
        (beginResyncBoundaryTransition o))).trans ?_
      exact core_of_view view_cancelReplayRetryLoop
    · rfl
  | replayPreparation preparation =>
    rw [step, replayPreparation]
    split
    · exact core_resendPendingEvents ..
    · rfl
  | replayPendingEvents => exact core_replayPendingEvents
  | suspendForTeardown binding =>
    rw [step, suspendForTeardown]
    split
    · refine core_cancelPendingWrites_retaining.trans ?_
      refine (core_of_view view_cancelReplayRetryLoop).trans ?_
      rw [suspendNewEvents]
      split <;> rfl
    · rfl
  | commitResyncSnapshot generation binding sessionIncarnation committed =>
    rw [step, commitResyncSnapshot]
    split
    · exact core_advanceSessionIncarnation binding
    · rfl
  | beginReplacement => exact core_beginReplacement ..
  | transportSendEnded task succeeded =>
    exact core_transportSendEnded task succeeded
  | _ => exact (hquiet hwrites).elim

theorem step_follows (turn : Turn) :
    Follows (Settles turn) (Resets turn) o (step encodes o turn) := by
  have hthrown : ∀ r : Except EventOutboxError EventOutbox,
      (∀ o', r = .ok o' → Follows (Settles turn) (Resets turn) o o') →
        Follows (Settles turn) (Resets turn) o (unlessThrown o r) := by
    intro r hr
    rcases r with e | o'
    · exact follows_of_core rfl
    · exact hr o' rfl
  rcases Classical.em (Touches turn) with htouches | hquiet
  swap
  · exact follows_of_core (step_core hquiet)
  cases turn with
  | allocateAndSend draft observedRevision nodeId binding sessionIncarnation eventId =>
    exact follows_allocateAndSend binding sessionIncarnation (fun _ => rfl)
  | prepareTextEdit => exact follows_prepareTextEdit ..
  | authorizePreparedTextEdit prepared => exact follows_authorizePreparedTextEdit prepared
  | rejectPreparedTextEdit prepared => exact follows_rejectPreparedTextEdit prepared
  | cancelAssignedTextEdits =>
    exact hthrown _ fun _ hok => follows_cancelAssignedTextEdits trivial hok
  | cancelAssignedTextEditsOnlyIf refs requireExactMatch generation =>
    refine hthrown _ ?_
    intro o' hok
    rw [cancelAssignedTextEditsOnlyIf] at hok
    split at hok
    · cases hok
      exact follows_of_core rfl
    split at hok
    · cases hok
    · exact follows_cancelAssignedTextEdits trivial hok
  | settleAcknowledgement => exact follows_settleAcknowledgement trivial ..
  | activateConnectionBinding epoch transitionEpoch =>
    rw [step, activateConnectionBinding]
    split
    · refine Follows.core_right ?_ (core_of_view view_adoptOrBeginInvalidations)
      refine (follows_cancelPendingWrites false).core_left ?_
      exact core_of_view view_cancelReplayRetryLoop
    · exact follows_of_core rfl
  | prepareSameSessionResume =>
    exact hthrown _ fun _ hok => follows_prepareSameSessionResume trivial hok
  | applyLiveResyncFrontier => exact follows_applyLiveResyncFrontier trivial ..
  | applyLiveSameSessionResync =>
    exact hthrown _ fun _ hok => follows_applyLiveSameSessionResync trivial hok
  | applyReplacementFrontierState => exact follows_applyReplacementFrontierState trivial trivial ..
  | runWrite task => exact follows_runWrite task
  | _ => exact htouches.elim

/-! ### Every run -/

/-- The invariant of the machine: the outbox's window is sound for its own bound. -/
def Sound (o : EventOutbox) : Prop := Windowed o.maxPendingEvents o.window

theorem step_sound (turn : Turn) (h : Sound o) : Sound (step encodes o turn) := by
  obtain ⟨hmax, hmoves, -⟩ : Follows (Settles turn) (Resets turn) o (step encodes o turn) :=
    step_follows turn
  rw [Sound, hmax]
  exact hmoves.windowed h

theorem run_sound (encodes : Event → Bool) (clientInstanceId : ClientInstanceId)
    (maxPendingEvents : Int) (turns : List Turn) :
    Sound (run (step encodes) (EventOutbox.new clientInstanceId maxPendingEvents) turns) := by
  refine run_invariant ?_ ?_ turns
  · intro o turn h
    exact step_sound turn h
  · exact windowed_empty

theorem run_maxPendingEvents (encodes : Event → Bool) (turns : List Turn) (o : EventOutbox) :
    (run (step encodes) o turns).maxPendingEvents = o.maxPendingEvents :=
  run_invariant (P := fun o' : EventOutbox => o'.maxPendingEvents = o.maxPendingEvents)
    (fun _ turn h => (step_follows turn).maxPendingEvents.trans h) rfl turns

theorem acknowledgeEvent_currentEventSeq (w : SequenceWindow) (id : EventId) :
    (acknowledgeEvent w id).currentEventSeq = w.currentEventSeq := by
  rw [acknowledgeEvent]
  split
  · rfl
  · rw [recordSelectiveAcknowledgement]
    split <;> rfl

theorem acknowledgeEvent_lookup {id k : EventId} {e : Event}
    (he : (acknowledgeEvent w id).pendingEvents[k]? = some e) :
    k ≠ id ∧ w.pendingEvents[k]? = some e := by
  rw [acknowledgeEvent] at he
  split at he
  · rename_i hnone
    refine ⟨?_, he⟩
    rintro rfl
    rw [hnone] at he
    cases he
  · rw [recordSelectiveAcknowledgement_pendingEvents] at he
    exact forget_lookup he

theorem Windowed.settled
    (h : Windowed maxPendingEvents w) (hnone : ∀ id : EventId, w.pendingEvents[id]? = none) :
    w.lastAckedEventSeq = w.currentEventSeq := by
  refine Nat.le_antisymm h.acked_le ?_
  by_contra hlt
  rcases h.covered (w.lastAckedEventSeq + 1) (Nat.lt_succ_self _) (by omega) with
    ⟨id, e, he, -⟩ | hsettled
  · rw [hnone id] at he
    cases he
  · exact h.frontier hsettled

theorem Windowed.settleAll
    (h : Windowed maxPendingEvents w) {ids : List EventId}
    (hall : ∀ (id : EventId) e, w.pendingEvents[id]? = some e → id ∈ ids) :
    (ids.foldl acknowledgeEvent w).lastAckedEventSeq = w.currentEventSeq := by
  induction ids generalizing w with
  | nil =>
    refine Windowed.settled h ?_
    intro id
    rcases he : w.pendingEvents[id]? with - | e
    · exact he
    · cases hall id e he
  | cons first rest ih =>
    rw [List.foldl_cons, ih (h.acknowledgeEvent first), acknowledgeEvent_currentEventSeq]
    intro id e he
    obtain ⟨hne, hold⟩ := acknowledgeEvent_lookup he
    exact (List.mem_cons.mp (hall id e hold)).resolve_left hne

/-- In every state the outbox can reach its send window is sound, and the server can
settle it to the end. -/
theorem reachable_window_sound (encodes : Event → Bool) (clientInstanceId : ClientInstanceId)
    (maxPendingEvents : Int) (turns : List Turn) :
    let o := run (step encodes) (EventOutbox.new clientInstanceId maxPendingEvents) turns
    let w := o.window
    (w.pendingOrder.Nodup ∧ (∀ id, id ∈ w.pendingOrder ↔ id ∈ w.pendingEvents) ∧
      (retainedEvents w).Pairwise fun e f => e.eventSeq < f.eventSeq) ∧
    w.lastAckedEventSeq ≤ w.currentEventSeq ∧
    ensureSequenceWindowCapacity o.maxPendingEvents w ≠ .error .panicked ∧
    (∀ n, w.lastAckedEventSeq < n → n ≤ w.currentEventSeq →
      ((∃! id : EventId, ∃ e : Event, w.pendingEvents[id]? = some e ∧ e.eventSeq = n) ∧
          n ∉ w.acknowledgedOutOfOrder) ∨
        ((¬∃ (id : EventId) (e : Event), w.pendingEvents[id]? = some e ∧ e.eventSeq = n) ∧
          n ∈ w.acknowledgedOutOfOrder)) ∧
    w.lastAckedEventSeq + 1 ∉ w.acknowledgedOutOfOrder ∧
    ((w.currentEventSeq - w.lastAckedEventSeq : Nat) : Int) ≤ max 1 maxPendingEvents ∧
    ∀ ids : List EventId, (∀ id ∈ w.pendingOrder, id ∈ ids) →
      (ids.foldl acknowledgeEvent w).lastAckedEventSeq = w.currentEventSeq := by
  intro o w
  have h : Windowed o.maxPendingEvents w := run_sound encodes clientInstanceId maxPendingEvents turns
  have hmax : o.maxPendingEvents = (max 1 maxPendingEvents).toNat :=
    run_maxPendingEvents encodes turns _
  refine ⟨⟨h.listed.nodup, ?_, retainedEvents_increasing h.listed⟩, h.acked_le,
    h.ensureSequenceWindowCapacity, ?_, h.frontier, ?_, ?_⟩
  · intro id
    rw [h.listed.mem_iff, ExtTreeMap.mem_iff_isSome_getElem?, Option.isSome_iff_exists]
  · intro n hlow hhigh
    rcases h.covered n hlow hhigh with ⟨id, e, he, hseq⟩ | hsettled
    · refine Or.inl ⟨⟨id, ⟨e, he, hseq⟩, ?_⟩, ?_⟩
      · rintro other ⟨f, hf, hfseq⟩
        exact h.listed.eq_of_rank hf he (hfseq.trans hseq.symm)
      · rw [← hseq]
        exact (h.pending_mem id e he).2.2
    · refine Or.inr ⟨?_, hsettled⟩
      rintro ⟨id, e, he, rfl⟩
      exact (h.pending_mem id e he).2.2 hsettled
  · have hspan := h.span_le
    omega
  · intro ids hids
    refine Windowed.settleAll h ?_
    intro id e he
    exact hids id ((h.listed.mem_iff id).mpr ⟨e, he⟩)

end Srui.Client.OutboxWindows

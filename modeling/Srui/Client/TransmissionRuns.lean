import Srui.Client.OutboxTransmissions

/-!
Every turn of the outbox keeps the record of transmissions sound, and so does every
run that is orderly. Two runs that are not show what goes wrong.
-/

namespace Srui.Client.TransmissionRuns

open Std Basic.Runs SemanticTree.Events Client.EventWindows Client.WindowIntegrity
open Client.EventOutboxes Client.OutboxTurns Client.OutboxWindows Client.WriteChains
open Client.OutboxTransmissions

variable {ordered : Prop} {encodes : Event → Bool} {o : EventOutbox}

/-! ### Bindings and incarnations -/

section

variable (h : Traced ordered (view o))

include h

theorem traced_beginConnectionBinding (epoch : ConnectionBinding) :
    Traced ordered (view (beginConnectionBinding o epoch)) := by
  rw [beginConnectionBinding]
  split
  swap
  · exact h
  rename_i hlater
  refine h.rebind ⟨epoch, 0⟩ (Nat.le_refl _) ?_
  intro current hcurrent
  exact Or.inl (Nat.lt_of_le_of_lt (h.bound.active current hcurrent).2 hlater)

theorem traced_advanceSessionIncarnation (binding : ConnectionBinding) :
    Traced ordered (view ((advanceSessionIncarnation o binding).getD o)) := by
  rw [advanceSessionIncarnation]
  split
  · exact h
  rename_i current hcurrent
  split
  swap
  · exact h
  rename_i hsame
  obtain ⟨hbinding, rfl⟩ := hsame
  have hrebound := h.rebind ⟨current.binding, current.sequence + 1⟩
    (h.bound.active current hcurrent).2 ?_
  · have hview : view { o with
        activeSessionIncarnation := some ⟨current.binding, current.sequence + 1⟩ } =
        { view o with
          binding := some current.binding
          incarnation := some ⟨current.binding, current.sequence + 1⟩
          lastIssuedEpoch := o.lastIssuedEpoch } := by
      simp only [view, hbinding]
    rw [Option.getD_some, hview]
    exact hrebound
  · intro active hactive
    have hsame : active = current := Option.some.inj (hactive.symm.trans hcurrent)
    rw [hsame]
    exact Or.inr ⟨rfl, Nat.lt_succ_self _⟩

theorem traced_activateConnectionBinding (epoch : ConnectionBinding) (transitionEpoch : Nat) :
    Traced ordered (view (activateConnectionBinding o epoch transitionEpoch)) := by
  rw [activateConnectionBinding]
  split
  swap
  · exact h
  rw [view_adoptOrBeginInvalidations]
  apply traced_cancelPendingWrites
  rw [view_cancelReplayRetryLoop]
  exact h

theorem traced_beginResumeAttempt (binding : ConnectionBinding) :
    Traced ordered (view (beginResumeAttempt o binding)) := by
  rw [beginResumeAttempt]
  split
  swap
  · exact h
  rw [view_adoptOrBeginInvalidations]
  show Traced ordered (view (cancelPendingWrites (cancelReplayRetryLoop
    (beginResyncBoundaryTransition o)) true))
  apply traced_cancelPendingWrites
  rw [view_cancelReplayRetryLoop]
  exact h

theorem traced_suspendForTeardown (binding : ConnectionBinding) :
    Traced ordered (view (suspendForTeardown o binding)) := by
  rw [suspendForTeardown]
  split
  swap
  · exact h
  apply traced_cancelPendingWrites
  rw [view_cancelReplayRetryLoop, suspendNewEvents]
  split
  · exact h
  · exact h

end

/-! ### Resume -/

section

variable (h : Traced ordered (view o))

include h

theorem traced_replayPreparation (preparation : SameSessionResumePreparation) :
    Traced ordered (view (replayPreparation o preparation)) := by
  rw [replayPreparation]
  split
  · exact traced_resendPendingEvents h _ _ _
  · exact h

theorem traced_replayPendingEvents :
    Traced ordered (view (replayPendingEvents o)) := by
  rw [replayPendingEvents]
  split
  · exact h
  split
  · exact traced_resendPendingEvents h _ _ _
  · exact h

theorem traced_adoptResumeFrontier (id : String) (lastProcessedEventSeq generation : Nat)
    (binding : ConnectionBinding) (sessionIncarnation : SessionIncarnation) :
    Traced ordered (view (adoptResumeFrontier o id lastProcessedEventSeq generation binding
      sessionIncarnation)) := by
  have hsettled : Traced ordered (view (acknowledgeEventsThrough
      { o with activeSessionId := some id } lastProcessedEventSeq).1) := (narrowed_acknowledgeEventsThrough _).traced h
  exact hsettled.dropSuspended ∅ fun a e he => by simp at he

theorem traced_prepareSameSessionResume {id : String} {lastProcessedEventSeq generation : Nat}
    {binding : ConnectionBinding} {sessionIncarnation : SessionIncarnation}
    {discarded : Option (List PendingTextEditRef)} {requireExactTextMatch : Bool} {o' : EventOutbox}
    (hok : prepareSameSessionResume o id lastProcessedEventSeq generation binding
      sessionIncarnation discarded requireExactTextMatch = .ok o') : Traced ordered (view o') := by
  rw [prepareSameSessionResume.eq_def] at hok
  split at hok
  swap
  · cases hok
    exact h
  split at hok
  · cases hok
    exact traced_adoptResumeFrontier h ..
  split at hok
  · cases hok
  split at hok
  · cases hok
  rename_i hcancelled
  cases hok
  exact traced_adoptResumeFrontier ((narrowed_cancelAssignedTextEdits hcancelled).traced h) ..

/-! ### Live resync and replacement -/

theorem traced_applyLiveResyncFrontier (lastProcessedEventSeq : Nat) (binding : ConnectionBinding)
    (captured : Option ResyncRenderOwnership) :
    Traced ordered (view (applyLiveResyncFrontier o lastProcessedEventSeq binding captured)) := by
  rw [applyLiveResyncFrontier]
  split
  swap
  · exact h
  refine (narrowed_acknowledgeEventsThrough _).traced ?_
  split
  · exact h
  · exact h

theorem traced_applyLiveSameSessionResync {lastProcessedEventSeq : Nat}
    {binding : ConnectionBinding} {sessionIncarnation : SessionIncarnation}
    {assigned : List PendingTextEditDescriptor} {o' : EventOutbox}
    (hok : applyLiveSameSessionResync o lastProcessedEventSeq binding sessionIncarnation
      assigned = .ok o') : Traced ordered (view o') := by
  rw [applyLiveSameSessionResync] at hok
  split at hok
  swap
  · cases hok
    exact h
  split at hok
  · cases hok
  rename_i hcancelled
  cases hok
  refine (narrowed_acknowledgeEventsThrough _).traced ?_
  exact (narrowed_cancelAssignedTextEdits hcancelled).traced h

theorem traced_beginReplacement (generation : Option Nat) (binding : ConnectionBinding)
    (captured : Option ResyncRenderOwnership) :
    Traced ordered (view (beginReplacement o generation binding captured)) := by
  rw [beginReplacement]
  split
  swap
  · exact h
  apply traced_advanceSessionIncarnation
  split
  · split
    · exact h
    · exact h
  · split
    · exact h
    · exact h

theorem traced_commitResyncSnapshot (generation : Option Nat) (binding : ConnectionBinding)
    (sessionIncarnation : SessionIncarnation) (committed : Bool) :
    Traced ordered
      (view (commitResyncSnapshot o generation binding sessionIncarnation committed)) := by
  rw [commitResyncSnapshot]
  split
  · exact traced_advanceSessionIncarnation h binding
  · exact h

theorem traced_applyReplacementFrontierState (id : String) (lastProcessedEventSeq : Nat)
    (generation : Option Nat) (binding : ConnectionBinding)
    (sessionIncarnation : SessionIncarnation) :
    Traced ordered (view (applyReplacementFrontierState o id lastProcessedEventSeq generation
      binding sessionIncarnation)) := by
  rw [applyReplacementFrontierState]
  split
  swap
  · exact h
  have habandoned : Traced ordered (view (abandonIntents o id lastProcessedEventSeq)) := by
    have hstopped : Traced ordered (view (cancelReplayRetryLoop o)) := by
      rw [view_cancelReplayRetryLoop]
      exact h
    exact hstopped.restart lastProcessedEventSeq
  exact (traced_cancelPendingWrites habandoned true).dropSuspended ∅ fun a e he => by simp at he

/-! ### Every turn -/

theorem step_traced {turn : Turn} (hfresh : FreshIdentity o turn)
    (hprudent : Prudent encodes o turn) (hsequence : ordered → InSequence encodes o turn) :
    Traced ordered (view (step encodes o turn)) := by
  have hthrown : ∀ r : Except EventOutboxError EventOutbox,
      (∀ o', r = .ok o' → Traced ordered (view o')) → Traced ordered (view (unlessThrown o r)) := by
    intro r hr
    rcases r with e | o'
    · exact h
    · exact hr o' rfl
  rcases Classical.em (Writes turn) with hwrites | hstill
  swap
  · rw [step_view hstill]
    exact h
  cases turn with
  | allocateAndSend draft observedRevision nodeId binding sessionIncarnation eventId =>
    exact traced_allocateAndSend h binding sessionIncarnation (fun _ => rfl) (fun _ => rfl) hfresh
  | prepareTextEdit => exact traced_prepareTextEdit h _ _ _ _ _ _ _ hfresh
  | authorizePreparedTextEdit prepared => exact traced_authorizePreparedTextEdit h prepared
  | rejectPreparedTextEdit prepared => exact traced_rejectPreparedTextEdit h prepared
  | cancelAssignedTextEdits =>
    exact hthrown _ fun _ hok => (narrowed_cancelAssignedTextEdits hok).traced h
  | cancelAssignedTextEditsOnlyIf refs requireExactMatch generation =>
    refine hthrown _ ?_
    intro o' hok
    rw [cancelAssignedTextEditsOnlyIf] at hok
    split at hok
    · cases hok
      exact h
    split at hok
    · cases hok
    · exact (narrowed_cancelAssignedTextEdits hok).traced h
  | settleAcknowledgement binding supplied ack =>
    exact (narrowed_settleAcknowledgement binding supplied ack).traced h
  | resendPendingEvents => exact traced_resendPendingEvents h _ _ _
  | beginConnectionBinding epoch => exact traced_beginConnectionBinding h epoch
  | activateConnectionBinding => exact traced_activateConnectionBinding h _ _
  | beginResumeAttempt binding => exact traced_beginResumeAttempt h binding
  | prepareSameSessionResume =>
    exact hthrown _ fun _ hok => traced_prepareSameSessionResume h hok
  | replayPreparation preparation => exact traced_replayPreparation h preparation
  | replayPendingEvents => exact traced_replayPendingEvents h
  | suspendForTeardown binding => exact traced_suspendForTeardown h binding
  | commitResyncSnapshot => exact traced_commitResyncSnapshot h _ _ _ _
  | applyLiveResyncFrontier => exact traced_applyLiveResyncFrontier h _ _ _
  | applyLiveSameSessionResync =>
    exact hthrown _ fun _ hok => traced_applyLiveSameSessionResync h hok
  | beginReplacement => exact traced_beginReplacement h _ _ _
  | applyReplacementFrontierState => exact traced_applyReplacementFrontierState h _ _ _ _ _
  | runWrite task => exact traced_runWrite h hprudent hsequence
  | transportSendEnded task succeeded => exact traced_transportSendEnded h task succeeded
  | _ => exact hwrites.elim

end

/-! ### Every run -/

theorem traced_new (clientInstanceId : ClientInstanceId) (maxPendingEvents : Int) :
    Traced ordered (view (EventOutbox.new clientInstanceId maxPendingEvents)) := by
  refine ⟨windowed_empty, queued_empty, ⟨?_, ?_⟩, ?_, ?_, ?_, ?_, ?_, ?_, ?_, ?_, ?_, ?_, ?_, ?_,
    ?_, ?_, ?_, ?_⟩
  all_goals simp [view, EventOutbox.new, Owns, firstTransmissions]

theorem noReuse_of_traced (h : Traced ordered (view o)) : NoReuse o := by
  intro t ht id e he hseq
  rw [← h.windowed.listed.keyed id e he]
  exact h.sent_same t ht id e he hseq

/-- In every state of an orderly run no transmitted sequence is given to another event,
and first transmissions over the chain go up in sequence. -/
theorem orderly_transmissions (encodes : Event → Bool) (clientInstanceId : ClientInstanceId)
    (maxPendingEvents : Int) (turns : List Turn)
    (hrun : EveryStep (step encodes)
      (fun o turn => FreshIdentity o turn ∧ Prudent encodes o turn ∧ InSequence encodes o turn)
      (EventOutbox.new clientInstanceId maxPendingEvents) turns) :
    EveryState (step encodes) (fun o => NoReuse o ∧ FirstsInOrder o)
      (EventOutbox.new clientInstanceId maxPendingEvents) turns := by
  have htraced : EveryState (step encodes) (fun o => Traced True (view o))
      (EventOutbox.new clientInstanceId maxPendingEvents) turns := by
    refine hrun.everyState ?_ (traced_new clientInstanceId maxPendingEvents)
    rintro o turn h ⟨hfresh, hprudent, hsequence⟩
    exact step_traced h hfresh hprudent fun _ => hsequence
  refine EveryState.mono ?_ htraced
  intro o h
  exact ⟨noReuse_of_traced h, (h.firsts trivial).filter _⟩

/-! ### Runs on one connection -/

def opening : List Turn :=
  [.beginConnectionBinding 1, .activateConnectionBinding 1 1, .confirmFreshSession "s" 1 none]

def firstEdit : EditSeq := ⟨1, Nat.one_pos⟩

def steadyRun : List Turn :=
  opening ++
    [.allocateAndSend .activate 0 1 1 ⟨1, 0⟩ [1], .prepareTextEdit 2 "x" firstEdit 0 1 none [2] 7,
      .authorizePreparedTextEdit ⟨textEdit [9] 0 2 "x" firstEdit [2] 2, 7⟩,
      .resendPendingEvents 1 none, .runWrite 0, .transportSendEnded 0 true, .runWrite 1,
      .transportSendEnded 1 true, .runWrite 2]

/-- A teardown suspends an undecided edit, a replay transmits it, it is then rejected and
rolled back, and the next event takes its sequence. -/
def reusingRun : List Turn :=
  opening ++
    [.prepareTextEdit 1 "x" firstEdit 0 1 none [1] 7, .suspendForTeardown 1,
      .resendPendingEvents 1 none, .runWrite 1,
      .rejectPreparedTextEdit ⟨textEdit [9] 0 1 "x" firstEdit [1] 1, 7⟩, .allowNewEvents 1,
      .allocateAndSend .activate 0 1 1 ⟨1, 0⟩ [2]]

/-- A write is refused while allocation is closed; a later event goes out before a replay
transmits the one that was refused. -/
def overtakingRun : List Turn :=
  opening ++
    [.allocateAndSend .activate 0 1 1 ⟨1, 0⟩ [1], .suspendNewEvents 1, .runWrite 0,
      .allowNewEvents 1, .allocateAndSend .activate 0 1 1 ⟨1, 0⟩ [2], .runWrite 1,
      .transportSendEnded 1 true, .resendPendingEvents 1 none, .runWrite 2]

theorem steadyRun_transmissions :
    EveryState (step fun _ => true) (fun o => NoReuse o ∧ FirstsInOrder o)
        (EventOutbox.new [9] 4) steadyRun ∧
      (run (step fun _ => true) (EventOutbox.new [9] 4) steadyRun).sent.length = 3 := by
  refine ⟨orderly_transmissions (fun _ => true) [9] 4 steadyRun ?_, ?_⟩
  · decide +kernel
  · decide +kernel

theorem transmissions_not_always_orderly :
    (EveryStep (step fun _ => true) FreshIdentity (EventOutbox.new [9] 4) reusingRun ∧
        ¬NoReuse (run (step fun _ => true) (EventOutbox.new [9] 4) reusingRun)) ∧
      EveryStep (step fun _ => true) FreshIdentity (EventOutbox.new [9] 4) overtakingRun ∧
        ¬FirstsInOrder (run (step fun _ => true) (EventOutbox.new [9] 4) overtakingRun) := by
  refine ⟨⟨?_, ?_⟩, ?_, ?_⟩
  all_goals decide +kernel

end Srui.Client.TransmissionRuns

import Srui.Client.TransmissionRuns

/-!
Which sequences the outbox counts as acknowledged, and which of them each word from the
server can add.
-/

namespace Srui.Client.Acknowledgements

open Std Basic.Machine Basic.FiniteMaps Basic.Ledgers SemanticTree.Events Client.EventWindows
open Client.WindowIntegrity Client.EventOutboxes Client.OutboxTurns Client.OutboxWindows
open Client.OutboxTransmissions

def Acked (w : SequenceWindow) (n : Nat) : Prop :=
  n ≤ w.lastAckedEventSeq ∨ n ∈ w.acknowledgedOutOfOrder

variable {maxPendingEvents : Nat} {w : SequenceWindow} {n : Nat}

/-! ### The window's operations -/

theorem acked_advance (hahead : ∀ n ∈ w.acknowledgedOutOfOrder, w.lastAckedEventSeq < n)
    (h : Acked (advanceContiguousAcknowledgement w) n) : Acked w n := by
  rcases h with hle | hmem
  · rcases Nat.lt_or_ge w.lastAckedEventSeq n with hlt | hge
    · exact Or.inr (mem_of_advance hlt hle)
    · exact Or.inl hge
  · exact Or.inr ((mem_advance _ hahead n).mp hmem).1

theorem acked_recordSelectiveAcknowledgement
    (hahead : ∀ n ∈ w.acknowledgedOutOfOrder, w.lastAckedEventSeq < n) {eventSeq : Nat}
    (h : Acked (recordSelectiveAcknowledgement w eventSeq) n) : Acked w n ∨ n = eventSeq := by
  rw [recordSelectiveAcknowledgement] at h
  split at h
  swap
  · exact Or.inl h
  rename_i hguard
  have hadvanced := acked_advance ?_ h
  · rcases hadvanced with hle | hmem
    · exact Or.inl (Or.inl hle)
    · rcases Finset.mem_insert.mp hmem with heq | hold
      · exact Or.inr heq
      · exact Or.inl (Or.inr hold)
  · intro m hm
    rcases Finset.mem_insert.mp hm with rfl | hold
    · exact hguard.1
    · exact hahead m hold

theorem acked_acknowledgeEvent (hw : Windowed maxPendingEvents w) {id : EventId}
    (h : Acked (acknowledgeEvent w id) n) :
    Acked w n ∨ ∃ e, w.pendingEvents[id]? = some e ∧ n = e.eventSeq := by
  rw [acknowledgeEvent] at h
  split at h
  · exact Or.inl h
  · rename_i e he
    have hahead : ∀ n ∈ (forget w id).acknowledgedOutOfOrder, (forget w id).lastAckedEventSeq < n :=
      fun m hm => (hw.settled_mem m hm).1
    rcases acked_recordSelectiveAcknowledgement hahead h with hold | heq
    · exact Or.inl hold
    · exact Or.inr ⟨e, he, heq⟩

theorem acked_acknowledgeEvents {seq : Nat} (h : Acked (acknowledgeEvents w seq).1 n) :
    Acked w n ∨ n ≤ seq := by
  rw [acknowledgeEvents] at h
  split at h
  swap
  · exact Or.inl h
  have hadvanced := acked_advance ?_ h
  · rcases hadvanced with hle | hmem
    · exact Or.inr hle
    · exact Or.inl (Or.inr (Finset.mem_filter.mp hmem).1)
  · intro m hm
    exact (Finset.mem_filter.mp hm).2

theorem acked_cancelTextEdits (hw : Windowed maxPendingEvents w)
    {condemned : List PendingTextEditDescriptor}
    (hnodup : (condemned.map PendingTextEditDescriptor.eventId).Nodup)
    (hpending : ∀ ref ∈ condemned, ∃ e : Event,
      w.pendingEvents[ref.eventId]? = some e ∧ e.eventSeq = ref.eventSeq)
    (h : Acked (cancelTextEdits w condemned) n) :
    Acked w n ∨ ∃ ref ∈ condemned, n = ref.eventSeq := by
  induction condemned generalizing w with
  | nil => exact Or.inl h
  | cons ref rest ih =>
    obtain ⟨e, he, hseq⟩ := hpending ref List.mem_cons_self
    rw [List.map_cons, List.nodup_cons] at hnodup
    have hstep : cancelTextEdit w ref = acknowledgeEvent w ref.eventId := by
      rw [cancelTextEdit, acknowledgeEvent, he]
    rw [EventWindows.cancelTextEdits, List.foldl_cons, hstep] at h
    have hrest : ∀ other ∈ rest, ∃ f : Event,
        (acknowledgeEvent w ref.eventId).pendingEvents[other.eventId]? = some f ∧
          f.eventSeq = other.eventSeq := by
      intro other hother
      obtain ⟨f, hf, hfseq⟩ := hpending other (List.mem_cons_of_mem ref hother)
      have hne : ref.eventId ≠ other.eventId := by
        intro heq
        exact hnodup.1 (heq ▸ List.mem_map_of_mem hother)
      refine ⟨f, ?_, hfseq⟩
      rw [acknowledgeEvent, he]
      simp only [recordSelectiveAcknowledgement_pendingEvents, forget]
      rw [getElem?_drop, if_neg hne]
      exact hf
    rcases ih (hw.acknowledgeEvent _) hnodup.2 hrest h with hacked | ⟨other, hother, heq⟩
    · rcases acked_acknowledgeEvent hw hacked with hold | ⟨f, hf, heq⟩
      · exact Or.inl hold
      · rw [he] at hf
        refine Or.inr ⟨ref, List.mem_cons_self, ?_⟩
        rw [heq, ← Option.some.inj hf, hseq]
    · exact Or.inr ⟨other, List.mem_cons_of_mem ref hother, heq⟩

/-- Without word from the server the acknowledgements stay, and the sequence stays a
`UInt64`. -/
theorem Moves.quiet {settles : Prop} (hquiet : ¬settles) {w' : SequenceWindow}
    (h : Moves maxPendingEvents settles w w') :
    w'.lastAckedEventSeq = w.lastAckedEventSeq ∧
      w'.acknowledgedOutOfOrder = w.acknowledgedOutOfOrder ∧
      (w.currentEventSeq ≤ u64Max → w'.currentEventSeq ≤ u64Max) := by
  induction h with
  | stay w => exact ⟨rfl, rfl, id⟩
  | allocate hmake hok =>
    obtain ⟨-, -, hbound, -, ⟨-, rfl⟩ | ⟨-, rfl⟩⟩ := allocate_eq_ok hok
    · exact ⟨rfl, rfl, fun _ => hbound⟩
    · exact ⟨rfl, rfl, fun _ => hbound⟩
  | acknowledge hsettles | acknowledgeThrough hsettles | cancel hsettles | restart hsettles =>
    exact absurd hsettles hquiet
  | rollBack w event =>
    rw [rollBack]
    split
    · refine ⟨rfl, rfl, ?_⟩
      intro hle
      exact Nat.le_trans (Nat.sub_le _ _) hle
    · exact ⟨rfl, rfl, id⟩
  | trans _ _ ih ih' =>
    exact ⟨ih'.1.trans ih.1, ih'.2.1.trans ih.2.1, fun hle => ih'.2.2 (ih.2.2 hle)⟩

/-! ### The turns that bring word from the server -/

variable {o : EventOutbox}

theorem window_cancelReplayRetryLoopIfSettled :
    (cancelReplayRetryLoopIfSettled o).window = o.window :=
  congrArg WriteView.window (view_cancelReplayRetryLoopIfSettled (o := o))

theorem window_acknowledgeEventsThrough (seq : Nat) :
    (acknowledgeEventsThrough o seq).1.window = (acknowledgeEvents o.window seq).1 := by
  rw [acknowledgeEventsThrough]
  split
  · dsimp only
    rw [window_cancelReplayRetryLoopIfSettled]
    have hretired := view_retireAll (o := o) DomainEvent.eventId (acknowledgeEvents o.window seq).2
    have hwindow := congrArg WriteView.window hretired
    simp only [view] at hwindow
    rw [hwindow]
  · rename_i hguard
    rw [acknowledgeEvents, if_neg hguard]

theorem window_acknowledgeEventId (id : EventId) :
    (acknowledgeEventId o id).window = acknowledgeEvent o.window id := by
  rw [acknowledgeEventId]
  split
  · exact window_cancelReplayRetryLoopIfSettled
  · rename_i habsent
    have hnone : o.window.pendingEvents[id]? = none := by
      rw [ExtTreeMap.contains_eq_isSome_getElem?] at habsent
      simpa [retire] using habsent
    rw [acknowledgeEvent, hnone]
    rfl

theorem namedEvent_eq_some (hw : Windowed maxPendingEvents w) {ack : Acknowledgement}
    {settledEventSeq : Nat} (hack : ack.settledEventSeq = some settledEventSeq) {event : Event}
    (h : namedEvent w ack = some (some event)) :
    w.pendingEvents[event.eventId]? = some event ∧ event.eventSeq = settledEventSeq := by
  have hfound : ∀ {e}, ((pendingValues w).find? fun event =>
      decide (event.eventSeq = settledEventSeq)) = some e →
      w.pendingEvents[e.eventId]? = some e ∧ e.eventSeq = settledEventSeq := by
    intro e he
    have hseq := List.find?_some he
    simp only [decide_eq_true_eq] at hseq
    obtain ⟨id, hid⟩ := mem_pendingValues.mp (List.mem_of_find?_eq_some he)
    exact ⟨(hw.listed.keyed id e hid).symm ▸ hid, hseq⟩
  rw [namedEvent, hack] at h
  simp only at h
  split at h
  · cases h
  split at h
  · exact hfound (Option.some.inj h)
  split at h
  · rename_i e he
    split at h
    · rename_i hseq
      cases h
      have hkey := hw.listed.keyed _ _ he
      exact ⟨hkey ▸ he, hseq⟩
    · cases h
  · split at h
    · cases h
    · cases h

variable {binding : ConnectionBinding}

theorem acked_settleAcknowledgement (hw : Windowed o.maxPendingEvents o.window)
    {supplied : Option SessionIncarnation} {ack : Acknowledgement}
    {settledEventSeq : Nat} (hack : ack.settledEventSeq = some settledEventSeq)
    (h : Acked (settleAcknowledgement o binding supplied ack).window n) :
    Acked o.window n ∨ n ≤ ack.throughSeq ∨ n = settledEventSeq := by
  rw [settleAcknowledgement] at h
  split at h
  · exact Or.inl h
  split at h
  swap
  · exact Or.inl h
  split at h
  · exact Or.inl h
  rename_i event hnamed
  have hthrough : ∀ {n}, Acked (acknowledgeEventsThrough o ack.throughSeq).1.window n →
      Acked o.window n ∨ n ≤ ack.throughSeq := by
    intro n hacked
    rw [window_acknowledgeEventsThrough] at hacked
    exact acked_acknowledgeEvents hacked
  dsimp only at h
  split at h
  · rcases hthrough h with hold | hle
    · exact Or.inl hold
    · exact Or.inr (Or.inl hle)
  · rename_i id hidentity
    rw [window_acknowledgeEventId] at h
    have hsettled : Windowed o.maxPendingEvents
        (acknowledgeEventsThrough o ack.throughSeq).1.window := by
      rw [window_acknowledgeEventsThrough]
      exact hw.acknowledgeEvents _
    rcases acked_acknowledgeEvent hsettled h with hacked | ⟨e, he, heq⟩
    · rcases hthrough hacked with hold | hle
      · exact Or.inl hold
      · exact Or.inr (Or.inl hle)
    -- The identity is that of the named event, which was retained before the frontier moved.
    · rw [settledIdentity, hack] at hidentity
      simp only [reduceCtorEq, if_false] at hidentity
      obtain ⟨named, hsome, rfl⟩ := Option.map_eq_some_iff.mp hidentity
      rw [hsome] at hnamed
      obtain ⟨hpending, hseq⟩ := namedEvent_eq_some hw hack hnamed
      have hwas := (narrowed_acknowledgeEventsThrough (o := o) ack.throughSeq).lookup _ e he
      rw [hpending] at hwas
      refine Or.inr (Or.inr ?_)
      rw [heq, ← Option.some.inj hwas, hseq]

variable {o' : EventOutbox} {generation lastProcessedEventSeq : Nat}
    {sessionIncarnation : SessionIncarnation} {id : String}

theorem current_prepareSameSessionResume
    {requireExactTextMatch : Bool}
    (hok : prepareSameSessionResume o id lastProcessedEventSeq generation binding
      sessionIncarnation none requireExactTextMatch = .ok o') :
    o'.window.currentEventSeq = o.window.currentEventSeq := by
  rw [prepareSameSessionResume.eq_def] at hok
  split at hok
  · cases hok
    exact (narrowed_acknowledgeEventsThrough
      (o := { o with activeSessionId := some id }) lastProcessedEventSeq).current
  · cases hok
    rfl

theorem acked_prepareSameSessionResume
    {requireExactTextMatch : Bool}
    (hok : prepareSameSessionResume o id lastProcessedEventSeq generation binding
      sessionIncarnation none requireExactTextMatch = .ok o') (h : Acked o'.window n) :
    Acked o.window n ∨ n ≤ lastProcessedEventSeq := by
  rw [prepareSameSessionResume.eq_def] at hok
  split at hok
  swap
  · cases hok
    exact Or.inl h
  cases hok
  have hacked : Acked (acknowledgeEventsThrough { o with activeSessionId := some id }
      lastProcessedEventSeq).1.window n := h
  rw [window_acknowledgeEventsThrough] at hacked
  exact acked_acknowledgeEvents hacked

theorem acked_applyLiveResyncFrontier
    {captured : Option ResyncRenderOwnership}
    (h : Acked (applyLiveResyncFrontier o lastProcessedEventSeq binding captured).window n) :
    Acked o.window n ∨ n ≤ lastProcessedEventSeq := by
  rw [applyLiveResyncFrontier] at h
  split at h
  swap
  · exact Or.inl h
  rw [window_acknowledgeEventsThrough] at h
  split at h
  · exact acked_acknowledgeEvents h
  · exact acked_acknowledgeEvents h

theorem current_applyLiveResyncFrontier (lastProcessedEventSeq : Nat)
    (binding : ConnectionBinding) (captured : Option ResyncRenderOwnership) :
    (applyLiveResyncFrontier o lastProcessedEventSeq binding captured).window.currentEventSeq =
      o.window.currentEventSeq := by
  rw [applyLiveResyncFrontier]
  split
  swap
  · rfl
  refine (narrowed_acknowledgeEventsThrough lastProcessedEventSeq).current.trans ?_
  split <;> rfl

theorem current_applyLiveSameSessionResync
    {assigned : List PendingTextEditDescriptor}
    (hok : applyLiveSameSessionResync o lastProcessedEventSeq binding sessionIncarnation
      assigned = .ok o') : o'.window.currentEventSeq = o.window.currentEventSeq := by
  rw [applyLiveSameSessionResync] at hok
  split at hok
  swap
  · cases hok
    rfl
  split at hok
  · cases hok
  rename_i hcancelled
  cases hok
  exact (narrowed_acknowledgeEventsThrough lastProcessedEventSeq).current.trans
    (narrowed_cancelAssignedTextEdits hcancelled).current

theorem textEditsToCancel_exact {refs condemned : List PendingTextEditDescriptor}
    (hok : textEditsToCancel w refs true = .ok condemned) : condemned = refs := by
  rw [textEditsToCancel, if_pos rfl] at hok
  split at hok
  · exact (Except.ok.inj hok).symm
  · cases hok

theorem acked_cancelAssignedTextEdits (hw : Windowed o.maxPendingEvents o.window)
    {confirming : List PendingTextEditDescriptor}
    (hok : cancelAssignedTextEdits o confirming true = .ok o') (h : Acked o'.window n) :
    Acked o.window n ∨ ∃ ref ∈ confirming, n = ref.eventSeq := by
  rw [cancelAssignedTextEdits] at hok
  split at hok
  · cases hok
  rename_i condemned hcondemned
  cases hok
  obtain rfl := textEditsToCancel_exact hcondemned
  obtain ⟨hnodup, hpending⟩ := textEditsToCancel_pending hw.listed hcondemned
  have hwindow : (cancelCondemned o condemned).window = cancelTextEdits o.window condemned := by
    rw [cancelCondemned, window_cancelReplayRetryLoopIfSettled]
    have hretired := view_retireAll (o := o) PendingTextEditDescriptor.eventId condemned
    have hsame := congrArg WriteView.window hretired
    simp only [view] at hsame
    rw [hsame]
  rw [hwindow] at h
  exact acked_cancelTextEdits hw hnodup hpending h

theorem acked_applyLiveSameSessionResync (hw : Windowed o.maxPendingEvents o.window)
    {assigned : List PendingTextEditDescriptor}
    (hok : applyLiveSameSessionResync o lastProcessedEventSeq binding sessionIncarnation
      assigned = .ok o') (h : Acked o'.window n) :
    Acked o.window n ∨ n ≤ lastProcessedEventSeq := by
  rw [applyLiveSameSessionResync] at hok
  split at hok
  swap
  · cases hok
    exact Or.inl h
  rename_i hguard
  split at hok
  · cases hok
  rename_i cancelled hcancelled
  cases hok
  rw [window_acknowledgeEventsThrough] at h
  rcases acked_acknowledgeEvents h with hacked | hle
  swap
  · exact Or.inr hle
  rcases acked_cancelAssignedTextEdits hw hcancelled hacked with hold | ⟨ref, href, rfl⟩
  · exact Or.inl hold
  · have hbelow := List.all_eq_true.mp hguard.2 ref href
    exact Or.inr (of_decide_eq_true hbelow)

end Srui.Client.Acknowledgements

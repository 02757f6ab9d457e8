import Srui.Client.Acknowledgements

/-!
What one acknowledgement from the wire settles: the events at or below its frontier and the
event it names, and nothing else.
-/

namespace Srui.Client.AcknowledgementSettlements

open Std Basic.FiniteMaps SemanticTree.Values SemanticTree.Events EventWindows WindowIntegrity
open EventOutboxes OutboxTurns OutboxWindows OutboxTransmissions Acknowledgements

/-- `EventAcknowledgementSettlement`. -/
structure EventAcknowledgementSettlement where
  connectionBound : Bool
  bound : Bool
  event : Option Event := none
  settledEvents : List Event := []

def withNamed (covered : List Event) : Option Event → List Event
  | none => covered
  | some event =>
    if covered.any fun other => decide (other.eventId = event.eventId) then covered
    else (covered ++ [event]).insertionSort bySequence

/-- What `settleAcknowledgement` returns. -/
def settlementOf (o : EventOutbox) (binding : ConnectionBinding)
    (supplied : Option SessionIncarnation) (ack : Acknowledgement) :
    EventAcknowledgementSettlement :=
  match resolveSessionIncarnation o supplied binding with
  | none => { connectionBound := false, bound := false }
  | some _ =>
    if ack.clientInstanceId = o.clientInstanceId ∧ ack.sessionId ≠ "" ∧
        o.activeSessionId = some ack.sessionId then
      match namedEvent o.window ack with
      | none => { connectionBound := true, bound := false }
      | some event =>
        { connectionBound := true
          bound := true
          event := event
          settledEvents := withNamed (acknowledgeEventsThrough o ack.throughSeq).2 event }
    else { connectionBound := true, bound := false }

/-! ### What is to be settled -/

def Pending (w : SequenceWindow) (e : Event) : Prop :=
  ∃ id : EventId, w.pendingEvents[id]? = some e

/-- The sequence that the acknowledgement gives was sent, and unless it rejects that sequence
its identity and its sequence name the same event. -/
def Agrees (w : SequenceWindow) (ack : Acknowledgement) : Prop :=
  ∀ seq, ack.settledEventSeq = some seq → seq ≤ w.currentEventSeq ∧
    (ack.textEditRejected = false → ∀ (id : EventId) (e : Event),
      w.pendingEvents[id]? = some e → (id = ack.eventId ↔ e.eventSeq = seq))

structure Binds (o : EventOutbox) (binding : ConnectionBinding)
    (supplied : Option SessionIncarnation) (ack : Acknowledgement) : Prop where
  connection : o.activeConnectionBinding = some binding
  incarnation : ∃ current, o.activeSessionIncarnation = some current ∧
    (supplied = none ∨ supplied = some current)
  client : ack.clientInstanceId = o.clientInstanceId
  session : ack.sessionId ≠ "" ∧ o.activeSessionId = some ack.sessionId
  agrees : Agrees o.window ack

/-- The acknowledgement names the event: by its identity, and by its sequence when it gives one;
a rejection with a sequence names it by that sequence alone. -/
def Names (ack : Acknowledgement) (e : Event) : Prop :=
  match ack.settledEventSeq with
  | none => e.eventId = ack.eventId
  | some seq => e.eventSeq = seq ∧ (ack.textEditRejected = true ∨ e.eventId = ack.eventId)

def Covered (w : SequenceWindow) (seq : Nat) (e : Event) : Prop :=
  (w.lastAckedEventSeq < seq ∧ seq ≤ w.currentEventSeq) ∧ e.eventSeq ≤ seq

def Retires (w : SequenceWindow) (ack : Acknowledgement) (e : Event) : Prop :=
  Covered w ack.throughSeq e ∨ Names ack e

def Fenced (barriers : ExtTreeMap NodeId TextEditAcknowledgementBarrier) (nodeId : NodeId)
    (revision : Nat) : Prop :=
  ∃ barrier, barriers[nodeId]? = some barrier ∧ revision ≤ barrier.revisionAfterEffect

structure Settles (ack : Acknowledgement) (o o' : EventOutbox)
    (settlement : EventAcknowledgementSettlement) : Prop where
  retained : ∀ (id : EventId) (e : Event), o'.window.pendingEvents[id]? = some e ↔
    o.window.pendingEvents[id]? = some e ∧ ¬Retires o.window ack e
  listed : ∀ e, e ∈ settlement.settledEvents ↔ Pending o.window e ∧ Retires o.window ack e
  increasing : settlement.settledEvents.Pairwise fun e f => e.eventSeq < f.eventSeq
  named : ∀ e, settlement.event = some e ↔ Pending o.window e ∧ Names ack e
  fenced : ∀ e ∈ settlement.settledEvents, e.eventType = eventTextEdit →
    Fenced o'.textAcknowledgementBarriers e.nodeId (ack.revisionAfterEffect.getD 0) ∧
      ∀ revision, Fenced o.textAcknowledgementBarriers e.nodeId revision →
        Fenced o'.textAcknowledgementBarriers e.nodeId revision

/-! ### The event it names -/

variable {maxPendingEvents : Nat} {w : SequenceWindow} {ack : Acknowledgement} {id : EventId}
  {e f : Event} {seq : Nat}

theorem pending_id (hw : Windowed maxPendingEvents w) (he : Pending w e) :
    w.pendingEvents[e.eventId]? = some e := by
  obtain ⟨id, hid⟩ := he
  exact (hw.listed.keyed id e hid).symm ▸ hid

theorem pending_eq (hw : Windowed maxPendingEvents w) (he : Pending w e)
    (hf : Pending w f) (hseq : e.eventSeq = f.eventSeq) : e = f := by
  have hid := hw.listed.eq_of_rank (pending_id hw he) (pending_id hw hf) hseq
  have hsame := pending_id hw he
  rw [hid, pending_id hw hf] at hsame
  exact (Option.some.inj hsame).symm

theorem find_sequence (hw : Windowed maxPendingEvents w) :
    ((pendingValues w).find? fun event => decide (event.eventSeq = seq)) = some e ↔
      Pending w e ∧ e.eventSeq = seq := by
  have hfound {f : Event}
      (hf : ((pendingValues w).find? fun event => decide (event.eventSeq = seq)) = some f) :
      Pending w f ∧ f.eventSeq = seq :=
    ⟨mem_pendingValues.mp (List.mem_of_find?_eq_some hf), by simpa using List.find?_some hf⟩
  refine ⟨hfound, fun ⟨hpending, hseq⟩ => ?_⟩
  rcases hfind : (pendingValues w).find? fun event => decide (event.eventSeq = seq) with - | f
  · have hnone := List.find?_eq_none.mp hfind e (mem_pendingValues.mpr hpending)
    exact absurd (decide_eq_true hseq) hnone
  · obtain ⟨hf, hfseq⟩ := hfound hfind
    exact hfind.trans (congrArg some (pending_eq hw hf hpending (hfseq.trans hseq.symm)))

variable {named : Option Event}

theorem namedEvent_agrees (hw : Windowed maxPendingEvents w) (h : namedEvent w ack = some named) :
    Agrees w ack ∧ ∀ e, named = some e ↔ Pending w e ∧ Names ack e := by
  rw [namedEvent] at h
  split at h
  · rename_i hnone
    cases h
    refine ⟨fun seq hseq => absurd (hnone.symm.trans hseq) (Option.some_ne_none seq).symm, ?_⟩
    intro e
    rw [Names, hnone]
    refine ⟨fun he => ⟨⟨_, he⟩, hw.listed.keyed _ e he⟩, fun ⟨hpending, hid⟩ => ?_⟩
    exact hid ▸ pending_id hw hpending
  rename_i seq hack
  have hagrees (hle : seq ≤ w.currentEventSeq) (hsame : ack.textEditRejected = false →
      ∀ (id : EventId) (e : Event), w.pendingEvents[id]? = some e →
        (id = ack.eventId ↔ e.eventSeq = seq)) : Agrees w ack := by
    intro seq' hseq'
    cases hack.symm.trans hseq'
    exact ⟨hle, hsame⟩
  simp only [Names, hack]
  split at h
  · cases h
  rename_i hsent
  have hle := Nat.le_of_not_lt hsent
  simp only at h
  split at h
  · rename_i hrejected
    cases h
    refine ⟨hagrees hle fun hnot => absurd (hrejected.symm.trans hnot) Bool.noConfusion, ?_⟩
    intro e
    rw [find_sequence hw]
    simp only [hrejected, true_or, and_true]
  rename_i hrejected
  split at h
  · rename_i event hevent
    split at h
    swap
    · cases h
    rename_i hseq
    cases h
    have hkey := hw.listed.keyed _ event hevent
    have honly {f : Event} (hf : Pending w f) : f.eventSeq = seq ↔ f = event :=
      ⟨fun hfseq => pending_eq hw hf ⟨_, hevent⟩ (hfseq.trans hseq.symm), fun heq => heq ▸ hseq⟩
    refine ⟨hagrees hle fun _ id f hf => ?_, fun f => ?_⟩
    · rw [honly ⟨id, hf⟩, ← hw.listed.keyed id f hf]
      refine ⟨fun hid => ?_, fun heq => heq ▸ hkey⟩
      have hsame := pending_id hw ⟨id, hf⟩
      rw [hid, hevent] at hsame
      exact (Option.some.inj hsame).symm
    · constructor
      · intro heq
        cases heq
        exact ⟨⟨_, hevent⟩, hseq, .inr hkey⟩
      · rintro ⟨hf, hfseq, -⟩
        rw [(honly hf).mp hfseq]
  · rename_i habsent
    split at h
    · cases h
    rename_i hnofind
    cases h
    have hnone {f : Event} (hf : Pending w f) : f.eventSeq ≠ seq := by
      intro hfseq
      rw [(find_sequence hw).mpr ⟨hf, hfseq⟩] at hnofind
      exact hnofind rfl
    refine ⟨hagrees hle fun _ id f hf => ?_, fun f => ?_⟩
    · refine iff_of_false ?_ (hnone ⟨id, hf⟩)
      rintro rfl
      exact absurd (habsent.symm.trans hf) (Option.some_ne_none f).symm
    · exact iff_of_false (Option.some_ne_none f).symm fun h => hnone h.1 h.2.1

theorem namedEvent_eq_none (h : namedEvent w ack = none) : ¬Agrees w ack := by
  intro hagrees
  rw [namedEvent] at h
  split at h
  · cases h
  rename_i seq hack
  obtain ⟨hle, hsame⟩ := hagrees seq hack
  rw [if_neg (Nat.not_lt.mpr hle)] at h
  simp only at h
  split at h
  · cases h
  rename_i hrejected
  have hsame := hsame (Bool.eq_false_iff.mpr hrejected)
  split at h
  · rename_i event hevent
    rw [if_pos ((hsame _ event hevent).mp rfl)] at h
    cases h
  · rename_i habsent
    split at h
    swap
    · cases h
    rename_i hfind
    obtain ⟨f, hf⟩ := Option.isSome_iff_exists.mp hfind
    obtain ⟨id, hid⟩ := mem_pendingValues.mp (List.mem_of_find?_eq_some hf)
    have heq := (hsame id f hid).mpr (by simpa using List.find?_some hf)
    rw [← heq, hid] at habsent
    cases habsent

theorem settledIdentity_iff (hw : Windowed maxPendingEvents w)
    (hnamed : ∀ e, named = some e ↔ Pending w e ∧ Names ack e)
    (he : w.pendingEvents[id]? = some e) : settledIdentity ack named = some id ↔ Names ack e := by
  have hkey := hw.listed.keyed id e he
  rw [settledIdentity]
  split
  · rename_i hnone
    rw [Names, hnone, Option.some.injEq, ← hkey, eq_comm]
  · refine ⟨fun hid => ?_, fun hnames => ?_⟩
    · obtain ⟨f, hf, rfl⟩ := Option.map_eq_some_iff.mp hid
      obtain ⟨hpending, hnames⟩ := (hnamed f).mp hf
      rw [pending_id hw hpending, Option.some.injEq] at he
      exact he ▸ hnames
    · rw [(hnamed e).mpr ⟨⟨id, he⟩, hnames⟩, Option.map_some, hkey]

/-! ### The events that are settled -/

theorem lookup_acknowledgeEvents (hw : Windowed maxPendingEvents w) (seq : Nat) :
    (acknowledgeEvents w seq).1.pendingEvents[id]? = some e ↔
      w.pendingEvents[id]? = some e ∧ ¬Covered w seq e := by
  rw [acknowledgeEvents, Covered]
  split
  · rename_i hguard
    exact (lookup_uncovered hw.listed seq id e).trans (by simp only [hguard, true_and, Nat.not_le])
  · rename_i hguard
    simp only [hguard, false_and, not_false_eq_true, and_true]

theorem mem_acknowledgeEvents (seq : Nat) :
    e ∈ (acknowledgeEvents w seq).2 ↔ Pending w e ∧ Covered w seq e := by
  rw [acknowledgeEvents, Covered]
  split
  · rename_i hguard
    exact mem_coveredEvents.trans (by simp only [hguard, true_and, Pending])
  · rename_i hguard
    simp only [hguard, false_and, and_false, List.not_mem_nil]

theorem lookup_acknowledgeEvent {id' : EventId} :
    (acknowledgeEvent w id').pendingEvents[id]? = some e ↔
      id ≠ id' ∧ w.pendingEvents[id]? = some e := by
  refine ⟨acknowledgeEvent_lookup, fun ⟨hne, he⟩ => ?_⟩
  rw [acknowledgeEvent]
  split
  · exact he
  · rw [recordSelectiveAcknowledgement_pendingEvents, forget, getElem?_drop, if_neg hne.symm, he]

section

variable (hw : Windowed maxPendingEvents w)

include hw

theorem pendingValues_nodup : (pendingValues w).Nodup := by
  refine List.pairwise_map.mpr (w.pendingEvents.distinct_keys_toList.imp_of_mem ?_)
  intro a b ha hb hkeys heq
  have hkeyed {entry : EventId × Event} (hmem : entry ∈ w.pendingEvents.toList) :
      entry.2.eventId = entry.1 :=
    hw.listed.keyed _ _ (ExtTreeMap.mem_toList_iff_getElem?_eq_some.mp hmem)
  refine hkeys ?_
  rw [← hkeyed ha, ← hkeyed hb, heq]
  exact ReflCmp.compare_self

theorem increasing_of_pending {l : List Event} (hpending : ∀ e ∈ l, Pending w e) (hnodup : l.Nodup) :
    (l.insertionSort bySequence).Pairwise fun e f => e.eventSeq < f.eventSeq := by
  have : Std.Total bySequence := ⟨fun a b => Nat.le_total a.eventSeq b.eventSeq⟩
  have : IsTrans Event bySequence := ⟨fun _ _ _ => Nat.le_trans⟩
  have hapart := (List.perm_insertionSort bySequence l).nodup_iff.mpr hnodup
  refine ((List.pairwise_insertionSort bySequence l).and hapart).imp_of_mem ?_
  rintro e f he hf ⟨hle, hne⟩
  refine Nat.lt_of_le_of_ne hle fun hseq => hne ?_
  exact pending_eq hw (hpending e ((List.mem_insertionSort _).mp he))
    (hpending f ((List.mem_insertionSort _).mp hf)) hseq

theorem acknowledgeEvents_nodup (seq : Nat) :
    (acknowledgeEvents w seq).2.Nodup := by
  rw [acknowledgeEvents]
  split
  · exact (List.perm_insertionSort _ _).nodup_iff.mpr ((pendingValues_nodup hw).filter _)
  · exact List.nodup_nil

theorem acknowledgeEvents_increasing (seq : Nat) :
    (acknowledgeEvents w seq).2.Pairwise fun e f => e.eventSeq < f.eventSeq := by
  rw [acknowledgeEvents]
  split
  · refine increasing_of_pending hw ?_ ((pendingValues_nodup hw).filter _)
    exact fun e he => mem_pendingValues.mp (List.mem_filter.mp he).1
  · exact List.Pairwise.nil

theorem mem_withNamed {covered : List Event} (hcovered : ∀ e ∈ covered, Pending w e)
    (hnamed : ∀ e, named = some e → Pending w e) :
    e ∈ withNamed covered named ↔ e ∈ covered ∨ named = some e := by
  rcases named with - | event
  · simp only [withNamed, reduceCtorEq, or_false]
  rw [withNamed]
  split
  · rename_i hany
    obtain ⟨other, hother, hid⟩ := List.any_eq_true.mp hany
    have hsame := pending_id hw (hcovered other hother)
    rw [of_decide_eq_true hid, pending_id hw (hnamed event rfl)] at hsame
    refine ⟨Or.inl, fun h => h.elim id fun heq => ?_⟩
    rw [← Option.some.inj heq, Option.some.inj hsame]
    exact hother
  · rw [List.mem_insertionSort, List.mem_append, List.mem_singleton, Option.some.injEq,
      eq_comm (a := e)]

theorem withNamed_increasing (hnamed : ∀ e, named = some e → Pending w e) (seq : Nat) :
    (withNamed (acknowledgeEvents w seq).2 named).Pairwise
      fun e f => e.eventSeq < f.eventSeq := by
  rcases named with - | event
  · exact acknowledgeEvents_increasing hw seq
  rw [withNamed]
  split
  · exact acknowledgeEvents_increasing hw seq
  rename_i hany
  refine increasing_of_pending hw ?_ ?_
  · intro e he
    rcases List.mem_append.mp he with hcovered | hlast
    · exact ((mem_acknowledgeEvents seq).mp hcovered).1
    · exact hnamed e (congrArg some (List.mem_singleton.mp hlast).symm)
  · refine List.nodup_append.mpr ⟨acknowledgeEvents_nodup hw seq, List.nodup_singleton _, ?_⟩
    intro e he f hf heq
    rw [List.mem_singleton.mp hf] at heq
    exact hany (List.any_eq_true.mpr ⟨e, he, decide_eq_true (congrArg _ heq)⟩)

end

/-! ### The barriers they leave -/

section Barriers

variable {barriers : ExtTreeMap NodeId TextEditAcknowledgementBarrier}
  {identity : Option EventId} {nodeId : NodeId} {revision : Nat}

theorem Fenced.raiseBarrier (h : Fenced barriers nodeId revision) :
    Fenced (raiseBarrier ack identity barriers e) nodeId revision := by
  obtain ⟨barrier, hbarrier, hle⟩ := h
  rw [Fenced, OutboxTurns.raiseBarrier]
  split
  swap
  · exact ⟨barrier, hbarrier, hle⟩
  simp only
  split
  · rename_i current hcurrent
    split
    swap
    · exact ⟨barrier, hbarrier, hle⟩
    rename_i hbelow
    rw [getElem?_put]
    split
    · rename_i hnode
      rw [hnode, hbarrier, Option.some.injEq] at hcurrent
      exact ⟨_, rfl, hle.trans (hcurrent ▸ hbelow)⟩
    · exact ⟨barrier, hbarrier, hle⟩
  · rename_i hnone
    rw [getElem?_put, if_neg]
    · exact ⟨barrier, hbarrier, hle⟩
    · rintro rfl
      exact absurd (hnone.symm.trans hbarrier) (Option.some_ne_none _).symm

theorem raiseBarrier_fenced (htext : e.eventType = eventTextEdit) :
    Fenced (raiseBarrier ack identity barriers e) e.nodeId
      (ack.revisionAfterEffect.getD 0) := by
  rw [Fenced, raiseBarrier, if_pos htext]
  simp only
  split
  · rename_i current hcurrent
    split
    · exact ⟨_, (getElem?_put _ _ _ _).trans (if_pos rfl), le_rfl⟩
    · rename_i habove
      exact ⟨current, hcurrent, Nat.le_of_not_le habove⟩
  · exact ⟨_, (getElem?_put _ _ _ _).trans (if_pos rfl), le_rfl⟩

theorem Fenced.foldl_raiseBarrier {events : List Event} (h : Fenced barriers nodeId revision) :
    Fenced (events.foldl (OutboxTurns.raiseBarrier ack identity) barriers) nodeId revision := by
  induction events generalizing barriers with
  | nil => exact h
  | cons event rest ih => exact ih h.raiseBarrier

theorem foldl_raiseBarrier_fenced {events : List Event} (he : e ∈ events)
    (htext : e.eventType = eventTextEdit) :
    Fenced (events.foldl (raiseBarrier ack identity) barriers) e.nodeId
      (ack.revisionAfterEffect.getD 0) := by
  induction events generalizing barriers with
  | nil => cases he
  | cons event rest ih =>
    rcases List.mem_cons.mp he with rfl | hrest
    · exact (raiseBarrier_fenced htext).foldl_raiseBarrier
    · exact ih hrest

end Barriers

variable {o : EventOutbox}

theorem barriers_cancelReplayRetryLoopIfSettled :
    (cancelReplayRetryLoopIfSettled o).textAcknowledgementBarriers =
      o.textAcknowledgementBarriers := by
  rw [cancelReplayRetryLoopIfSettled, cancelReplayRetryLoop]
  split
  · split <;> rfl
  · rfl

theorem barriers_acknowledgeEventsThrough (seq : Nat) :
    (acknowledgeEventsThrough o seq).1.textAcknowledgementBarriers =
      o.textAcknowledgementBarriers := by
  rw [acknowledgeEventsThrough]
  split
  · refine barriers_cancelReplayRetryLoopIfSettled.trans ?_
    exact foldl_keeps (f := fun o (event : Event) => retire o event.eventId)
      EventOutbox.textAcknowledgementBarriers (fun _ _ => rfl) _ o
  · rfl

theorem barriers_acknowledgeEventId :
    (acknowledgeEventId o id).textAcknowledgementBarriers = o.textAcknowledgementBarriers := by
  rw [acknowledgeEventId]
  split
  · exact barriers_cancelReplayRetryLoopIfSettled
  · rfl

theorem acknowledgeEventsThrough_settled (seq : Nat) :
    (acknowledgeEventsThrough o seq).2 = (acknowledgeEvents o.window seq).2 := by
  rw [acknowledgeEventsThrough]
  split
  · rfl
  · rename_i hguard
    rw [acknowledgeEvents, if_neg hguard]

/-! ### The acknowledgement -/

variable {binding : ConnectionBinding} {supplied : Option SessionIncarnation}

theorem resolveSessionIncarnation_isSome :
    (resolveSessionIncarnation o supplied binding).isSome ↔
      o.activeConnectionBinding = some binding ∧ ∃ current,
        o.activeSessionIncarnation = some current ∧
          (supplied = none ∨ supplied = some current) := by
  rw [resolveSessionIncarnation]
  rcases o.activeSessionIncarnation with - | expected
  · split <;> simp
  · split
    · rename_i hbinding
      simp only [hbinding, true_and, Option.some.injEq, exists_eq_left']
      split
      · rename_i hsupplied
        simp only [Option.isSome_some, hsupplied]
      · rename_i hsupplied
        simp only [Option.isSome_none, hsupplied, Bool.false_eq_true]
    · rename_i hbinding
      simp only [hbinding, Option.isSome_none, Bool.false_eq_true, false_and]

theorem settleAcknowledgement_cases (hw : Windowed maxPendingEvents o.window)
    (binding : ConnectionBinding) (supplied : Option SessionIncarnation) (ack : Acknowledgement) :
    (¬Binds o binding supplied ack ∧ settleAcknowledgement o binding supplied ack = o ∧
      (settlementOf o binding supplied ack).bound = false ∧
      (settlementOf o binding supplied ack).settledEvents = []) ∨
    (Binds o binding supplied ack ∧ (settlementOf o binding supplied ack).bound = true ∧
      Settles ack o (settleAcknowledgement o binding supplied ack)
        (settlementOf o binding supplied ack)) := by
  have hresolve : (resolveSessionIncarnation o supplied binding).isSome ↔ _ :=
    resolveSessionIncarnation_isSome
  rw [settleAcknowledgement, settlementOf]
  rcases hcurrent : resolveSessionIncarnation o supplied binding with - | current
  · rw [hcurrent] at hresolve
    exact .inl ⟨fun h => absurd (hresolve.mpr ⟨h.connection, h.incarnation⟩) Bool.false_ne_true,
      rfl, rfl, rfl⟩
  rw [hcurrent] at hresolve
  obtain ⟨hconnection, hincarnation⟩ := hresolve.mp rfl
  by_cases hidentity : ack.clientInstanceId = o.clientInstanceId ∧ ack.sessionId ≠ "" ∧
    o.activeSessionId = some ack.sessionId
  swap
  · rw [if_neg hidentity, if_neg hidentity]
    exact .inl ⟨fun h => hidentity ⟨h.client, h.session⟩, rfl, rfl, rfl⟩
  rw [if_pos hidentity, if_pos hidentity]
  rcases hnamed : namedEvent o.window ack with - | named
  · exact .inl ⟨fun h => namedEvent_eq_none hnamed h.agrees, rfl, rfl, rfl⟩
  obtain ⟨hagrees, hnames⟩ := namedEvent_agrees hw hnamed
  refine .inr ⟨⟨hconnection, hincarnation, hidentity.1, hidentity.2, hagrees⟩, rfl, ?_⟩
  have hsettled : ∀ e, e ∈ withNamed (acknowledgeEventsThrough o ack.throughSeq).2 named ↔
      Pending o.window e ∧ Retires o.window ack e := by
    intro e
    rw [acknowledgeEventsThrough_settled, mem_withNamed hw
      (fun e he => ((mem_acknowledgeEvents _).mp he).1) (fun e he => ((hnames e).mp he).1),
      mem_acknowledgeEvents, hnames, ← and_or_left]
    rfl
  refine ⟨?_, hsettled, ?_, hnames, ?_⟩
  · intro id e
    have hidentified (he : o.window.pendingEvents[id]? = some e) :=
      settledIdentity_iff hw hnames he
    rw [Retires, not_or, ← and_assoc, ← lookup_acknowledgeEvents hw,
      ← window_acknowledgeEventsThrough]
    have hwas (he : (acknowledgeEventsThrough o ack.throughSeq).1.window.pendingEvents[id]? =
        some e) : o.window.pendingEvents[id]? = some e := by
      rw [window_acknowledgeEventsThrough, lookup_acknowledgeEvents hw] at he
      exact he.1
    simp only
    split
    · rename_i hnone
      refine ⟨fun he => ⟨he, fun hnamed => ?_⟩, And.left⟩
      rw [← hidentified (hwas he), hnone] at hnamed
      cases hnamed
    · rename_i named' hsome
      rw [window_acknowledgeEventId, lookup_acknowledgeEvent]
      constructor
      · rintro ⟨hne, he⟩
        refine ⟨he, fun hnamed => ?_⟩
        rw [← hidentified (hwas he), hsome, Option.some.injEq] at hnamed
        exact hne hnamed.symm
      · rintro ⟨he, hnot⟩
        refine ⟨fun heq => ?_, he⟩
        exact hnot ((hidentified (hwas he)).mp (hsome.trans (congrArg some heq.symm)))
  · rw [acknowledgeEventsThrough_settled]
    exact withNamed_increasing hw (fun e he => ((hnames e).mp he).1) ack.throughSeq
  · intro e he htext
    rw [← barriers_acknowledgeEventsThrough (o := o) ack.throughSeq]
    simp only
    split
    · exact ⟨foldl_raiseBarrier_fenced he htext, fun _ => Fenced.foldl_raiseBarrier⟩
    · rw [barriers_acknowledgeEventId]
      exact ⟨foldl_raiseBarrier_fenced he htext, fun _ => Fenced.foldl_raiseBarrier⟩

theorem windowed_settleAcknowledgement (hw : Windowed maxPendingEvents o.window) :
    Windowed maxPendingEvents (settleAcknowledgement o binding supplied ack).window := by
  have hthrough : Windowed maxPendingEvents
      (acknowledgeEventsThrough o ack.throughSeq).1.window := by
    rw [window_acknowledgeEventsThrough]
    exact hw.acknowledgeEvents _
  rw [settleAcknowledgement]
  split
  · exact hw
  split
  swap
  · exact hw
  split
  · exact hw
  simp only
  split
  · exact hthrough
  · rw [window_acknowledgeEventId]
    exact hthrough.acknowledgeEvent _

/-- An acknowledgement that does not bind changes nothing. One that binds retires what its
frontier covers and the event it names, and retires nothing more when it comes again. -/
theorem acknowledgement_settles (hw : Windowed o.maxPendingEvents o.window)
    (binding : ConnectionBinding) (supplied : Option SessionIncarnation) (ack : Acknowledgement) :
    let o' := settleAcknowledgement o binding supplied ack
    let settlement := settlementOf o binding supplied ack
    (settlement.bound = true ↔ Binds o binding supplied ack) ∧
    (¬Binds o binding supplied ack → o' = o ∧ settlement.settledEvents = []) ∧
    (Binds o binding supplied ack → Settles ack o o' settlement) ∧
    (settleAcknowledgement o' binding supplied ack).window.pendingEvents =
      o'.window.pendingEvents ∧
    (settlementOf o' binding supplied ack).settledEvents = [] := by
  intro o' settlement
  have hcases := settleAcknowledgement_cases hw binding supplied ack
  -- whatever the frontier covers or the acknowledgement names is gone from the window
  have hnothing (hbinds : Binds o' binding supplied ack) (e : Event) (he : Pending o'.window e) :
      ¬Retires o'.window ack e := by
    rcases hcases with ⟨hnot, hsame, -, -⟩ | ⟨-, -, hsettles⟩
    · exact absurd (hsame ▸ hbinds) hnot
    obtain ⟨id, hid⟩ := he
    obtain ⟨hold, hkept⟩ := (hsettles.retained id e).mp hid
    have hcurrent := (narrowed_settleAcknowledgement (o := o) binding supplied ack).current
    rintro (⟨⟨-, hle⟩, hcovered⟩ | hnamed)
    · refine hkept (.inl ⟨⟨?_, hcurrent ▸ hle⟩, hcovered⟩)
      exact Nat.lt_of_lt_of_le (hw.pending_mem id e hold).1 hcovered
    · exact hkept (.inr hnamed)
  have hw' : Windowed o.maxPendingEvents o'.window := windowed_settleAcknowledgement hw
  have hagain := settleAcknowledgement_cases hw' binding supplied ack
  refine ⟨?_, ?_, ?_, ?_⟩
  · rcases hcases with ⟨hnot, -, hbound, -⟩ | ⟨hbinds, hbound, -⟩
    · exact iff_of_false (hbound ▸ Bool.false_ne_true) hnot
    · exact iff_of_true hbound hbinds
  · rcases hcases with ⟨-, hsame, -, hempty⟩ | ⟨hbinds, -⟩
    · exact fun _ => ⟨hsame, hempty⟩
    · exact fun hnot => absurd hbinds hnot
  · rcases hcases with ⟨hnot, -⟩ | ⟨-, -, hsettles⟩
    · exact fun hbinds => absurd hbinds hnot
    · exact fun _ => hsettles
  · rcases hagain with ⟨-, hsame, -, hempty⟩ | ⟨hbinds, -, hsettles⟩
    · exact ⟨by rw [hsame], hempty⟩
    · refine ⟨ExtTreeMap.ext_getElem? fun id => Option.ext fun e => ?_, ?_⟩
      · exact (hsettles.retained id e).trans
          (and_iff_left_of_imp fun he => hnothing hbinds e ⟨id, he⟩)
      · refine List.eq_nil_iff_forall_not_mem.mpr fun e he => ?_
        obtain ⟨hpending, hretires⟩ := (hsettles.listed e).mp he
        exact hnothing hbinds e hpending hretires

def allocated (w : SequenceWindow) (makeEvent : Nat → Event) : SequenceWindow :=
  match allocate (fun _ => true) 8 w makeEvent with
  | .ok (w, _) => w
  | .error _ => w

theorem windowed_allocated (hw : Windowed 8 w) {makes : List (Nat → Event)}
    (hmakes : ∀ make ∈ makes, ∀ n, (make n).eventSeq = n) :
    Windowed 8 (makes.foldl allocated w) := by
  induction makes generalizing w with
  | nil => exact hw
  | cons make rest ih =>
    refine ih ?_ fun other hother => hmakes other (List.mem_cons_of_mem _ hother)
    unfold allocated
    split
    · rename_i hok
      exact hw.allocate (hmakes make List.mem_cons_self) hok
    · exact hw

def activation (eventId : EventId) : Nat → Event := EventDraft.activate.makeEvent [7] 0 3 eventId

/-- An edit of node 5 among activations of node 3, all of them pending. -/
def crowded : EventOutbox where
  clientInstanceId := [7]
  maxPendingEvents := 8
  window := [activation [1], textEdit [7] 0 5 "a" ⟨1, Nat.one_pos⟩ [2], activation [3],
    activation [4]].foldl allocated {}
  activeSessionId := some "s"
  activeConnectionBinding := some 4
  activeSessionIncarnation := some ⟨4, 0⟩

/-- The frontier covers the first two events, and the acknowledgement names the last. -/
def selective : Acknowledgement := ⟨[7], [4], some 4, 2, "s", some 9, false⟩

theorem crowded_settled :
    Settles selective crowded (settleAcknowledgement crowded 4 none selective)
        (settlementOf crowded 4 none selective) ∧
      (settlementOf crowded 4 none selective).settledEvents.map (·.eventSeq) = [1, 2, 4] ∧
      (settleAcknowledgement crowded 4 none selective).textAcknowledgementBarriers[5]?.map
        (·.revisionAfterEffect) = some 9 := by
  have hw : Windowed crowded.maxPendingEvents crowded.window := by
    refine windowed_allocated windowed_empty ?_
    simp [activation, EventDraft.makeEvent, textEdit]
  have hsettled := acknowledgement_settles hw 4 none selective
  refine ⟨hsettled.2.2.1 (hsettled.1.mp ?_), ?_, ?_⟩
  · decide +kernel
  · decide +kernel
  · decide +kernel

end Srui.Client.AcknowledgementSettlements

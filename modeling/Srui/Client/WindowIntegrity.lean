import Srui.Client.EventWindows

/-!
What the send window keeps: every sequence between the acknowledged frontier and the
newest allocation is pending or acknowledged ahead of the frontier, and never both.
-/

namespace Srui.Client.WindowIntegrity

open Std Basic.Machine Basic.FiniteMaps Basic.Ledgers SemanticTree.Events Client.EventWindows

/-- The pending events and the sequences acknowledged out of order share out the
window between them. -/
structure Partitioned (maxPendingEvents : Nat) (w : SequenceWindow) : Prop where
  listed : Listed DomainEvent.eventId DomainEvent.eventSeq w.pendingEvents w.pendingOrder
  acked_le : w.lastAckedEventSeq ≤ w.currentEventSeq
  span_le : w.currentEventSeq ≤ w.lastAckedEventSeq + maxPendingEvents
  covered : ∀ n, w.lastAckedEventSeq < n → n ≤ w.currentEventSeq →
    (∃ (id : EventId) (e : Event), w.pendingEvents[id]? = some e ∧ e.eventSeq = n) ∨
      n ∈ w.acknowledgedOutOfOrder
  pending_mem : ∀ (id : EventId) e, w.pendingEvents[id]? = some e →
    w.lastAckedEventSeq < e.eventSeq ∧ e.eventSeq ≤ w.currentEventSeq ∧
      e.eventSeq ∉ w.acknowledgedOutOfOrder
  settled_mem : ∀ n ∈ w.acknowledgedOutOfOrder,
    w.lastAckedEventSeq < n ∧ n ≤ w.currentEventSeq

/-- The window between two calls: the frontier stands before an unsettled sequence. -/
structure Windowed (maxPendingEvents : Nat) (w : SequenceWindow) : Prop
    extends Partitioned maxPendingEvents w where
  frontier : w.lastAckedEventSeq + 1 ∉ w.acknowledgedOutOfOrder

variable {maxPendingEvents : Nat} {w : SequenceWindow}

theorem windowed_startingAt (frontier : Nat) :
    Windowed maxPendingEvents (SequenceWindow.startingAt frontier) where
  listed := listed_empty
  acked_le := Nat.le_refl _
  span_le := Nat.le_add_right _ _
  covered := by
    intro n hlow hhigh
    exact absurd (Nat.lt_of_lt_of_le hlow hhigh) (Nat.lt_irrefl _)
  pending_mem := by simp [SequenceWindow.startingAt]
  settled_mem := by simp [SequenceWindow.startingAt]
  frontier := by simp [SequenceWindow.startingAt]

theorem windowed_empty : Windowed maxPendingEvents {} := windowed_startingAt 0

theorem Partitioned.advance (h : Partitioned maxPendingEvents w) :
    Windowed maxPendingEvents (advanceContiguousAcknowledgement w) := by
  have hahead : ∀ n ∈ w.acknowledgedOutOfOrder, w.lastAckedEventSeq < n :=
    fun n hn => (h.settled_mem n hn).1
  have hle := advance_le (w.currentEventSeq - w.lastAckedEventSeq) w.lastAckedEventSeq
    w.acknowledgedOutOfOrder
  have hge := le_advance (w.currentEventSeq - w.lastAckedEventSeq) w.lastAckedEventSeq
    w.acknowledgedOutOfOrder
  have hmem := mem_advance (w.currentEventSeq - w.lastAckedEventSeq) hahead
  have hacked := h.acked_le
  have hspan := h.span_le
  refine ⟨⟨h.listed, ?_, ?_, ?_, ?_, ?_⟩, ?_⟩
  · simp only [advanceContiguousAcknowledgement]
    omega
  · simp only [advanceContiguousAcknowledgement]
    omega
  · intro n hlow hhigh
    simp only [advanceContiguousAcknowledgement] at hlow hhigh ⊢
    rcases h.covered n (by omega) hhigh with hpending | hsettled
    · exact Or.inl hpending
    · exact Or.inr ((hmem n).mpr ⟨hsettled, hlow⟩)
  · intro id e he
    obtain ⟨hlow, hhigh, hapart⟩ := h.pending_mem id e he
    simp only [advanceContiguousAcknowledgement]
    refine ⟨?_, hhigh, fun hin => hapart ((hmem _).mp hin).1⟩
    -- A sequence the frontier passed was acknowledged, and a pending one is not.
    by_contra hpassed
    exact hapart (mem_of_advance hlow (Nat.le_of_not_lt hpassed))
  · intro n hn
    simp only [advanceContiguousAcknowledgement] at hn ⊢
    obtain ⟨hold, hlow⟩ := (hmem n).mp hn
    exact ⟨hlow, (h.settled_mem n hold).2⟩
  · apply next_not_mem_advance
    intro n hn
    have hhigh := (h.settled_mem n hn).2
    omega

theorem forget_listed
    (h : Listed DomainEvent.eventId DomainEvent.eventSeq w.pendingEvents w.pendingOrder)
    (id : EventId) :
    Listed DomainEvent.eventId DomainEvent.eventSeq (forget w id).pendingEvents
      (forget w id).pendingOrder := by
  refine h.restrict ?_
  intro k
  rw [forget, getElem?_drop]
  rcases Classical.em (id = k) with heq | hne
  · simp [heq]
  · simp [hne, Ne.symm hne]

theorem forget_lookup {id k : EventId} {e : Event}
    (he : (forget w id).pendingEvents[k]? = some e) :
    k ≠ id ∧ w.pendingEvents[k]? = some e := by
  rw [forget, getElem?_drop] at he
  split at he
  · cases he
  · rename_i hne
    exact ⟨Ne.symm hne, he⟩

variable {event : Event}

theorem Windowed.settle (h : Windowed maxPendingEvents w) {id : EventId}
    (hevent : w.pendingEvents[id]? = some event) :
    Windowed maxPendingEvents (recordSelectiveAcknowledgement (forget w id) event.eventSeq) := by
  obtain ⟨hlow, hhigh, hapart⟩ := h.pending_mem id event hevent
  rw [recordSelectiveAcknowledgement, if_pos ⟨hlow, hhigh⟩]
  apply Partitioned.advance
  refine ⟨forget_listed h.listed id, h.acked_le, h.span_le, ?_, ?_, ?_⟩
  · intro n hn hn'
    simp only [Finset.mem_insert]
    rcases h.covered n hn hn' with ⟨other, e, he, hseq⟩ | hsettled
    · rcases Classical.em (other = id) with heq | hne
      · rw [heq, hevent] at he
        exact Or.inr (Or.inl (by rw [← hseq, ← Option.some.inj he]))
      · refine Or.inl ⟨other, e, ?_, hseq⟩
        simp only [forget, getElem?_drop]
        rw [if_neg (Ne.symm hne)]
        exact he
    · exact Or.inr (Or.inr hsettled)
  · intro other e he
    obtain ⟨hne, hold⟩ := forget_lookup he
    obtain ⟨holdLow, holdHigh, holdApart⟩ := h.pending_mem other e hold
    refine ⟨holdLow, holdHigh, ?_⟩
    rw [Finset.mem_insert]
    rintro (hseq | hin)
    · exact hne (h.listed.eq_of_rank hold hevent hseq)
    · exact holdApart hin
  · intro n hn
    rcases Finset.mem_insert.mp hn with rfl | hin
    · exact ⟨hlow, hhigh⟩
    · exact h.settled_mem n hin

theorem Windowed.acknowledgeEvent (h : Windowed maxPendingEvents w) (id : EventId) :
    Windowed maxPendingEvents (acknowledgeEvent w id) := by
  rw [EventWindows.acknowledgeEvent]
  split
  · exact h
  · exact h.settle ‹_›

theorem mem_pendingValues :
    event ∈ pendingValues w ↔ ∃ id : EventId, w.pendingEvents[id]? = some event := by
  rw [pendingValues, List.mem_map]
  constructor
  · rintro ⟨⟨id, e⟩, hmem, rfl⟩
    exact ⟨id, ExtTreeMap.mem_toList_iff_getElem?_eq_some.mp hmem⟩
  · rintro ⟨id, hid⟩
    exact ⟨(id, event), ExtTreeMap.mem_toList_iff_getElem?_eq_some.mpr hid, rfl⟩

theorem mem_coveredEvents {seq : Nat} :
    event ∈ coveredEvents w seq ↔
      (∃ id : EventId, w.pendingEvents[id]? = some event) ∧ event.eventSeq ≤ seq := by
  rw [coveredEvents, List.mem_insertionSort, List.mem_filter, mem_pendingValues,
    decide_eq_true_eq]

theorem getElem?_eraseAll (events : List Event) (pending : ExtTreeMap EventId Event)
    (id : EventId) :
    (events.foldl (fun pending event => pending.erase event.eventId) pending)[id]? =
      if id ∈ events.map DomainEvent.eventId then none else pending[id]? := by
  induction events generalizing pending with
  | nil => simp
  | cons event rest ih =>
    rw [List.foldl_cons, ih, getElem?_drop, List.map_cons]
    rcases Classical.em (id ∈ rest.map DomainEvent.eventId) with hin | hout
    · simp [hin]
    · rcases Classical.em (event.eventId = id) with heq | hne
      · simp [heq]
      · simp [hout, hne, Ne.symm hne]

theorem lookup_uncovered
    (h : Listed DomainEvent.eventId DomainEvent.eventSeq w.pendingEvents w.pendingOrder)
    (seq : Nat) (id : EventId) (e : Event) :
    ((coveredEvents w seq).foldl (fun pending event => pending.erase event.eventId)
        w.pendingEvents)[id]? = some e ↔
      w.pendingEvents[id]? = some e ∧ seq < e.eventSeq := by
  rw [getElem?_eraseAll]
  have hcovered : id ∈ (coveredEvents w seq).map DomainEvent.eventId ↔
      ∃ f, w.pendingEvents[id]? = some f ∧ f.eventSeq ≤ seq := by
    rw [List.mem_map]
    constructor
    · rintro ⟨f, hf, rfl⟩
      obtain ⟨⟨k, hk⟩, hle⟩ := mem_coveredEvents.mp hf
      exact ⟨f, (h.keyed k f hk).symm ▸ hk, hle⟩
    · rintro ⟨f, hf, hle⟩
      exact ⟨f, mem_coveredEvents.mpr ⟨⟨id, hf⟩, hle⟩, h.keyed id f hf⟩
  split
  · rename_i hin
    obtain ⟨f, hf, hle⟩ := hcovered.mp hin
    constructor
    · intro he
      cases he
    · rintro ⟨he, hlt⟩
      rw [he] at hf
      rw [Option.some.inj hf] at hlt
      exact absurd (Nat.lt_of_lt_of_le hlt hle) (Nat.lt_irrefl _)
  · rename_i hout
    constructor
    · intro he
      refine ⟨he, ?_⟩
      by_contra hle
      exact hout (hcovered.mpr ⟨e, he, Nat.le_of_not_lt hle⟩)
    · exact And.left

theorem Windowed.acknowledgeEvents (h : Windowed maxPendingEvents w) (seq : Nat) :
    Windowed maxPendingEvents (acknowledgeEvents w seq).1 := by
  rw [EventWindows.acknowledgeEvents]
  split
  swap
  · exact h
  rename_i hguard
  have hlookup := lookup_uncovered h.listed seq
  have hspan := h.span_le
  dsimp only
  generalize (coveredEvents w seq).foldl (fun pending event => pending.erase event.eventId)
    w.pendingEvents = remaining at hlookup ⊢
  apply Partitioned.advance
  refine ⟨?_, hguard.2, ?_, ?_, ?_, ?_⟩
  · refine h.listed.restrict ?_
    intro k
    show remaining[k]? = if remaining.contains k then w.pendingEvents[k]? else none
    rw [ExtTreeMap.contains_eq_isSome_getElem?]
    rcases hk : remaining[k]? with - | e
    · rfl
    · exact ((hlookup k e).mp hk).1.symm
  · show w.currentEventSeq ≤ seq + maxPendingEvents
    omega
  · intro n hlow hhigh
    have hlow : seq < n := hlow
    rcases h.covered n (by omega) hhigh with ⟨id, e, he, hseq⟩ | hsettled
    · exact Or.inl ⟨id, e, (hlookup id e).mpr ⟨he, by omega⟩, hseq⟩
    · exact Or.inr (Finset.mem_filter.mpr ⟨hsettled, hlow⟩)
  · intro id e he
    obtain ⟨hold, hlow⟩ := (hlookup id e).mp he
    obtain ⟨-, hhigh, hapart⟩ := h.pending_mem id e hold
    exact ⟨hlow, hhigh, fun hin => hapart (Finset.mem_filter.mp hin).1⟩
  · intro n hn
    obtain ⟨hold, hlow⟩ := Finset.mem_filter.mp hn
    exact ⟨hlow, (h.settled_mem n hold).2⟩

theorem Windowed.rollBack (h : Windowed maxPendingEvents w) (event : Event) :
    Windowed maxPendingEvents (rollBack w event).1 := by
  rw [EventWindows.rollBack]
  split
  swap
  · exact h
  rename_i hguard
  obtain ⟨hlast, hevent, hcurrent⟩ := hguard
  obtain ⟨hlow, -, hapart⟩ := h.pending_mem _ event hevent
  have hspan := h.span_le
  have hother : ∀ (id : EventId) e, (w.pendingEvents.erase event.eventId)[id]? = some e →
      id ≠ event.eventId ∧ w.pendingEvents[id]? = some e := fun id e he => forget_lookup he
  refine ⟨⟨?_, ?_, ?_, ?_, ?_, ?_⟩, h.frontier⟩
  · simp only
    rw [h.listed.dropLast_eq_filter hlast]
    exact forget_listed h.listed event.eventId
  · show w.lastAckedEventSeq ≤ w.currentEventSeq - 1
    omega
  · show w.currentEventSeq - 1 ≤ w.lastAckedEventSeq + maxPendingEvents
    omega
  · intro n hn hn'
    have hn' : n ≤ w.currentEventSeq - 1 := hn'
    rcases h.covered n hn (by omega) with ⟨id, e, he, hseq⟩ | hsettled
    · refine Or.inl ⟨id, e, ?_, hseq⟩
      have hne : event.eventId ≠ id := by
        rintro rfl
        rw [hevent] at he
        rw [← Option.some.inj he] at hseq
        omega
      simp only
      rw [getElem?_drop, if_neg hne]
      exact he
    · exact Or.inr hsettled
  · intro id e he
    obtain ⟨hne, hold⟩ := hother id e he
    obtain ⟨holdLow, holdHigh, holdApart⟩ := h.pending_mem id e hold
    refine ⟨holdLow, ?_, holdApart⟩
    show e.eventSeq ≤ w.currentEventSeq - 1
    have hseqne : e.eventSeq ≠ event.eventSeq :=
      fun heq => hne (h.listed.eq_of_rank hold hevent heq)
    omega
  · intro n hn
    obtain ⟨hnlow, hnhigh⟩ := h.settled_mem n hn
    refine ⟨hnlow, ?_⟩
    show n ≤ w.currentEventSeq - 1
    have hnne : n ≠ event.eventSeq := fun heq => hapart (heq ▸ hn)
    omega

theorem Windowed.ensureSequenceWindowCapacity (h : Windowed maxPendingEvents w) :
    ensureSequenceWindowCapacity maxPendingEvents w ≠ .error .panicked := by
  rw [EventWindows.ensureSequenceWindowCapacity, if_neg (Nat.not_lt.mpr h.acked_le)]
  split <;> simp

variable {w' : SequenceWindow}

theorem retainPending_eq_ok
    (hok : retainPending maxPendingEvents w event = .ok w') :
    (w.pendingEvents[event.eventId]? = some event ∧ w' = w) ∨
      (w.pendingEvents[event.eventId]? = none ∧
        w' = { w with pendingEvents := w.pendingEvents.insert event.eventId event,
                      pendingOrder := w.pendingOrder ++ [event.eventId] }) := by
  rw [retainPending] at hok
  split at hok
  · rename_i retained hlookup
    split at hok
    · rename_i hsame
      cases hok
      exact Or.inl ⟨hsame ▸ hlookup, rfl⟩
    · cases hok
  · rename_i hlookup
    split at hok
    · cases hok
    split at hok
    · cases hok
    cases hok
    exact Or.inr ⟨hlookup, rfl⟩

variable {encodes : Event → Bool} {makeEvent : Nat → Event}

theorem allocate_eq_ok
    (hok : allocate encodes maxPendingEvents w makeEvent = .ok (w', event)) :
    event = makeEvent (w.currentEventSeq + 1) ∧ encodes event = true ∧
      w.currentEventSeq < u64Max ∧
      w.currentEventSeq - w.lastAckedEventSeq < maxPendingEvents ∧
      ((w.pendingEvents[event.eventId]? = some event ∧
          w' = { w with currentEventSeq := w.currentEventSeq + 1 }) ∨
        (w.pendingEvents[event.eventId]? = none ∧
          w' = { w with currentEventSeq := w.currentEventSeq + 1,
                        pendingEvents := w.pendingEvents.insert event.eventId event,
                        pendingOrder := w.pendingOrder ++ [event.eventId] })) := by
  rw [allocate, EventWindows.ensureSequenceWindowCapacity] at hok
  split at hok
  · cases hok
  split at hok
  swap
  · cases hok
  rename_i hcapacity
  dsimp only [bind, Except.bind] at hok
  split at hok
  swap
  · cases hok
  rename_i hencodes
  split at hok
  · cases hok
  rename_i retained hretained
  cases hok
  refine ⟨rfl, hencodes, hcapacity.1, hcapacity.2.1, ?_⟩
  rcases retainPending_eq_ok hretained with ⟨hlookup, rfl⟩ | ⟨hlookup, rfl⟩
  · exact Or.inl ⟨hlookup, rfl⟩
  · exact Or.inr ⟨hlookup, rfl⟩

theorem Windowed.allocate_fresh (h : Windowed maxPendingEvents w)
    (hmake : ∀ n, (makeEvent n).eventSeq = n)
    (hok : allocate encodes maxPendingEvents w makeEvent = .ok (w', event)) :
    event.eventSeq = w.currentEventSeq + 1 ∧ w.pendingEvents[event.eventId]? = none ∧
      w' = { w with currentEventSeq := w.currentEventSeq + 1,
                    pendingEvents := w.pendingEvents.insert event.eventId event,
                    pendingOrder := w.pendingOrder ++ [event.eventId] } := by
  obtain ⟨hevent, -, -, -, hcases⟩ := allocate_eq_ok hok
  have hseq : event.eventSeq = w.currentEventSeq + 1 := by rw [hevent, hmake]
  rcases hcases with ⟨hretained, -⟩ | ⟨hfresh, hw'⟩
  · have hle := (h.pending_mem _ _ hretained).2.1
    omega
  · exact ⟨hseq, hfresh, hw'⟩

theorem Windowed.allocate (h : Windowed maxPendingEvents w)
    (hmake : ∀ n, (makeEvent n).eventSeq = n)
    (hok : allocate encodes maxPendingEvents w makeEvent = .ok (w', event)) :
    Windowed maxPendingEvents w' := by
  obtain ⟨-, -, -, hroom, -⟩ := allocate_eq_ok hok
  obtain ⟨hseq, hfresh, rfl⟩ := h.allocate_fresh hmake hok
  have hacked := h.acked_le
  have hlookup : ∀ (id : EventId) e,
      (w.pendingEvents.insert event.eventId event)[id]? = some e →
        e = event ∨ w.pendingEvents[id]? = some e := by
    intro id e he
    rw [getElem?_put] at he
    split at he
    · exact Or.inl (Option.some.inj he).symm
    · exact Or.inr he
  refine ⟨⟨?_, ?_, ?_, ?_, ?_, ?_⟩, h.frontier⟩
  · refine h.listed.push hfresh ?_
    intro id e he
    have hle := (h.pending_mem id e he).2.1
    omega
  · show w.lastAckedEventSeq ≤ w.currentEventSeq + 1
    omega
  · show w.currentEventSeq + 1 ≤ w.lastAckedEventSeq + maxPendingEvents
    omega
  · intro n hlow hhigh
    have hhigh : n ≤ w.currentEventSeq + 1 := hhigh
    rcases Classical.em (n = w.currentEventSeq + 1) with heq | hne
    · refine Or.inl ⟨event.eventId, event, ?_, hseq.trans heq.symm⟩
      simp only
      rw [getElem?_put, if_pos rfl]
    · rcases h.covered n hlow (by omega) with ⟨id, e, he, hn⟩ | hsettled
      · refine Or.inl ⟨id, e, ?_, hn⟩
        have hidne : event.eventId ≠ id := by
          rintro rfl
          rw [hfresh] at he
          cases he
        simp only
        rw [getElem?_put, if_neg hidne]
        exact he
      · exact Or.inr hsettled
  · intro id e he
    show w.lastAckedEventSeq < e.eventSeq ∧ e.eventSeq ≤ w.currentEventSeq + 1 ∧
      e.eventSeq ∉ w.acknowledgedOutOfOrder
    rcases hlookup id e he with rfl | hold
    · refine ⟨by omega, by omega, ?_⟩
      intro hin
      have hle := (h.settled_mem _ hin).2
      omega
    · obtain ⟨hlow, hhigh, hapart⟩ := h.pending_mem id e hold
      exact ⟨hlow, by omega, hapart⟩
  · intro n hn
    obtain ⟨hlow, hhigh⟩ := h.settled_mem n hn
    exact ⟨hlow, Nat.le_succ_of_le hhigh⟩

@[simp] theorem recordSelectiveAcknowledgement_pendingEvents (eventSeq : Nat) :
    (recordSelectiveAcknowledgement w eventSeq).pendingEvents = w.pendingEvents := by
  rw [recordSelectiveAcknowledgement]
  split <;> rfl

theorem Windowed.cancelTextEdits (h : Windowed maxPendingEvents w)
    {condemned : List PendingTextEditDescriptor}
    (hnodup : (condemned.map PendingTextEditDescriptor.eventId).Nodup)
    (hpending : ∀ ref ∈ condemned, ∃ e, w.pendingEvents[ref.eventId]? = some e) :
    Windowed maxPendingEvents (cancelTextEdits w condemned) := by
  induction condemned generalizing w with
  | nil => exact h
  | cons ref rest ih =>
    obtain ⟨e, he⟩ := hpending ref List.mem_cons_self
    rw [List.map_cons, List.nodup_cons] at hnodup
    have hstep : cancelTextEdit w ref =
        recordSelectiveAcknowledgement (forget w ref.eventId) e.eventSeq := by
      rw [cancelTextEdit, he]
    rw [EventWindows.cancelTextEdits, List.foldl_cons, hstep]
    refine ih (h.settle he) hnodup.2 ?_
    intro other hother
    obtain ⟨f, hf⟩ := hpending other (List.mem_cons_of_mem ref hother)
    refine ⟨f, ?_⟩
    have hne : ref.eventId ≠ other.eventId := by
      intro heq
      exact hnodup.1 (heq ▸ List.mem_map_of_mem hother)
    rw [recordSelectiveAcknowledgement_pendingEvents, forget, getElem?_drop, if_neg hne]
    exact hf

section

variable (h : Listed DomainEvent.eventId DomainEvent.eventSeq w.pendingEvents w.pendingOrder)

include h

theorem mem_retainedEvents :
    event ∈ retainedEvents w ↔ w.pendingEvents[event.eventId]? = some event := by
  rw [retainedEvents, List.mem_filterMap]
  constructor
  · rintro ⟨id, -, he⟩
    rw [h.keyed id event he]
    exact he
  · intro he
    exact ⟨event.eventId, (h.mem_iff _).mpr ⟨event, he⟩, he⟩

theorem retainedEvents_increasing :
    (retainedEvents w).Pairwise fun e f => e.eventSeq < f.eventSeq := by
  rw [retainedEvents, List.pairwise_filterMap]
  exact h.increasing.imp fun hlt e he f hf => hlt e f he hf

theorem assignedTextEditDescriptors_pending :
    ((assignedTextEditDescriptors w).map PendingTextEditDescriptor.eventId).Nodup ∧
      ∀ ref ∈ assignedTextEditDescriptors w, ∃ e : Event,
        w.pendingEvents[ref.eventId]? = some e ∧ e.eventSeq = ref.eventSeq := by
  have hdescriptor : ∀ event ref, descriptor? event = some ref →
      ref.eventId = event.eventId ∧ ref.eventSeq = event.eventSeq := by
    intro event ref href
    obtain ⟨editSeq, -, rfl⟩ := Option.map_eq_some_iff.mp href
    exact ⟨rfl, rfl⟩
  constructor
  · -- Two descriptors with one identity would describe one event.
    rw [assignedTextEditDescriptors, List.Nodup, List.pairwise_map, List.pairwise_filterMap]
    refine ((retainedEvents_increasing h).filter _).imp_of_mem ?_
    intro e f he hf hlt ref href ref' href' heq
    have heMem := (mem_retainedEvents h).mp (List.mem_of_mem_filter he)
    have hfMem := (mem_retainedEvents h).mp (List.mem_of_mem_filter hf)
    rw [(hdescriptor e ref href).1, (hdescriptor f ref' href').1] at heq
    rw [heq, hfMem] at heMem
    rw [Option.some.inj heMem] at hlt
    exact Nat.lt_irrefl _ hlt
  · intro ref href
    rw [assignedTextEditDescriptors, List.mem_filterMap] at href
    obtain ⟨event, hevent, hdesc⟩ := href
    refine ⟨event, ?_, (hdescriptor event ref hdesc).2.symm⟩
    rw [(hdescriptor event ref hdesc).1]
    exact (mem_retainedEvents h).mp (List.mem_of_mem_filter hevent)

end

theorem identityKey_injective : Function.Injective identityKey := by
  rintro ⟨eventId, eventSeq, nodeId, editSeq, _⟩ ⟨eventId', eventSeq', nodeId', editSeq', _⟩ heq
  simp only [identityKey, Prod.mk.injEq] at heq
  obtain ⟨rfl, rfl, rfl, rfl⟩ := heq
  rfl

theorem textEditsToCancel_pending
    (h : Listed DomainEvent.eventId DomainEvent.eventSeq w.pendingEvents w.pendingOrder)
    {refs condemned : List PendingTextEditDescriptor} {requireExactMatch : Bool}
    (hok : textEditsToCancel w refs requireExactMatch = .ok condemned) :
    (condemned.map PendingTextEditDescriptor.eventId).Nodup ∧
      ∀ ref ∈ condemned, ∃ e : Event,
        w.pendingEvents[ref.eventId]? = some e ∧ e.eventSeq = ref.eventSeq := by
  obtain ⟨hnodup, hpending⟩ := assignedTextEditDescriptors_pending h
  rw [textEditsToCancel] at hok
  split at hok
  swap
  · cases hok
    exact ⟨hnodup, hpending⟩
  split at hok
  swap
  · cases hok
  rename_i hmatch
  cases hok
  obtain ⟨hlength, hkeys⟩ := hmatch
  have hassigned : (assignedTextEditDescriptors w).Nodup := List.Nodup.of_map _ hnodup
  have hassignedKeys : ((assignedTextEditDescriptors w).map identityKey).Nodup :=
    hassigned.map identityKey_injective
  have hrefsKeys : (refs.map identityKey).Nodup := by
    have hcard := List.toFinset_card_of_nodup hassignedKeys
    rw [hkeys, List.length_map, hlength, ← List.length_map (f := identityKey)] at hcard
    exact Multiset.toFinset_card_eq_card_iff_nodup.mp hcard
  have hperm : (assignedTextEditDescriptors w).Perm refs := by
    have hmapped := List.perm_of_nodup_nodup_toFinset_eq hassignedKeys hrefsKeys hkeys
    exact (List.map_perm_map_iff identityKey_injective).mp hmapped
  refine ⟨(hperm.map PendingTextEditDescriptor.eventId).nodup_iff.mp hnodup, ?_⟩
  intro ref href
  exact hpending ref (hperm.mem_iff.mpr href)

end Srui.Client.WindowIntegrity

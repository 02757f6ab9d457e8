import Srui.Client.WriteChains

/-!
What the outbox hands to the transport: in which order events are first transmitted,
and when a sequence that was transmitted can be given to another event.
-/

namespace Srui.Client.OutboxTransmissions

open Std Basic.FiniteMaps SemanticTree.Values SemanticTree.Events Client.EventWindows
open Client.WindowIntegrity Client.EventOutboxes Client.OutboxTurns Client.OutboxWindows
open Client.WriteChains

/-! ### What the claims are about -/

/-- No retained event has a sequence that another event was transmitted with. -/
def NoReuse (o : EventOutbox) : Prop :=
  ∀ t ∈ o.sent, ∀ (id : EventId) e, o.window.pendingEvents[id]? = some e →
    e.eventSeq = t.event.eventSeq → id = t.event.eventId

/-- Over the write chain that is not cut, first transmissions go up in sequence. -/
def FirstsInOrder (o : EventOutbox) : Prop :=
  ((firstTransmissions o.sent).filter fun t => decide (t.chain = o.chain)).Pairwise
    fun t u => t.event.eventSeq < u.event.eventSeq

def nextHandOver (encodes : Event → Bool) (o : EventOutbox) (task : Nat) : Option Event :=
  match o.writes[task]? with
  | none => none
  | some t =>
    if t.finished ∨ t.sending ∨ predecessorFinished o t = false ∨ t.cancelled then none
    else
      match t.body with
      | .retained write => if mayTransmitRetainedEvent o write then some write.event else none
      | .prepared write (some true) =>
        if mayTransmitRetainedEvent o write then some write.event else none
      | .prepared _ _ => none
      | .replay write =>
        match write.remaining with
        | [] => none
        | event :: _ =>
          if mayReplayEvent o write event ∧ encodes event then some event else none

/-- A prepared edit that MainActor has neither had authorized nor rejected. -/
def Undecided (o : EventOutbox) (event : Event) : Prop :=
  (∃ (token : Token) (slot : PreparedTextEditSend),
      o.preparedTextEditSends[token]? = some slot ∧ slot.event = event) ∨
    ∃ token : Token, o.lifecycleSuspendedPreparedTextEdits[token]? = some event

def StillQueued (o : EventOutbox) (chain : Nat) (event : Event) : Prop :=
  ∃ (i : Nat) (t : WriteTask), o.writes[i]? = some t ∧ WriteBody.ownEvent t.body = some event ∧
    t.chain = chain ∧ t.finished = false

/-- A replay hands over no undecided edit. -/
def Prudent (encodes : Event → Bool) (o : EventOutbox) : Turn → Prop
  | .runWrite task =>
    ∀ t event, o.writes[task]? = some t → nextHandOver encodes o task = some event →
      WriteBody.ownEvent t.body = none → ¬Undecided o event
  | _ => True

/-- A first write overtakes no retained event whose own write ended without a
transmission. -/
def InSequence (encodes : Event → Bool) (o : EventOutbox) : Turn → Prop
  | .runWrite task =>
    ∀ t event, o.writes[task]? = some t → nextHandOver encodes o task = some event →
      WriteBody.ownEvent t.body ≠ none →
        ∀ (id : EventId) older, o.window.pendingEvents[id]? = some older →
          older.eventSeq < event.eventSeq → ¬Handed o.sent older.eventId →
            StillQueued o t.chain older
  | _ => True

/-- `UUID()` never repeats: no write was ever queued for an event of this identity. -/
def FreshIdentity (o : EventOutbox) : Turn → Prop
  | .allocateAndSend _ _ _ _ _ eventId => ∀ i e, Owns o.writes i e → e.eventId ≠ eventId
  | .prepareTextEdit _ _ _ _ _ _ eventId _ => ∀ i e, Owns o.writes i e → e.eventId ≠ eventId
  | _ => True

variable {o : EventOutbox}

theorem noReuse_iff :
    NoReuse o ↔ ∀ t ∈ o.sent, ∀ entry ∈ o.window.pendingEvents.toList,
      entry.2.eventSeq = t.event.eventSeq → entry.1 = t.event.eventId := by
  constructor
  · rintro h t ht ⟨id, e⟩ hentry
    exact h t ht id e (mem_toList.mp hentry)
  · intro h t ht id e he
    exact h t ht (id, e) (mem_toList.mpr he)

instance (o : EventOutbox) : Decidable (NoReuse o) := decidable_of_iff _ noReuse_iff.symm

instance (o : EventOutbox) : Decidable (FirstsInOrder o) :=
  inferInstanceAs (Decidable (List.Pairwise _ _))

variable {event : Event}

theorem undecided_iff :
    Undecided o event ↔ (∃ entry ∈ o.preparedTextEditSends.toList, entry.2.event = event) ∨
      ∃ entry ∈ o.lifecycleSuspendedPreparedTextEdits.toList, entry.2 = event := by
  constructor
  · rintro (⟨token, slot, hslot, hevent⟩ | ⟨token, hevent⟩)
    · exact Or.inl ⟨(token, slot), mem_toList.mpr hslot, hevent⟩
    · exact Or.inr ⟨(token, event), mem_toList.mpr hevent, rfl⟩
  · rintro (⟨⟨token, slot⟩, hslot, hevent⟩ | ⟨⟨token, e⟩, he, rfl⟩)
    · exact Or.inl ⟨token, slot, mem_toList.mp hslot, hevent⟩
    · exact Or.inr ⟨token, mem_toList.mp he⟩

instance (o : EventOutbox) (event : Event) : Decidable (Undecided o event) :=
  decidable_of_iff _ undecided_iff.symm

theorem stillQueued_iff {chain : Nat} :
    StillQueued o chain event ↔ ∃ t ∈ o.writes, WriteBody.ownEvent t.body = some event ∧
      t.chain = chain ∧ t.finished = false := by
  constructor
  · rintro ⟨i, t, ht, hrest⟩
    exact ⟨t, List.mem_of_getElem? ht, hrest⟩
  · rintro ⟨t, hmem, hrest⟩
    obtain ⟨i, hi⟩ := List.getElem?_of_mem hmem
    exact ⟨i, t, hi, hrest⟩

instance (sent : List Transmission) (id : EventId) : Decidable (Handed sent id) :=
  inferInstanceAs (Decidable (∃ t ∈ sent, t.event.eventId = id))

instance (o : EventOutbox) (chain : Nat) (event : Event) : Decidable (StillQueued o chain event) :=
  decidable_of_iff _ stillQueued_iff.symm

/-- What the two conditions ask of the write at `task`, if it hands an event over. -/
def handsOver (encodes : Event → Bool) (o : EventOutbox) (task : Nat)
    (ask : WriteTask → Event → Bool) : Bool :=
  match o.writes[task]?, nextHandOver encodes o task with
  | some t, some event => ask t event
  | _, _ => true

variable {task : Nat} {encodes : Event → Bool}

theorem handsOver_iff {ask : WriteTask → Event → Bool} :
    handsOver encodes o task ask = true ↔ ∀ t event, o.writes[task]? = some t →
      nextHandOver encodes o task = some event → ask t event = true := by
  rw [handsOver]
  split
  · rename_i t event ht hevent
    simp [ht, hevent]
  · rename_i hnone
    exact ⟨fun _ t event ht hevent => absurd hevent (hnone t event ht), fun _ => rfl⟩

def prudent (encodes : Event → Bool) (o : EventOutbox) : Turn → Bool
  | .runWrite task => handsOver encodes o task fun t event =>
    decide (WriteBody.ownEvent t.body = none → ¬Undecided o event)
  | _ => true

def inSequence (encodes : Event → Bool) (o : EventOutbox) : Turn → Bool
  | .runWrite task => handsOver encodes o task fun t event =>
    decide (WriteBody.ownEvent t.body ≠ none →
      ∀ entry ∈ o.window.pendingEvents.toList, entry.2.eventSeq < event.eventSeq →
        ¬Handed o.sent entry.2.eventId → StillQueued o t.chain entry.2)
  | _ => true

theorem prudent_iff {turn : Turn} :
    prudent encodes o turn = true ↔ Prudent encodes o turn := by
  cases turn with
  | runWrite task =>
    rw [prudent, handsOver_iff]
    simp only [decide_eq_true_eq]
    rfl
  | _ => exact ⟨fun _ => trivial, fun _ => rfl⟩

theorem inSequence_iff {turn : Turn} :
    inSequence encodes o turn = true ↔ InSequence encodes o turn := by
  cases turn with
  | runWrite task =>
    rw [inSequence, handsOver_iff]
    simp only [decide_eq_true_eq]
    constructor
    · intro h t event ht hevent hown
      exact forall_of_toList (h t event ht hevent hown)
    · intro h t event ht hevent hown entry hentry
      exact h t event ht hevent hown entry.1 entry.2 (mem_toList.mp hentry)
  | _ => exact ⟨fun _ => trivial, fun _ => rfl⟩

instance (encodes : Event → Bool) (o : EventOutbox) (turn : Turn) :
    Decidable (Prudent encodes o turn) := decidable_of_iff _ prudent_iff

instance (encodes : Event → Bool) (o : EventOutbox) (turn : Turn) :
    Decidable (InSequence encodes o turn) := decidable_of_iff _ inSequence_iff

/-- `FreshIdentity`, as a check on the state. -/
def freshIdentity (o : EventOutbox) : Turn → Bool
  | .allocateAndSend _ _ _ _ _ eventId =>
    o.writes.all fun t => (WriteBody.ownEvent t.body).all fun e => decide (e.eventId ≠ eventId)
  | .prepareTextEdit _ _ _ _ _ _ eventId _ =>
    o.writes.all fun t => (WriteBody.ownEvent t.body).all fun e => decide (e.eventId ≠ eventId)
  | _ => true

theorem owned_fresh_iff {tasks : List WriteTask} {id : EventId} :
    (tasks.all fun t => (WriteBody.ownEvent t.body).all fun e => decide (e.eventId ≠ id)) = true ↔
      ∀ i e, Owns tasks i e → e.eventId ≠ id := by
  rw [List.all_eq_true]
  constructor
  · rintro h i e ⟨t, ht, he⟩
    have hall := h t (List.mem_of_getElem? ht)
    rw [he] at hall
    exact of_decide_eq_true hall
  · intro h t ht
    obtain ⟨i, hi⟩ := List.getElem?_of_mem ht
    rcases he : WriteBody.ownEvent t.body with - | e
    · rfl
    · exact decide_eq_true (h i e ⟨t, hi, he⟩)

theorem freshIdentity_iff {turn : Turn} :
    freshIdentity o turn = true ↔ FreshIdentity o turn := by
  cases turn with
  | allocateAndSend => exact owned_fresh_iff
  | prepareTextEdit => exact owned_fresh_iff
  | _ => exact ⟨fun _ => trivial, fun _ => rfl⟩

instance (o : EventOutbox) (turn : Turn) : Decidable (FreshIdentity o turn) :=
  decidable_of_iff _ freshIdentity_iff

/-! ### The view of each operation -/

variable {ordered : Prop} {encodes : Event → Bool} {o : EventOutbox}

theorem view_finishTask (n : Nat) :
    view (finishTask o n) = { view o with tasks := (view o).tasks.modify n fun t =>
      { t with sending := false, finished := true } } :=
  view_adjustTask _ (fun t => { t with sending := false, finished := true }) (fun _ => rfl) n

theorem view_resolveGate (n : Nat) (shouldSend : Bool) :
    view (resolveGate o n shouldSend) = { view o with tasks := (view o).tasks.modify n fun t =>
      { t with body := t.body.decide shouldSend } } :=
  view_adjustTask _ (fun t => { t with body := t.body.decide shouldSend }) (fun _ => rfl) n

theorem view_enqueueSend (body : WriteBody) :
    view (enqueueSend o body) = (view o).enqueue body := by
  simp [view, enqueueSend, WriteView.enqueue, WriteTask.uncancelled]

theorem owns_view {i : Nat} {e : Event} : Owns (view o).tasks i e ↔ Owns o.writes i e := by
  simp only [Owns, view, List.getElem?_map]
  constructor
  · rintro ⟨t, ht, hevent⟩
    obtain ⟨u, hu, rfl⟩ := Option.map_eq_some_iff.mp ht
    exact ⟨u, hu, hevent⟩
  · rintro ⟨t, ht, hevent⟩
    exact ⟨WriteTask.uncancelled t, by rw [ht]; rfl, hevent⟩

variable {t : WriteTask}

theorem view_task {n : Nat} (h : o.writes[n]? = some t) :
    (view o).tasks[n]? = some (WriteTask.uncancelled t) := by
  rw [view, List.getElem?_map, h]
  rfl

/-! ### Settlement -/

structure Narrowed (o o' : EventOutbox) : Prop where
  view_eq : view o' = { view o with window := o'.window }
  lookup : ∀ (id : EventId) e, o'.window.pendingEvents[id]? = some e →
    o.window.pendingEvents[id]? = some e
  current : o'.window.currentEventSeq = o.window.currentEventSeq
  follows : Follows True False o o'

variable {o' : EventOutbox}

theorem narrowed_of_view (h : view o' = view o) : Narrowed o o' := by
  have hwindow : o'.window = o.window := congrArg WriteView.window h
  refine ⟨?_, ?_, by rw [hwindow], ?_⟩
  · rw [h, hwindow]
    rfl
  · intro id e he
    rw [← hwindow]
    exact he
  · exact follows_of_core (congrArg (fun v => (v.maxPendingEvents, v.window, v.sent)) h)

theorem Narrowed.trans {o'' : EventOutbox} (h : Narrowed o o') (h' : Narrowed o' o'') :
    Narrowed o o'' where
  view_eq := by rw [h'.view_eq, h.view_eq]
  lookup := fun id e he => h.lookup id e (h'.lookup id e he)
  current := h'.current.trans h.current
  follows := h.follows.trans h'.follows

theorem Narrowed.traced (h : Narrowed o o') (htraced : Traced ordered (view o)) :
    Traced ordered (view o') := by
  rw [h.view_eq]
  refine htraced.narrow (h.follows.moves.windowed htraced.windowed) h.lookup ?_
  intro t ht
  rw [h.current]
  exact htraced.sent_le t ht

theorem narrowed_window {w : SequenceWindow}
    (hlookup : ∀ (id : EventId) e, w.pendingEvents[id]? = some e →
      o.window.pendingEvents[id]? = some e)
    (hcurrent : w.currentEventSeq = o.window.currentEventSeq)
    (hmoves : Moves o.maxPendingEvents True o.window w) : Narrowed o { o with window := w } :=
  ⟨rfl, hlookup, hcurrent, follows_window hmoves⟩

theorem narrowed_acknowledgeEventId (id : EventId) : Narrowed o (acknowledgeEventId o id) := by
  have hretired : Narrowed o (retire o id) := narrowed_of_view rfl
  rw [acknowledgeEventId]
  split
  · have hacked := narrowed_window (o := retire o id) (w := acknowledgeEvent o.window id)
      (fun _ _ he => (acknowledgeEvent_lookup he).2) (acknowledgeEvent_currentEventSeq _ id)
      (Moves.acknowledge trivial _ _)
    exact (hretired.trans hacked).trans (narrowed_of_view view_cancelReplayRetryLoopIfSettled)
  · exact hretired

theorem acknowledgeEvents_lookup {w : SequenceWindow} {seq : Nat} {id : EventId} {e : Event}
    (he : (acknowledgeEvents w seq).1.pendingEvents[id]? = some e) :
    w.pendingEvents[id]? = some e := by
  rw [acknowledgeEvents] at he
  split at he
  · simp only [advanceContiguousAcknowledgement] at he
    rw [getElem?_eraseAll] at he
    split at he
    · cases he
    · exact he
  · exact he

theorem acknowledgeEvents_currentEventSeq (w : SequenceWindow) (seq : Nat) :
    (acknowledgeEvents w seq).1.currentEventSeq = w.currentEventSeq := by
  rw [acknowledgeEvents]
  split <;> rfl

theorem narrowed_acknowledgeEventsThrough (seq : Nat) :
    Narrowed o (acknowledgeEventsThrough o seq).1 := by
  rw [acknowledgeEventsThrough]
  split
  swap
  · exact narrowed_of_view rfl
  dsimp only
  have hretired := view_retireAll (o := o) DomainEvent.eventId (acknowledgeEvents o.window seq).2
  generalize (acknowledgeEvents o.window seq).2.foldl
    (fun o event => retire o event.eventId) o = retired at hretired ⊢
  have hacked := narrowed_window (o := retired) (w := (acknowledgeEvents retired.window seq).1)
    (fun _ _ he => acknowledgeEvents_lookup he) (acknowledgeEvents_currentEventSeq _ seq)
    (Moves.acknowledgeThrough trivial _ _)
  exact ((narrowed_of_view hretired).trans hacked).trans
    (narrowed_of_view view_cancelReplayRetryLoopIfSettled)

theorem cancelTextEdits_narrows (condemned : List PendingTextEditDescriptor) (w : SequenceWindow) :
    (cancelTextEdits w condemned).currentEventSeq = w.currentEventSeq ∧
      ∀ (id : EventId) e, (cancelTextEdits w condemned).pendingEvents[id]? = some e →
        w.pendingEvents[id]? = some e := by
  have hcurrent : ∀ (w : SequenceWindow) (seq : Nat),
      (recordSelectiveAcknowledgement w seq).currentEventSeq = w.currentEventSeq := by
    intro w seq
    rw [recordSelectiveAcknowledgement]
    split <;> rfl
  induction condemned generalizing w with
  | nil => exact ⟨rfl, fun _ _ he => he⟩
  | cons ref rest ih =>
    obtain ⟨hrest, hlookup⟩ := ih (cancelTextEdit w ref)
    rw [cancelTextEdits, List.foldl_cons]
    refine ⟨hrest.trans ?_, ?_⟩
    · rw [cancelTextEdit]
      split
      · exact hcurrent _ _
      · exact hcurrent _ _
    · intro id e he
      have hstep := hlookup id e he
      rw [cancelTextEdit] at hstep
      split at hstep
      · rw [recordSelectiveAcknowledgement_pendingEvents] at hstep
        exact (forget_lookup hstep).2
      · rw [recordSelectiveAcknowledgement_pendingEvents] at hstep
        exact hstep

theorem narrowed_cancelAssignedTextEdits {confirming : List PendingTextEditDescriptor}
    {requireExactMatch : Bool}
    (hok : cancelAssignedTextEdits o confirming requireExactMatch = .ok o') : Narrowed o o' := by
  rw [cancelAssignedTextEdits] at hok
  split at hok
  · cases hok
  rename_i condemned hcondemned
  cases hok
  rw [cancelCondemned]
  have hretired := view_retireAll (o := o) PendingTextEditDescriptor.eventId condemned
  generalize condemned.foldl (fun o ref => retire o ref.eventId) o = retired at hretired ⊢
  have hwindow : retired.window = o.window := congrArg WriteView.window hretired
  obtain ⟨hcurrent, hlookup⟩ := cancelTextEdits_narrows condemned retired.window
  have hcancelled := narrowed_window (o := retired) hlookup hcurrent
    (Moves.cancel trivial (hwindow ▸ hcondemned))
  exact ((narrowed_of_view hretired).trans hcancelled).trans
    (narrowed_of_view view_cancelReplayRetryLoopIfSettled)

theorem narrowed_settleAcknowledgement (binding : ConnectionBinding)
    (supplied : Option SessionIncarnation) (ack : Acknowledgement) :
    Narrowed o (settleAcknowledgement o binding supplied ack) := by
  rw [settleAcknowledgement]
  split
  · exact narrowed_of_view rfl
  split
  · split
    · exact narrowed_of_view rfl
    rename_i event hnamed
    have hthrough := narrowed_acknowledgeEventsThrough (o := o) ack.throughSeq
    dsimp only
    split
    · exact hthrough.trans (narrowed_of_view rfl)
    · refine hthrough.trans (Narrowed.trans ?_ (narrowed_acknowledgeEventId _))
      exact narrowed_of_view rfl
  · exact narrowed_of_view rfl

/-! ### Sending -/

theorem resolveSessionIncarnation_eq_some {binding : ConnectionBinding}
    {supplied : Option SessionIncarnation} {incarnation : SessionIncarnation}
    (h : resolveSessionIncarnation o supplied binding = some incarnation) :
    o.activeConnectionBinding = some binding ∧ o.activeSessionIncarnation = some incarnation := by
  rw [resolveSessionIncarnation] at h
  split at h
  swap
  · cases h
  rename_i hbinding
  split at h
  · cases h
  rename_i expected hexpected
  split at h
  · cases h
    exact ⟨hbinding, hexpected⟩
  · cases h

theorem traced_resendPendingEvents (h : Traced ordered (view o)) (binding : ConnectionBinding)
    (supplied : Option SessionIncarnation) (owner : ReplayOwner) :
    Traced ordered (view (resendPendingEvents o binding supplied owner)) := by
  rw [resendPendingEvents]
  split
  · exact h
  · rename_i incarnation hresolved
    obtain ⟨hbinding, hincarnation⟩ := resolveSessionIncarnation_eq_some hresolved
    rw [enqueueReplay, view_enqueueSend]
    exact h.enqueueReplay hbinding hincarnation owner

theorem traced_allocate (h : Traced ordered (view o)) {makeEvent : Nat → Event}
    (hmake : ∀ n, (makeEvent n).eventSeq = n) {window : SequenceWindow}
    (hok : allocate encodes o.maxPendingEvents o.window makeEvent = .ok (window, event))
    (hfresh : ∀ i e, Owns o.writes i e → e.eventId ≠ event.eventId) (body : WriteBody)
    (hbody : WriteBody.ownEvent body = some event) :
    Traced ordered (view (enqueueSend { o with window := window } body)) ∧
      ¬Handed o.sent event.eventId := by
  have hwindowed : Windowed o.maxPendingEvents o.window := h.windowed
  obtain ⟨hseq, -, hwindow⟩ := hwindowed.allocate_fresh hmake hok
  have hfresh' : ∀ i e, Owns (view o).tasks i e → e.eventId ≠ event.eventId :=
    fun i e howns => hfresh i e (owns_view.mp howns)
  constructor
  · rw [view_enqueueSend]
    refine Traced.allocate h (hwindowed.allocate hmake hok) hseq ?_ ?_ hbody hfresh'
    · rw [hwindow]
      rfl
    · rw [hwindow]
      rfl
  · rintro ⟨t, ht, hid⟩
    obtain ⟨i, hi⟩ := h.own_sent t ht
    exact hfresh' i _ hi hid

theorem traced_allocateAndSend (h : Traced ordered (view o)) (binding : ConnectionBinding)
    (sessionIncarnation : SessionIncarnation) {makeEvent : Nat → Event} {eventId : EventId}
    (hmake : ∀ n, (makeEvent n).eventSeq = n) (hid : ∀ n, (makeEvent n).eventId = eventId)
    (hfresh : ∀ i e, Owns o.writes i e → e.eventId ≠ eventId) :
    Traced ordered (view (allocateAndSend encodes o binding sessionIncarnation makeEvent).1) := by
  rw [allocateAndSend]
  split
  swap
  · exact h
  split
  swap
  · exact h
  split
  · exact h
  · rename_i window event hok
    have hevent : event.eventId = eventId := by
      rw [(allocate_eq_ok hok).1, hid]
    exact (traced_allocate h hmake hok (fun i e howns => hevent ▸ hfresh i e howns) _ rfl).1

theorem isEmpty_lookup {β : Type} {t : ExtTreeMap Nat β} (h : t.isEmpty = true) (a : Nat) :
    t[a]? = none := by
  rw [ExtTreeMap.isEmpty_iff.mp h]
  rfl

theorem traced_prepareTextEdit (h : Traced ordered (view o)) (nodeId : NodeId) (value : String)
    (editSeq : EditSeq) (observedRevision : Revision) (binding : ConnectionBinding)
    (supplied : Option SessionIncarnation) {eventId : EventId} (token : Token)
    (hfresh : ∀ i e, Owns o.writes i e → e.eventId ≠ eventId) :
    Traced ordered (view (prepareTextEdit encodes o nodeId value editSeq observedRevision binding
      supplied eventId token).1) := by
  rw [prepareTextEdit]
  split
  · exact h
  rename_i incarnation _
  split
  swap
  · exact h
  split
  swap
  · exact h
  rename_i hlane
  split
  · exact h
  · rename_i window event hok
    have hevent : event.eventId = eventId := by
      rw [(allocate_eq_ok hok).1]
      rfl
    obtain ⟨hqueued, hunsent⟩ := traced_allocate h (fun _ => rfl) hok
      (fun i e howns => hevent ▸ hfresh i e howns)
      (.prepared (captureWrite o event binding incarnation) none) rfl
    refine Traced.openSlot hqueued token ⟨event, o.writes.length⟩ ?_ ?_ hunsent
    · intro a
      exact isEmpty_lookup hlane.1 a
    · refine ⟨WriteTask.uncancelled _, _, view_task (getElem?_concat_last _ _), rfl, rfl⟩

/-! ### Prepared edits -/

theorem lookup_erase_sub {β : Type} {t : ExtTreeMap Nat β} {k : Nat} (a : Nat) (b : β)
    (h : (t.erase k)[a]? = some b) : k ≠ a ∧ t[a]? = some b := by
  rw [getElem?_drop] at h
  split at h
  · cases h
  · rename_i hne
    exact ⟨hne, h⟩

theorem traced_rollBackRejected (h : Traced ordered (view o))
    (hunsent : ¬Handed o.sent event.eventId) (canceledBeforeSend : Bool) :
    Traced ordered (view (rollBackRejected o event canceledBeforeSend).1) := by
  rw [rollBackRejected]
  split
  · exact Traced.rollBack h hunsent
  · exact h

theorem traced_leaveSlot (h : Traced ordered (view o)) {token : Token} {slot : PreparedTextEditSend}
    (hslot : o.preparedTextEditSends[token]? = some slot) (shouldSend : Bool) :
    Traced ordered (view (resolveGate
      { o with preparedTextEditSends := o.preparedTextEditSends.erase token }
      slot.task shouldSend)) := by
  rw [view_resolveGate]
  refine Traced.decideGate ?_ shouldSend ?_
  · exact h.dropSlots fun a s hs => (lookup_erase_sub a s hs).2
  · intro _ a s hs
    obtain ⟨hne, hold⟩ := lookup_erase_sub a s hs
    exact absurd (h.slots_single token a slot s hslot hold) hne

theorem filter_eq_some {slot : Option PreparedTextEditSend} {retained : PreparedTextEditSend}
    (h : (slot.filter fun retained => decide (retained.event = event)) = some retained) :
    slot = some retained ∧ retained.event = event := by
  obtain ⟨hslot, hevent⟩ := Option.filter_eq_some_iff.mp h
  exact ⟨hslot, of_decide_eq_true hevent⟩

theorem traced_rejectPreparedTextEdit (h : Traced ordered (view o)) (prepared : PreparedTextEdit) :
    Traced ordered (view (rejectPreparedTextEdit o prepared).1) := by
  have hdropped : Traced ordered (view { o with
      preparedTextEditSends := o.preparedTextEditSends.erase prepared.token }) :=
    h.dropSlots fun a s hs => (lookup_erase_sub a s hs).2
  rw [rejectPreparedTextEdit]
  split
  · rename_i retained hfilter
    obtain ⟨hslot, hevent⟩ := filter_eq_some hfilter
    have hunsent : ¬Handed o.sent prepared.event.eventId :=
      hevent ▸ h.slots_unsent prepared.token retained hslot
    refine traced_rollBackRejected ?_ ?_ _
    · rw [view_cancelTask]
      exact traced_leaveSlot h hslot false
    · exact hunsent
  · split
    · rename_i hsuspended
      have hunsent : ¬Handed o.sent prepared.event.eventId :=
        h.suspended_unsent prepared.token prepared.event hsuspended
      refine traced_rollBackRejected ?_ ?_ true
      · exact hdropped.dropSuspended _ fun a e he => (lookup_erase_sub a e he).2
      · exact hunsent
    · exact hdropped

theorem traced_authorizePreparedTextEdit (h : Traced ordered (view o))
    (prepared : PreparedTextEdit) :
    Traced ordered (view (authorizePreparedTextEdit o prepared).1) := by
  have hretired : Traced ordered (view (retire o prepared.event.eventId)) := h
  rw [authorizePreparedTextEdit]
  split
  · exact traced_rejectPreparedTextEdit hretired prepared
  split
  · rename_i retained hfilter
    split
    · exact traced_leaveSlot hretired (filter_eq_some hfilter).1 true
    · exact hretired
  · split
    · exact hretired.dropSuspended _ fun a e he => (lookup_erase_sub a e he).2
    · exact hretired

/-! ### Cutting the chain -/

theorem toList_of_single {β : Type} {t : ExtTreeMap Nat β}
    (h : ∀ (a b : Nat) s s', t[a]? = some s → t[b]? = some s' → a = b) :
    t.toList = [] ∨ ∃ a s, t.toList = [(a, s)] ∧ t[a]? = some s := by
  have hlookup : ∀ p ∈ t.toList, t[p.1]? = some p.2 :=
    fun p hp => mem_toList.mp hp
  have hdistinct := ExtTreeMap.distinct_keys_toList (t := t)
  rcases hlist : t.toList with - | ⟨first, - | ⟨second, rest⟩⟩
  · exact Or.inl rfl
  · refine Or.inr ⟨first.1, first.2, rfl, ?_⟩
    exact hlookup first (hlist ▸ List.mem_singleton_self _)
  · rw [hlist] at hlookup hdistinct
    have hsame := h first.1 second.1 first.2 second.2 (hlookup first List.mem_cons_self)
      (hlookup second (List.mem_cons_of_mem _ List.mem_cons_self))
    have hne := (List.pairwise_cons.mp hdistinct).1 second List.mem_cons_self
    exact absurd (LawfulEqCmp.compare_eq_iff_eq.mpr hsame) hne

/-- What a loop of `cancelPendingWrites` leaves: a sound state, and edits to roll back
that were never handed over. -/
structure Leaves (ordered : Prop) (o : EventOutbox) (result : EventOutbox × List Event) : Prop where
  traced : Traced ordered (view result.1)
  sent : result.1.sent = o.sent
  unsent : ∀ e ∈ result.2, ¬Handed o.sent e.eventId

theorem leaves_cancelPreparedSlots (h : Traced ordered (view o)) (retain : Bool) :
    Leaves ordered o (cancelPreparedSlots o retain) := by
  have hnone : Traced ordered (view { o with preparedTextEditSends := ∅ }) :=
    h.dropSlots fun a s hs => by simp at hs
  rw [cancelPreparedSlots]
  rcases toList_of_single h.slots_single with hnil | ⟨token, slot, hlist, hslot⟩
  · have hnil : o.preparedTextEditSends.toList = [] := hnil
    rw [hnil]
    exact ⟨hnone, rfl, by simp⟩
  · have hlist : o.preparedTextEditSends.toList = [(token, slot)] := hlist
    have hslot : o.preparedTextEditSends[token]? = some slot := hslot
    have hunsent := h.slots_unsent token slot hslot
    have hclosed : Traced ordered (view (cancelTask
        (resolveGate { o with preparedTextEditSends := ∅ } slot.task false) slot.task)) := by
      rw [view_cancelTask, view_resolveGate]
      exact Traced.decideGate hnone false fun hsend => by cases hsend
    rw [hlist, List.foldl_cons, List.foldl_nil, cancelPreparedSlot]
    split
    swap
    · exact ⟨hclosed, rfl, by simp⟩
    split
    · refine ⟨hclosed.suspend token ?_ hunsent, rfl, by simp⟩
      obtain ⟨t, write, decision, ht, hbody, hshut, hevent⟩ := h.slots_closed token slot hslot
      rw [view_cancelTask, view_resolveGate]
      refine ⟨slot.task, _, write, getElem?_modify_of_some ht, ?_, hevent⟩
      rw [if_pos rfl, hbody]
      rcases decision with - | - | -
      · rfl
      · rfl
      · exact absurd rfl hshut
    split
    · exact ⟨hclosed, rfl, by simp⟩
    · refine ⟨hclosed, rfl, ?_⟩
      intro e he
      simp only [List.nil_append, List.mem_singleton] at he
      rw [he]
      exact hunsent

theorem mem_settleSuspended {entries : List (Token × Event)} {state : EventOutbox × List Event}
    (e : Event) (h : e ∈ (entries.foldl settleSuspended state).2) :
    e ∈ state.2 ∨ ∃ entry ∈ entries, entry.2 = e := by
  induction entries generalizing state with
  | nil => exact Or.inl h
  | cons entry rest ih =>
    rcases ih h with hstep | ⟨other, hother, heq⟩
    · rw [settleSuspended] at hstep
      split at hstep
      · exact Or.inl hstep
      · rcases List.mem_append.mp hstep with hold | hnew
        · exact Or.inl hold
        · exact Or.inr ⟨entry, List.mem_cons_self, (List.mem_singleton.mp hnew).symm⟩
    · exact Or.inr ⟨other, List.mem_cons_of_mem _ hother, heq⟩

theorem traced_rollBacks (h : Traced ordered (view o)) {events : List Event}
    (hunsent : ∀ e ∈ events, ¬Handed o.sent e.eventId) :
    Traced ordered (view { o with
      window := events.foldl (fun window event => (rollBack window event).1) o.window }) := by
  induction events generalizing o with
  | nil => exact h
  | cons event rest ih =>
    have hfirst : Traced ordered (view { o with window := (rollBack o.window event).1 }) :=
      Traced.rollBack h (hunsent event List.mem_cons_self)
    exact ih hfirst fun e he => hunsent e (List.mem_cons_of_mem event he)

theorem traced_settleSuspendedEdits (h : Traced ordered (view o)) {rollbacks : List Event}
    (hunsent : ∀ e ∈ rollbacks, ¬Handed o.sent e.eventId) :
    Traced ordered (view (settleSuspendedEdits o rollbacks)) := by
  have hview := foldl_keeps (fun state => view state.1) view_settleSuspended
    o.lifecycleSuspendedPreparedTextEdits.toList (o, rollbacks)
  have hmem : ∀ e ∈ (o.lifecycleSuspendedPreparedTextEdits.toList.foldl settleSuspended
      (o, rollbacks)).2, _ := mem_settleSuspended
  rw [settleSuspendedEdits]
  generalize o.lifecycleSuspendedPreparedTextEdits.toList.foldl settleSuspended (o, rollbacks) =
    settled at hview hmem ⊢
  have hsent : settled.1.sent = o.sent := congrArg WriteView.sent hview
  have htraced : Traced ordered (view settled.1) := hview.symm ▸ h
  have hcleared : Traced ordered
      (view { settled.1 with lifecycleSuspendedPreparedTextEdits := ∅ }) :=
    htraced.dropSuspended ∅ fun a e he => by simp at he
  refine traced_rollBacks hcleared ?_
  intro e he
  show ¬Handed settled.1.sent e.eventId
  rw [hsent]
  rcases hmem e ((List.mem_insertionSort _).mp he) with hold | ⟨entry, hentry, rfl⟩
  · exact hunsent e hold
  · exact h.suspended_unsent entry.1 entry.2
      (mem_toList.mp hentry)

theorem traced_dropSendTail (h : Traced ordered (view o)) :
    Traced ordered (view (dropSendTail o)) := by
  rw [dropSendTail]
  split
  · exact h.cut
  · rename_i tail _
    have hcut := (view_cancelTask (o := o) tail).symm ▸ h
    exact Traced.cut hcut

theorem traced_cancelPendingWrites (h : Traced ordered (view o)) (retain : Bool) :
    Traced ordered (view (cancelPendingWrites o retain)) := by
  obtain ⟨htraced, hsent, hunsent⟩ := leaves_cancelPreparedSlots h retain
  rw [cancelPendingWrites]
  refine traced_dropSendTail ?_
  rw [view_cancelAuthorizedSlots]
  split
  · exact htraced
  · exact traced_settleSuspendedEdits htraced fun e he => hsent.symm ▸ hunsent e he

/-! ### What a write does -/

structure Runnable (o : EventOutbox) (task : Nat) (t : WriteTask) : Prop where
  task_eq : o.writes[task]? = some t
  ready : predecessorFinished o t = true

theorem Runnable.earlier_finished (hrun : Runnable o task t) (h : Traced ordered (view o)) {i : Nat}
    {u : WriteTask} (hi : i < task) (hu : (view o).tasks[i]? = some u)
    (hchain : u.chain = t.chain) : u.finished = true := by
  refine h.queued.before_runnable hi hu (view_task hrun.task_eq) hchain ?_
  intro p q hp hq
  have hready := hrun.ready
  have hp : t.predecessor = some p := hp
  simp only [predecessorFinished, hp] at hready
  rw [view, List.getElem?_map] at hq
  obtain ⟨r, hr, rfl⟩ := Option.map_eq_some_iff.mp hq
  rw [hr] at hready
  exact hready

theorem traced_finishView {v : WriteView} (h : Traced ordered v) (ht : v.tasks[task]? = some t)
    (hearlier : ∀ (i : Nat) u, i < task → v.tasks[i]? = some u → u.chain = t.chain →
      u.finished = true) :
    Traced ordered { v with tasks := v.tasks.modify task fun t =>
      { t with sending := false, finished := true } } := by
  refine h.modifyTask (fun _ => rfl) (fun _ => rfl) (fun _ => rfl) (fun _ _ => rfl) ?_
  intro u hu _ i w hi hw hchain
  rw [Option.some.inj (hu.symm.trans ht)] at hchain
  exact hearlier i w hi hw hchain

theorem traced_finishTask (h : Traced ordered (view o)) (hrun : Runnable o task t) :
    Traced ordered (view (finishTask o task)) := by
  rw [view_finishTask]
  refine traced_finishView h (view_task hrun.task_eq) ?_
  intro i u hi hu hchain
  exact hrun.earlier_finished h hi hu hchain

theorem traced_startSending {v : WriteView} (h : Traced ordered v) {task : Nat} {t : WriteTask}
    (ht : v.tasks[task]? = some t)
    (hearlier : ∀ (i : Nat) u, i < task → v.tasks[i]? = some u → u.chain = t.chain →
      u.finished = true) :
    Traced ordered { v with tasks := v.tasks.modify task fun t => { t with sending := true } } := by
  refine h.modifyTask (fun _ => rfl) (fun _ => rfl) (fun _ => rfl) (fun _ hfinished => hfinished) ?_
  intro u hu _ i w hi hw hchain
  rw [Option.some.inj (hu.symm.trans ht)] at hchain
  exact hearlier i w hi hw hchain

theorem view_handOver (task : Nat) (event : Event) (chain : Nat) :
    view (handOver o task event chain) =
      { view { o with sent := o.sent ++ [⟨event, chain⟩] } with
        tasks := (view o).tasks.modify task fun t => { t with sending := true } } := by
  have hadjusted := view_adjustTask (o := o) (fun t => { t with sending := true })
    (fun t => { t with sending := true }) (fun _ => rfl) task
  have htasks := congrArg WriteView.tasks hadjusted
  simp only [view, handOver] at htasks ⊢
  rw [← htasks]
  rfl

section

variable (h : Traced ordered (view o))

include h

theorem traced_sendRetainedEventIfActive (hrun : Runnable o task t) {write : RetainedWrite}
    (hown : WriteBody.ownEvent t.body = some write.event)
    (hopen : ∀ decision, t.body = .prepared write decision → decision = some true)
    (hbody : t.body = .retained write ∨ ∃ decision, t.body = .prepared write decision)
    (horder : ordered → mayTransmitRetainedEvent o write = true → t.cancelled = false →
      ∀ (id : EventId) older, o.window.pendingEvents[id]? = some older →
        older.eventSeq < write.event.eventSeq → ¬Handed o.sent older.eventId →
          StillQueued o t.chain older) :
    Traced ordered (view (sendRetainedEventIfActive o task t write)) := by
  rw [sendRetainedEventIfActive]
  split
  swap
  · exact traced_finishTask h hrun
  rename_i hguard
  obtain ⟨hmay, huncancelled⟩ := hguard
  have hpending : o.window.pendingEvents[write.event.eventId]? = some write.event :=
    (of_decide_eq_true hmay).2.2.1
  have howns : Owns (view o).tasks task write.event :=
    ⟨_, view_task hrun.task_eq, hown⟩
  -- Whatever holds this event in a slot would hold this very task.
  have hsame : ∀ {i : Nat} {u : WriteTask} {other : RetainedWrite} {decision : Option Bool},
      (view o).tasks[i]? = some u → u.body = .prepared other decision →
      other.event = write.event → decision = some true := by
    intro i u other decision hu hprepared hevent
    have hother : Owns (view o).tasks i write.event := ⟨u, hu, by rw [hprepared, ← hevent]; rfl⟩
    have hi := h.own_unique i task _ _ hother howns rfl
    rw [hi, view_task hrun.task_eq] at hu
    rw [← Option.some.inj hu] at hprepared
    have hprepared : t.body = .prepared other decision := hprepared
    rcases hbody with hretained | ⟨decided, hprepared'⟩
    · rw [hretained] at hprepared
      cases hprepared
    · have hdecided := hopen decided hprepared'
      rw [hprepared'] at hprepared
      cases hprepared
      exact hdecided
  have hhanded : Traced ordered (view { o with sent := o.sent ++ [⟨write.event, t.chain⟩] }) := by
    refine h.handOver t.chain hpending ?_ ?_ ?_
    · intro hordered id older holder hlt
      by_contra hunsent
      -- An older event that was left out still has its write queued before this one.
      obtain ⟨i, u, hu, hevent, hchain, hunfinished⟩ :=
        horder hordered hmay huncancelled id older holder hlt hunsent
      have holdOwns : Owns (view o).tasks i older := owns_view.mpr ⟨u, hu, hevent⟩
      have holderPending : o.window.pendingEvents[older.eventId]? = some older := by
        rw [h.windowed.listed.keyed id older holder]
        exact holder
      have hi := h.own_ordered i task older write.event holdOwns howns holderPending hpending hlt
      have hfinished := hrun.earlier_finished h hi (view_task hu) hchain
      rw [WriteTask.uncancelled, hunfinished] at hfinished
      cases hfinished
    · intro a slot hslot hevent
      obtain ⟨u, other, decision, hu, hprepared, hshut, hother⟩ := h.slots_closed a slot hslot
      exact hshut (hsame hu hprepared (hother.trans hevent))
    · intro a e he hevent
      obtain ⟨i, u, other, hu, hprepared, hother⟩ := h.suspended_closed a e he
      have hdecided := hsame hu hprepared (hother.trans hevent)
      cases hdecided
  rw [view_handOver]
  exact traced_startSending hhanded (view_task hrun.task_eq)
    fun i u hi hu hchain => hrun.earlier_finished h hi hu hchain

theorem traced_sendReplayEventIfActive (hrun : Runnable o task t) {write : ReplayWrite}
    (hbody : t.body = .replay write)
    (horder : ∀ event rest, write.remaining = event :: rest → t.cancelled = false →
      mayReplayEvent o write event = true → encodes event = true → ¬Undecided o event) :
    Traced ordered (view (sendReplayEventIfActive encodes o task t write)) := by
  have htask : (view o).tasks[task]? = some (WriteTask.uncancelled t) := view_task hrun.task_eq
  have htake : ∀ (o : EventOutbox) rest, view (takeReplayEvent o task write rest) =
      { view o with tasks := (view o).tasks.modify task fun t =>
        { t with body := .replay { write with remaining := rest } } } :=
    fun o rest => view_adjustTask _
      (fun t => { t with body := .replay { write with remaining := rest } }) (fun _ => rfl) task
  rw [sendReplayEventIfActive]
  split
  · exact traced_finishTask h hrun
  rename_i event rest hremaining
  split
  · exact traced_finishTask h hrun
  rename_i huncancelled
  split
  · rename_i hmay
    obtain ⟨-, hincarnation, hpending⟩ := of_decide_eq_true hmay
    split
    swap
    · exact traced_finishTask h hrun
    rename_i hencodes
    have hundecided := horder event rest hremaining (by simpa using huncancelled) hmay hencodes
    have hhanded : Traced ordered (view { o with sent := o.sent ++ [⟨event, t.chain⟩] }) := by
      refine h.handOver t.chain hpending ?_ ?_ ?_
      · intro hordered id older holder hlt
        have hcatching := h.replay_catching hordered task _ write htask hbody hincarnation
        have hsorted := h.replay_sorted task _ write htask hbody
        rw [hremaining] at hcatching hsorted
        rcases hcatching event List.mem_cons_self hpending id older holder hlt with hdone | hmem
        · exact hdone
        · rcases List.mem_cons.mp hmem with rfl | hrest
          · exact absurd hlt (Nat.lt_irrefl _)
          · have hafter := (List.pairwise_cons.mp hsorted).1 older hrest
            omega
      · intro a slot hslot hevent
        exact hundecided (Or.inl ⟨a, slot, hslot, hevent⟩)
      · intro a e he hevent
        exact hundecided (Or.inr ⟨a, hevent ▸ he⟩)
    have hadvanced : Traced ordered (view (takeReplayEvent
        { o with sent := o.sent ++ [⟨event, t.chain⟩] } task write rest)) := by
      rw [htake]
      refine hhanded.advanceReplay htask hbody hremaining ?_
      intro _
      exact Or.inl ⟨_, List.mem_append_right _ (List.mem_singleton_self _), rfl⟩
    rw [view_handOver]
    refine traced_startSending hadvanced
      (t := { WriteTask.uncancelled t with body := .replay { write with remaining := rest } })
      ?_ ?_
    · rw [htake]
      have hmodified := getElem?_modify_of_some (n := task)
        (f := fun t => { t with body := .replay { write with remaining := rest } }) htask
      rw [if_pos rfl] at hmodified
      exact hmodified
    · intro i u hi hu hchain
      rw [htake] at hu
      rcases getElem?_modify_cases hu with ⟨heq, -⟩ | ⟨-, hold⟩
      · omega
      · exact hrun.earlier_finished h hi hold hchain
  · rename_i hnot
    rw [htake]
    refine h.advanceReplay htask hbody hremaining ?_
    intro hincarnation
    refine Or.inr fun hpending => hnot (decide_eq_true ⟨?_, hincarnation, hpending⟩)
    have hbinding := (h.bound.active _ hincarnation).1
    rw [← (h.bound.replays task _ write htask hbody).1] at hbinding
    exact hbinding

theorem traced_runWrite (hprudent : Prudent encodes o (.runWrite task))
    (hsequence : ordered → InSequence encodes o (.runWrite task)) :
    Traced ordered (view (runWrite encodes o task)) := by
  rw [runWrite]
  split
  · exact h
  rename_i t ht
  split
  · exact h
  rename_i hidle
  have hidle' : t.finished = false ∧ t.sending = false ∧ predecessorFinished o t = true := by
    simpa [not_or] using hidle
  obtain ⟨hfinished, hsending, hready⟩ := hidle'
  have hrun : Runnable o task t := ⟨ht, hready⟩
  have hunfold : t.cancelled = false → nextHandOver encodes o task = (match t.body with
      | .retained write => if mayTransmitRetainedEvent o write then some write.event else none
      | .prepared write (some true) =>
        if mayTransmitRetainedEvent o write then some write.event else none
      | .prepared _ _ => none
      | .replay write =>
        match write.remaining with
        | [] => none
        | event :: _ =>
          if mayReplayEvent o write event ∧ encodes event then some event else none) := by
    intro huncancelled
    simp only [nextHandOver, ht]
    rw [if_neg (by simp [hfinished, hsending, hready, huncancelled])]
  split
  · rename_i write hbody
    refine traced_sendRetainedEventIfActive h hrun (by rw [hbody]; rfl) ?_ (Or.inl hbody) ?_
    · intro decision hprepared
      rw [hbody] at hprepared
      cases hprepared
    · intro hordered hmay huncancelled
      have hevent : nextHandOver encodes o task = some write.event := by
        rw [hunfold huncancelled, hbody]
        simp [hmay]
      exact hsequence hordered t write.event ht hevent (by simp [hbody, WriteBody.ownEvent])
  · rename_i write hbody
    split
    · have hshut : Traced ordered (view (resolveGate o task false)) := by
        rw [view_resolveGate]
        exact h.decideGate false fun hsend => by cases hsend
      rw [view_finishTask]
      refine traced_finishView hshut
        (t := { WriteTask.uncancelled t with body := t.body.decide false }) ?_ ?_
      · rw [view_resolveGate]
        have hmodified := getElem?_modify_of_some (n := task)
          (f := fun t => { t with body := t.body.decide false }) (view_task ht)
        rw [if_pos rfl] at hmodified
        exact hmodified
      · intro i u hi hu hchain
        rw [view_resolveGate] at hu
        rcases getElem?_modify_cases hu with ⟨heq, -⟩ | ⟨-, hold⟩
        · omega
        · exact hrun.earlier_finished h hi hold hchain
    · exact h
  · exact traced_finishTask h hrun
  · rename_i write hbody
    refine traced_sendRetainedEventIfActive h hrun (by rw [hbody]; rfl) ?_
      (Or.inr ⟨_, hbody⟩) ?_
    · intro decision hprepared
      rw [hbody] at hprepared
      cases hprepared
      rfl
    · intro hordered hmay huncancelled
      have hevent : nextHandOver encodes o task = some write.event := by
        rw [hunfold huncancelled, hbody]
        simp [hmay]
      exact hsequence hordered t write.event ht hevent (by simp [hbody, WriteBody.ownEvent])
  · rename_i write hbody
    refine traced_sendReplayEventIfActive h hrun hbody ?_
    intro event rest hremaining huncancelled hmay hencodes
    have hevent : nextHandOver encodes o task = some event := by
      rw [hunfold huncancelled, hbody]
      simp [hremaining, hmay, hencodes]
    exact hprudent t event ht hevent (by rw [hbody]; rfl)

theorem traced_transportSendEnded (task : Nat) (succeeded : Bool) :
    Traced ordered (view (transportSendEnded o task succeeded)) := by
  rw [transportSendEnded]
  split
  · exact h
  rename_i t ht
  split
  swap
  · exact h
  rename_i hsending
  -- A write that is being sent has nothing unfinished before it.
  have hearlier : ∀ (i : Nat) u, i < task → (view o).tasks[i]? = some u → u.chain = t.chain →
      u.finished = true := by
    intro i u hi hu hchain
    exact h.queued.done i task u _ hi hu (view_task ht) hchain (Or.inr hsending)
  have hfinish : Traced ordered (view (finishTask o task)) := by
    rw [view_finishTask]
    exact traced_finishView h (view_task ht) hearlier
  split
  swap
  · exact hfinish
  split
  swap
  · exact hfinish
  rw [view_adjustTask _ (fun t => { t with sending := false }) (fun _ => rfl)]
  refine h.modifyTask (fun _ => rfl) (fun _ => rfl) (fun _ => rfl) (fun _ hfinished => hfinished) ?_
  intro u hu _ i w hi hw hchain
  rw [Option.some.inj (hu.symm.trans (view_task ht))] at hchain
  exact hearlier i w hi hw hchain

end

end Srui.Client.OutboxTransmissions

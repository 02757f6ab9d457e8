import Srui.Client.Acknowledgements
import Srui.EventDedupe.WindowInvariant

/-!
One event outbox and the receive window the server keeps for it.

The network may deliver whatever was handed over, at any later time and more than once;
connections that deliver a prefix in order and lose the rest are among these runs. An
acknowledgement or a reported frontier, once issued, may reach the outbox late, more than
once or never. The call that admitted an identity settles or abandons it.
-/

namespace Srui.Exchange.EventExchanges

open Std Basic.Machine Basic.Runs Basic.FiniteMaps Client.EventWindows Client.WindowIntegrity
open Client.EventOutboxes Client.OutboxTurns Client.OutboxWindows Client.WriteChains
open Client.OutboxTransmissions Client.TransmissionRuns Client.Acknowledgements
open EventDedupe.Windows (ClientDedupeWindow EventRecord EventOutcomeRecord RecordOutcome
  EventSequenceError EventType admitToWindow)
open EventDedupe.WindowInvariant (WindowInv Covered)

/-! ### The system -/

/-- A terminal acknowledgement of `build_event_ack`: the event and the frontier. -/
structure IssuedAck where
  event : Event
  throughSeq : Nat
deriving DecidableEq

structure System where
  client : EventOutbox
  server : ClientDedupeWindow := ClientDedupeWindow.new
  acks : List IssuedAck := []
  /-- The frontiers reported to a client that resumes. -/
  frontiers : List Nat := []
  /-- The identities settled, oldest first. -/
  settled : List EventId := []

inductive Act where
  | turn (turn : Turn)
  | deliver (event : Event)
  | settle (event : Event) (outcome : EventOutcomeRecord)
  | abandon (event : Event)
  | report

def wireType (event : Event) : EventType :=
  some (event.eventType.namespaceId, event.eventType.localId)

/-- `ClientDedupeWindow::admit` for an event as the outbox frames it. -/
def admitEvent (maxEntries : Nat) (w : ClientDedupeWindow) (event : Event) :
    ClientDedupeWindow × Except EventSequenceError RecordOutcome :=
  admitToWindow w event.eventId event.eventSeq (wireType event) maxEntries

def step (encodes : Event → Bool) (maxEntries : Nat) (s : System) : Act → System
  | .turn turn => { s with client := Client.OutboxTurns.step encodes s.client turn }
  | .deliver event =>
    match admitEvent maxEntries s.server event with
    | (server, .ok (.duplicate _ throughSeq)) =>
      { s with server := server, acks := s.acks ++ [⟨event, throughSeq⟩] }
    | (server, _) => { s with server := server }
  | .settle event outcome =>
    match s.server.seenIds[event.eventId]? with
    | some (.inFlight _ _) =>
      let settled := EventDedupe.Windows.settle s.server event.eventId outcome
      { s with server := settled.1, acks := s.acks ++ [⟨event, settled.2⟩],
               settled := s.settled ++ [event.eventId] }
    | _ => s
  | .abandon event => { s with server := EventDedupe.Windows.abandon s.server event.eventId }
  | .report => { s with frontiers := s.frontiers ++ [s.server.lastContiguousProcessedSeq] }

/-- Whether the server has issued this acknowledgement, whatever session and revision it
names. -/
def Issued (s : System) (ack : Acknowledgement) : Prop :=
  ∃ issued ∈ s.acks, ack.eventId = issued.event.eventId ∧
    ack.settledEventSeq = some issued.event.eventSeq ∧ ack.throughSeq = issued.throughSeq

/-- What a turn takes for the server's word is the server's word. -/
def Heard (s : System) : Turn → Prop
  | .settleAcknowledgement _ _ ack => Issued s ack
  | .prepareSameSessionResume _ lastProcessedEventSeq _ _ _ discarded _ =>
    lastProcessedEventSeq ∈ s.frontiers ∧ discarded = none
  | .applyLiveResyncFrontier lastProcessedEventSeq _ _ => lastProcessedEventSeq ∈ s.frontiers
  | .applyLiveSameSessionResync lastProcessedEventSeq _ _ _ =>
    lastProcessedEventSeq ∈ s.frontiers
  | .cancelAssignedTextEdits .. => False
  | .cancelAssignedTextEditsOnlyIf .. => False
  | .applyReplacementFrontierState .. => False
  | _ => True

def Transmitted (s : System) (event : Event) : Prop := ∃ t ∈ s.client.sent, t.event = event

def Allowed (encodes : Event → Bool) (s : System) : Act → Prop
  | .turn turn => FreshIdentity s.client turn ∧ Prudent encodes s.client turn ∧ Heard s turn
  | .deliver event => Transmitted s event
  | .settle event _ => Transmitted s event
  | .abandon event => Transmitted s event
  | .report => True

def heard (s : System) : Turn → Bool
  | .settleAcknowledgement _ _ ack => s.acks.any fun issued =>
    decide (ack.eventId = issued.event.eventId ∧
      ack.settledEventSeq = some issued.event.eventSeq ∧ ack.throughSeq = issued.throughSeq)
  | .prepareSameSessionResume _ lastProcessedEventSeq _ _ _ discarded _ =>
    decide (lastProcessedEventSeq ∈ s.frontiers ∧ discarded = none)
  | .applyLiveResyncFrontier lastProcessedEventSeq _ _ =>
    decide (lastProcessedEventSeq ∈ s.frontiers)
  | .applyLiveSameSessionResync lastProcessedEventSeq _ _ _ =>
    decide (lastProcessedEventSeq ∈ s.frontiers)
  | .cancelAssignedTextEdits .. => false
  | .cancelAssignedTextEditsOnlyIf .. => false
  | .applyReplacementFrontierState .. => false
  | _ => true

theorem heard_iff {s : System} {turn : Turn} : heard s turn = true ↔ Heard s turn := by
  cases turn with
  | settleAcknowledgement =>
    rw [heard, List.any_eq_true]
    simp only [decide_eq_true_eq]
    rfl
  | prepareSameSessionResume | applyLiveResyncFrontier | applyLiveSameSessionResync =>
    exact decide_eq_true_iff
  | cancelAssignedTextEdits | cancelAssignedTextEditsOnlyIf | applyReplacementFrontierState =>
    exact ⟨fun h => (Bool.false_ne_true h).elim, False.elim⟩
  | _ => exact ⟨fun _ => trivial, fun _ => rfl⟩

instance (s : System) (turn : Turn) : Decidable (Heard s turn) := decidable_of_iff _ heard_iff

instance (s : System) (event : Event) : Decidable (Transmitted s event) :=
  inferInstanceAs (Decidable (∃ t ∈ s.client.sent, t.event = event))

instance (encodes : Event → Bool) (s : System) : (act : Act) → Decidable (Allowed encodes s act)
  | .turn turn => inferInstanceAs (Decidable
      (FreshIdentity s.client turn ∧ Prudent encodes s.client turn ∧ Heard s turn))
  | .deliver event => inferInstanceAs (Decidable (Transmitted s event))
  | .settle event _ => inferInstanceAs (Decidable (Transmitted s event))
  | .abandon event => inferInstanceAs (Decidable (Transmitted s event))
  | .report => inferInstanceAs (Decidable True)

/-! ### What holds between the two -/

structure Linked (maxEntries : Nat) (s : System) : Prop where
  traced : Traced False (view s.client)
  inv : WindowInv maxEntries s.server
  limit : s.client.maxPendingEvents ≤ maxEntries
  current_le : s.client.window.currentEventSeq ≤ u64Max
  -- Whatever the outbox counts as acknowledged was settled.
  acked : ∀ n, Acked s.client.window n → Covered s.server n
  -- The server knows only of what was transmitted.
  records : ∀ (id : EventId) (r : EventRecord), s.server.seenIds[id]? = some r →
    ∃ t ∈ s.client.sent, t.event.eventId = id ∧ t.event.eventSeq = r.eventSeq ∧
      wireType t.event = r.eventType
  covered : ∀ n, 0 < n → Covered s.server n → ∃ t ∈ s.client.sent, t.event.eventSeq = n
  acks : ∀ issued ∈ s.acks, Covered s.server issued.event.eventSeq ∧
    issued.throughSeq ≤ s.server.lastContiguousProcessedSeq
  frontiers : ∀ f ∈ s.frontiers, f ≤ s.server.lastContiguousProcessedSeq
  settled_nodup : s.settled.Nodup
  settled : ∀ id ∈ s.settled, ∃ t ∈ s.client.sent, t.event.eventId = id ∧
    Covered s.server t.event.eventSeq

variable {encodes : Event → Bool} {maxEntries : Nat} {s : System}

theorem Linked.same_event (h : Linked maxEntries s) {t u : Transmission}
    (ht : t ∈ s.client.sent) (hu : u ∈ s.client.sent) (hid : t.event.eventId = u.event.eventId) :
    t.event = u.event := by
  obtain ⟨i, hi⟩ := h.traced.own_sent t ht
  obtain ⟨j, hj⟩ := h.traced.own_sent u hu
  exact h.traced.own_event hi hj hid

theorem linked_new {maxEntries : Nat} (clientInstanceId : ClientInstanceId)
    {maxPendingEvents : Int} (hlimit : max 1 maxPendingEvents ≤ maxEntries) :
    Linked maxEntries { client := EventOutbox.new clientInstanceId maxPendingEvents } where
  traced := traced_new clientInstanceId maxPendingEvents
  inv := EventDedupe.WindowInvariant.windowInv_startingAt maxEntries 0
  limit := by
    simp only [EventOutbox.new]
    omega
  current_le := Nat.zero_le _
  acked := by
    rintro n (hle | hmem)
    · exact Or.inl hle
    · simp [EventOutbox.new] at hmem
  records := by
    simp [ClientDedupeWindow.new, ClientDedupeWindow.startingAt]
  covered := by
    rintro n hpos (hle | hmem)
    · simp [ClientDedupeWindow.new, ClientDedupeWindow.startingAt] at hle
      omega
    · simp [ClientDedupeWindow.new, ClientDedupeWindow.startingAt] at hmem
  acks := by simp
  frontiers := by simp
  settled_nodup := List.nodup_nil
  settled := by simp

/-! ### Turns of the outbox -/

theorem Heard.keeps {turn : Turn} (h : Heard s turn) : ¬Resets turn := by
  cases turn with
  | applyReplacementFrontierState => exact fun _ => h
  | _ => exact id

theorem Linked.turn_acked (h : Linked maxEntries s) {turn : Turn} (hheard : Heard s turn) :
    (∀ n, Acked (Client.OutboxTurns.step encodes s.client turn).window n →
        Covered s.server n) ∧
      (Client.OutboxTurns.step encodes s.client turn).window.currentEventSeq ≤ u64Max := by
  have hw : Windowed s.client.maxPendingEvents s.client.window := h.traced.windowed
  have hbelow : ∀ {f n}, f ∈ s.frontiers → Acked s.client.window n ∨ n ≤ f →
      Covered s.server n := by
    rintro f n hf (hold | hle)
    · exact h.acked n hold
    · exact Or.inl (Nat.le_trans hle (h.frontiers f hf))
  have hthrown : ∀ r : Except EventOutboxError EventOutbox,
      (∀ o', r = .ok o' → (∀ n, Acked o'.window n → Covered s.server n) ∧
        o'.window.currentEventSeq ≤ u64Max) →
      (∀ n, Acked (unlessThrown s.client r).window n → Covered s.server n) ∧
        (unlessThrown s.client r).window.currentEventSeq ≤ u64Max := by
    intro r hr
    rcases r with e | o'
    · exact ⟨h.acked, h.current_le⟩
    · exact hr o' rfl
  rcases Classical.em (Settles turn) with hsettles | hquiet
  swap
  · have hfollows : Follows (Settles turn) (Resets turn) s.client
        (Client.OutboxTurns.step encodes s.client turn) := step_follows turn
    obtain ⟨hlast, hahead, hcurrent⟩ := Moves.quiet hquiet hfollows.moves
    refine ⟨?_, hcurrent h.current_le⟩
    intro n hn
    rw [Acked, hlast, hahead] at hn
    exact h.acked n hn
  cases turn with
  | settleAcknowledgement binding supplied ack =>
    obtain ⟨issued, hissued, -, hseq, hthrough⟩ := hheard
    obtain ⟨hcovered, hle⟩ := h.acks issued hissued
    constructor
    · intro n hn
      rcases acked_settleAcknowledgement hw hseq hn with hold | hlow | rfl
      · exact h.acked n hold
      · exact Or.inl (Nat.le_trans (hthrough ▸ hlow) hle)
      · exact hcovered
    · exact (narrowed_settleAcknowledgement binding supplied ack).current.le.trans h.current_le
  | prepareSameSessionResume id lastProcessedEventSeq generation binding sessionIncarnation
      discarded requireExactTextMatch =>
    obtain ⟨hreported, rfl⟩ := hheard
    refine hthrown _ ?_
    intro o' hok
    refine ⟨fun n hn => hbelow hreported (acked_prepareSameSessionResume hok hn), ?_⟩
    rw [current_prepareSameSessionResume hok]
    exact h.current_le
  | applyLiveResyncFrontier lastProcessedEventSeq binding captured =>
    refine ⟨fun n hn => hbelow hheard (acked_applyLiveResyncFrontier hn), ?_⟩
    exact (current_applyLiveResyncFrontier lastProcessedEventSeq binding captured).le.trans
      h.current_le
  | applyLiveSameSessionResync =>
    refine hthrown _ ?_
    intro o' hok
    refine ⟨fun n hn => hbelow hheard (acked_applyLiveSameSessionResync hw hok hn), ?_⟩
    rw [current_applyLiveSameSessionResync hok]
    exact h.current_le
  | cancelAssignedTextEdits => exact hheard.elim
  | cancelAssignedTextEditsOnlyIf => exact hheard.elim
  | applyReplacementFrontierState => exact hheard.elim
  | _ => exact hsettles.elim

theorem Linked.turn (h : Linked maxEntries s) {turn : Turn}
    (hallowed : Allowed encodes s (.turn turn)) :
    Linked maxEntries (step encodes maxEntries s (.turn turn)) := by
  obtain ⟨hfresh, hprudent, hheard⟩ := hallowed
  have hfollows : Follows (Settles turn) (Resets turn) s.client
      (Client.OutboxTurns.step encodes s.client turn) := step_follows turn
  have hsent := (hfollows.sent hheard.keeps).subset
  obtain ⟨hacked, hcurrent⟩ := h.turn_acked hheard
  refine ⟨step_traced h.traced hfresh hprudent False.elim, h.inv, ?_, hcurrent, hacked, ?_, ?_,
    h.acks, h.frontiers, h.settled_nodup, ?_⟩
  · exact hfollows.maxPendingEvents.le.trans h.limit
  · intro id r hr
    obtain ⟨t, ht, hrest⟩ := h.records id r hr
    exact ⟨t, hsent ht, hrest⟩
  · intro n hpos hn
    obtain ⟨t, ht, hseq⟩ := h.covered n hpos hn
    exact ⟨t, hsent ht, hseq⟩
  · intro id hid
    obtain ⟨t, ht, hrest⟩ := h.settled id hid
    exact ⟨t, hsent ht, hrest⟩

/-! ### Steps of the server -/

/-- A later state of the server: what was settled stays so, and what it knows of was
transmitted. -/
structure Advances (s : System) (server : ClientDedupeWindow) : Prop where
  covered : ∀ n, Covered s.server n → Covered server n
  frontier : s.server.lastContiguousProcessedSeq ≤ server.lastContiguousProcessedSeq
  new : ∀ n, Covered server n → Covered s.server n ∨ ∃ t ∈ s.client.sent, t.event.eventSeq = n
  records : ∀ (id : EventId) (r : EventRecord), server.seenIds[id]? = some r →
    ∃ t ∈ s.client.sent, t.event.eventId = id ∧ t.event.eventSeq = r.eventSeq ∧
      wireType t.event = r.eventType

theorem Linked.advance (h : Linked maxEntries s) {server : ClientDedupeWindow}
    (hinv : WindowInv maxEntries server) (hadvances : Advances s server) :
    Linked maxEntries { s with server := server } where
  traced := h.traced
  inv := hinv
  limit := h.limit
  current_le := h.current_le
  acked := fun n hn => hadvances.covered n (h.acked n hn)
  records := hadvances.records
  covered := by
    intro n hpos hn
    rcases hadvances.new n hn with hold | hsent
    · exact h.covered n hpos hold
    · exact hsent
  acks := by
    intro issued hissued
    obtain ⟨hcovered, hle⟩ := h.acks issued hissued
    exact ⟨hadvances.covered _ hcovered, Nat.le_trans hle hadvances.frontier⟩
  frontiers := fun f hf => Nat.le_trans (h.frontiers f hf) hadvances.frontier
  settled_nodup := h.settled_nodup
  settled := by
    intro id hid
    obtain ⟨t, ht, heq, hcovered⟩ := h.settled id hid
    exact ⟨t, ht, heq, hadvances.covered _ hcovered⟩

theorem Linked.acknowledge (h : Linked maxEntries s) {event : Event} {throughSeq : Nat}
    (hcovered : Covered s.server event.eventSeq)
    (hle : throughSeq ≤ s.server.lastContiguousProcessedSeq) :
    Linked maxEntries { s with acks := s.acks ++ [⟨event, throughSeq⟩] } := by
  refine { h with acks := ?_ }
  intro issued hissued
  rcases List.mem_append.mp hissued with hold | hnew
  · exact h.acks issued hold
  · rw [List.mem_singleton.mp hnew]
    exact ⟨hcovered, hle⟩

theorem replayOutcome_duplicate {w : ClientDedupeWindow} {r : EventRecord} {seq : Nat}
    {ty : EventType} {prior : EventOutcomeRecord} {throughSeq : Nat}
    (h : EventDedupe.Windows.replayOutcome w r seq ty = .ok (.duplicate prior throughSeq)) :
    throughSeq = w.lastContiguousProcessedSeq ∧
      ∃ outcome, r = .settled seq r.eventType outcome := by
  rw [EventDedupe.Windows.replayOutcome.eq_def] at h
  split at h
  · cases h
  rename_i hseq
  have hsame : seq = r.eventSeq := not_not.mp hseq
  split at h
  · cases h
  rcases r with ⟨recorded, ty'⟩ | ⟨recorded, ty', outcome⟩
  · cases h
  · cases h
    exact ⟨rfl, _, by rw [hsame]; rfl⟩

section

variable (h : Linked maxEntries s)

include h

theorem Linked.deliver (hpos : 1 ≤ maxEntries) {event : Event} (hsent : Transmitted s event) :
    Linked maxEntries (step encodes maxEntries s (.deliver event)) := by
  have hinv := EventDedupe.WindowInvariant.admit_windowInv h.inv hpos event.eventId event.eventSeq
    (wireType event)
  have hcases := EventDedupe.WindowInvariant.admit_cases h.inv hpos event.eventId event.eventSeq
    (wireType event)
  have hadmitted : Linked maxEntries
      { s with server := (admitEvent maxEntries s.server event).1 } := by
    refine h.advance hinv ⟨?_, ?_, ?_, ?_⟩
    · intro n hn
      exact (EventDedupe.WindowInvariant.admit_covered h.inv hpos _ _ _ n).mpr hn
    · exact (EventDedupe.WindowInvariant.admit_frontier h.inv hpos _ _ _).ge
    · intro n hn
      exact Or.inl ((EventDedupe.WindowInvariant.admit_covered h.inv hpos _ _ _ n).mp hn)
    · intro id r hr
      rw [admitEvent] at hr
      rcases hcases with ⟨held, -, heq⟩ | ⟨-, -, e, -, heq⟩ | ⟨-, heq⟩
      · rw [heq] at hr
        exact h.records id r hr
      · rw [heq] at hr
        exact h.records id r hr
      · rw [heq, EventDedupe.WindowInvariant.fileInFlight_lookup] at hr
        split at hr
        · rename_i hid
          cases hr
          obtain ⟨t, ht, rfl⟩ := hsent
          exact ⟨t, ht, hid, rfl, rfl⟩
        · have hmade := EventDedupe.WindowInvariant.makeSpace_spaceMade s.server.seenIds.size h.inv
          exact h.records id r (hmade.kept id r hr)
  rw [step]
  split
  · rename_i server prior throughSeq hduplicate
    have hserver : (admitEvent maxEntries s.server event).1 = server :=
      congrArg Prod.fst hduplicate
    have hanswer := congrArg Prod.snd hduplicate
    rw [hserver] at hadmitted
    rw [admitEvent] at hanswer hserver
    rcases hcases with ⟨r, hr, heq⟩ | ⟨-, -, e, -, heq⟩ | ⟨-, heq⟩
    · rw [heq] at hanswer hserver
      obtain ⟨hthrough, outcome, hsettled⟩ := replayOutcome_duplicate hanswer
      rw [hsettled] at hr
      simp only at hserver
      have hcovered : Covered server event.eventSeq := by
        rw [← hserver]
        exact h.inv.covered_of_settled hr
      refine hadmitted.acknowledge hcovered ?_
      rw [hthrough, hserver]
    · rw [heq] at hanswer
      cases hanswer
    · rw [heq] at hanswer
      cases hanswer
  · rename_i server answer _ hanswer
    have hserver : (admitEvent maxEntries s.server event).1 = server := congrArg Prod.fst hanswer
    rw [hserver] at hadmitted
    exact hadmitted

theorem Linked.settle {event : Event} (outcome : EventOutcomeRecord) (hsent : Transmitted s event) :
    Linked maxEntries (step encodes maxEntries s (.settle event outcome)) := by
  rw [step]
  split
  swap
  · exact h
  rename_i seq ty hrecord
  obtain ⟨own, hown, hid, hseq, -⟩ := h.records _ _ hrecord
  obtain ⟨t, ht, rfl⟩ := hsent
  have hevent : own.event = t.event := h.same_event hown ht hid
  have hseq : t.event.eventSeq = seq := hevent ▸ hseq
  obtain ⟨hsettled, -⟩ := EventDedupe.WindowInvariant.settle_inFlight h.inv outcome hrecord
  have hcovered : Covered (EventDedupe.Windows.settle s.server t.event.eventId outcome).1
      t.event.eventSeq := (hsettled.covered_iff _).mpr (Or.inr hseq)
  have hadvanced : Linked maxEntries { s with
      server := (EventDedupe.Windows.settle s.server t.event.eventId outcome).1 } := by
    refine h.advance (EventDedupe.WindowInvariant.settle_windowInv h.inv _ outcome) ⟨?_, ?_, ?_, ?_⟩
    · intro n hn
      exact (hsettled.covered_iff n).mpr (Or.inl hn)
    · exact hsettled.frontier_le
    · intro n hn
      rcases (hsettled.covered_iff n).mp hn with hold | heq
      · exact Or.inl hold
      · exact Or.inr ⟨t, ht, hseq.trans heq.symm⟩
    · intro id r hr
      rw [hsettled.lookup] at hr
      split at hr
      · rename_i heq
        cases hr
        have hrecords := h.records _ _ hrecord
        rw [heq] at hrecords
        exact hrecords
      · exact h.records id r hr
  have hfresh : t.event.eventId ∉ s.settled := by
    intro hmem
    obtain ⟨u, hu, huid, hucovered⟩ := h.settled _ hmem
    rw [h.same_event hu ht huid, hseq] at hucovered
    exact h.inv.not_covered_of_inFlight hrecord hucovered
  have hthrough : (EventDedupe.Windows.settle s.server t.event.eventId outcome).2 ≤
      ClientDedupeWindow.lastContiguousProcessedSeq
        (EventDedupe.Windows.settle s.server t.event.eventId outcome).1 := by
    rw [EventDedupe.Windows.settle, hrecord]
  have hacknowledged := hadvanced.acknowledge hcovered hthrough
  refine { hacknowledged with settled_nodup := ?_, settled := ?_ }
  · refine List.nodup_append.mpr ⟨h.settled_nodup, List.nodup_singleton _, ?_⟩
    intro id hid other hother
    rw [List.mem_singleton.mp hother]
    rintro rfl
    exact hfresh hid
  · intro id hid
    rcases List.mem_append.mp hid with hold | hnew
    · exact hacknowledged.settled id hold
    · rw [List.mem_singleton.mp hnew]
      exact ⟨t, ht, rfl, hcovered⟩

theorem Linked.abandon (event : Event) :
    Linked maxEntries (step encodes maxEntries s (.abandon event)) := by
  refine h.advance (EventDedupe.WindowInvariant.abandon_windowInv h.inv _) ⟨?_, ?_, ?_, ?_⟩
  · intro n hn
    exact (EventDedupe.WindowInvariant.abandon_covered _ _ n).mpr hn
  · exact (EventDedupe.WindowInvariant.abandon_frontier _ _).ge
  · intro n hn
    exact Or.inl ((EventDedupe.WindowInvariant.abandon_covered _ _ n).mp hn)
  · intro id r hr
    rw [EventDedupe.Windows.abandon] at hr
    split at hr
    · simp only at hr
      rw [getElem?_drop] at hr
      split at hr
      · cases hr
      · exact h.records id r hr
    · exact h.records id r hr

theorem Linked.report :
    Linked maxEntries (step encodes maxEntries s .report) := by
  refine { h with frontiers := ?_ }
  intro f hf
  rcases List.mem_append.mp hf with hold | hnew
  · exact h.frontiers f hold
  · rw [List.mem_singleton.mp hnew]
    exact Nat.le_refl _

theorem Linked.step (hpos : 1 ≤ maxEntries) {act : Act} (hallowed : Allowed encodes s act) :
    Linked maxEntries (step encodes maxEntries s act) := by
  rcases act with turn | event | ⟨event, outcome⟩ | event | -
  · exact h.turn hallowed
  · exact h.deliver hpos hallowed
  · exact h.settle outcome hallowed
  · exact h.abandon event
  · exact h.report

end

/-! ### What the server answers -/

/-- The server takes the event: as fresh, as in flight, or as a duplicate. -/
def Accepted (maxEntries : Nat) (w : ClientDedupeWindow) (event : Event) : Prop :=
  ∃ outcome, (admitEvent maxEntries w event).2 = .ok outcome

theorem Linked.lastAcked_le (h : Linked maxEntries s) :
    s.client.window.lastAckedEventSeq ≤ s.server.lastContiguousProcessedSeq := by
  by_contra hlt
  have hcovered := h.acked (s.server.lastContiguousProcessedSeq + 1) (Or.inl (by omega))
  rcases hcovered with hle | hahead
  · omega
  · exact h.inv.gap hahead

theorem Linked.frontier_le (h : Linked maxEntries s) :
    s.server.lastContiguousProcessedSeq ≤ s.client.window.currentEventSeq := by
  rcases Nat.eq_zero_or_pos s.server.lastContiguousProcessedSeq with hzero | hpos
  · omega
  · obtain ⟨t, ht, hseq⟩ := h.covered _ hpos (Or.inl (Nat.le_refl _))
    exact hseq ▸ h.traced.sent_le t ht

variable {id : EventId} {e : Event}

section

variable (h : Linked maxEntries s)

include h

theorem Linked.held (he : s.client.window.pendingEvents[id]? = some e) {r : EventRecord}
    (hr : s.server.seenIds[e.eventId]? = some r) :
    Accepted maxEntries s.server e := by
  obtain ⟨t, ht, htid, htseq, htype⟩ := h.records _ r hr
  obtain ⟨i, hi⟩ := h.traced.own_sent t ht
  obtain ⟨j, hj⟩ := h.traced.own_pending id e he
  have hevent : t.event = e := h.traced.own_event hi hj htid
  rw [hevent] at htseq htype
  rw [Accepted, admitEvent, EventDedupe.Windows.admitToWindow, hr]
  simp only [EventDedupe.Windows.replayOutcome.eq_def]
  rw [if_neg (by simp [htseq]), if_neg (by simp [htype])]
  rcases r with ⟨seq, ty⟩ | ⟨seq, ty, outcome⟩
  · exact ⟨_, rfl⟩
  · exact ⟨_, rfl⟩

theorem Linked.unassigned (he : s.client.window.pendingEvents[id]? = some e)
    (hnone : s.server.seenIds[e.eventId]? = none) : s.server.idsBySeq[e.eventSeq]? = none := by
  rcases hassigned : s.server.idsBySeq[e.eventSeq]? with - | other
  · rfl
  · obtain ⟨-, r, hr, hseq⟩ := (h.inv.inverse _ other).mp hassigned
    obtain ⟨t, ht, htid, htseq, -⟩ := h.records other r hr
    have hsame := h.traced.sent_same t ht id e he (hseq.symm.trans htseq.symm)
    rw [htid] at hsame
    rw [← hsame, hnone] at hr
    cases hr

theorem Linked.accepted_above (hpos : 1 ≤ maxEntries)
    (he : s.client.window.pendingEvents[id]? = some e)
    (habove : s.server.lastContiguousProcessedSeq < e.eventSeq) :
    Accepted maxEntries s.server e := by
  rcases hrecord : s.server.seenIds[e.eventId]? with - | r
  swap
  · exact h.held he hrecord
  have hpending := h.traced.windowed.pending_mem id e he
  have hspan : s.client.window.currentEventSeq ≤
      s.client.window.lastAckedEventSeq + s.client.maxPendingEvents := h.traced.windowed.span_le
  have hacked := h.lastAcked_le
  have hlimit := h.limit
  have hcurrent := h.current_le
  have hle : e.eventSeq ≤ s.client.window.currentEventSeq := hpending.2.1
  have hadmissible : EventDedupe.WindowInvariant.Admissible maxEntries s.server e.eventId
      e.eventSeq := by
    refine ⟨hrecord, h.unassigned he hrecord, habove, ?_⟩
    rw [saturatingAdd]
    omega
  exact ⟨_, hadmissible.admit_fresh h.inv hpos (wireType e)⟩

theorem Linked.refused (hpos : 1 ≤ maxEntries) (he : s.client.window.pendingEvents[id]? = some e)
    (hrefused : ¬Accepted maxEntries s.server e) :
    e.eventSeq ≤ s.server.lastContiguousProcessedSeq ∧ s.server.seenIds[id]? = none ∧
      ∃ first last, (admitEvent maxEntries s.server e).2 =
        .error (.outsideReceiveWindow e.eventSeq first last) := by
  have hkey : e.eventId = id := h.traced.windowed.listed.keyed id e he
  have hbelow : e.eventSeq ≤ s.server.lastContiguousProcessedSeq := by
    by_contra habove
    exact hrefused (h.accepted_above hpos he (Nat.lt_of_not_le habove))
  have hnone : s.server.seenIds[e.eventId]? = none := by
    rcases hrecord : s.server.seenIds[e.eventId]? with - | r
    · rfl
    · exact absurd (h.held he hrecord) hrefused
  refine ⟨hbelow, hkey ▸ hnone, saturatingAdd s.server.lastContiguousProcessedSeq 1,
    saturatingAdd s.server.lastContiguousProcessedSeq maxEntries, ?_⟩
  have hfree : ¬s.server.idsBySeq.contains e.eventSeq = true := by
    rw [ExtTreeMap.contains_eq_isSome_getElem?, h.unassigned he hnone]
    simp
  rw [admitEvent, EventDedupe.Windows.admitToWindow, hnone]
  simp only
  rw [if_neg hfree, if_pos (Or.inr (Or.inl hbelow))]

theorem Linked.resumed (hpos : 1 ≤ maxEntries) (sessionId : String) (generation : Nat)
    (binding : ConnectionBinding) (sessionIncarnation : SessionIncarnation)
    (he : (adoptResumeFrontier s.client sessionId s.server.lastContiguousProcessedSeq generation
      binding sessionIncarnation).window.pendingEvents[id]? = some e) :
    Accepted maxEntries s.server e := by
  have hwindow : (adoptResumeFrontier s.client sessionId s.server.lastContiguousProcessedSeq
      generation binding sessionIncarnation).window =
      (acknowledgeEvents s.client.window s.server.lastContiguousProcessedSeq).1 :=
    window_acknowledgeEventsThrough (o := { s.client with activeSessionId := some sessionId }) _
  rw [hwindow] at he
  have hw : Windowed s.client.maxPendingEvents s.client.window := h.traced.windowed
  have hwas : s.client.window.pendingEvents[id]? = some e := acknowledgeEvents_lookup he
  refine h.accepted_above hpos hwas ?_
  have hlast := ((hw.acknowledgeEvents s.server.lastContiguousProcessedSeq).pending_mem id e he).1
  have hacked := h.lastAcked_le
  have hcurrent := h.frontier_le
  rcases Nat.lt_or_eq_of_le hacked with hlt | heq
  · have hmoved : s.server.lastContiguousProcessedSeq ≤ (acknowledgeEvents s.client.window
        s.server.lastContiguousProcessedSeq).1.lastAckedEventSeq := by
      rw [acknowledgeEvents, if_pos ⟨hlt, hcurrent⟩]
      exact Srui.Basic.Ledgers.le_advance _ _ _
    omega
  · exact heq ▸ (hw.pending_mem id e hwas).1

end

/-! ### Runs -/

/-- How outbox and window fit: nothing is acknowledged that was not settled, nothing is
settled twice, and a retained event that the server refuses was settled already. -/
structure Compatible (maxEntries : Nat) (s : System) : Prop where
  lastAcked_le : s.client.window.lastAckedEventSeq ≤ s.server.lastContiguousProcessedSeq
  pending : ∀ (id : EventId) (e : Event), s.client.window.pendingEvents[id]? = some e →
    Accepted maxEntries s.server e ∨
      (e.eventSeq ≤ s.server.lastContiguousProcessedSeq ∧ s.server.seenIds[id]? = none ∧
        ∃ first last, (admitEvent maxEntries s.server e).2 =
          .error (.outsideReceiveWindow e.eventSeq first last))
  resumed : ∀ sessionId generation binding sessionIncarnation (id : EventId) (e : Event),
    (adoptResumeFrontier s.client sessionId s.server.lastContiguousProcessedSeq generation
        binding sessionIncarnation).window.pendingEvents[id]? = some e →
      Accepted maxEntries s.server e
  settled_once : s.settled.Nodup

theorem Linked.compatible (h : Linked maxEntries s) (hpos : 1 ≤ maxEntries) :
    Compatible maxEntries s where
  lastAcked_le := h.lastAcked_le
  pending := by
    intro id e he
    rcases Classical.em (Accepted maxEntries s.server e) with haccepted | hrefused
    · exact Or.inl haccepted
    · exact Or.inr (h.refused hpos he hrefused)
  resumed := fun sessionId generation binding sessionIncarnation _ _ he =>
    h.resumed hpos sessionId generation binding sessionIncarnation he
  settled_once := h.settled_nodup

theorem exactly_once_settlement (encodes : Event → Bool) (clientInstanceId : ClientInstanceId)
    (maxPendingEvents : Int) (maxEntries : Nat) (hlimit : max 1 maxPendingEvents ≤ maxEntries)
    (acts : List Act)
    (hrun : EveryStep (step encodes maxEntries) (Allowed encodes)
      { client := EventOutbox.new clientInstanceId maxPendingEvents } acts) :
    EveryState (step encodes maxEntries) (Compatible maxEntries)
      { client := EventOutbox.new clientInstanceId maxPendingEvents } acts := by
  have hpos : 1 ≤ maxEntries := by omega
  have hlinked : EveryState (step encodes maxEntries) (Linked maxEntries)
      { client := EventOutbox.new clientInstanceId maxPendingEvents } acts := by
    refine hrun.everyState ?_ (linked_new clientInstanceId hlimit)
    intro s act h hallowed
    exact h.step hpos hallowed
  exact EveryState.mono (fun s h => h.compatible hpos) hlinked

/-! ### A run over three connections -/

def activation (n : UInt8) (binding : ConnectionBinding) : Act :=
  .turn (.allocateAndSend .activate 0 1 binding ⟨binding, 0⟩ [n])

def activated (n : UInt8) : Event := EventDraft.activate.makeEvent [9] 0 1 [n] n.toNat

def writeOut (task : Nat) : List Act :=
  [.turn (.runWrite task), .turn (.transportSendEnded task true)]

/-- A reconnect that reports the frontier 0 and replays two events through `task`. -/
def resume (binding generation transitionEpoch task : Nat) : List Act :=
  let preparation : SameSessionResumePreparation :=
    ⟨"s", generation, binding, ⟨binding, 0⟩, [], []⟩
  [.turn (.beginConnectionBinding binding),
    .turn (.activateConnectionBinding binding transitionEpoch),
    .turn (.beginResumeAttempt binding), .report,
    .turn (.prepareSameSessionResume "s" 0 generation binding ⟨binding, 0⟩ none false),
    .turn (.replayPreparation preparation)] ++ writeOut task ++ writeOut task ++
    [.turn (.runWrite task), .turn (.completeSameSessionResume preparation true task)]

def accepted : EventOutcomeRecord := ⟨true, 0, ""⟩

/-- The first connection delivers event 1, whose handler is slow. The second delivers both;
the handler of event 1 panics while that of event 2 still runs. -/
def panickingRun : List Act :=
  opening.map Act.turn ++ [activation 1 1, activation 2 1] ++ writeOut 0 ++ writeOut 1 ++
    [.deliver (activated 1)] ++ resume 2 1 2 2 ++
    [.deliver (activated 1), .deliver (activated 2), .abandon (activated 1)]

/-- On the third connection event 1 is admitted behind event 2. The acknowledgement of
event 2 is lost, and event 3 takes the place of its record. -/
def evictingRun : List Act :=
  panickingRun ++ resume 3 2 4 3 ++
    [.deliver (activated 1), .settle (activated 1) accepted,
      .turn (.settleAcknowledgement 3 none ⟨[9], [1], some 1, 1, "s", none, false⟩),
      .deliver (activated 2), .settle (activated 2) accepted, activation 3 3] ++
    writeOut 4 ++ [.deliver (activated 3)]

theorem evictingRun_settles_once :
    EveryState (step (fun _ => true) 2) (Compatible 2) { client := EventOutbox.new [9] 2 }
        evictingRun ∧
      (run (step (fun _ => true) 2) { client := EventOutbox.new [9] 2 } evictingRun).settled =
        [[1], [2]] := by
  refine ⟨exactly_once_settlement (fun _ => true) [9] 2 2 (by decide) evictingRun ?_, ?_⟩
  · decide +kernel
  · decide +kernel

theorem pending_not_always_accepted :
    EveryStep (step (fun _ => true) 2) (Allowed fun _ => true)
        { client := EventOutbox.new [9] 2 } evictingRun ∧
      (let s := run (step (fun _ => true) 2) { client := EventOutbox.new [9] 2 } evictingRun
      s.client.window.pendingEvents[([2] : EventId)]? = some (activated 2) ∧
        (admitEvent 2 s.server (activated 2)).2 = .error (.outsideReceiveWindow 2 3 4)) := by
  refine ⟨?_, ?_⟩
  · decide +kernel
  · decide +kernel

end Srui.Exchange.EventExchanges

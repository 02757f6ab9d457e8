import Srui.Scheduling.LogicalChannels
import Srui.Sessiond.CoalescedDeltas
import Srui.Sessiond.Queues
import Srui.Sessiond.ResourceTransfers

/-!
One subscriber with both of its lanes, the queue of transactions and the queue of resource
transfers, from its subscription on.
-/

namespace Srui.Sessiond.OverflowedQueues

open Basic.Machine Basic.Runs Scheduling.LogicalChannels SemanticTree.Transactions SemanticTree.Wire
open SemanticTree.WireRoundTrip Resources.ResourceStores Sessiond.Outbound Sessiond.Coalescing
open Sessiond.Queues Sessiond.ResourceTransfers

inductive OutboundItem where
  | transaction (tx : WireTransaction)
  | resource (frame : ResourceOutboundFrame)

/-- `SubscriberState`, the queue of transactions with the rest of what its lock covers. -/
structure SubscriberLanes where
  state : SubscriberState
  maxResourceSize : Nat
  resources : ResourceTransferQueue := {}

def subscribed (capacity maxOps maxFrameSize maxResourceSize : Nat) : SubscriberLanes where
  state := ⟨capacity, maxOps, maxFrameSize, [], none, 0, none, false⟩
  maxResourceSize := maxResourceSize

namespace SubscriberLanes

variable (lanes : SubscriberLanes)

/-- One subscriber of `OutboundHub::publish`. -/
def publish (frameLen : WireTransaction → Nat) (tx : WireTransaction) :
    SubscriberLanes × Except OutboundRecvError Bool :=
  let result := offer frameLen tx lanes.state
  -- Only the overflow of a queue closes it here, and it clears the transfers with the queue.
  ({ lanes with
      state := result.1
      resources := if result.1.isClosed && !lanes.state.isClosed then {} else lanes.resources },
    result.2)

/-- One subscriber of `OutboundHub::publish_resource`. -/
def publishResource (entry : ResourceEntry) : SubscriberLanes :=
  if lanes.state.isClosed then lanes
  else if lanes.maxResourceSize < entry.encodedLength then lanes
  else { lanes with resources := lanes.resources.enqueue entry }

/-- `SubscriberState::pop_class`. -/
def popClass : LogicalChannelClass → Outcome Empty (SubscriberLanes × Option OutboundItem)
  | .ui =>
    let (state, tx) := popTransaction lanes.state
    .ok ({ lanes with state := state }, tx.map .transaction)
  | .resource => do
    let (resources, frame) ← lanes.resources.popFrame
    .ok ({ lanes with resources := resources }, frame.map .resource)
  | .control | .input | .terminalHigh | .terminalNormal => .ok (lanes, none)

/-- `OutboundReceiver::try_recv_class`. -/
def tryRecvClass (logicalClass : LogicalChannelClass) :
    Outcome Empty (SubscriberLanes × Except OutboundRecvError (Option OutboundItem)) :=
  match lanes.state.staleReason with
  | some reason => .ok (lanes, .error (.lagged reason))
  | none => do
    let (lanes, item) ← lanes.popClass logicalClass
    match item with
    | some item => .ok (lanes, .ok (some item))
    | none => .ok (lanes, if lanes.state.isClosed then .error .closed else .ok none)

/-- One subscriber of `OutboundHub::close`. -/
def hubClosed : SubscriberLanes := { lanes with state := { lanes.state with isClosed := true } }

def dropped : SubscriberLanes :=
  { lanes with
    state := clear { lanes.state with isClosed := true }
    resources := {} }

end SubscriberLanes

def Absorbable (frameLen : WireTransaction → Nat) (maxOps maxFrameSize : Nat)
    (last tx : WireTransaction) : Prop :=
  ∃ tail incoming merged, decodeTransaction last = .ok tail ∧
    decodeTransaction tx = .ok incoming ∧
    tryAbsorb frameLen tail incoming maxOps maxFrameSize = some merged

variable {frameLen : WireTransaction → Nat} {state : SubscriberState} {tx : WireTransaction}

/-- The cached tail, when present, is the decoded form of the last transaction. -/
def TailDecoded (state : SubscriberState) : Prop :=
  ∀ tail, state.tailDomain = some tail →
    ∃ last, state.items.getLast? = some last ∧ decodeTransaction last = .ok tail

theorem withTail_eq (h : TailDecoded state) {last : WireTransaction}
    (hlast : state.items.getLast? = some last) :
    withTail state = { state with tailDomain := toDomain last } := by
  rw [withTail]
  split
  · rename_i other hnone hother
    obtain rfl : other = last := Option.some.inj (hother.symm.trans hlast)
    rfl
  · rename_i hcached
    rcases hdomain : state.tailDomain with - | cached
    · exact absurd hlast (hcached last hdomain)
    · obtain ⟨other, hother, hdecode⟩ := h cached hdomain
      obtain rfl : other = last := Option.some.inj (hother.symm.trans hlast)
      rw [toDomain_eq_some.mpr hdecode, ← hdomain]

inductive Offered (frameLen : WireTransaction → Nat) (state : SubscriberState)
    (tx : WireTransaction) : SubscriberState × Except OutboundRecvError Bool → Prop where
  | absorbed {before : List WireTransaction} {last : WireTransaction} {merged : Transaction}
      (items : state.items = before ++ [last])
      (absorbable : Absorbable frameLen state.maxOps state.maxFrameSize last tx)
      (image : decodeTransaction (encodeTransaction merged) = .ok merged) :
      Offered frameLen state tx
        ({ state with
            items := before ++ [encodeTransaction merged]
            tailDomain := some merged }, .ok false)
  | queued {tail : Option Transaction} {peakDepth : Nat}
      (room : state.items.length < state.capacity)
      (decoded : ∀ incoming, tail = some incoming → decodeTransaction tx = .ok incoming) :
      Offered frameLen state tx
        ({ state with
            items := state.items ++ [tx]
            tailDomain := tail
            peakDepth := peakDepth }, .ok true)
  | overflowed {reason : String} (full : state.capacity ≤ state.items.length)
      (alone : ∀ last, state.items.getLast? = some last →
        ¬Absorbable frameLen state.maxOps state.maxFrameSize last tx) :
      Offered frameLen state tx
        (clear { state with staleReason := some reason, isClosed := true },
          .error (.lagged reason))

theorem push_offered {cached : Option Transaction} {incoming : Option Transaction}
    (halone : ∀ last, state.items.getLast? = some last →
      ¬Absorbable frameLen state.maxOps state.maxFrameSize last tx)
    (hdecoded : ∀ decoded, incoming = some decoded → decodeTransaction tx = .ok decoded) :
    Offered frameLen state tx (push { state with tailDomain := cached } tx incoming) := by
  rw [push]
  split
  · rename_i hfull
    exact .overflowed hfull halone
  · rename_i hroom
    exact .queued (Nat.not_le.mp hroom) hdecoded

theorem tryAbsorb_image {tail incoming merged : Transaction} {maxOps maxFrameSize : Nat}
    (h : tryAbsorb frameLen tail incoming maxOps maxFrameSize = some merged) :
    decodeTransaction (encodeTransaction merged) = .ok merged := by
  obtain ⟨_, _, _, -, -, hall, -⟩ := (tryAbsorb_some h).writes
  rw [decodeTransaction_encodeTransaction, imageTransaction_writes hall]

theorem not_absorbable {maxOps maxFrameSize : Nat} {last : WireTransaction}
    (h : ∀ tail incoming, toDomain last = some tail → toDomain tx = some incoming →
      tryAbsorb frameLen tail incoming maxOps maxFrameSize = none) :
    ¬Absorbable frameLen maxOps maxFrameSize last tx := by
  rintro ⟨tail, incoming, merged, htail, hincoming, hmerged⟩
  have hnone := h tail incoming (toDomain_eq_some.mpr htail) (toDomain_eq_some.mpr hincoming)
  rw [hmerged] at hnone
  cases hnone

theorem offer_offered (frameLen : WireTransaction → Nat) (tx : WireTransaction)
    (hlive : state.isClosed = false) (htail : TailDecoded state) :
    Offered frameLen state tx (offer frameLen tx state) := by
  have hopen : ¬state.isClosed = true := by simp [hlive]
  have hsame : { state with tailDomain := state.tailDomain } = state := rfl
  change Offered frameLen state tx
    (tryPushOrAbsorb state frameLen tx (if hasUnsentTail state then toDomain tx else none))
  rcases hlast : state.items.getLast? with - | last
  · -- An empty queue has nothing to merge into, and the transaction is not decoded.
    have hempty : state.items = [] := List.getLast?_eq_none_iff.mp hlast
    have hidle : ¬hasUnsentTail state = true := by simp [hasUnsentTail, hempty]
    rw [if_neg hidle]
    unfold tryPushOrAbsorb
    rw [if_neg hopen]
    have hpush : Offered frameLen state tx
        (push { state with tailDomain := state.tailDomain } tx none) :=
      push_offered (fun last h => absurd (hlast.symm.trans h) nofun) nofun
    exact hsame ▸ hpush
  · obtain ⟨before, hitems⟩ := List.getLast?_eq_some_iff.mp hlast
    have hunsent : hasUnsentTail state = true := by simp [hasUnsentTail, hlive, hitems]
    have halone : (∀ tail incoming, toDomain last = some tail → toDomain tx = some incoming →
        tryAbsorb frameLen tail incoming state.maxOps state.maxFrameSize = none) →
        ∀ other, state.items.getLast? = some other →
          ¬Absorbable frameLen state.maxOps state.maxFrameSize other tx := by
      intro hnever other hother
      obtain rfl : last = other := Option.some.inj (hlast.symm.trans hother)
      exact not_absorbable hnever
    rw [if_pos hunsent]
    unfold tryPushOrAbsorb
    rw [if_neg hopen]
    rcases hincoming : toDomain tx with - | incoming
    · dsimp only
      have hpush : Offered frameLen state tx
          (push { state with tailDomain := state.tailDomain } tx none) :=
        push_offered
          (halone fun tail incoming _ hsome => absurd (hincoming.symm.trans hsome) nofun) nofun
      exact hsame ▸ hpush
    · have hdecoded : ∀ decoded, some incoming = some decoded →
          decodeTransaction tx = .ok decoded :=
        fun decoded hsome => toDomain_eq_some.mp (hincoming.trans hsome)
      dsimp only
      rw [withTail_eq htail hlast]
      dsimp only
      rw [hlast]
      rcases htailDomain : toDomain last with - | tail
      · exact push_offered
          (halone fun tail _ hsome _ => absurd (htailDomain.symm.trans hsome) nofun) hdecoded
      dsimp only
      rcases habsorb : tryAbsorb frameLen tail incoming state.maxOps state.maxFrameSize with
        - | merged
      · refine push_offered (halone fun tail' incoming' htail' hincoming' => ?_) hdecoded
        obtain rfl : tail = tail' := Option.some.inj (htailDomain.symm.trans htail')
        obtain rfl : incoming = incoming' := Option.some.inj (hincoming.symm.trans hincoming')
        exact habsorb
      · dsimp only
        rw [hitems, List.dropLast_concat]
        exact .absorbed hitems ⟨tail, incoming, merged, toDomain_eq_some.mp htailDomain,
          toDomain_eq_some.mp hincoming, habsorb⟩ (tryAbsorb_image habsorb)

/-! ### Runs -/

/-- A subscriber, and the reason of the first lag that an offer reported. -/
structure System where
  lanes : SubscriberLanes
  lagged : Option String := none

inductive Input where
  | publish (tx : WireTransaction)
  | publishResource (entry : ResourceEntry)
  | tryRecv (logicalClass : LogicalChannelClass)
  | closeHub
  | dropReceiver

def lagOf : Except OutboundRecvError Bool → Option String
  | .error (.lagged reason) => some reason
  | _ => none

def step (frameLen : WireTransaction → Nat) (s : System) : Input → System
  | .publish tx =>
    let result := s.lanes.publish frameLen tx
    ⟨result.1, s.lagged.or (lagOf result.2)⟩
  | .publishResource entry => { s with lanes := s.lanes.publishResource entry }
  | .tryRecv logicalClass =>
    match s.lanes.tryRecvClass logicalClass with
    | .ok (lanes, _) => { s with lanes := lanes }
    | .error _ => s
  | .closeHub => { s with lanes := s.lanes.hubClosed }
  | .dropReceiver => { s with lanes := s.lanes.dropped }

structure Emptied (lanes : SubscriberLanes) : Prop where
  closed : lanes.state.isClosed = true
  items : lanes.state.items = []
  tail : lanes.state.tailDomain = none
  resources : lanes.resources = {}

structure Kept (capacity : Nat) (s : System) : Prop where
  configured : s.lanes.state.capacity = capacity
  bounded : s.lanes.state.items.length ≤ capacity
  tail : TailDecoded s.lanes.state
  lagged : s.lagged = s.lanes.state.staleReason
  emptied : ∀ reason, s.lanes.state.staleReason = some reason → Emptied s.lanes

theorem kept_subscribed (capacity maxOps maxFrameSize maxResourceSize : Nat) :
    Kept capacity { lanes := subscribed capacity maxOps maxFrameSize maxResourceSize } :=
  ⟨rfl, Nat.zero_le capacity, nofun, rfl, nofun⟩

variable {capacity : Nat} {s : System}

variable {lanes : SubscriberLanes}

theorem publish_closed (hclosed : lanes.state.isClosed = true) (frameLen : WireTransaction → Nat)
    (tx : WireTransaction) :
    lanes.publish frameLen tx = (lanes, match lanes.state.staleReason with
      | some reason => .error (.lagged reason)
      | none => .error .closed) := by
  have hoffer : offer frameLen tx lanes.state = (lanes.state, match lanes.state.staleReason with
      | some reason => .error (.lagged reason)
      | none => .error .closed) := by
    rw [offer]
    unfold tryPushOrAbsorb
    rw [if_pos hclosed]
    rcases lanes.state.staleReason with - | reason <;> rfl
  rw [SubscriberLanes.publish, hoffer]
  simp [hclosed]

theorem Kept.publish (h : Kept capacity s) (frameLen : WireTransaction → Nat)
    (tx : WireTransaction) : Kept capacity (step frameLen s (.publish tx)) := by
  rw [step]
  cases hclosed : s.lanes.state.isClosed with
  | true =>
    rw [publish_closed hclosed]
    refine ⟨h.configured, h.bounded, h.tail, ?_, h.emptied⟩
    dsimp only
    rw [h.lagged]
    rcases s.lanes.state.staleReason with - | reason <;> rfl
  | false =>
    have hfresh : s.lanes.state.staleReason = none := by
      rw [Option.eq_none_iff_forall_ne_some]
      intro reason hstale
      rw [(h.emptied reason hstale).closed] at hclosed
      cases hclosed
    have hoffered := offer_offered frameLen tx hclosed h.tail
    rw [SubscriberLanes.publish]
    generalize offer frameLen tx s.lanes.state = result at hoffered
    cases hoffered with
    | @absorbed before last merged hitems habsorbable himage =>
      refine ⟨h.configured, ?_, ?_, ?_, ?_⟩
      · have hbounded := h.bounded
        rw [hitems] at hbounded
        simpa using hbounded
      · rintro tail ⟨⟩
        exact ⟨encodeTransaction merged, List.getLast?_concat, himage⟩
      · exact (Option.or_none).trans h.lagged
      · exact fun reason hstale => absurd (hfresh.symm.trans hstale) nofun
    | @queued tail peakDepth hroom hdecoded =>
      refine ⟨h.configured, ?_, ?_, ?_, ?_⟩
      · rw [h.configured] at hroom
        simpa using hroom
      · intro decoded htail
        exact ⟨tx, List.getLast?_concat, hdecoded decoded htail⟩
      · exact (Option.or_none).trans h.lagged
      · exact fun reason hstale => absurd (hfresh.symm.trans hstale) nofun
    | @overflowed reason hfull halone =>
      refine ⟨h.configured, Nat.zero_le capacity, nofun, ?_, ?_⟩
      · change s.lagged.or (some reason) = some reason
        rw [h.lagged, hfresh]
        rfl
      · rintro other -
        refine ⟨rfl, rfl, rfl, ?_⟩
        dsimp only
        rw [hclosed]
        rfl

theorem Kept.publishResource (h : Kept capacity s) (entry : ResourceEntry) :
    Kept capacity { s with lanes := s.lanes.publishResource entry } := by
  rw [SubscriberLanes.publishResource]
  split
  · exact h
  rename_i hopen
  split
  · exact h
  · refine ⟨h.configured, h.bounded, h.tail, h.lagged, ?_⟩
    intro reason hstale
    exact absurd (h.emptied reason hstale).closed hopen

theorem TailDecoded.pop (h : TailDecoded state) : TailDecoded (popTransaction state).1 := by
  rw [popTransaction]
  split
  · exact h
  rename_i item rest hitems
  intro tail htail
  dsimp only at htail ⊢
  split at htail
  · cases htail
  · rename_i hmore
    obtain ⟨last, hlast, hdecode⟩ := h tail htail
    refine ⟨last, ?_, hdecode⟩
    obtain ⟨next, more, rfl⟩ := List.exists_cons_of_ne_nil hmore
    rw [hitems, List.getLast?_cons_cons] at hlast
    exact hlast

theorem popTransaction_kept (state : SubscriberState) :
    (popTransaction state).1.capacity = state.capacity ∧
      (popTransaction state).1.items.length ≤ state.items.length ∧
      (popTransaction state).1.staleReason = state.staleReason := by
  rw [popTransaction]
  split
  · exact ⟨rfl, Nat.le_refl _, rfl⟩
  · rename_i item rest hitems
    refine ⟨rfl, ?_, rfl⟩
    rw [hitems]
    exact Nat.le_succ _

theorem Kept.tryRecv (h : Kept capacity s) {logicalClass : LogicalChannelClass}
    {item : Except OutboundRecvError (Option OutboundItem)}
    (hrecv : s.lanes.tryRecvClass logicalClass = .ok (lanes, item)) :
    Kept capacity { s with lanes := lanes } := by
  rw [SubscriberLanes.tryRecvClass] at hrecv
  rcases hstale : s.lanes.state.staleReason with - | reason
  · -- Only what was popped is taken off, and nothing has overflowed.
    have hpopped : ∀ popped item, s.lanes.popClass logicalClass = .ok (popped, item) →
        Kept capacity { s with lanes := popped } := by
      intro popped item hpop
      have hui : Kept capacity
          { s with lanes := { s.lanes with state := (popTransaction s.lanes.state).1 } } := by
        obtain ⟨hcapacity, hlength, hreason⟩ := popTransaction_kept s.lanes.state
        refine ⟨hcapacity.trans h.configured, hlength.trans h.bounded, h.tail.pop,
          h.lagged.trans hreason.symm, ?_⟩
        intro reason hsome
        exact absurd ((hreason.trans hstale).symm.trans hsome) nofun
      cases logicalClass with
      | ui =>
        cases hpop
        exact hui
      | resource =>
        rw [SubscriberLanes.popClass] at hpop
        rcases hframe : s.lanes.resources.popFrame with fault | ⟨resources, frame⟩
        · rw [hframe] at hpop
          cases hpop
        · rw [hframe] at hpop
          cases hpop
          refine ⟨h.configured, h.bounded, h.tail, h.lagged, ?_⟩
          exact fun reason hsome => absurd (hstale.symm.trans hsome) nofun
      | control | input | terminalHigh | terminalNormal =>
        cases hpop
        exact h
    rw [hstale] at hrecv
    dsimp only at hrecv
    rcases hpop : s.lanes.popClass logicalClass with fault | ⟨popped, taken⟩
    · rw [hpop] at hrecv
      cases hrecv
    · rw [hpop] at hrecv
      rcases taken with - | taken <;> cases hrecv <;> exact hpopped _ _ hpop
  · rw [hstale] at hrecv
    cases hrecv
    exact h

theorem Kept.step (h : Kept capacity s) (frameLen : WireTransaction → Nat) (input : Input) :
    Kept capacity (OverflowedQueues.step frameLen s input) := by
  cases input with
  | publish tx => exact h.publish frameLen tx
  | publishResource entry => exact h.publishResource entry
  | tryRecv logicalClass =>
    rw [OverflowedQueues.step]
    split
    · rename_i lanes item hrecv
      exact h.tryRecv hrecv
    · exact h
  | closeHub =>
    refine ⟨h.configured, h.bounded, h.tail, h.lagged, ?_⟩
    intro reason hstale
    obtain ⟨-, hitems, htail, hresources⟩ := h.emptied reason hstale
    exact ⟨rfl, hitems, htail, hresources⟩
  | dropReceiver =>
    exact ⟨h.configured, Nat.zero_le capacity, nofun, h.lagged, fun _ _ => ⟨rfl, rfl, rfl, rfl⟩⟩

/-- What a subscriber is like at any time: its queue is bounded and the cached tail is that of
its last transaction; a full queue that cannot absorb a transaction overflows, and nothing else
does; and once it overflowed it is empty, whatever is received or offered reports the lag, and
nothing changes it. -/
structure Bounded (frameLen : WireTransaction → Nat) (capacity : Nat) (s : System) : Prop where
  bounded : s.lanes.state.items.length ≤ capacity
  tail : TailDecoded s.lanes.state
  overflows : ∀ tx, s.lagged = none →
    ((lagOf (s.lanes.publish frameLen tx).2).isSome = true ↔
      s.lanes.state.isClosed = false ∧ s.lanes.state.items.length = capacity ∧
        ∀ last, s.lanes.state.items.getLast? = some last →
          ¬Absorbable frameLen s.lanes.state.maxOps s.lanes.state.maxFrameSize last tx)
  emptied : ∀ reason, s.lagged = some reason → Emptied s.lanes
  popped : ∀ reason, s.lagged = some reason → ∀ logicalClass,
    s.lanes.popClass logicalClass = .ok (s.lanes, none) ∧
      s.lanes.tryRecvClass logicalClass = .ok (s.lanes, .error (.lagged reason))
  pushed : ∀ reason, s.lagged = some reason → ∀ tx,
    s.lanes.publish frameLen tx = (s.lanes, .error (.lagged reason))

theorem Kept.overflows (h : Kept capacity s) (hlagged : s.lagged = none) (tx : WireTransaction) :
    (lagOf (s.lanes.publish frameLen tx).2).isSome = true ↔
      s.lanes.state.isClosed = false ∧ s.lanes.state.items.length = capacity ∧
        ∀ last, s.lanes.state.items.getLast? = some last →
          ¬Absorbable frameLen s.lanes.state.maxOps s.lanes.state.maxFrameSize last tx := by
  cases hclosed : s.lanes.state.isClosed with
  | true =>
    rw [publish_closed hclosed, ← h.lagged, hlagged]
    exact ⟨nofun, nofun⟩
  | false =>
    have hoffered := offer_offered frameLen tx hclosed h.tail
    rw [SubscriberLanes.publish]
    generalize offer frameLen tx s.lanes.state = result at hoffered
    cases hoffered with
    | absorbed hitems habsorbable himage =>
      refine ⟨nofun, fun hfull => ?_⟩
      rw [hitems] at hfull
      exact absurd habsorbable (hfull.2.2 _ List.getLast?_concat)
    | queued hroom hdecoded =>
      refine ⟨nofun, fun hfull => ?_⟩
      rw [hfull.2.1, h.configured] at hroom
      exact absurd hroom (Nat.lt_irrefl capacity)
    | overflowed hfull halone =>
      rw [h.configured] at hfull
      exact ⟨fun _ => ⟨rfl, Nat.le_antisymm h.bounded hfull, halone⟩, fun _ => rfl⟩

theorem Emptied.popClass (h : Emptied lanes) (logicalClass : LogicalChannelClass) :
    lanes.popClass logicalClass = .ok (lanes, none) := by
  obtain ⟨state, maxResourceSize, resources⟩ := lanes
  obtain rfl : resources = {} := h.resources
  cases logicalClass with
  | ui =>
    have hitems : state.items = [] := h.items
    rw [SubscriberLanes.popClass, popTransaction, hitems]
    rfl
  | resource => rfl
  | control | input | terminalHigh | terminalNormal => rfl

theorem Kept.bounded_of (h : Kept capacity s) : Bounded frameLen capacity s := by
  have hstale : ∀ reason, s.lagged = some reason → s.lanes.state.staleReason = some reason :=
    fun reason hlagged => h.lagged.symm.trans hlagged
  refine ⟨h.bounded, h.tail, fun tx hlagged => h.overflows hlagged tx,
    fun reason hlagged => h.emptied reason (hstale reason hlagged), ?_, ?_⟩
  · intro reason hlagged logicalClass
    refine ⟨(h.emptied reason (hstale reason hlagged)).popClass logicalClass, ?_⟩
    rw [SubscriberLanes.tryRecvClass, hstale reason hlagged]
  · intro reason hlagged tx
    rw [publish_closed (h.emptied reason (hstale reason hlagged)).closed,
      hstale reason hlagged]

theorem overflow_terminal (frameLen : WireTransaction → Nat)
    (capacity maxOps maxFrameSize maxResourceSize : Nat) (inputs : List Input) :
    EveryState (step frameLen) (Bounded frameLen capacity)
      { lanes := subscribed capacity maxOps maxFrameSize maxResourceSize } inputs := by
  have hany : EveryStep (step frameLen) (fun _ _ => True)
      { lanes := subscribed capacity maxOps maxFrameSize maxResourceSize } inputs :=
    everyStep_of_forall (fun _ _ => trivial) _ inputs
  have hkept : EveryState (step frameLen) (Kept capacity)
      { lanes := subscribed capacity maxOps maxFrameSize maxResourceSize } inputs :=
    hany.everyState (fun s input h _ => h.step frameLen input)
      (kept_subscribed capacity maxOps maxFrameSize maxResourceSize)
  exact EveryState.mono (fun s h => h.bounded_of) hkept

end Srui.Sessiond.OverflowedQueues

import Srui.EventDedupe.Windows
import Srui.Sessiond.Sessions

/-!
Per-connection outbound transaction queues: scalar coalescing into the unsent
tail, bounded capacity, and the hub that publishes every commit to all of them.

The length of an encoded frame is computed by the protobuf runtime; it is a
parameter here, and nothing depends on what it returns. The queue of resource
frames shares the subscriber's lock but none of this state, and is left out.
-/

namespace Srui.Sessiond.Outbound

open Std SemanticTree.Values SemanticTree.Operations SemanticTree.Transactions SemanticTree.Wire
open EventDedupe.Windows Sessiond.Sessions

/-!
Coalescing.
-/

abbrev PropertyKey := NodeId × PropertyRef

abbrev KeyMap := PropertyKey → Option Nat

def indexOp (keyMap : KeyMap) (entry : Operation × Nat) : KeyMap :=
  match entry.1 with
  | .setProperty id property _ => Function.update keyMap (id, property) (some entry.2)
  | _ => keyMap

def isNewKey (keyMap : KeyMap) : Operation → Bool
  | .setProperty id property _ => (keyMap (id, property)).isNone
  | _ => false

def mergeOp (state : List Operation × KeyMap) (op : Operation) : List Operation × KeyMap :=
  match op with
  | .setProperty id property value =>
    match state.2 (id, property) with
    | some idx => (state.1.set idx (.setProperty id property value), state.2)
    | none =>
      (state.1 ++ [.setProperty id property value],
        Function.update state.2 (id, property) (some state.1.length))
  | _ => state

/-- `try_absorb`: the tail with `incoming` merged into it, or `none` when the two
may not be coalesced. -/
def tryAbsorb (frameLen : WireTransaction → Nat) (tail incoming : Transaction)
    (maxOps maxFrameSize : Nat) : Option Transaction :=
  if tail.priority ≠ incoming.priority then none
  else if tail.newRevision ≠ incoming.baseRevision then none
  else if isCoalesceable tail = false ∨ isCoalesceable incoming = false then none
  else
    let keyMap := tail.operations.zipIdx.foldl indexOp fun _ => none
    let newKeysCount := (incoming.operations.filter (isNewKey keyMap)).length
    if tail.operations.length + newKeysCount > maxOps then none
    else
      let merged : Transaction :=
        { baseRevision := tail.baseRevision
          newRevision := incoming.newRevision
          operations := (incoming.operations.foldl mergeOp (tail.operations, keyMap)).1
          priority := tail.priority }
      if frameLen (encodeTransaction merged) > maxFrameSize then none
      else some { tail with operations := merged.operations, newRevision := merged.newRevision }

/-!
One subscriber.
-/

inductive OutboundRecvError where
  | lagged (reason : String)
  | closed
deriving DecidableEq, Repr

structure SubscriberState where
  capacity : Nat
  maxOps : Nat
  maxFrameSize : Nat
  items : List WireTransaction
  tailDomain : Option Transaction
  peakDepth : Nat
  staleReason : Option String
  isClosed : Bool

/-- `to_domain`. -/
def toDomain (tx : WireTransaction) : Option Transaction :=
  match decodeTransaction tx with
  | .ok txn => some txn
  | .error _ => none

variable (state : SubscriberState)

/-- `SubscriberState::has_unsent_tail`. -/
def hasUnsentTail : Bool := !state.isClosed && !state.items.isEmpty

/-- `SubscriberState::pop_transaction`. -/
def popTransaction : SubscriberState × Option WireTransaction :=
  match state.items with
  | [] => (state, none)
  | item :: rest =>
    ({ state with items := rest
                  tailDomain := if rest = [] then none else state.tailDomain }, some item)

/-- `SubscriberState::clear`. -/
def clear : SubscriberState := { state with items := [], tailDomain := none }

/-- The end of `try_push_or_absorb`, when nothing was absorbed. -/
def push (tx : WireTransaction) (incomingDomain : Option Transaction) :
    SubscriberState × Except OutboundRecvError Bool :=
  if state.items.length ≥ state.capacity then
    let reason := "client queue exceeded bounded capacity of " ++ toString state.capacity ++
      " transactions without absorption"
    (clear { state with staleReason := some reason, isClosed := true }, .error (.lagged reason))
  else
    let state := { state with items := state.items ++ [tx], tailDomain := incomingDomain }
    ({ state with peakDepth := max state.peakDepth state.items.length }, .ok true)

/-- The cached tail, decoded now if it was queued while no decode was in hand. -/
def withTail : SubscriberState :=
  match state.tailDomain, state.items.getLast? with
  | none, some tail => { state with tailDomain := toDomain tail }
  | _, _ => state

/-- `SubscriberState::try_push_or_absorb`. -/
def tryPushOrAbsorb (frameLen : WireTransaction → Nat) (tx : WireTransaction)
    (incomingDomain : Option Transaction) : SubscriberState × Except OutboundRecvError Bool :=
  if state.isClosed then
    match state.staleReason with
    | some reason => (state, .error (.lagged reason))
    | none => (state, .error .closed)
  else
    match incomingDomain with
    | none => push state tx incomingDomain
    | some incoming =>
      let state := withTail state
      match state.items.getLast?, state.tailDomain with
      | some _, some tailDomain =>
        match tryAbsorb frameLen tailDomain incoming state.maxOps state.maxFrameSize with
        | some merged =>
          ({ state with items := state.items.dropLast ++ [encodeTransaction merged]
                        tailDomain := some merged }, .ok false)
        | none => push state tx incomingDomain
      | _, _ => push state tx incomingDomain

/-!
The hub. Each subscriber's state is shared with its receiver, which keeps it
after the hub has dropped the subscriber; the shared cells are `states`.
-/

/-- Clients whose queue overflowed, oldest first, with their peak depth. -/
structure StaleClientRegistry where
  order : List Bytes
  entries : ExtTreeMap Bytes Nat

/-- `MAX_TRACKED_STALE_CLIENTS`. -/
def maxTrackedStaleClients : Nat := 1024

/-- `StaleClientRegistry::mark`; the oldest clients over the bound are dropped. -/
def mark (registry : StaleClientRegistry) (clientInstanceId : Bytes) (peakDepth : Nat) :
    StaleClientRegistry :=
  match registry.entries[clientInstanceId]? with
  | some peak =>
    { registry with entries := registry.entries.insert clientInstanceId (max peak peakDepth) }
  | none =>
    let order := registry.order ++ [clientInstanceId]
    let evicted := order.take (order.length - maxTrackedStaleClients)
    { order := order.drop (order.length - maxTrackedStaleClients)
      entries := evicted.foldl (fun entries id => entries.erase id)
        (registry.entries.insert clientInstanceId peakDepth) }

/-- One registered connection; `notifyClosed` is set once its receiver is gone. -/
structure Subscriber where
  clientInstanceId : Bytes
  notifyClosed : Bool
  handle : Nat

structure OutboundHub where
  subscribers : List Subscriber
  states : Nat → SubscriberState
  nextHandle : Nat
  staleClients : StaleClientRegistry
  isClosed : Bool
  /-- Every subscriber has a cell of its own. -/
  distinct : (subscribers.map Subscriber.handle).Nodup
  fresh : ∀ sub ∈ subscribers, sub.handle < nextHandle

def liveSubscribers (hub : OutboundHub) : List Subscriber :=
  hub.subscribers.filter fun sub => !sub.notifyClosed && !(hub.states sub.handle).isClosed

theorem liveSubscribers_fresh (hub : OutboundHub) :
    ∀ sub ∈ liveSubscribers hub, sub.handle < hub.nextHandle :=
  fun sub hsub => hub.fresh sub (List.mem_of_mem_filter hsub)

theorem subscribe_distinct (hub : OutboundHub) (clientInstanceId : Bytes) :
    ((liveSubscribers hub ++ [Subscriber.mk clientInstanceId false hub.nextHandle]).map
      Subscriber.handle).Nodup := by
  rw [List.map_append, List.nodup_append]
  refine ⟨hub.distinct.sublist (List.filter_sublist.map _), by simp, ?_⟩
  intro old hold new hnew heq
  obtain ⟨sub, hsub, rfl⟩ := List.mem_map.mp hold
  obtain rfl := List.mem_singleton.mp hnew
  exact Nat.lt_irrefl _ (heq ▸ liveSubscribers_fresh hub sub hsub)

theorem subscribe_fresh (hub : OutboundHub) (clientInstanceId : Bytes) :
    ∀ sub ∈ liveSubscribers hub ++ [Subscriber.mk clientInstanceId false hub.nextHandle],
      sub.handle < hub.nextHandle + 1 := by
  intro sub hsub
  rcases List.mem_append.mp hsub with hold | hnew
  · exact Nat.lt_succ_of_lt (liveSubscribers_fresh hub sub hold)
  · obtain rfl := List.mem_singleton.mp hnew
    exact Nat.lt_succ_self _

/-- `OutboundHub::subscribe`; the handle stands for the receiver. -/
def subscribe (hub : OutboundHub) (clientInstanceId : Bytes)
    (capacity maxOps maxFrameSize : Nat) : Except SessionError (OutboundHub × Nat) :=
  if capacity = 0 then
    .error (.invalidConfiguration "outbound queue capacity must be positive")
  else if hub.isClosed then .error .outboundClosed
  else
    .ok ({ hub with
            subscribers := liveSubscribers hub ++ [⟨clientInstanceId, false, hub.nextHandle⟩]
            states := Function.update hub.states hub.nextHandle
              ⟨capacity, maxOps, maxFrameSize, [], none, 0, none, false⟩
            nextHandle := hub.nextHandle + 1
            distinct := subscribe_distinct hub clientInstanceId
            fresh := subscribe_fresh hub clientInstanceId }, hub.nextHandle)

/-- What a publish has done so far: the shared states, the subscribers kept, and
the clients to mark as stale. -/
structure PublishPass where
  states : Nat → SubscriberState
  kept : List Subscriber
  staleMarked : List (Bytes × Nat)

/-- What a publish does to one queue. The commit is decoded only for a subscriber
that has a tail it could be merged into. -/
def offer (frameLen : WireTransaction → Nat) (tx : WireTransaction) (state : SubscriberState) :
    SubscriberState × Except OutboundRecvError Bool :=
  let incoming := if hasUnsentTail state then toDomain tx else none
  tryPushOrAbsorb state frameLen tx incoming

def publishTo (frameLen : WireTransaction → Nat) (tx : WireTransaction) (pass : PublishPass)
    (sub : Subscriber) : PublishPass :=
  if sub.notifyClosed then pass
  else
    match offer frameLen tx (pass.states sub.handle) with
    | (state, .ok _) =>
      { pass with states := Function.update pass.states sub.handle state
                  kept := pass.kept ++ [sub] }
    | (state, .error (.lagged _)) =>
      { pass with states := Function.update pass.states sub.handle state
                  staleMarked := pass.staleMarked ++ [(sub.clientInstanceId, state.peakDepth)] }
    | (state, .error .closed) =>
      { pass with states := Function.update pass.states sub.handle state }

theorem publishTo_kept (frameLen : WireTransaction → Nat) (tx : WireTransaction)
    (pass : PublishPass) (sub : Subscriber) :
    (publishTo frameLen tx pass sub).kept = pass.kept ∨
      (publishTo frameLen tx pass sub).kept = pass.kept ++ [sub] := by
  unfold publishTo
  split
  · exact Or.inl rfl
  · split
    · exact Or.inr rfl
    · exact Or.inl rfl
    · exact Or.inl rfl

theorem publishAll_kept (frameLen : WireTransaction → Nat) (tx : WireTransaction)
    (subs : List Subscriber) (pass : PublishPass) :
    (subs.foldl (publishTo frameLen tx) pass).kept.Sublist (pass.kept ++ subs) := by
  induction subs generalizing pass with
  | nil => simp
  | cons sub rest ih =>
    rw [List.foldl_cons]
    refine (ih (publishTo frameLen tx pass sub)).trans ?_
    rcases publishTo_kept frameLen tx pass sub with hkept | hkept
    · rw [hkept]
      exact (List.sublist_cons_self sub rest).append_left pass.kept
    · rw [hkept, List.append_assoc]
      exact List.Sublist.refl _

def publishPass (frameLen : WireTransaction → Nat) (hub : OutboundHub) (tx : WireTransaction) :
    PublishPass := hub.subscribers.foldl (publishTo frameLen tx) ⟨hub.states, [], []⟩

theorem publishPass_sublist (frameLen : WireTransaction → Nat) (hub : OutboundHub)
    (tx : WireTransaction) : (publishPass frameLen hub tx).kept.Sublist hub.subscribers :=
  publishAll_kept frameLen tx hub.subscribers ⟨hub.states, [], []⟩

theorem publishPass_distinct (frameLen : WireTransaction → Nat) (hub : OutboundHub)
    (tx : WireTransaction) :
    ((publishPass frameLen hub tx).kept.map Subscriber.handle).Nodup :=
  hub.distinct.sublist ((publishPass_sublist frameLen hub tx).map _)

theorem publishPass_fresh (frameLen : WireTransaction → Nat) (hub : OutboundHub)
    (tx : WireTransaction) :
    ∀ sub ∈ (publishPass frameLen hub tx).kept, sub.handle < hub.nextHandle := by
  intro sub hsub
  exact hub.fresh sub ((publishPass_sublist frameLen hub tx).subset hsub)

/-- `OutboundHub::publish`. -/
def publish (frameLen : WireTransaction → Nat) (hub : OutboundHub) (tx : WireTransaction) :
    OutboundHub :=
  if hub.isClosed then hub
  else
    let pass := publishPass frameLen hub tx
    { hub with
      subscribers := pass.kept
      states := pass.states
      staleClients := pass.staleMarked.foldl (fun registry entry => mark registry entry.1 entry.2)
        hub.staleClients
      distinct := publishPass_distinct frameLen hub tx
      fresh := publishPass_fresh frameLen hub tx }

end Srui.Sessiond.Outbound

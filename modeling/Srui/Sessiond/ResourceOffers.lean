import Srui.Basic.Runs
import Srui.Sessiond.ResourceTransfers

/-!
Publications of resources against the subscriptions of a session.

A publication inserts under the session's lock and offers what it inserted to the subscribers in
a critical section of its own; a handshake subscribes and seeds under the session's lock. The
flag of the hub is read before the lock of its subscribers is taken, so a call may still act on
its old value. Which queues a transaction overflows is left to the step.
-/

namespace Srui.Sessiond.ResourceOffers

open SemanticTree.Values Resources.ResourceStores Sessiond.ResourceTransfers

/-- `known_resource_hashes`. -/
def knownResourceHashes (rawHashes : List Bytes) (limit : Nat) : List ResourceHash :=
  (rawHashes.take limit).filterMap fun raw =>
    if h : raw.length = 32 then some ⟨raw, h⟩ else none

/-- `ResourceStore::retained_entries`. -/
def retainedEntries (store : ResourceStore) : List ResourceEntry :=
  store.order.filterMap fun hash => store.entries[hash]?

structure Insertion where
  serial : Nat
  entry : ResourceEntry
deriving DecidableEq

/-- `SubscriberState`, and what there is to say of it: the hashes its client advertised, the
insertions it has seen (of what was retained when it subscribed, and later ones) and the
transfers it was given. -/
structure Lane where
  maxResourceSize : Nat := 0
  resources : ResourceTransferQueue := {}
  isClosed : Bool := false
  notifyClosed : Bool := false
  advertised : List Bytes := []
  subscribed : Bool := false
  seen : List Insertion := []
  enqueued : List ResourceEntry := []

namespace Lane

/-- `SubscriberState::maybe_enqueue_resource`. -/
def maybeEnqueueResource (lane : Lane) (entry : ResourceEntry) : Lane :=
  if lane.maxResourceSize < entry.encodedLength then lane
  else
    { lane with
      resources := lane.resources.enqueue entry
      enqueued :=
        if lane.resources.holds entry.hash then lane.enqueued else lane.enqueued ++ [entry] }

/-- The loop of `seed_resources_excluding`. -/
def seedExcluding (lane : Lane) (entries : List ResourceEntry)
    (knownHashes : List ResourceHash) : Lane :=
  entries.foldl
    (fun lane entry =>
      if entry.hash ∈ knownHashes then lane else lane.maybeEnqueueResource entry) lane

def close (lane : Lane) : Lane := { lane with isClosed := true, resources := {} }

def Offered (lane : Lane) (hash : ResourceHash) : Prop :=
  ∃ entry ∈ lane.enqueued, entry.hash = hash

/-- The client takes the entry and did not say that it has it. -/
def Wants (lane : Lane) (entry : ResourceEntry) : Prop :=
  entry.encodedLength ≤ lane.maxResourceSize ∧ entry.hash.bytes ∉ lane.advertised

instance (lane : Lane) (hash : ResourceHash) : Decidable (lane.Offered hash) :=
  inferInstanceAs (Decidable (∃ entry ∈ lane.enqueued, entry.hash = hash))

instance (lane : Lane) (entry : ResourceEntry) : Decidable (lane.Wants entry) :=
  inferInstanceAs (Decidable (_ ∧ _))

def see (lane : Lane) (insertion : Insertion) : Lane :=
  if lane.subscribed then { lane with seen := lane.seen ++ [insertion] } else lane

end Lane

/-- A session's resources and its hub. A handshake between its subscription and its seeding
holds the session's lock. `pending` are the insertions whose calls have not offered them yet,
`latest` the last insertion of a hash and `returned` what calls returned. -/
structure Server where
  resources : ResourceStore
  hubClosed : Bool := false
  subscribers : List Nat := []
  lanes : Nat → Lane := fun _ => {}
  nextHandle : Nat := 0
  bootstrap : Option Nat := none
  pending : List Insertion := []
  nextSerial : Nat := 0
  latest : ResourceHash → Nat := fun _ => 0
  returned : List ResourceEntry := []

inductive Section where
  | insert (bytes : Bytes) (protectedHashes : Finset ResourceHash)
  | offer (index : Nat) (sawOpen : Bool)
  | subscribe (advertised : List Bytes) (maxResourceSize : Nat) (sawOpen : Bool)
  | seed
  | popFrame (handle : Nat)
  | publishTransaction (full : List Nat)
  | dropReceiver (handle : Nat)
  | hangUp (handle : Nat)
  | closeHub
  | drainHub

namespace Server

variable (hashBytes : Bytes → ResourceHash)

def setLane (server : Server) (handle : Nat) (lane : Lane) : Server :=
  { server with lanes := Function.update server.lanes handle lane }

def onLane (server : Server) (handle : Nat) (f : Lane → Lane) : Server :=
  server.setLane handle (f (server.lanes handle))

def returns (server : Server) (entry : ResourceEntry) : Server :=
  { server with returned := server.returned ++ [entry] }

def retainedInsertions (server : Server) : List Insertion :=
  (retainedEntries server.resources).map fun entry => ⟨server.latest entry.hash, entry⟩

/-- The first critical section of `Session::publish_resource`: a call whose content is retained
returns right away. -/
def insert (server : Server) (bytes : Bytes) (protectedHashes : Finset ResourceHash) : Server :=
  let published := publishResourceProtecting hashBytes server.resources bytes protectedHashes
  match published.2 with
  | .error _ => server
  | .ok outcome =>
    if outcome.inserted then
      let insertion := ⟨server.nextSerial, outcome.entry⟩
      { server with
        resources := published.1
        lanes := fun handle => (server.lanes handle).see insertion
        pending := server.pending ++ [insertion]
        nextSerial := server.nextSerial + 1
        latest := Function.update server.latest outcome.hash server.nextSerial }
    else server.returns outcome.entry

def kept (server : Server) (handle : Nat) : Bool :=
  !(server.lanes handle).notifyClosed && !(server.lanes handle).isClosed

/-- `OutboundHub::publish_resource` past its flag. -/
def publishResource (server : Server) (entry : ResourceEntry) : Server :=
  { server with
    subscribers := server.subscribers.filter server.kept
    lanes := fun handle =>
      if handle ∈ server.subscribers ∧ server.kept handle then
        (server.lanes handle).maybeEnqueueResource entry
      else server.lanes handle }

/-- The second critical section of `Session::publish_resource`, for the call at an index. -/
def offer (server : Server) (index : Nat) (sawOpen : Bool) : Server :=
  match server.pending[index]? with
  | none => server
  | some insertion =>
    let server := { server with pending := server.pending.eraseIdx index }
    if server.hubClosed ∧ sawOpen = false then server.returns insertion.entry
    else (server.publishResource insertion.entry).returns insertion.entry

/-- `OutboundHub::subscribe` for a handshake that holds the session's lock. -/
def subscribe (server : Server) (advertised : List Bytes) (maxResourceSize : Nat)
    (sawOpen : Bool) : Server :=
  if server.hubClosed ∧ sawOpen = false then server
  else
    { server with
      subscribers := server.subscribers.filter server.kept ++ [server.nextHandle]
      lanes := Function.update server.lanes server.nextHandle { maxResourceSize, advertised }
      nextHandle := server.nextHandle + 1
      bootstrap := some server.nextHandle }

/-- `OutboundHub::seed_resources_excluding`, and the release of the session's lock. -/
def seed (server : Server) (handle : Nat) : Server :=
  let lane := server.lanes handle
  let seeded :=
    if handle ∈ server.subscribers ∧ lane.isClosed = false then
      lane.seedExcluding (retainedEntries server.resources)
        (knownResourceHashes lane.advertised server.resources.limits.maxEntries)
    else lane
  { server.setLane handle { seeded with subscribed := true, seen := server.retainedInsertions } with
    bootstrap := none }

def popFrame (server : Server) (handle : Nat) : Server :=
  match (server.lanes handle).resources.popFrame with
  | .error _ => server
  | .ok (resources, _) => server.onLane handle fun lane => { lane with resources }

/-- The pass of `OutboundHub::publish` over the subscribers: a full queue is closed and emptied. -/
def publishTransaction (server : Server) (full : List Nat) : Server :=
  { server with
    subscribers := server.subscribers.filter fun handle =>
      server.kept handle && decide (handle ∉ full)
    lanes := fun handle =>
      if handle ∈ server.subscribers ∧ server.kept handle ∧ handle ∈ full then
        (server.lanes handle).close
      else server.lanes handle }

/-- The part of `OutboundHub::close` under the lock of the subscribers. -/
def drainHub (server : Server) : Server :=
  { server with
    subscribers := []
    lanes := fun handle =>
      if handle ∈ server.subscribers then { server.lanes handle with isClosed := true }
      else server.lanes handle }

def step (server : Server) : Section → Server
  | .insert bytes protectedHashes =>
    if server.bootstrap.isSome then server else server.insert hashBytes bytes protectedHashes
  | .offer index sawOpen => server.offer index sawOpen
  | .subscribe advertised maxResourceSize sawOpen =>
    if server.bootstrap.isSome then server
    else server.subscribe advertised maxResourceSize sawOpen
  | .seed => server.bootstrap.elim server server.seed
  | .popFrame handle => server.popFrame handle
  | .publishTransaction full =>
    if server.bootstrap.isSome then server else server.publishTransaction full
  | .dropReceiver handle =>
    if handle < server.nextHandle then server.onLane handle Lane.close else server
  | .hangUp handle =>
    if (server.lanes handle).isClosed then
      server.onLane handle fun lane => { lane with notifyClosed := true }
    else server
  | .closeHub => { server with hubClosed := true }
  | .drainHub => if server.hubClosed then server.drainHub else server

def initial (limits : ResourceLimits) : Server where
  resources := .withLimits limits

/-- A subscription that a handshake completed and nothing has ended. -/
def Live (server : Server) (handle : Nat) : Prop :=
  server.hubClosed = false ∧ (server.lanes handle).subscribed = true ∧
    (server.lanes handle).isClosed = false ∧ (server.lanes handle).notifyClosed = false

instance (server : Server) (handle : Nat) : Decidable (server.Live handle) :=
  inferInstanceAs (Decidable (_ ∧ _))

/-- Every live subscriber whose client takes what a call has returned was given it, if it was
retained when that subscribed or has been inserted since. -/
def PromisesKept (server : Server) : Prop :=
  ∀ handle < server.nextHandle, server.Live handle → ∀ entry ∈ server.returned,
    ∀ insertion ∈ (server.lanes handle).seen, insertion.entry.hash = entry.hash →
      (server.lanes handle).Wants entry → (server.lanes handle).Wants insertion.entry →
        (server.lanes handle).Offered entry.hash

/-- No subscriber was given an entry above its ceiling. -/
def CeilingsKept (server : Server) : Prop :=
  ∀ handle < server.nextHandle, ∀ entry ∈ (server.lanes handle).enqueued,
    entry.encodedLength ≤ (server.lanes handle).maxResourceSize

instance (server : Server) : Decidable server.PromisesKept :=
  inferInstanceAs (Decidable (∀ handle < server.nextHandle, server.Live handle →
    ∀ entry ∈ server.returned, ∀ insertion ∈ (server.lanes handle).seen,
      insertion.entry.hash = entry.hash → (server.lanes handle).Wants entry →
        (server.lanes handle).Wants insertion.entry → (server.lanes handle).Offered entry.hash))

/-- A call that finds its content retained does so after the call that inserted it has made its
offer; and what a call has returned before is inserted again only while every live subscriber
that takes it has been given it. -/
def Careful (server : Server) : Section → Prop
  | .insert bytes _ =>
    (∀ entry ∈ server.resources.entries[hashBytes bytes]?,
      ⟨server.latest (hashBytes bytes), entry⟩ ∉ server.pending) ∧
    (server.resources.entries[hashBytes bytes]? = none →
      ∀ entry ∈ server.returned, entry.hash = hashBytes bytes →
        ∀ handle < server.nextHandle, server.Live handle → (server.lanes handle).Wants entry →
          (server.lanes handle).Offered entry.hash)
  | _ => True

instance decidableCareful (server : Server) :
    ∀ entered, Decidable (Careful hashBytes server entered)
  | .insert _ _ => inferInstanceAs (Decidable ((∀ entry ∈ (_ : Option ResourceEntry), _) ∧
      (_ → ∀ entry ∈ server.returned, entry.hash = _ → ∀ handle < server.nextHandle,
        server.Live handle → (server.lanes handle).Wants entry → _)))
  | .offer _ _ | .subscribe _ _ _ | .seed | .popFrame _ | .publishTransaction _
  | .dropReceiver _ | .hangUp _ | .closeHub | .drainHub => isTrue trivial

end Server

end Srui.Sessiond.ResourceOffers

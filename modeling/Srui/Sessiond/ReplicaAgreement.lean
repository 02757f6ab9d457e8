import Srui.Basic.Spans
import Srui.Sessiond.Hubs

/-!
A replica fed from one subscriber's queue, under any interleaving of commits and
pops.
-/

namespace Srui.Sessiond.ReplicaAgreement

open Basic.Machine Basic.Runs Basic.Spans SemanticTree.Limits SemanticTree.Values
open SemanticTree.Stores SemanticTree.Operations SemanticTree.OperationEffects
open SemanticTree.Transactions SemanticTree.Wire SemanticTree.WireRoundTrip SemanticTree.Replay
open EventDedupe.Windows Sessiond.Sessions Sessiond.Outbound Sessiond.Queues Sessiond.Hubs

structure Delivery where
  tx : WireTransaction
  outcome : Outcome TxnError Revision
  replica : SemanticStore

/-- The authoritative store with all its past states, the hub, and the replica
of the subscriber that is watched. -/
structure Replication where
  store : SemanticStore
  history : List SemanticStore
  hub : OutboundHub
  replica : SemanticStore
  deliveries : List Delivery

inductive Input where
  | commit (commit : AuthoritativeCommit)
  | pop

/-- The hub after the receiver of `handle` took a transaction out of its queue. -/
def setState (hub : OutboundHub) (handle : Nat) (state : SubscriberState) : OutboundHub :=
  { hub with states := Function.update hub.states handle state }

/-- A commit the store accepts is published under the lock that ordered it; a
popped transaction goes to the replica. -/
def step (frameLen : WireTransaction → Nat) (own : Nat) (sys : Replication) :
    Input → Replication
  | .commit commit =>
    match applyAuthoritative sys.store commit with
    | (store, .ok _) =>
      { sys with store := store
                 history := sys.history ++ [store]
                 hub := publish frameLen sys.hub (encodeTransaction commit.txn) }
    | (_, .error _) => sys
  | .pop =>
    match popTransaction (sys.hub.states own) with
    | (state, some tx) =>
      let result := applyDeliveredTransaction sys.replica tx
      { sys with hub := setState sys.hub own state
                 replica := result.1
                 deliveries := sys.deliveries ++ [⟨tx, result.2, result.1⟩] }
    | (_, none) => sys

/-- Every operation the store accepts can travel on the wire. -/
def Travels (sys : Replication) : Input → Prop
  | .commit commit => (∃ revision, (applyAuthoritative sys.store commit).2 = .ok revision) →
      ∀ op ∈ commit.txn.operations, WireSafe op
  | .pop => True

/-- The first transaction is based on `r`, and each next one on the revision the
one before it made: no gap and no duplicate. -/
def Linked (r : Revision) (txs : List WireTransaction) : Prop :=
  Abutting WireTransaction.baseRevision WireTransaction.newRevision r txs ∧
    ∀ tx ∈ txs, tx.baseRevision < tx.newRevision

structure Agreement (frameLen : WireTransaction → Nat) (own : Nat) (start : Revision)
    (sys : Replication) : Prop where
  chain : Linked start (sys.deliveries.map Delivery.tx)
  accepted : ∀ d ∈ sys.deliveries, d.outcome = .ok d.tx.newRevision ∧
    storeAt sys.history d.tx.newRevision = some d.replica
  drained : (sys.hub.states own).staleReason = none →
    (run (step frameLen own) sys
      (List.replicate (sys.hub.states own).items.length .pop)).replica = sys.store

/-!
Chains of revisions.
-/

def endOf (r : Revision) (txs : List WireTransaction) : Revision :=
  reach WireTransaction.newRevision r txs

theorem endOf_snoc (r : Revision) (txs : List WireTransaction) (tx : WireTransaction) :
    endOf r (txs ++ [tx]) = tx.newRevision := reach_append r txs [tx]

theorem Linked.snoc {r : Revision} {txs : List WireTransaction} {tx : WireTransaction}
    (h : Linked r txs) (hbase : tx.baseRevision = endOf r txs)
    (hforward : endOf r txs < tx.newRevision) : Linked r (txs ++ [tx]) := by
  refine ⟨abutting_append.mpr ⟨h.1, hbase, trivial⟩, ?_⟩
  intro other hother
  rcases List.mem_append.mp hother with hold | hnew
  · exact h.2 other hold
  · obtain rfl := List.mem_singleton.mp hnew
    exact hbase ▸ hforward

/-!
The invariant.
-/

structure Synchronized (own : Nat) (start : Revision) (sys : Replication) : Prop where
  hubOpen : sys.hub.isClosed = false
  ordered : sys.history.Pairwise fun a b => a.revision < b.revision
  bounded : ∀ s ∈ sys.history, s.revision ≤ sys.store.revision
  served : Served sys.history sys.replica sys.hub own sys.store
  chain : Linked start (sys.deliveries.map Delivery.tx)
  reached : endOf start (sys.deliveries.map Delivery.tx) = sys.replica.revision
  accepted : ∀ d ∈ sys.deliveries, d.outcome = .ok d.tx.newRevision ∧
    d.replica ∈ sys.history ∧ d.replica.revision = d.tx.newRevision

variable {frameLen : WireTransaction → Nat} {own : Nat} {start : Revision} {sys : Replication}

theorem Synchronized.commit (h : Synchronized own start sys) {commit : AuthoritativeCommit}
    (htravels : Travels sys (.commit commit)) :
    Synchronized own start (step frameLen own sys (.commit commit)) := by
  unfold step
  simp only
  split
  · rename_i store revision hcommit
    have hsafe := htravels ⟨revision, by rw [hcommit]⟩
    have hforward : sys.store.revision < store.revision :=  by
      obtain ⟨hbase, hlt, hnew⟩ :=
        applyDelivered_revisions (applyAuthoritative_delivered hcommit hsafe)
      exact hnew ▸ hlt
    have hgrows : ∀ s ∈ sys.history, s ∈ sys.history ++ [store] :=
      fun s hs => List.mem_append_left [store] hs
    refine ⟨by simp [h.hubOpen], ?_, ?_, ?_, h.chain, h.reached, ?_⟩
    · rw [List.pairwise_append]
      refine ⟨h.ordered, List.pairwise_singleton _ _, ?_⟩
      intro a ha b hb
      obtain rfl := List.mem_singleton.mp hb
      exact Nat.lt_of_le_of_lt (h.bounded a ha) hforward
    · intro s hs
      rcases List.mem_append.mp hs with hold | hnew
      · exact Nat.le_of_lt (Nat.lt_of_le_of_lt (h.bounded s hold) hforward)
      · obtain rfl := List.mem_singleton.mp hnew
        exact Nat.le_refl _
    · rcases h.served with ⟨hsub, hcarries⟩ | hoverflow
      · exact publish_carries (hcarries.mono hgrows) h.hubOpen hsub hcommit hsafe (by simp)
      · refine Or.inr ?_
        simp only
        rw [publish_closed hoverflow.closed]
        exact hoverflow
    · intro d hd
      obtain ⟨hok, hmem, hrevision⟩ := h.accepted d hd
      exact ⟨hok, hgrows _ hmem, hrevision⟩
  · exact h

theorem Synchronized.pop (h : Synchronized own start sys) :
    Synchronized own start (step frameLen own sys .pop) := by
  unfold step
  simp only
  split
  · rename_i state tx hpop
    rcases h.served with ⟨hsub, hcarries⟩ | hoverflow
    · obtain ⟨middle, hmem, happly, hrest⟩ := hcarries.pop hpop
      obtain ⟨hbase, hforward, hrevision⟩ := applyDelivered_revisions happly
      simp only [happly]
      refine ⟨h.hubOpen, h.ordered, h.bounded, ?_, ?_, ?_, ?_⟩
      · refine Or.inl ⟨hsub, ?_⟩
        simp only [setState, Function.update_self]
        exact hrest
      · rw [List.map_append]
        refine h.chain.snoc ?_ ?_
        · rw [h.reached]
          exact hbase
        · rw [h.reached]
          exact hforward
      · rw [List.map_append]
        exact (endOf_snoc _ _ _).trans hrevision.symm
      · intro d hd
        rcases List.mem_append.mp hd with hold | hnew
        · exact h.accepted d hold
        · obtain rfl := List.mem_singleton.mp hnew
          exact ⟨rfl, hmem, hrevision⟩
    · rw [hoverflow.pop] at hpop
      simp at hpop
  · exact h

theorem Synchronized.step (h : Synchronized own start sys) (input : Input)
    (htravels : Travels sys input) :
    Synchronized own start (ReplicaAgreement.step frameLen own sys input) := by
  cases input with
  | commit commit => exact h.commit htravels
  | pop => exact h.pop

theorem drain (hcarries : Carries sys.history sys.replica (sys.hub.states own) sys.store) :
    (run (ReplicaAgreement.step frameLen own) sys
      (List.replicate (sys.hub.states own).items.length .pop)).replica = sys.store := by
  generalize hitems : (sys.hub.states own).items = items
  induction items generalizing sys with
  | nil =>
    have hleads := hcarries.items
    rw [hitems] at hleads
    exact hleads
  | cons tx rest ih =>
    obtain ⟨state, hpop, hrestItems⟩ : ∃ state,
        popTransaction (sys.hub.states own) = (state, some tx) ∧ state.items = rest := by
      rw [popTransaction, hitems]
      exact ⟨_, rfl, rfl⟩
    obtain ⟨middle, -, happly, hrest⟩ := hcarries.pop hpop
    have hnext : ReplicaAgreement.step frameLen own sys .pop =
        { sys with hub := setState sys.hub own state
                   replica := middle
                   deliveries := sys.deliveries ++ [⟨tx, .ok tx.newRevision, middle⟩] } := by
      simp only [ReplicaAgreement.step, hpop, happly]
    rw [List.length_cons, List.replicate_succ, run_cons, hnext]
    refine ih ?_ ?_
    · simp only [setState, Function.update_self]
      exact hrest
    · simp only [setState, Function.update_self]
      exact hrestItems

theorem Synchronized.agreement (h : Synchronized own start sys) :
    Agreement frameLen own start sys := by
  refine ⟨h.chain, ?_, ?_⟩
  · intro d hd
    obtain ⟨hok, hmem, hrevision⟩ := h.accepted d hd
    exact ⟨hok, hrevision ▸ storeAt_mem h.ordered hmem⟩
  · intro hstale
    rcases h.served with ⟨-, hcarries⟩ | hoverflow
    · exact drain hcarries
    · have hreason := hoverflow.stale
      rw [hstale] at hreason
      simp at hreason

def subscribed (store : SemanticStore) (hub : OutboundHub) : Replication :=
  ⟨store, [store], hub, store, []⟩

theorem subscribed_synchronized {hub hub' : OutboundHub} {clientInstanceId : Bytes}
    {capacity maxOps maxFrameSize : Nat} {store : SemanticStore}
    (h : subscribe hub clientInstanceId capacity maxOps maxFrameSize = .ok (hub', own))
    (hlimit : maxOps ≤ store.limits.maxTransactionOperations) :
    Synchronized own store.revision (subscribed store hub') := by
  rw [subscribe] at h
  split at h
  · simp at h
  split at h
  · simp at h
  rename_i hopen
  obtain ⟨rfl, rfl⟩ := Prod.mk.inj (Except.ok.inj h)
  refine ⟨by simpa [subscribed] using hopen, List.pairwise_singleton _ _, ?_, ?_,
    ⟨trivial, by simp [subscribed]⟩, rfl,
    by simp [subscribed]⟩
  · intro s hs
    obtain rfl := List.mem_singleton.mp hs
    exact Nat.le_refl _
  · refine Or.inl ⟨⟨⟨clientInstanceId, false, hub.nextHandle⟩, by simp [subscribed], rfl, rfl⟩, ?_⟩
    simp only [subscribed, Function.update_self]
    exact ⟨rfl, by simp, hlimit, rfl⟩

/-- For every interleaving of commits and pops, the popped transactions are a
chain from the revision of the subscription, the replica accepts each and is
then the store as it was at its revision, and draining a queue that has not
overflowed brings it up to date, as long as every accepted operation can travel
on the wire. -/
theorem replica_agreement (frameLen : WireTransaction → Nat) (hub hub' : OutboundHub)
    (clientInstanceId : Bytes) (capacity maxOps maxFrameSize own : Nat) (store : SemanticStore)
    (hsubscribe : subscribe hub clientInstanceId capacity maxOps maxFrameSize = .ok (hub', own))
    (hlimit : maxOps ≤ store.limits.maxTransactionOperations) (inputs : List Input)
    (htravels : EveryStep (ReplicaAgreement.step frameLen own) Travels (subscribed store hub')
      inputs) :
    Agreement frameLen own store.revision
      (run (ReplicaAgreement.step frameLen own) (subscribed store hub') inputs) := by
  have hsync : Synchronized own store.revision
      (run (ReplicaAgreement.step frameLen own) (subscribed store hub') inputs) :=
    htravels.invariant (fun _ input h hok => h.step input hok)
      (subscribed_synchronized hsubscribe hlimit)
  exact hsync.agreement

def emptyHub : OutboundHub :=
  ⟨[], fun _ => ⟨0, 0, 0, [], none, 0, none, true⟩, 0, ⟨[], ∅⟩, false, by simp, by simp⟩

def firstHub : OutboundHub :=
  { emptyHub with
    subscribers := [⟨[7], false, 0⟩]
    states := Function.update emptyHub.states 0 ⟨2, 8, 1024, [], none, 0, none, false⟩
    nextHandle := 1
    distinct := by simp
    fresh := by simp }

theorem firstHub_subscribed : subscribe emptyHub [7] 2 8 1024 = .ok (firstHub, 0) := rfl

/-- A node is created and labelled twice; the second label is merged into the
first before it is popped. -/
def labelling : List Input :=
  [.commit ⟨⟨0, 1, [.createNode 1 ⟨0, 1⟩ none none []], 0⟩, rfl⟩, .pop,
    .commit ⟨⟨1, 2, [.setProperty 1 ⟨0, 1⟩ (.scalar (.bool true))], 0⟩, rfl⟩,
    .commit ⟨⟨2, 3, [.setProperty 1 ⟨0, 1⟩ (.scalar (.bool false))], 0⟩, rfl⟩, .pop]

theorem labelling_agreement :
    (run (ReplicaAgreement.step (fun _ => 0) 0)
        (subscribed (SemanticStore.withLimits StoreLimits.default) firstHub)
        labelling).deliveries.map (fun d => (d.tx.baseRevision, d.tx.newRevision)) =
          [(0, 1), (1, 3)] ∧
      Agreement (fun _ => 0) 0 0 (run (ReplicaAgreement.step (fun _ => 0) 0)
        (subscribed (SemanticStore.withLimits StoreLimits.default) firstHub) labelling) := by
  refine ⟨by decide +kernel, ?_⟩
  have htravels : EveryStep (ReplicaAgreement.step (fun _ => 0) 0) Travels
      (subscribed (SemanticStore.withLimits StoreLimits.default) firstHub) labelling := by
    refine ⟨fun _ => ?_, trivial, fun _ => ?_, fun _ => ?_, trivial, trivial⟩
    · intro op hop
      obtain rfl := List.mem_singleton.mp hop
      exact ⟨by simp, by simp⟩
    all_goals
      intro op hop
      obtain rfl := List.mem_singleton.mp hop
      trivial
  exact replica_agreement (fun _ => 0) emptyHub firstHub [7] 2 8 1024 0
    (SemanticStore.withLimits StoreLimits.default) firstHub_subscribed
    (by decide) labelling htravels

def zeroStore : SemanticStore :=
  applyStep (SemanticStore.withLimits StoreLimits.default) (.createNode 0 ⟨0, 1⟩ none none [])

/-- The store makes node 1 a child of node zero, the replica makes it a root. -/
theorem childOfZero_disagreement :
    ¬ Agreement (fun _ => 0) 0 0 (run (ReplicaAgreement.step (fun _ => 0) 0)
      (subscribed zeroStore firstHub)
      [.commit ⟨⟨0, 1, [.createNode 1 ⟨0, 3⟩ (some 0) none []], 0⟩, rfl⟩]) := by
  intro h
  have hroots := congrArg SemanticStore.roots (h.drained (by decide +kernel))
  exact absurd hroots (by decide +kernel)

end Srui.Sessiond.ReplicaAgreement

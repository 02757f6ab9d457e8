import Srui.Basic.Traces
import Srui.Sessiond.Coalescing

/-!
What one subscriber's queue carries: the transactions that lead a replica from
the store it holds to the authoritative one.
-/

namespace Srui.Sessiond.Queues

open Basic.Machine Basic.Traces SemanticTree.Values SemanticTree.Stores SemanticTree.Operations
open SemanticTree.Transactions SemanticTree.Wire SemanticTree.WireRoundTrip SemanticTree.Replay
open Sessiond.Outbound Sessiond.Coalescing

def Accepts (s : SemanticStore) (tx : WireTransaction) (t : SemanticStore) : Prop :=
  applyDeliveredTransaction s tx = (t, .ok tx.newRevision)

/-- A replica that holds `s` accepts the transactions in order and ends with
`t`, passing only through stores of the history. -/
abbrev Leads (history : List SemanticStore) : SemanticStore → List WireTransaction →
    SemanticStore → Prop := Trace Accepts (· ∈ history)

variable {history later : List SemanticStore} {s t t' : SemanticStore}

variable {tx : WireTransaction}

theorem applyDelivered_limits {r : Revision}
    (h : applyDeliveredTransaction s tx = (t, .ok r)) : t.limits = s.limits := by
  obtain ⟨txn, staged, -, -, -, -, -, -, rfl⟩ := applyDelivered_ok h
  rfl

/-- The queue of a subscriber whose receiver holds `s`. -/
structure Carries (history : List SemanticStore) (s : SemanticStore) (state : SubscriberState)
    (t : SemanticStore) : Prop where
  items : Leads history s state.items t
  tail : ∀ d, state.tailDomain = some d →
    ∃ last, state.items.getLast? = some last ∧ decodeTransaction last = .ok d
  limit : state.maxOps ≤ t.limits.maxTransactionOperations
  live : state.isClosed = false

variable {state state' : SubscriberState}

theorem Carries.mono (h : Carries history s state t) (hsub : ∀ x ∈ history, x ∈ later) :
    Carries later s state t := { h with items := h.items.mono hsub }

theorem Carries.pop (h : Carries history s state t)
    (hpop : popTransaction state = (state', some tx)) :
    ∃ middle ∈ history, applyDeliveredTransaction s tx = (middle, .ok tx.newRevision) ∧
      Carries history middle state' t := by
  rw [popTransaction] at hpop
  split at hpop
  · simp at hpop
  rename_i item rest hitems
  obtain ⟨rfl, hitem⟩ := Prod.mk.inj hpop
  have htx := Option.some.inj hitem
  subst htx
  have hleads := h.items
  rw [hitems] at hleads
  obtain ⟨middle, hmem, happly, hrest⟩ := hleads
  refine ⟨middle, hmem, happly, hrest, ?_, h.limit, h.live⟩
  intro d hd
  simp only at hd ⊢
  split at hd
  · simp at hd
  · rename_i hne
    obtain ⟨last, hlast, hdecode⟩ := h.tail d hd
    refine ⟨last, ?_, hdecode⟩
    obtain ⟨next, more, rfl⟩ := List.exists_cons_of_ne_nil hne
    rw [hitems, List.getLast?_cons_cons] at hlast
    exact hlast

structure Overflowed (state : SubscriberState) : Prop where
  closed : state.isClosed = true
  empty : state.items = []
  stale : state.staleReason.isSome = true

theorem Overflowed.pop (h : Overflowed state) : popTransaction state = (state, none) := by
  rw [popTransaction, h.empty]

/-- What queueing the next commit does to a live queue. -/
def Advances (history : List SemanticStore) (s t : SemanticStore)
    (result : SubscriberState × Except OutboundRecvError Bool) : Prop :=
  ((∃ grown, result.2 = .ok grown) ∧ Carries history s result.1 t) ∨
    ((∃ reason, result.2 = .error (.lagged reason)) ∧ Overflowed result.1)

theorem push_advances {incoming : Option Transaction}
    (hitems : Leads history s (state.items ++ [tx]) t)
    (htail : ∀ d, incoming = some d → decodeTransaction tx = .ok d)
    (hlimit : state.maxOps ≤ t.limits.maxTransactionOperations) (hlive : state.isClosed = false) :
    Advances history s t (push state tx incoming) := by
  rw [push]
  split
  · exact Or.inr ⟨⟨_, rfl⟩, rfl, rfl, rfl⟩
  · refine Or.inl ⟨⟨true, rfl⟩, hitems, ?_, hlimit, hlive⟩
    intro d hd
    exact ⟨tx, by simp, htail d hd⟩

theorem toDomain_eq_some {d : Transaction} :
    toDomain tx = some d ↔ decodeTransaction tx = .ok d := by
  rw [toDomain]
  cases decodeTransaction tx <;> simp

theorem withTail_spec (h : ∀ d, state.tailDomain = some d →
      ∃ last, state.items.getLast? = some last ∧ decodeTransaction last = .ok d) :
    (∃ tail, withTail state = { state with tailDomain := tail }) ∧
      ∀ d, (withTail state).tailDomain = some d →
        ∃ last, state.items.getLast? = some last ∧ decodeTransaction last = .ok d := by
  rw [withTail]
  split
  · rename_i tail hnone hlast
    refine ⟨⟨_, rfl⟩, ?_⟩
    intro d hd
    exact ⟨tail, hlast, toDomain_eq_some.mp hd⟩
  · exact ⟨⟨_, rfl⟩, h⟩

theorem absorb_leads {frameLen : WireTransaction → Nat} {commit : AuthoritativeCommit}
    {revision : Revision} {before : List WireTransaction} {last : WireTransaction}
    {d merged : Transaction} {maxOps maxFrameSize : Nat}
    (hitems : Leads history s (before ++ [last]) t) (hdecode : decodeTransaction last = .ok d)
    (hcommit : applyAuthoritative t commit = (t', .ok revision))
    (hsafe : ∀ op ∈ commit.txn.operations, WireSafe op)
    (hlimit : maxOps ≤ t.limits.maxTransactionOperations) (hmem : t' ∈ history)
    (habsorb : tryAbsorb frameLen d (imageTransaction commit.txn) maxOps maxFrameSize =
      some merged) :
    Leads history s (before ++ [encodeTransaction merged]) t' := by
  obtain ⟨middle, hbefore, t₁, -, hlast, htarget⟩ := trace_append.mp hitems
  obtain rfl : t₁ = t := htarget
  obtain ⟨txn, staged, hdecode', hbase, hnext, hforward, -, happlies, hstaged⟩ :=
    applyDelivered_ok hlast
  obtain rfl : d = txn := Except.ok.inj (hdecode.symm.trans hdecode')
  obtain ⟨hbase', -, staged', happlies', hstaged'⟩ := applyValidated_ok hcommit
  have hspan : commit.txn.baseRevision < commit.txn.newRevision := by
    obtain ⟨-, heq⟩ := checkedAdd_eq_some.mp (validateCommit_next commit.valid)
    rw [heq]
    exact Nat.lt_succ_self _
  have himages : Applies t₁ (imageTransaction commit.txn).operations staged' := by
    have hstage : stage apply t₁ 0 (imageTransaction commit.txn).operations =
        .ok staged' := by
      rw [imageTransaction, stage_images hsafe, happlies'.staged 0]
    exact applies_of_staged hstage
  have habsorbed := tryAbsorb_some habsorb
  have hfits := Nat.le_trans habsorbed.length_le hlimit
  rw [applyDelivered_limits hlast] at hfits
  have hmerged := habsorbed.delivered hfits hbase hnext hforward happlies hstaged himages hspan
    hstaged'
  exact trace_append.mpr ⟨middle, hbefore, trace_single hmem hmerged⟩

theorem Carries.publish (h : Carries history s state t) (frameLen : WireTransaction → Nat)
    {commit : AuthoritativeCommit} {revision : Revision}
    (hcommit : applyAuthoritative t commit = (t', .ok revision))
    (hsafe : ∀ op ∈ commit.txn.operations, WireSafe op) (hmem : t' ∈ history)
    {incoming : Option Transaction}
    (hincoming : ∀ d, incoming = some d →
      decodeTransaction (encodeTransaction commit.txn) = .ok d) :
    Advances history s t'
      (tryPushOrAbsorb state frameLen (encodeTransaction commit.txn) incoming) := by
  have hdelivered := applyAuthoritative_delivered hcommit hsafe
  have hlimit : state.maxOps ≤ t'.limits.maxTransactionOperations := by
    rw [applyDelivered_limits hdelivered]
    exact h.limit
  have hpushed : Leads history s (state.items ++ [encodeTransaction commit.txn]) t' :=
    trace_append.mpr ⟨t, h.items, trace_single hmem hdelivered⟩
  unfold tryPushOrAbsorb
  rw [if_neg (by simp [h.live])]
  split
  · exact push_advances hpushed hincoming hlimit h.live
  · rename_i d
    obtain ⟨⟨tail, hwith⟩, htail⟩ := withTail_spec h.tail
    have himage : d = imageTransaction commit.txn := Except.ok.inj
      ((hincoming d rfl).symm.trans (decodeTransaction_encodeTransaction commit.txn))
    simp only
    rw [hwith] at htail ⊢
    have hpush : Advances history s t'
        (push { state with tailDomain := tail } (encodeTransaction commit.txn) (some d)) :=
      push_advances hpushed hincoming hlimit h.live
    split
    · rename_i last tailDomain hlast htailDomain
      split
      · rename_i merged habsorb
        obtain ⟨last', hlast', hdecode⟩ := htail tailDomain htailDomain
        obtain ⟨before, hbefore⟩ := List.getLast?_eq_some_iff.mp hlast'
        have hitems := h.items
        rw [hbefore] at hitems
        have hmerged := absorb_leads hitems hdecode hcommit hsafe h.limit hmem (himage ▸ habsorb)
        refine Or.inl ⟨⟨false, rfl⟩, ?_, ?_, hlimit, h.live⟩
        · simp only [hbefore, List.dropLast_concat]
          exact hmerged
        · intro d' hd'
          rw [← Option.some.inj hd']
          refine ⟨encodeTransaction merged, by simp, ?_⟩
          rw [decodeTransaction_encodeTransaction]
          obtain ⟨_, _, _, -, -, hall, -⟩ := (tryAbsorb_some habsorb).writes
          rw [imageTransaction_writes hall]
      · exact hpush
    · exact hpush

end Srui.Sessiond.Queues

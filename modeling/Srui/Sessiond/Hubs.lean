import Srui.Sessiond.Queues

/-!
What publishing a commit does to the queue of one subscriber, whatever the other
subscribers of the hub are.
-/

namespace Srui.Sessiond.Hubs

open SemanticTree.Values SemanticTree.Stores SemanticTree.Transactions SemanticTree.Wire
open SemanticTree.WireRoundTrip Sessiond.Sessions Sessiond.Outbound Sessiond.Queues

variable {frameLen : WireTransaction → Nat} {tx : WireTransaction}

variable {sub : Subscriber}

theorem publishTo_live (frameLen : WireTransaction → Nat) (tx : WireTransaction)
    (pass : PublishPass) (hlive : sub.notifyClosed = false) :
    (publishTo frameLen tx pass sub).states = Function.update pass.states sub.handle
        (offer frameLen tx (pass.states sub.handle)).1 ∧
      ((∃ grown, (offer frameLen tx (pass.states sub.handle)).2 = .ok grown) →
        (publishTo frameLen tx pass sub).kept = pass.kept ++ [sub]) := by
  unfold publishTo
  rw [hlive]
  simp only [Bool.false_eq_true, if_false]
  split
  · rename_i state grown hoffer
    rw [hoffer]
    exact ⟨rfl, fun _ => rfl⟩
  · rename_i state reason hoffer
    rw [hoffer]
    exact ⟨rfl, by rintro ⟨grown, hgrown⟩; simp at hgrown⟩
  · rename_i state hoffer
    rw [hoffer]
    exact ⟨rfl, by rintro ⟨grown, hgrown⟩; simp at hgrown⟩

variable {handle : Nat}

theorem publishTo_other (pass : PublishPass) (sub : Subscriber)
    (hne : sub.handle ≠ handle) :
    (publishTo frameLen tx pass sub).states handle = pass.states handle := by
  cases hlive : sub.notifyClosed with
  | true =>
    unfold publishTo
    rw [if_pos hlive]
  | false =>
    rw [(publishTo_live frameLen tx pass hlive).1, Function.update_of_ne (Ne.symm hne)]

theorem publishAll_other {subs : List Subscriber}
    (hother : ∀ sub ∈ subs, sub.handle ≠ handle) (pass : PublishPass) :
    (subs.foldl (publishTo frameLen tx) pass).states handle = pass.states handle := by
  induction subs generalizing pass with
  | nil => rfl
  | cons sub rest ih =>
    rw [List.foldl_cons, ih fun other h => hother other (List.mem_cons_of_mem sub h),
      publishTo_other pass sub (hother sub List.mem_cons_self)]

theorem publishAll_keeps (subs : List Subscriber) (pass : PublishPass)
    (hmem : sub ∈ pass.kept) : sub ∈ (subs.foldl (publishTo frameLen tx) pass).kept := by
  induction subs generalizing pass with
  | nil => exact hmem
  | cons next rest ih =>
    refine ih (publishTo frameLen tx pass next) ?_
    rcases publishTo_kept frameLen tx pass next with hkept | hkept
    · rw [hkept]
      exact hmem
    · rw [hkept]
      exact List.mem_append_left [next] hmem

theorem publishAll_own (hlive : sub.notifyClosed = false)
    {subs : List Subscriber} (hdistinct : (subs.map Subscriber.handle).Nodup) (hsub : sub ∈ subs)
    (pass : PublishPass) :
    (subs.foldl (publishTo frameLen tx) pass).states sub.handle =
        (offer frameLen tx (pass.states sub.handle)).1 ∧
      ((∃ grown, (offer frameLen tx (pass.states sub.handle)).2 = .ok grown) →
        sub ∈ (subs.foldl (publishTo frameLen tx) pass).kept) := by
  induction subs generalizing pass with
  | nil => simp at hsub
  | cons next rest ih =>
    rw [List.map_cons, List.nodup_cons] at hdistinct
    rw [List.foldl_cons]
    rcases List.mem_cons.mp hsub with rfl | hrest
    · have hother : ∀ other ∈ rest, other.handle ≠ sub.handle := by
        intro other hmem heq
        exact hdistinct.1 (heq ▸ List.mem_map_of_mem hmem)
      obtain ⟨hstates, hkept⟩ := publishTo_live frameLen tx pass hlive
      refine ⟨?_, ?_⟩
      · rw [publishAll_other hother, hstates, Function.update_self]
      · intro hgrown
        refine publishAll_keeps rest _ ?_
        rw [hkept hgrown]
        simp
    · have hne : next.handle ≠ sub.handle := by
        intro heq
        exact hdistinct.1 (heq ▸ List.mem_map_of_mem hrest)
      have hown := ih hdistinct.2 hrest (publishTo frameLen tx pass next)
      rw [publishTo_other pass next hne] at hown
      exact hown

variable {hub : OutboundHub}

theorem publish_own (frameLen : WireTransaction → Nat) (tx : WireTransaction)
    (hopen : hub.isClosed = false)
    (hsub : sub ∈ hub.subscribers) (hlive : sub.notifyClosed = false) :
    (publish frameLen hub tx).states sub.handle =
        (offer frameLen tx (hub.states sub.handle)).1 ∧
      ((∃ grown, (offer frameLen tx (hub.states sub.handle)).2 = .ok grown) →
        sub ∈ (publish frameLen hub tx).subscribers) := by
  unfold publish
  rw [if_neg (by simp [hopen])]
  exact publishAll_own hlive hub.distinct hsub ⟨hub.states, [], []⟩

@[simp] theorem publish_isClosed (hub : OutboundHub) :
    (publish frameLen hub tx).isClosed = hub.isClosed := by
  unfold publish
  split <;> rfl

theorem offer_closed {state : SubscriberState} (hclosed : state.isClosed = true) :
    (offer frameLen tx state).1 = state ∧ ∀ grown, (offer frameLen tx state).2 ≠ .ok grown := by
  unfold offer
  simp only
  unfold tryPushOrAbsorb
  rw [if_pos hclosed]
  split <;> simp

theorem publishAll_closed (subs : List Subscriber) (pass : PublishPass)
    (hclosed : (pass.states handle).isClosed = true) :
    (subs.foldl (publishTo frameLen tx) pass).states handle = pass.states handle := by
  induction subs generalizing pass with
  | nil => rfl
  | cons sub rest ih =>
    have hsame : (publishTo frameLen tx pass sub).states handle = pass.states handle := by
      rcases eq_or_ne sub.handle handle with rfl | hne
      · cases hlive : sub.notifyClosed with
        | true =>
          unfold publishTo
          rw [if_pos hlive]
        | false =>
          rw [(publishTo_live frameLen tx pass hlive).1, Function.update_self]
          exact (offer_closed hclosed).1
      · exact publishTo_other pass sub hne
    rw [List.foldl_cons, ih _ (hsame ▸ hclosed), hsame]

theorem publish_closed
    (hclosed : (hub.states handle).isClosed = true) :
    (publish frameLen hub tx).states handle = hub.states handle := by
  unfold publish
  split
  · rfl
  · exact publishAll_closed hub.subscribers ⟨hub.states, [], []⟩ hclosed

theorem offer_advances (frameLen : WireTransaction → Nat) {history : List SemanticStore}
    {s t t' : SemanticStore} {state : SubscriberState} (h : Carries history s state t)
    {commit : AuthoritativeCommit} {revision : Revision}
    (hcommit : applyAuthoritative t commit = (t', .ok revision))
    (hsafe : ∀ op ∈ commit.txn.operations, WireSafe op) (hmem : t' ∈ history) :
    Advances history s t' (offer frameLen (encodeTransaction commit.txn) state) := by
  refine h.publish frameLen hcommit hsafe hmem ?_
  intro d hd
  split at hd
  · exact toDomain_eq_some.mp hd
  · simp at hd

/-- The queue of a subscriber whose receiver holds `s`: registered and leading to
`t`, or overflowed. -/
def Served (history : List SemanticStore) (s : SemanticStore) (hub : OutboundHub) (own : Nat)
    (t : SemanticStore) : Prop :=
  ((∃ sub ∈ hub.subscribers, sub.handle = own ∧ sub.notifyClosed = false) ∧
      Carries history s (hub.states own) t) ∨
    Overflowed (hub.states own)

theorem publish_carries {history : List SemanticStore} {s t t' : SemanticStore} {own : Nat}
    (h : Carries history s (hub.states own) t)
    (hopen : hub.isClosed = false)
    (hsub : ∃ sub ∈ hub.subscribers, sub.handle = own ∧ sub.notifyClosed = false)
    {commit : AuthoritativeCommit} {revision : Revision}
    (hcommit : applyAuthoritative t commit = (t', .ok revision))
    (hsafe : ∀ op ∈ commit.txn.operations, WireSafe op) (hmem : t' ∈ history) :
    Served history s (publish frameLen hub (encodeTransaction commit.txn)) own t' := by
  obtain ⟨sub, hsub, rfl, hlive⟩ := hsub
  obtain ⟨hstates, hkept⟩ :=
    publish_own frameLen (encodeTransaction commit.txn) hopen hsub hlive
  unfold Served
  rw [hstates]
  rcases offer_advances frameLen h hcommit hsafe hmem with ⟨hgrown, hcarries⟩ | ⟨-, hoverflow⟩
  · exact Or.inl ⟨⟨sub, hkept hgrown, rfl, hlive⟩, hcarries⟩
  · exact Or.inr hoverflow

end Srui.Sessiond.Hubs

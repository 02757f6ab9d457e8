import Srui.Sessiond.Coalescing

/-!
The merge of two scalar transactions in the queue of a subscriber, on its own:
its shape, its size, and what it does to a store that accepts the two in order.
-/

namespace Srui.Sessiond.CoalescedDeltas

open Basic.Machine SemanticTree.Values SemanticTree.Limits SemanticTree.Stores
open SemanticTree.Operations SemanticTree.Transactions SemanticTree.Wire SemanticTree.WireRoundTrip
open SemanticTree.Replay Sessiond.Outbound Sessiond.Coalescing

/-- The tail `try_absorb` leaves behind, and the value it returns. -/
def absorb (frameLen : WireTransaction → Nat) (tail incoming : Transaction)
    (maxOps maxFrameSize : Nat) : Transaction × Bool :=
  match tryAbsorb frameLen tail incoming maxOps maxFrameSize with
  | some merged => (merged, true)
  | none => (tail, false)

variable {frameLen : WireTransaction → Nat} {tail incoming merged : Transaction}
  {maxOps maxFrameSize : Nat}

theorem tryAbsorb_frame (h : tryAbsorb frameLen tail incoming maxOps maxFrameSize = some merged) :
    frameLen (encodeTransaction merged) ≤ maxFrameSize := by
  unfold tryAbsorb at h
  split at h
  · cases h
  split at h
  · cases h
  split at h
  · cases h
  simp only at h
  split at h
  · cases h
  split at h
  · cases h
  · rename_i hsize
    cases h
    exact Nat.not_lt.mp hsize

theorem Absorbed.validates (h : Absorbed tail incoming merged maxOps)
    (hnext : checkedNext tail.baseRevision = some (tail.baseRevision + 1))
    (hforward : tail.baseRevision < tail.newRevision)
    (hspan : incoming.baseRevision < incoming.newRevision) : validateDelta merged = .ok () := by
  obtain ⟨_, _, _, -, -, -, hscalar, -⟩ := h.writes
  have hahead : tail.baseRevision < incoming.newRevision := by
    rw [← h.contiguous] at hspan
    exact Nat.lt_trans hforward hspan
  rw [validateDelta, h.baseRevision, hnext]
  simp only
  rw [if_neg]
  rw [h.newRevision, not_or]
  refine ⟨Nat.not_le.mpr hahead, ?_⟩
  rw [hscalar]
  decide

theorem coalesceable_of_validates (h : validateDelta merged = .ok ()) :
    isCoalesceable merged = true := by
  unfold validateDelta at h
  split at h
  · cases h
  split at h
  · cases h
  · rename_i hshape
    exact Bool.eq_true_of_not_eq_false (not_or.mp hshape).2

theorem Absorbed.scalar (h : Absorbed tail incoming merged maxOps) :
    imageTransaction tail = tail ∧ imageTransaction incoming = incoming ∧
      imageTransaction merged = merged := by
  obtain ⟨before, after, all, hbefore, hafter, hall, -⟩ := h.writes
  exact ⟨imageTransaction_writes hbefore, imageTransaction_writes hafter,
    imageTransaction_writes hall⟩

theorem applyDelivered_tooLong {s : SemanticStore} {txn : Transaction}
    (himage : imageTransaction txn = txn) (hbase : txn.baseRevision = s.revision)
    (hclass : ∃ delivered, classify txn = .ok delivered)
    (hlong : s.limits.maxTransactionOperations < txn.operations.length) :
    applyDeliveredTransaction s (encodeTransaction txn) =
      (s, err (.maxOperationsExceeded s.limits.maxTransactionOperations
        txn.operations.length)) := by
  have hdecode : decodeTransaction (encodeTransaction txn) = .ok txn := by
    rw [decodeTransaction_encodeTransaction, himage]
  obtain ⟨delivered, hclass⟩ := hclass
  rw [applyDelivered_of_classified hdecode hclass, applyValidated, checkBaseRevision,
    if_neg (not_not.mpr hbase)]
  simp only
  rw [applyStaged, applyStagedWith, if_pos hlong]

/-- What a merge the queue makes has to be, for a store `s` at the base of the tail that the
tail and then the incoming transaction turn into `s''`. -/
structure Preserves (frameLen : WireTransaction → Nat) (maxOps maxFrameSize : Nat)
    (s s'' : SemanticStore) (revision : Revision) (merged : Transaction) : Prop where
  validates : validateDelta merged = .ok ()
  operations : merged.operations.length ≤ maxOps
  frame : frameLen (encodeTransaction merged) ≤ maxFrameSize
  accepted : merged.operations.length ≤ s.limits.maxTransactionOperations →
    applyDeliveredTransaction s (encodeTransaction merged) = (s'', .ok revision)
  refused : s.limits.maxTransactionOperations < merged.operations.length →
    applyDeliveredTransaction s (encodeTransaction merged) =
      (s, err (.maxOperationsExceeded s.limits.maxTransactionOperations
        merged.operations.length))

/-- Whatever the two transactions write, with keys repeated in and across them: a merge is a
valid delta within both bounds, which a store admitting that many operations takes to the store
and revision the two lead to in order; where nothing is merged the tail is as it was. -/
theorem coalescing_preserves_meaning (frameLen : WireTransaction → Nat)
    (tail incoming : Transaction) (maxOps maxFrameSize : Nat) {s s' s'' : SemanticStore}
    {revision revision' : Revision}
    (htail : applyDeliveredTransaction s (encodeTransaction tail) = (s', .ok revision))
    (hincoming : applyDeliveredTransaction s' (encodeTransaction incoming) =
      (s'', .ok revision')) :
    ((absorb frameLen tail incoming maxOps maxFrameSize).2 = true →
      Preserves frameLen maxOps maxFrameSize s s'' revision'
        (absorb frameLen tail incoming maxOps maxFrameSize).1) ∧
    ((absorb frameLen tail incoming maxOps maxFrameSize).2 = false →
      (absorb frameLen tail incoming maxOps maxFrameSize).1 = tail) := by
  unfold absorb
  cases hmerge : tryAbsorb frameLen tail incoming maxOps maxFrameSize with
  | none =>
    refine ⟨?_, fun _ => rfl⟩
    intro h
    cases h
  | some merged =>
    refine ⟨fun _ => ?_, ?_⟩
    · have habsorbed := tryAbsorb_some hmerge
      obtain ⟨htailImage, hincomingImage, hmergedImage⟩ := Absorbed.scalar habsorbed
      obtain ⟨txn, staged, hdecode, hbase, hnext, hforward, -, happlies, hs'⟩ :=
        applyDelivered_ok htail
      rw [decodeTransaction_encodeTransaction, htailImage] at hdecode
      cases hdecode
      obtain ⟨txn, staged', hdecode, -, -, hspan, hrevision', happlies', hs''⟩ :=
        applyDelivered_ok hincoming
      rw [decodeTransaction_encodeTransaction, hincomingImage] at hdecode
      cases hdecode
      have hvalid := Absorbed.validates habsorbed hnext hforward hspan
      refine ⟨hvalid, habsorbed.length_le, tryAbsorb_frame hmerge, ?_, ?_⟩
      · intro hfits
        rw [hrevision', ← habsorbed.newRevision]
        exact habsorbed.delivered hfits hbase hnext hforward happlies hs' happlies' hspan hs''
      · intro hlong
        rw [← habsorbed.contiguous] at hspan
        have hscalar := coalesceable_of_validates hvalid
        have hclass : ∃ delivered, classify merged = .ok delivered := by
          refine classify_delta (by rw [habsorbed.baseRevision]; exact hnext) ?_ hscalar
          rw [habsorbed.newRevision]
          exact Nat.lt_of_le_of_lt (Nat.succ_le_of_lt hforward) hspan
        exact applyDelivered_tooLong hmergedImage (habsorbed.baseRevision.trans hbase) hclass
          hlong
    · intro h
      cases h

/-- A root node in a store that takes transactions of at most `maxOperations` operations. -/
def rooted (maxOperations : Nat) : SemanticStore :=
  (apply (.createNode 1 ⟨0, 1⟩ none none [])
    (SemanticStore.withLimits
      { StoreLimits.default with maxTransactionOperations := maxOperations })).1

def setting (base : Revision) (property : PropertyRef) (value : Bool) : Transaction where
  baseRevision := base
  newRevision := base + 1
  operations := [.setProperty 1 property (.scalar (.bool value))]
  priority := 0

def labelled : SemanticStore :=
  (applyDeliveredTransaction (rooted 1) (encodeTransaction (setting 0 ⟨0, 5⟩ false))).1

/-- A label set twice becomes one operation, whatever the store admits. -/
theorem rewritten_label_preserves :
    Preserves (fun _ => 40) 1 64 (rooted 1)
      (applyDeliveredTransaction labelled (encodeTransaction (setting 1 ⟨0, 5⟩ true))).1 2
      (absorb (fun _ => 40) (setting 0 ⟨0, 5⟩ false) (setting 1 ⟨0, 5⟩ true) 1 64).1 := by
  have htail : applyDeliveredTransaction (rooted 1) (encodeTransaction (setting 0 ⟨0, 5⟩ false)) =
      (labelled, .ok 1) := Prod.ext rfl (by decide +kernel)
  have hincoming : applyDeliveredTransaction labelled
      (encodeTransaction (setting 1 ⟨0, 5⟩ true)) =
        ((applyDeliveredTransaction labelled (encodeTransaction (setting 1 ⟨0, 5⟩ true))).1,
          .ok 2) := Prod.ext rfl (by decide +kernel)
  exact (coalescing_preserves_meaning (fun _ => 40) _ _ 1 64 htail hincoming).1
    (by decide +kernel)

/-- Two properties set by two transactions of one operation each become one transaction of two,
which a store that admits one operation refuses. -/
theorem merged_pair_refused : ¬ ∀ (frameLen : WireTransaction → Nat)
    (tail incoming : Transaction) (maxOps maxFrameSize : Nat) (s s' s'' : SemanticStore)
    (revision revision' : Revision),
    applyDeliveredTransaction s (encodeTransaction tail) = (s', .ok revision) →
    applyDeliveredTransaction s' (encodeTransaction incoming) = (s'', .ok revision') →
    (absorb frameLen tail incoming maxOps maxFrameSize).2 = true →
    applyDeliveredTransaction s
      (encodeTransaction (absorb frameLen tail incoming maxOps maxFrameSize).1) =
        (s'', .ok revision') := by
  intro hall
  have haccepted := hall (fun _ => 40) (setting 0 ⟨0, 5⟩ false) (setting 1 ⟨0, 6⟩ true) 2 64
    (rooted 1) _ _ 1 2 (Prod.ext rfl (by decide +kernel)) (Prod.ext rfl (by decide +kernel))
    (by decide +kernel)
  exact absurd (congrArg Prod.snd haccepted) (by decide +kernel)

end Srui.Sessiond.CoalescedDeltas

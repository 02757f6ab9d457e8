import Srui.SemanticTree.PropertyWrites
import Srui.Sessiond.Outbound

/-!
A transaction merged into the unsent tail of a queue does to a replica what the
two transactions do in order.
-/

namespace Srui.Sessiond.Coalescing

open Basic.LastWrites SemanticTree.Stores SemanticTree.Transactions SemanticTree.Wire
open SemanticTree.WireRoundTrip SemanticTree.Replay SemanticTree.PropertyWrites Sessiond.Outbound

theorem indexOps_writes (writes : List Write) (start : Nat) (index : KeyMap) :
    ((writes.map writeOp).zipIdx start).foldl indexOp index =
      ((writes.map Prod.fst).zipIdx start).foldl
        (fun (index : KeyMap) entry => Function.update index entry.1 (some entry.2)) index := by
  induction writes generalizing start index with
  | nil => rfl
  | cons write rest ih =>
    simp only [List.map_cons, List.zipIdx_cons, List.foldl_cons]
    exact ih (start + 1) (Function.update index write.1 (some start))

theorem mergeOp_write (state : List Write × KeyMap) (write : Write) :
    mergeOp (state.1.map writeOp, state.2) (writeOp write) =
      ((absorbWrite state write).1.map writeOp, (absorbWrite state write).2) := by
  obtain ⟨⟨id, property⟩, value⟩ := write
  cases hindex : state.2 (id, property) with
  | some i => simp [absorbWrite, mergeOp, writeOp, hindex, List.map_set]
  | none => simp [absorbWrite, mergeOp, writeOp, hindex]

theorem mergeOps_writes (state : List Write × KeyMap) (incoming : List Write) :
    (incoming.map writeOp).foldl mergeOp (state.1.map writeOp, state.2) =
      ((incoming.foldl absorbWrite state).1.map writeOp,
        (incoming.foldl absorbWrite state).2) := by
  induction incoming generalizing state with
  | nil => rfl
  | cons write rest ih =>
    rw [List.map_cons, List.foldl_cons, List.foldl_cons, mergeOp_write, ih]

theorem newKeys_writes (index : KeyMap) (incoming : List Write) :
    ((incoming.map writeOp).filter (isNewKey index)).length =
      (incoming.filter fun write => (index write.1).isNone).length := by
  rw [List.filter_map, List.length_map]
  rfl

structure Absorbed (tail incoming merged : Transaction) (maxOps : Nat) : Prop where
  baseRevision : merged.baseRevision = tail.baseRevision
  newRevision : merged.newRevision = incoming.newRevision
  contiguous : tail.newRevision = incoming.baseRevision
  writes : ∃ before after all : List Write, tail.operations = before.map writeOp ∧
    incoming.operations = after.map writeOp ∧ merged.operations = all.map writeOp ∧
    isCoalesceable merged = true ∧ all.length ≤ maxOps ∧
    (∀ write ∈ all, write ∈ before ∨ write ∈ after) ∧
    ∀ key, lastWrite all key = lastWrite (before ++ after) key

variable {incoming merged tail : Transaction} {maxOps : Nat}

theorem tryAbsorb_some {frameLen : WireTransaction → Nat}
    {maxFrameSize : Nat}
    (h : tryAbsorb frameLen tail incoming maxOps maxFrameSize = some merged) :
    Absorbed tail incoming merged maxOps := by
  unfold tryAbsorb at h
  split at h
  · simp at h
  split at h
  · simp at h
  rename_i hcontiguous
  split at h
  · simp at h
  rename_i hscalar
  rw [not_or, Bool.not_eq_false, Bool.not_eq_false] at hscalar
  obtain ⟨before, hne, hbefore, hscalarBefore⟩ := coalesceable_writes hscalar.1
  obtain ⟨after, -, hafter, hscalarAfter⟩ := coalesceable_writes hscalar.2
  simp only at h
  generalize hindex : tail.operations.zipIdx.foldl indexOp (fun _ => none) = index at h
  have hindexes : Indexes (before.map Prod.fst) index := by
    rw [← hindex, hbefore, indexOps_writes]
    exact (indexes_nil (κ := PropertyKey)).extend (before.map Prod.fst)
  have hmerged := mergeOps_writes (before, index) after
  simp only at hmerged
  rw [hbefore, hafter, newKeys_writes, hmerged, List.length_map] at h
  split at h
  · simp at h
  rename_i hcount
  split at h
  · simp at h
  rw [← Option.some.inj h]
  refine ⟨rfl, rfl, not_not.mp hcontiguous, before, after,
    (after.foldl absorbWrite (before, index)).1, hbefore, hafter, rfl, ?_, ?_, ?_, ?_⟩
  · refine isCoalesceable_writes (absorbAll_ne_nil hne after) ?_ rfl
    intro write hwrite
    rcases absorbAll_mem hwrite with hold | hnew
    · exact hscalarBefore write hold
    · exact hscalarAfter write hnew
  · exact Nat.le_trans (absorbAll_length_le (before, index) after) (Nat.not_lt.mp hcount)
  · exact fun write hwrite => absorbAll_mem hwrite
  · exact absorbAll_spec hindexes after

theorem writeOp_wireSafe (write : Write) : WireSafe (writeOp write) := trivial

theorem writeOp_wireImage (write : Write) : wireImage (writeOp write) = writeOp write := rfl

theorem imageTransaction_writes {txn : Transaction} {writes : List Write}
    (h : txn.operations = writes.map writeOp) : imageTransaction txn = txn := by
  have himages : (writes.map writeOp).map wireImage = writes.map writeOp := by
    rw [List.map_map]
    exact List.map_congr_left fun write _ => writeOp_wireImage write
  rw [imageTransaction, h, himages, ← h]

theorem Absorbed.length_le
    (h : Absorbed tail incoming merged maxOps) : merged.operations.length ≤ maxOps := by
  obtain ⟨_, _, all, -, -, hall, -, hlength, -⟩ := h.writes
  rw [hall, List.length_map]
  exact hlength

theorem Absorbed.delivered
    (h : Absorbed tail incoming merged maxOps) {s s' s'' staged staged' : SemanticStore}
    (hfits : merged.operations.length ≤ s.limits.maxTransactionOperations)
    (hbase : tail.baseRevision = s.revision)
    (hnext : checkedNext tail.baseRevision = some (tail.baseRevision + 1))
    (hforward : tail.baseRevision < tail.newRevision)
    (htail : Applies s tail.operations staged) (hs' : s' = commitStaging s staged tail.newRevision)
    (hincoming : Applies s' incoming.operations staged')
    (hspan : incoming.baseRevision < incoming.newRevision)
    (hs'' : s'' = commitStaging s' staged' incoming.newRevision) :
    applyDeliveredTransaction s (encodeTransaction merged) = (s'', .ok merged.newRevision) := by
  obtain ⟨before, after, all, hbefore, hafter, hall, hscalar, -, hmem, hlast⟩ := h.writes
  rw [hbefore] at htail
  rw [hafter] at hincoming
  have hfirst : Overwritten s (lastWrite before) s' := by
    obtain ⟨hroots, hused, hmodels, hmodelIds, hlimits, habsent, hpresent⟩ :=
      applies_writes_overwrite htail
    rw [hs']
    exact ⟨hroots, hused, hmodels, hmodelIds, rfl, habsent, hpresent⟩
  have hboth : Overwritten s (lastWrite all) s'' := by
    have hsecond := hfirst.trans (applies_writes_overwrite hincoming)
    have hkeys : (fun key => (lastWrite after key).or (lastWrite before key)) = lastWrite all := by
      funext key
      rw [hlast, lastWrite_append]
    rw [hkeys] at hsecond
    obtain ⟨hroots, hused, hmodels, hmodelIds, hlimits, habsent, hpresent⟩ := hsecond
    rw [hs'']
    exact ⟨hroots, hused, hmodels, hmodelIds, hfirst.limits, habsent, hpresent⟩
  have hwritable : ∀ write ∈ all, Writable s write := by
    intro write hwrite
    rcases hmem write hwrite with hold | hnew
    · exact applies_writes_iff.mp ⟨staged, htail⟩ write hold
    · exact (hfirst.writable_iff write).mp (applies_writes_iff.mp ⟨staged', hincoming⟩ write hnew)
  obtain ⟨result, happlies⟩ := applies_writes_iff.mpr hwritable
  have hresult := applies_writes_overwrite happlies
  have hclass : ∃ delivered, classify (imageTransaction merged) = .ok delivered := by
    rw [imageTransaction_writes hall]
    refine classify_delta (by rw [h.baseRevision]; exact hnext) ?_ hscalar
    rw [h.newRevision]
    have hspan' := hspan
    rw [← h.contiguous] at hspan'
    exact Nat.lt_of_le_of_lt (Nat.succ_le_of_lt hforward) hspan'
  have hsafe : ∀ op ∈ merged.operations, WireSafe op := by
    rw [hall]
    intro op hop
    obtain ⟨write, -, rfl⟩ := List.mem_map.mp hop
    exact writeOp_wireSafe write
  rw [applyDelivered_encoded hclass (h.baseRevision.trans hbase) hsafe hfits, hall,
    happlies.staged 0, landed]
  have hsame : commitStaging s result merged.newRevision = s'' := by
    obtain ⟨hroots, hused, hmodels, hmodelIds, hlimits, habsent, hpresent⟩ := hresult
    have hcommitted : Overwritten s (lastWrite all) (commitStaging s result merged.newRevision) :=
      ⟨hroots, hused, hmodels, hmodelIds, rfl, habsent, hpresent⟩
    refine hcommitted.unique hboth ?_
    rw [hs'']
    exact h.newRevision
  rw [hsame]

end Srui.Sessiond.Coalescing

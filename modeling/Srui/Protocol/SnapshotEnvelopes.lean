import Srui.Basic.Slices
import Srui.Protocol.SnapshotReassembly

/-!
The size of the envelopes that a planned snapshot is split into.
-/

namespace Srui.Protocol.SnapshotEnvelopes

open Basic.Machine Basic.Slices Basic.Varints SemanticTree.Wire Protocol.SnapshotFraming
open Protocol.SnapshotReassembly

def varintFieldLen (n : Nat) : Nat := if n ≠ 0 then 1 + encodedLenVarint n else 0

def framedPayloadLen (encodedLen : WireOperation → Nat) (transaction : WireTransaction) : Nat :=
  let length := varintFieldLen transaction.baseRevision + varintFieldLen transaction.newRevision +
    (transaction.operations.map (operationFieldLen encodedLen)).sum +
    varintFieldLen transaction.priority
  1 + encodedLenVarint length + length

theorem framedPayloadLen_eq {encodedLen : WireOperation → Nat} {transaction : WireTransaction}
    (hbase : transaction.baseRevision = 0) :
    framedPayloadLen encodedLen transaction =
      envelopeLen transaction.newRevision transaction.priority
        (transaction.operations.map (operationFieldLen encodedLen)).sum := by
  have hlength : varintFieldLen transaction.baseRevision +
      varintFieldLen transaction.newRevision +
      (transaction.operations.map (operationFieldLen encodedLen)).sum +
      varintFieldLen transaction.priority =
    (transaction.operations.map (operationFieldLen encodedLen)).sum +
      varintFieldLen transaction.newRevision + varintFieldLen transaction.priority := by
    rw [hbase, show varintFieldLen 0 = 0 from rfl]
    omega
  unfold framedPayloadLen
  dsimp only
  rw [hlength]
  rfl

section Packing

variable {newRevision priority maxFrameSize : Nat} {lens : List Nat}

def rangeLen (lens : List Nat) (range : Nat × Nat) : Nat := (slice lens range.1 range.2).sum

/-- What the packing loop keeps of the lengths: every finished part fits a frame, and so does the
open one as long as it has a field. -/
structure Fitting (newRevision priority maxFrameSize : Nat) (lens : List Nat) (packing : Packing)
    (index : Nat) : Prop where
  closed : ∀ range ∈ packing.parts,
    envelopeLen newRevision priority (rangeLen lens range) ≤ maxFrameSize
  behind : packing.start ≤ index
  current : packing.current = rangeLen lens (packing.start, index)
  fits : packing.start < index →
    envelopeLen newRevision priority packing.current ≤ maxFrameSize

theorem rangeLen_succ {start index len : Nat} (hstart : start ≤ index)
    (hget : lens[index]? = some len) :
    rangeLen lens (start, index + 1) = rangeLen lens (start, index) + len := by
  have hone : slice lens index (index + 1) = [len] := by
    obtain ⟨hlt, hlen⟩ := List.getElem?_eq_some_iff.mp hget
    rw [slice, Nat.add_sub_cancel_left, List.drop_eq_getElem_cons hlt, hlen]
    rfl
  unfold rangeLen
  rw [← slice_append_slice lens hstart (Nat.le_succ index), List.sum_append, hone]
  rfl

theorem rangeLen_self (start : Nat) : rangeLen lens (start, start) = 0 := by
  rw [rangeLen, slice_self]
  rfl

theorem pack_fitting {packing result : Packing} {index : Nat} {rest : List Nat}
    (hpack : pack newRevision priority maxFrameSize packing index rest = .ok result)
    (hrest : lens.drop index = rest)
    (h : Fitting newRevision priority maxFrameSize lens packing index) :
    Fitting newRevision priority maxFrameSize lens result (index + rest.length) := by
  induction rest generalizing packing index with
  | nil =>
    obtain rfl := Except.ok.inj hpack
    exact h
  | cons len rest ih =>
    rw [pack] at hpack
    dsimp only at hpack
    split at hpack
    · cases hpack
    rename_i halone
    have hget : lens[index]? = some len := by
      rw [← Nat.add_zero index, ← List.getElem?_drop, hrest]
      rfl
    have hnext : lens.drop (index + 1) = rest := by
      rw [← List.drop_drop, hrest]
      rfl
    rw [List.length_cons, Nat.add_comm rest.length 1, ← Nat.add_assoc]
    apply ih hpack hnext
    split
    · -- The open part ends before this field, which starts the next one.
      rename_i hsplit
      refine ⟨?_, Nat.le_succ index, ?_, fun _ => ?_⟩
      · intro range hrange
        rcases List.mem_append.mp hrange with hold | hnew
        · exact h.closed range hold
        · obtain rfl := List.mem_singleton.mp hnew
          rw [← h.current]
          exact h.fits hsplit.1
      · change 0 + len = _
        rw [rangeLen_succ (Nat.le_refl index) hget, rangeLen_self]
      · change envelopeLen newRevision priority (0 + len) ≤ maxFrameSize
        rw [Nat.zero_add]
        exact Nat.not_lt.mp halone
    · rename_i hopen
      have hcurrent : packing.current + len = rangeLen lens (packing.start, index + 1) := by
        rw [rangeLen_succ h.behind hget, h.current]
      refine ⟨h.closed, Nat.le_succ_of_le h.behind, hcurrent, fun _ => ?_⟩
      change envelopeLen newRevision priority (packing.current + len) ≤ maxFrameSize
      rcases Nat.lt_or_ge packing.start index with hbefore | hfirst
      · exact Nat.not_lt.mp fun hover => hopen ⟨hbefore, hover⟩
      · have hsame : packing.start = index := Nat.le_antisymm h.behind hfirst
        rw [h.current, hsame, rangeLen_self, Nat.zero_add]
        exact Nat.not_lt.mp halone

end Packing

theorem mem_takeParts {start : Nat} {parts : List (Nat × Nat)}
    {operations taken : List WireOperation} (hranges : Ranges start parts)
    (hforward : ∀ range ∈ parts, range.1 ≤ range.2)
    (htaken : taken ∈ takeParts parts (operations.drop start)) :
    ∃ range ∈ parts, taken = slice operations range.1 range.2 := by
  induction parts generalizing start with
  | nil => cases htaken
  | cons range rest ih =>
    obtain ⟨rfl, hrest⟩ := hranges
    have hfirst := hforward range List.mem_cons_self
    rw [takeParts, List.drop_drop, Nat.add_sub_cancel' hfirst] at htaken
    rcases List.mem_cons.mp htaken with rfl | hlater
    · exact ⟨range, List.mem_cons_self, rfl⟩
    · obtain ⟨other, hmem, hslice⟩ :=
        ih hrest (fun other hother => hforward other (List.mem_cons_of_mem _ hother)) hlater
      exact ⟨other, List.mem_cons_of_mem _ hmem, hslice⟩

section Split

variable {encodedLen : WireOperation → Nat} {snapshot : WireTransaction}
  {maxFrameSize maxParts : Nat} {plan : SnapshotFramePlan} {envelopes : List WireTransaction}

theorem split_parts (hcovers : Covers plan snapshot.operations.length)
    (h : split plan snapshot = .ok envelopes) :
    plan.parts.length = 1 ∧ envelopes = [snapshot] ∨
      plan.parts.length ≠ 1 ∧ ∀ envelope ∈ envelopes, ∃ range ∈ plan.parts,
        envelope = { snapshot with operations := slice snapshot.operations range.1 range.2 } := by
  unfold SnapshotFraming.split at h
  dsimp only at h
  split at h
  · cases h
  split at h
  · rename_i hone
    exact .inl ⟨hone, (Except.ok.inj h).symm⟩
  · rename_i hmany
    refine .inr ⟨hmany, ?_⟩
    rw [← Except.ok.inj h]
    intro envelope henvelope
    obtain ⟨taken, htaken, rfl⟩ := List.mem_map.mp henvelope
    rw [← List.drop_zero (l := snapshot.operations)] at htaken
    obtain ⟨range, hrange, rfl⟩ := mem_takeParts hcovers.ranges
      (fun range hrange => Nat.le_of_lt (hcovers.nonempty hmany range hrange)) htaken
    exact ⟨range, hrange, rfl⟩

theorem split_fits (hplan : planSnapshotFrames encodedLen snapshot maxFrameSize maxParts = .ok plan)
    (h : split plan snapshot = .ok envelopes) (hfilled : snapshot.operations ≠ []) :
    ∀ envelope ∈ envelopes, framedPayloadLen encodedLen envelope ≤ maxFrameSize := by
  have hcovers := planSnapshotFrames_covers hplan
  have hparts := split_parts hcovers h
  unfold planSnapshotFrames at hplan
  split at hplan
  · cases hplan
  rename_i hbase
  have hbase : snapshot.baseRevision = 0 := not_not.mp hbase
  dsimp only at hplan
  split at hplan
  · rename_i hwhole
    obtain rfl := Except.ok.inj hplan
    rcases hparts with ⟨-, rfl⟩ | ⟨hmany, -⟩
    · intro envelope henvelope
      obtain rfl := List.mem_singleton.mp henvelope
      rw [framedPayloadLen_eq hbase]
      exact hwhole
    · exact absurd rfl hmany
  rename_i hlarge
  split at hplan
  · cases hplan
  rename_i packing hpack
  split at hplan
  · cases hplan
  obtain rfl := Except.ok.inj hplan
  obtain ⟨hclosed, hbehind, hcurrent, hfits⟩ :=
    pack_fitting hpack rfl ⟨nofun, Nat.le_refl 0, (rangeLen_self 0).symm, nofun⟩
  rw [Nat.zero_add, List.length_map] at hbehind hcurrent hfits
  have hpacked := pack_packed hpack ⟨trivial, rfl, nofun, .inr ⟨rfl, rfl, rfl⟩⟩
  rw [Nat.zero_add, List.length_map] at hpacked
  have hopen : packing.start < snapshot.operations.length := by
    rcases hpacked.behind with hlt | ⟨hzero, -, -⟩
    · exact hlt
    · exact absurd (List.length_eq_zero_iff.mp hzero) hfilled
  have hall : ∀ range ∈ packing.parts ++ [(packing.start, snapshot.operations.length)],
      envelopeLen snapshot.newRevision snapshot.priority
        (rangeLen (snapshot.operations.map (operationFieldLen encodedLen)) range) ≤
          maxFrameSize := by
    intro range hrange
    rcases List.mem_append.mp hrange with hold | hnew
    · exact hclosed range hold
    · obtain rfl := List.mem_singleton.mp hnew
      rw [← hcurrent]
      exact hfits hopen
  rw [List.length_map] at hparts
  rcases hparts with ⟨hone, rfl⟩ | ⟨-, hranges⟩
  · -- One part only would have been the whole snapshot, which is too large.
    rw [List.length_append, List.length_singleton] at hone
    have hnone : packing.parts = [] := List.length_eq_zero_iff.mp (by omega)
    have hstart : packing.start = 0 := by
      rw [← hpacked.start, hnone]
      rfl
    have hwhole := hall (packing.start, snapshot.operations.length)
      (List.mem_append_right _ (List.mem_singleton_self _))
    rw [hstart, rangeLen, slice, List.drop_zero, Nat.sub_zero,
      ← List.length_map (operationFieldLen encodedLen), List.take_length] at hwhole
    exact absurd hwhole hlarge
  · intro envelope henvelope
    obtain ⟨range, hrange, rfl⟩ := hranges envelope henvelope
    have hrangeLen := hall range hrange
    unfold rangeLen slice at hrangeLen
    rw [← List.map_drop, ← List.map_take] at hrangeLen
    exact le_of_eq_of_le (framedPayloadLen_eq hbase) hrangeLen

theorem planSnapshotFrames_parts
    (hplan : planSnapshotFrames encodedLen snapshot maxFrameSize maxParts = .ok plan) :
    partCount plan ≤ effectiveParts maxParts := by
  unfold planSnapshotFrames at hplan
  split at hplan
  · cases hplan
  dsimp only at hplan
  split at hplan
  · obtain rfl := Except.ok.inj hplan
    exact Nat.le_max_right maxParts 1
  split at hplan
  · cases hplan
  split at hplan
  · cases hplan
  rename_i hparts
  obtain rfl := Except.ok.inj hplan
  exact Nat.not_lt.mp hparts

theorem split_empty (hcovers : Covers plan snapshot.operations.length)
    (h : split plan snapshot = .ok envelopes) (hempty : snapshot.operations = []) :
    ∀ envelope ∈ envelopes, envelope.baseRevision = snapshot.baseRevision ∧
      envelope.newRevision = snapshot.newRevision ∧ envelope.priority = snapshot.priority ∧
      envelope.operations = [] := by
  intro envelope henvelope
  rcases split_parts hcovers h with ⟨-, rfl⟩ | ⟨-, hranges⟩
  · obtain rfl := List.mem_singleton.mp henvelope
    exact ⟨rfl, rfl, rfl, hempty⟩
  · obtain ⟨range, -, rfl⟩ := hranges envelope henvelope
    refine ⟨rfl, rfl, rfl, ?_⟩
    dsimp only
    rw [hempty, slice, List.drop_nil, List.take_nil]

theorem framedPayloadLen_empty (encodedLen : WireOperation → Nat)
    (hbase : snapshot.baseRevision = 0) (hrevision : snapshot.newRevision ≤ u64Max)
    (hpriority : snapshot.priority ≤ u64Max)
    (hempty : snapshot.operations = []) : framedPayloadLen encodedLen snapshot ≤ 64 := by
  have hfield : ∀ n ≤ u64Max, varintFieldLen n ≤ 11 := by
    intro n hn
    unfold varintFieldLen
    split
    · have hlength := length_encodeVarint_lt_pow (k := 10) (n := n) (by decide)
        (Nat.lt_of_le_of_lt hn (by decide))
      change 1 + (encodeVarint n).length ≤ 11
      omega
    · exact Nat.zero_le 11
  unfold framedPayloadLen
  dsimp only
  rw [hbase, hempty, show varintFieldLen 0 = 0 from rfl, List.map_nil, List.sum_nil]
  have hnew := hfield _ hrevision
  have hold := hfield _ hpriority
  have hheader := length_encodeVarint_le
    (0 + varintFieldLen snapshot.newRevision + 0 + varintFieldLen snapshot.priority)
  unfold encodedLenVarint
  omega

end Split

end Srui.Protocol.SnapshotEnvelopes

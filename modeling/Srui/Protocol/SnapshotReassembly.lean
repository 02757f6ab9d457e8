import Srui.Protocol.SnapshotFraming

/-!
The envelopes of a planned snapshot are staged into the snapshot again, and no
sequence of envelopes gets anything else out of an assembler.
-/

namespace Srui.Protocol.SnapshotReassembly

open Basic.Spans SemanticTree.Wire Protocol.SnapshotFraming

/-!
Plans.
-/

abbrev Ranges (start : Nat) (parts : List (Nat × Nat)) : Prop :=
  Abutting Prod.fst Prod.snd start parts

structure Packed (packing : Packing) (index : Nat) : Prop where
  ranges : Ranges 0 packing.parts
  start : reach Prod.snd 0 packing.parts = packing.start
  nonempty : ∀ range ∈ packing.parts, range.1 < range.2
  behind : packing.start < index ∨ index = 0 ∧ packing.start = 0 ∧ packing.parts = []

theorem Packed.close {packing : Packing} {index : Nat} (h : Packed packing index)
    (hopen : packing.start < index) :
    Ranges 0 (packing.parts ++ [(packing.start, index)]) ∧
      (∀ range ∈ packing.parts ++ [(packing.start, index)], range.1 < range.2) := by
  refine ⟨abutting_append.mpr ⟨h.ranges, h.start.symm, trivial⟩, ?_⟩
  intro range hrange
  rcases List.mem_append.mp hrange with hold | hnew
  · exact h.nonempty range hold
  · obtain rfl := List.mem_singleton.mp hnew
    exact hopen

theorem pack_packed {newRevision priority maxFrameSize : Nat} {packing result : Packing}
    {index : Nat} {lens : List Nat}
    (hpack : pack newRevision priority maxFrameSize packing index lens = .ok result)
    (h : Packed packing index) : Packed result (index + lens.length) := by
  induction lens generalizing packing index with
  | nil =>
    obtain rfl := Except.ok.inj hpack
    exact h
  | cons len rest ih =>
    rw [pack] at hpack
    simp only at hpack
    split at hpack
    · simp at hpack
    have hnext := ih hpack
    rw [List.length_cons, Nat.add_comm rest.length 1, ← Nat.add_assoc]
    apply hnext
    split
    · rename_i hsplit
      obtain ⟨hranges, hnonempty⟩ := h.close hsplit.1
      exact ⟨hranges, reach_append 0 packing.parts [(packing.start, index)], hnonempty,
        Or.inl (Nat.lt_succ_self index)⟩
    · refine ⟨h.ranges, h.start, h.nonempty, Or.inl ?_⟩
      rcases h.behind with hlt | ⟨rfl, hstart, -⟩
      · exact Nat.lt_succ_of_lt hlt
      · rw [hstart]
        exact Nat.zero_lt_one

/-- A plan for a number of operations: its ranges cover them, and none is empty
unless there is only one. -/
structure Covers (plan : SnapshotFramePlan) (count : Nat) : Prop where
  ranges : Ranges 0 plan.parts
  total : ∃ last, plan.parts.getLast? = some last ∧ last.2 = count
  nonempty : plan.parts.length ≠ 1 → ∀ range ∈ plan.parts, range.1 < range.2

theorem single_covers (count : Nat) : Covers (.single count) count := by
  refine ⟨⟨rfl, trivial⟩, ⟨(0, count), rfl, rfl⟩, ?_⟩
  intro hne
  simp [SnapshotFramePlan.single] at hne

variable {plan : SnapshotFramePlan} {snapshot : WireTransaction}

theorem planSnapshotFrames_covers {encodedLen : WireOperation → Nat}
    {maxFrameSize maxParts : Nat}
    (h : planSnapshotFrames encodedLen snapshot maxFrameSize maxParts = .ok plan) :
    Covers plan snapshot.operations.length := by
  unfold planSnapshotFrames at h
  split at h
  · simp at h
  simp only at h
  rw [List.length_map] at h
  split at h
  · rw [← Except.ok.inj h]
    exact single_covers _
  split at h
  · simp at h
  rename_i packing hpack
  split at h
  · simp at h
  have hpacked := pack_packed hpack ⟨trivial, rfl, by simp, Or.inr ⟨rfl, rfl, rfl⟩⟩
  rw [List.length_map, Nat.zero_add] at hpacked
  rw [← Except.ok.inj h]
  rcases hpacked.behind with hlt | ⟨hzero, hstart, hparts⟩
  · obtain ⟨hranges, hnonempty⟩ := hpacked.close hlt
    exact ⟨hranges, ⟨_, List.getLast?_concat, rfl⟩, fun _ => hnonempty⟩
  · rw [hparts, hstart, hzero]
    exact single_covers 0

/-!
The split.
-/

theorem takeParts_spec {start : Nat} {parts : List (Nat × Nat)} {operations : List WireOperation}
    (hranges : Ranges start parts) (hnonempty : ∀ range ∈ parts, range.1 < range.2)
    (hlength : start + operations.length = reach Prod.snd start parts) :
    (takeParts parts operations).flatten = operations ∧
      (takeParts parts operations).length = parts.length ∧
      ∀ taken ∈ takeParts parts operations, taken ≠ [] := by
  induction parts generalizing start operations with
  | nil =>
    have hempty : operations.length = 0 := by
      change start + operations.length = start at hlength
      omega
    rw [List.length_eq_zero_iff.mp hempty]
    simp [takeParts]
  | cons range rest ih =>
    obtain ⟨rfl, hrest⟩ := hranges
    have hfirst := hnonempty range List.mem_cons_self
    have hothers : ∀ other ∈ rest, other.1 < other.2 :=
      fun other hother => hnonempty other (List.mem_cons_of_mem range hother)
    have hreach : range.2 ≤ reach Prod.snd range.2 rest :=
      le_reach (fun other hother => Nat.le_of_lt (hothers other hother)) hrest
    change range.1 + operations.length = reach Prod.snd range.2 rest at hlength
    have hleft : range.2 + (operations.drop (range.2 - range.1)).length =
        reach Prod.snd range.2 rest := by
      rw [List.length_drop]
      omega
    obtain ⟨hflatten, hcount, hne⟩ := ih hrest hothers hleft
    refine ⟨?_, ?_, ?_⟩
    · rw [takeParts, List.flatten_cons, hflatten, List.take_append_drop]
    · rw [takeParts, List.length_cons, List.length_cons, hcount]
    · intro taken htaken
      rw [takeParts] at htaken
      rcases List.mem_cons.mp htaken with rfl | hmem
      · intro hnil
        have hzero := congrArg List.length hnil
        rw [List.length_take, List.length_nil] at hzero
        omega
      · exact hne taken hmem

theorem split_spec
    (h : Covers plan snapshot.operations.length) (hmany : partCount plan ≠ 1) :
    ∃ envelopes, split plan snapshot = .ok envelopes ∧ envelopes.length = partCount plan ∧
      (∀ envelope ∈ envelopes, envelope.baseRevision = snapshot.baseRevision ∧
        envelope.newRevision = snapshot.newRevision ∧ envelope.priority = snapshot.priority ∧
        envelope.operations ≠ []) ∧
      (envelopes.map WireTransaction.operations).flatten = snapshot.operations := by
  obtain ⟨last, hlast, htotal⟩ := h.total
  have hlength : 0 + snapshot.operations.length = reach Prod.snd 0 plan.parts := by
    rw [reach_getLast hlast, htotal, Nat.zero_add]
  obtain ⟨hflatten, hcount, hne⟩ := takeParts_spec h.ranges (h.nonempty hmany) hlength
  refine ⟨(takeParts plan.parts snapshot.operations).map fun operations =>
    { snapshot with operations := operations }, ?_, ?_, ?_, ?_⟩
  · rw [SnapshotFraming.split]
    simp only [hlast, Option.map_some, Option.getD_some]
    rw [if_neg (by rw [htotal]; simp)]
    exact if_neg hmany
  · rw [List.length_map, hcount, partCount]
  · intro envelope henvelope
    obtain ⟨taken, htaken, rfl⟩ := List.mem_map.mp henvelope
    exact ⟨rfl, rfl, rfl, hne taken htaken⟩
  · rw [List.map_map]
    exact (congrArg List.flatten (List.map_id _)).trans hflatten

/-!
The assembler.
-/

/-- How `accept` ends: with the envelope refused, staged, or completing the
snapshot. -/
theorem accept_cases (assembler : SnapshotAssembler) (part : WireTransaction) :
    (∃ e, accept assembler part = (assembler, .error e)) ∨
      (assembler.receivedParts < assembler.expectedParts ∧ part.baseRevision = 0 ∧
        part.newRevision = assembler.snapshotRevision ∧
        ∃ next, next.snapshotRevision = assembler.snapshotRevision ∧
          next.expectedParts = assembler.expectedParts ∧
          next.maxOperations = assembler.maxOperations ∧
          next.receivedParts = assembler.receivedParts + 1 ∧
          ((accept assembler part = (next, .ok none) ∧
              next.receivedParts < next.expectedParts) ∨
            ∃ snapshot, accept assembler part = (next, .ok (some snapshot)) ∧
              next.receivedParts = next.expectedParts ∧
              snapshot.operations.length ≤ assembler.maxOperations)) := by
  unfold accept
  simp only
  split
  · exact Or.inl ⟨_, rfl⟩
  rename_i hroom
  split
  · exact Or.inl ⟨_, rfl⟩
  rename_i hpart
  rw [not_or, not_not, not_not] at hpart
  split
  · exact Or.inl ⟨_, rfl⟩
  split
  · exact Or.inl ⟨_, rfl⟩
  rename_i hstaged
  refine Or.inr ⟨Nat.not_le.mp hroom, hpart.1, hpart.2, ?_⟩
  split
  · rename_i hone
    have hfull : assembler.receivedParts + 1 = assembler.expectedParts := by omega
    refine ⟨_, ?_, ?_, ?_, ?_, Or.inr ⟨part, rfl, hfull, by omega⟩⟩ <;> rfl
  split
  · rename_i hmore
    refine ⟨_, ?_, ?_, ?_, ?_, Or.inl ⟨rfl, hmore⟩⟩ <;> rfl
  · rename_i hlast
    have hfull : assembler.receivedParts + 1 = assembler.expectedParts := by omega
    have hlength : (assembler.operations ++ part.operations).length ≤ assembler.maxOperations := by
      rw [List.length_append]
      omega
    refine ⟨_, ?_, ?_, ?_, ?_, Or.inr ⟨_, rfl, hfull, hlength⟩⟩ <;> rfl

/-- What an assembler may return for envelope `i`. -/
structure Completes (assembler : SnapshotAssembler) (parts : List WireTransaction) (i : Nat)
    (snapshot : WireTransaction) : Prop where
  accepted : (acceptedParts assembler (parts.take (i + 1))).length + assembler.receivedParts =
    assembler.expectedParts
  announced : ∀ part ∈ acceptedParts assembler (parts.take (i + 1)),
    part.baseRevision = 0 ∧ part.newRevision = assembler.snapshotRevision
  bounded : snapshot.operations.length ≤ assembler.maxOperations
  last : ∀ j snapshot', (acceptAll assembler parts)[j]? = some (.ok (some snapshot')) → j ≤ i

theorem acceptAll_complete {assembler : SnapshotAssembler}
    (h : assembler.expectedParts ≤ assembler.receivedParts) (parts : List WireTransaction)
    (j : Nat) (snapshot : WireTransaction) :
    (acceptAll assembler parts)[j]? ≠ some (.ok (some snapshot)) := by
  induction parts generalizing j with
  | nil => simp [acceptAll]
  | cons part rest ih =>
    rcases accept_cases assembler part with ⟨e, hrefused⟩ | ⟨hroom, -⟩
    · rw [acceptAll, hrefused]
      cases j with
      | zero => simp
      | succ j =>
        rw [List.getElem?_cons_succ]
        exact ih j
    · exact absurd hroom (Nat.not_lt.mpr h)

theorem acceptAll_completes {assembler : SnapshotAssembler} {parts : List WireTransaction} {i : Nat}
    (h : (acceptAll assembler parts)[i]? = some (.ok (some snapshot))) :
    Completes assembler parts i snapshot := by
  induction parts generalizing assembler i with
  | nil => simp [acceptAll] at h
  | cons part rest ih =>
    rw [acceptAll] at h
    rcases accept_cases assembler part with ⟨e, hrefused⟩ |
      ⟨-, hbase, hnew, next, hrevision, hexpected, hmax, hreceived, hstaged | hcompleted⟩
    · rw [hrefused] at h
      cases i with
      | zero => simp at h
      | succ i =>
        obtain ⟨haccepted, hannounced, hbounded, hlast⟩ := ih h
        refine ⟨?_, ?_, hbounded, ?_⟩
        · rw [List.take_succ_cons, acceptedParts, hrefused]
          exact haccepted
        · rw [List.take_succ_cons, acceptedParts, hrefused]
          exact hannounced
        · intro j snapshot' hj
          rw [acceptAll, hrefused] at hj
          cases j with
          | zero => exact Nat.zero_le _
          | succ j => exact Nat.succ_le_succ (hlast j snapshot' hj)
    · obtain ⟨haccept, -⟩ := hstaged
      rw [haccept] at h
      cases i with
      | zero => simp at h
      | succ i =>
        obtain ⟨haccepted, hannounced, hbounded, hlast⟩ := ih h
        rw [hexpected, hreceived] at haccepted
        refine ⟨?_, ?_, hmax ▸ hbounded, ?_⟩
        · rw [List.take_succ_cons, acceptedParts, haccept, List.length_cons]
          omega
        · rw [List.take_succ_cons, acceptedParts, haccept]
          intro other hother
          rcases List.mem_cons.mp hother with rfl | hrest
          · exact ⟨hbase, hnew⟩
          · exact hrevision ▸ hannounced other hrest
        · intro j snapshot' hj
          rw [acceptAll, haccept] at hj
          cases j with
          | zero => exact Nat.zero_le _
          | succ j => exact Nat.succ_le_succ (hlast j snapshot' hj)
    · obtain ⟨returned, haccept, hfull, hbounded⟩ := hcompleted
      have hdone : next.expectedParts ≤ next.receivedParts := Nat.le_of_eq hfull.symm
      rw [haccept] at h
      cases i with
      | zero =>
        have hsame : returned = snapshot := by simpa using h
        subst hsame
        refine ⟨?_, ?_, hbounded, ?_⟩
        · rw [List.take_succ_cons, List.take_zero, acceptedParts, haccept, acceptedParts,
            List.length_singleton]
          omega
        · rw [List.take_succ_cons, List.take_zero, acceptedParts, haccept, acceptedParts]
          intro other hother
          obtain rfl := List.mem_singleton.mp hother
          exact ⟨hbase, hnew⟩
        · intro j snapshot' hj
          rw [acceptAll, haccept] at hj
          cases j with
          | zero => exact Nat.le_refl _
          | succ j => exact absurd hj (acceptAll_complete hdone rest j snapshot')
      | succ i => exact absurd h (acceptAll_complete hdone rest i snapshot)

/-!
The two halves together.
-/

theorem acceptAll_envelopes (assembler : SnapshotAssembler) (priority : Nat)
    {envelopes : List WireTransaction} (hne : envelopes ≠ [])
    (hparts : ∀ envelope ∈ envelopes, envelope.baseRevision = 0 ∧
      envelope.newRevision = assembler.snapshotRevision ∧ envelope.priority = priority ∧
      envelope.operations ≠ [])
    (hmany : 1 < assembler.expectedParts)
    (hcount : assembler.receivedParts + envelopes.length = assembler.expectedParts)
    (hpriority : assembler.receivedParts ≠ 0 → assembler.priority = priority)
    (hlimit : (assembler.operations ++
      (envelopes.map WireTransaction.operations).flatten).length ≤ assembler.maxOperations) :
    acceptAll assembler envelopes = List.replicate (envelopes.length - 1) (.ok none) ++
      [.ok (some ⟨0, assembler.snapshotRevision,
        assembler.operations ++ (envelopes.map WireTransaction.operations).flatten, priority⟩)] := by
  induction envelopes generalizing assembler with
  | nil => exact absurd rfl hne
  | cons part rest ih =>
    obtain ⟨hbase, hnew, hprio, hops⟩ := hparts part List.mem_cons_self
    rw [List.length_cons] at hcount
    rw [List.map_cons, List.flatten_cons, ← List.append_assoc] at hlimit ⊢
    have hstaged : assembler.operations.length + part.operations.length ≤
        assembler.maxOperations := by
      rw [List.length_append, List.length_append] at hlimit
      omega
    have hkept : (if assembler.receivedParts = 0 then part.priority else assembler.priority) =
        priority := by
      split
      · exact hprio
      · rename_i hlater
        exact hpriority hlater
    have haccept : accept assembler part =
        if assembler.receivedParts + 1 < assembler.expectedParts then
          ({ assembler with
              receivedParts := assembler.receivedParts + 1
              priority := priority
              operations := assembler.operations ++ part.operations }, .ok none)
        else
          ({ assembler with
              receivedParts := assembler.receivedParts + 1
              priority := priority
              operations := [] },
            .ok (some ⟨0, assembler.snapshotRevision,
              assembler.operations ++ part.operations, priority⟩)) := by
      unfold accept
      simp only [hkept]
      rw [if_neg (by omega), if_neg (by simp [hbase, hnew]), if_neg (by simp [hops]),
        if_neg (by omega), if_neg (by omega)]
    rw [acceptAll, haccept]
    cases rest with
    | nil =>
      rw [List.length_nil] at hcount
      rw [if_neg (by omega)]
      simp [acceptAll]
    | cons next more =>
      rw [List.length_cons] at hcount
      rw [if_pos (by omega)]
      have hrest := ih
        { assembler with
          receivedParts := assembler.receivedParts + 1
          priority := priority
          operations := assembler.operations ++ part.operations }
        (by simp) (fun other hother => hparts other (List.mem_cons_of_mem part hother)) hmany
        (by simp only [List.length_cons]; omega) (fun _ => rfl) hlimit
      rw [hrest]
      simp [List.replicate_succ]

def PlannedFor (encodedLen : WireOperation → Nat) (snapshot : WireTransaction)
    (plan : SnapshotFramePlan) : Prop :=
  plan = .single snapshot.operations.length ∨ ∃ maxFrameSize maxParts,
    planSnapshotFrames encodedLen snapshot maxFrameSize maxParts = .ok plan

theorem announcedParts_effective (h : partCount plan ≠ 0) :
    effectiveParts (announcedParts plan) = partCount plan := by
  rw [announcedParts, effectiveParts]
  split
  · rename_i hone
    rw [hone]
    rfl
  · exact Nat.max_eq_left (Nat.one_le_iff_ne_zero.mpr h)

theorem split_accepted {encodedLen : WireOperation → Nat} {maxParts maxOperations : Nat}
    (hbase : snapshot.baseRevision = 0) (hplan : PlannedFor encodedLen snapshot plan)
    (hparts : partCount plan ≤ maxParts) (hlimit : snapshot.operations.length ≤ maxOperations) :
    ∃ envelopes assembler, split plan snapshot = .ok envelopes ∧
      envelopes.length = partCount plan ∧
      SnapshotAssembler.new snapshot.newRevision (announcedParts plan) maxParts maxOperations =
        .ok assembler ∧
      acceptAll assembler envelopes =
        List.replicate (partCount plan - 1) (.ok none) ++ [.ok (some snapshot)] := by
  have hcovers : Covers plan snapshot.operations.length := by
    rcases hplan with rfl | ⟨maxFrameSize, maxParts', hplanned⟩
    · exact single_covers _
    · exact planSnapshotFrames_covers hplanned
  obtain ⟨last, hlast, htotal⟩ := hcovers.total
  have hcount : partCount plan ≠ 0 := by
    intro hzero
    rw [List.length_eq_zero_iff.mp hzero] at hlast
    simp at hlast
  have hnew : SnapshotAssembler.new snapshot.newRevision (announcedParts plan) maxParts
      maxOperations = .ok ⟨snapshot.newRevision, partCount plan, 0, maxOperations, 0, []⟩ := by
    rw [SnapshotAssembler.new, announcedParts_effective hcount]
    exact if_neg (Nat.not_lt.mpr (Nat.le_trans hparts (Nat.le_max_left _ _)))
  rcases eq_or_ne (partCount plan) 1 with hone | hmany
  · refine ⟨[snapshot], _, ?_, hone.symm, hnew, ?_⟩
    · rw [SnapshotFraming.split]
      simp only [hlast, Option.map_some, Option.getD_some]
      rw [if_neg (by rw [htotal]; simp)]
      exact if_pos hone
    · simp [acceptAll, accept, hone, hbase, Nat.not_lt.mpr hlimit]
  · obtain ⟨envelopes, hsplit, hlength, henvelopes, hflatten⟩ := split_spec hcovers hmany
    have hmore : 1 < partCount plan := by omega
    refine ⟨envelopes, _, hsplit, hlength, hnew, ?_⟩
    rw [acceptAll_envelopes _ snapshot.priority (List.length_pos_iff.mp (by omega))
      (fun envelope h => hbase ▸ henvelopes envelope h) hmore (by simp [hlength])
      (by simp) (by simpa [hflatten] using hlimit), hflatten, hlength]
    simp only [List.nil_append]
    rw [← hbase]

/-- Feeding the envelopes of a planned snapshot in order gives the snapshot with
the last one and nothing before; and whatever is fed to an assembler, it returns
at most one snapshot, with exactly the announced number of envelopes accepted,
all of the announced revision, and within the operation limit. -/
theorem snapshot_reassembly (encodedLen : WireOperation → Nat) :
    (∀ (snapshot : WireTransaction) (plan : SnapshotFramePlan) (maxParts maxOperations : Nat),
      snapshot.baseRevision = 0 → PlannedFor encodedLen snapshot plan →
      partCount plan ≤ maxParts → snapshot.operations.length ≤ maxOperations →
      ∃ envelopes assembler, split plan snapshot = .ok envelopes ∧
        envelopes.length = partCount plan ∧
        SnapshotAssembler.new snapshot.newRevision (announcedParts plan) maxParts maxOperations =
          .ok assembler ∧
        acceptAll assembler envelopes =
          List.replicate (partCount plan - 1) (.ok none) ++ [.ok (some snapshot)]) ∧
    ∀ (snapshotRevision announced maxParts maxOperations : Nat) (assembler : SnapshotAssembler),
      SnapshotAssembler.new snapshotRevision announced maxParts maxOperations = .ok assembler →
      ∀ (parts : List WireTransaction) (i : Nat) (snapshot : WireTransaction),
        (acceptAll assembler parts)[i]? = some (.ok (some snapshot)) →
        (acceptedParts assembler (parts.take (i + 1))).length = assembler.expectedParts ∧
        (∀ part ∈ acceptedParts assembler (parts.take (i + 1)),
          part.baseRevision = 0 ∧ part.newRevision = snapshotRevision) ∧
        snapshot.operations.length ≤ maxOperations ∧
        ∀ j snapshot', (acceptAll assembler parts)[j]? = some (.ok (some snapshot')) → j = i := by
  refine ⟨?_, ?_⟩
  · intro snapshot plan maxParts maxOperations hbase hplan hparts hlimit
    exact split_accepted hbase hplan hparts hlimit
  · intro snapshotRevision announced maxParts maxOperations assembler hnew parts i snapshot h
    rw [SnapshotAssembler.new] at hnew
    split at hnew
    · simp at hnew
    obtain rfl := Except.ok.inj hnew
    have hcompletes := acceptAll_completes h
    refine ⟨hcompletes.accepted, hcompletes.announced, hcompletes.bounded, ?_⟩
    intro j snapshot' hj
    exact Nat.le_antisymm (hcompletes.last j snapshot' hj) ((acceptAll_completes hj).last i snapshot h)

/-- A snapshot of three operations, delivered in frames that hold two of them. -/
def smallSnapshot : WireTransaction :=
  ⟨0, 7, [.deleteNode 1, .deleteNode 2, .deleteNode 3], 1⟩

theorem smallSnapshot_planned :
    planSnapshotFrames (fun _ => 10) smallSnapshot 32 16 = .ok ⟨[(0, 2), (2, 3)]⟩ := by
  decide +kernel

theorem smallSnapshot_reassembled :
    ∃ envelopes assembler,
      split ⟨[(0, 2), (2, 3)]⟩ smallSnapshot = .ok envelopes ∧ envelopes.length = 2 ∧
      SnapshotAssembler.new 7 2 16 8 = .ok assembler ∧
      acceptAll assembler envelopes = [.ok none, .ok (some smallSnapshot)] ∧
      (acceptedParts assembler (envelopes.take 2)).length = assembler.expectedParts := by
  obtain ⟨envelopes, assembler, hsplit, hlength, hnew, hresults⟩ :=
    (snapshot_reassembly fun _ => 10).1 smallSnapshot ⟨[(0, 2), (2, 3)]⟩ 16 8 rfl
      (Or.inr ⟨32, 16, smallSnapshot_planned⟩) (by decide) (by decide)
  refine ⟨envelopes, assembler, hsplit, hlength, hnew, hresults, ?_⟩
  exact ((snapshot_reassembly fun _ => 10).2 7 2 16 8 assembler hnew envelopes 1 smallSnapshot
    (by rw [hresults]; rfl)).1

end Srui.Protocol.SnapshotReassembly

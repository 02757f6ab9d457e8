import Srui.Basic.Packings
import Srui.Protocol.SnapshotEnvelopes

/-!
What the plan of a snapshot is worth: its ranges cover the operations, its envelopes fit the frame,
and no other division of the operations has fewer envelopes.
-/

namespace Srui.Protocol.SnapshotPlans

open Basic.Machine Basic.Packings Basic.Spans Basic.Varints SemanticTree.Wire
open Protocol.SnapshotFraming Protocol.SnapshotReassembly Protocol.SnapshotEnvelopes

variable {encodedLen : WireOperation → Nat} {snapshot : WireTransaction}
  {maxFrameSize maxParts : Nat} {plan : SnapshotFramePlan}

/-! ### Plans that fit -/

def indices (range : Nat × Nat) : List Nat := List.range' range.1 (range.2 - range.1)

theorem flatten_indices {start : Nat} {parts : List (Nat × Nat)} (hranges : Ranges start parts)
    (hforward : ∀ range ∈ parts, range.1 ≤ range.2) :
    (parts.map indices).flatten = List.range' start (reach Prod.snd start parts - start) := by
  induction parts generalizing start with
  | nil => simp [reach]
  | cons range rest ih =>
    obtain ⟨rfl, hrest⟩ := hranges
    have hfirst := hforward range List.mem_cons_self
    have hothers : ∀ other ∈ rest, other.1 ≤ other.2 :=
      fun other hother => hforward other (List.mem_cons_of_mem _ hother)
    have hlast : range.2 ≤ reach Prod.snd range.2 rest := le_reach hothers hrest
    rw [List.map_cons, List.flatten_cons, ih hrest hothers, indices]
    change _ = List.range' range.1 (reach Prod.snd range.2 rest - range.1)
    have hsplit : reach Prod.snd range.2 rest - range.1 =
        (range.2 - range.1) + (reach Prod.snd range.2 rest - range.2) := by omega
    rw [hsplit, ← List.range'_append_1, Nat.add_sub_cancel' hfirst]

theorem Covers.flatten {count : Nat} (h : Covers plan count) :
    (plan.parts.map indices).flatten = List.range count := by
  obtain ⟨last, hlast, htotal⟩ := h.total
  have hforward : ∀ range ∈ plan.parts, range.1 ≤ range.2 := by
    intro range hrange
    rcases Classical.em (plan.parts.length = 1) with hone | hmany
    · obtain ⟨only, honly⟩ := List.length_eq_one_iff.mp hone
      have hstart := h.ranges
      rw [honly] at hrange hstart
      rw [List.mem_singleton.mp hrange, hstart.1]
      exact Nat.zero_le _
    · exact Nat.le_of_lt (h.nonempty hmany range hrange)
  rw [flatten_indices h.ranges hforward, reach_getLast hlast, htotal, Nat.sub_zero,
    List.range_eq_range']

/-- The ranges divide the operations in order, there are no more than allowed, and every envelope
fits the frame. -/
structure PlanFits (encodedLen : WireOperation → Nat) (snapshot : WireTransaction)
    (maxFrameSize maxParts : Nat) (plan : SnapshotFramePlan) : Prop where
  divides : (plan.parts.map indices).flatten = List.range snapshot.operations.length
  few : plan.parts.length ≤ max maxParts 1
  fits : ∃ envelopes, split plan snapshot = .ok envelopes ∧
    ∀ envelope ∈ envelopes, framedPayloadLen encodedLen envelope ≤ maxFrameSize

theorem split_planned (h : Covers plan snapshot.operations.length) :
    ∃ envelopes, split plan snapshot = .ok envelopes := by
  rcases Classical.em (partCount plan = 1) with hone | hmany
  · obtain ⟨last, hlast, htotal⟩ := h.total
    refine ⟨[snapshot], ?_⟩
    rw [SnapshotFraming.split]
    simp only [hlast, Option.map_some, Option.getD_some]
    rw [if_neg (by rw [htotal]; simp)]
    exact if_pos hone
  · obtain ⟨envelopes, hsplit, -⟩ := split_spec h hmany
    exact ⟨envelopes, hsplit⟩

theorem planSnapshotFrames_empty (hbase : snapshot.baseRevision = 0)
    (hempty : snapshot.operations = []) :
    planSnapshotFrames encodedLen snapshot maxFrameSize maxParts = .ok (.single 0) := by
  rw [planSnapshotFrames, if_neg (not_not.mpr hbase), hempty]
  dsimp only
  split
  · rfl
  · rw [List.map_nil, pack]
    dsimp only
    rw [if_neg]
    · rfl
    · exact Nat.not_lt.mpr (Nat.le_max_right maxParts 1)

theorem plans_fit_iff (encodedLen : WireOperation → Nat) (snapshot : WireTransaction)
    (maxFrameSize maxParts : Nat) (hbase : snapshot.baseRevision = 0) :
    (∀ plan, planSnapshotFrames encodedLen snapshot maxFrameSize maxParts = .ok plan →
        PlanFits encodedLen snapshot maxFrameSize maxParts plan) ↔
      snapshot.operations ≠ [] ∨ framedPayloadLen encodedLen snapshot ≤ maxFrameSize := by
  constructor
  · intro h
    rcases Classical.em (snapshot.operations = []) with hempty | hfilled
    swap
    · exact Or.inl hfilled
    obtain ⟨envelopes, hsplit, hfits⟩ := (h _ (planSnapshotFrames_empty hbase hempty)).fits
    rw [SnapshotFraming.split, hempty] at hsplit
    cases hsplit
    exact Or.inr (hfits snapshot List.mem_cons_self)
  · intro h plan hplan
    have hcovers := planSnapshotFrames_covers hplan
    obtain ⟨envelopes, hsplit⟩ := split_planned hcovers
    refine ⟨Covers.flatten hcovers, planSnapshotFrames_parts hplan, envelopes, hsplit, ?_⟩
    rcases Classical.em (snapshot.operations = []) with hempty | hfilled
    swap
    · exact split_fits hplan hsplit hfilled
    rw [planSnapshotFrames_empty hbase hempty] at hplan
    cases hplan
    rw [SnapshotFraming.split, hempty] at hsplit
    cases hsplit
    intro envelope henvelope
    rw [List.mem_singleton.mp henvelope]
    exact h.resolve_left fun hfilled => hfilled hempty

/-- Three operations in frames that hold two of them. -/
theorem smallSnapshot_fits :
    PlanFits (fun _ => 10) smallSnapshot 32 16 ⟨[(0, 2), (2, 3)]⟩ :=
  (plans_fit_iff (fun _ => 10) smallSnapshot 32 16 rfl).mpr (.inl (by decide)) _
    smallSnapshot_planned

/-- An empty snapshot is planned for a frame it does not fit. -/
theorem emptySnapshot_overflows :
    ∃ plan, planSnapshotFrames (fun _ => 0) ⟨0, 1, [], 0⟩ 3 0 = .ok plan ∧
      ¬PlanFits (fun _ => 0) ⟨0, 1, [], 0⟩ 3 0 plan := by
  refine ⟨.single 0, planSnapshotFrames_empty rfl rfl, ?_⟩
  intro h
  obtain ⟨envelopes, hsplit, hfits⟩ := h.fits
  rw [SnapshotFraming.split] at hsplit
  cases hsplit
  have hfour : framedPayloadLen (fun _ => 0) ⟨0, 1, [], 0⟩ = 4 := by
    simp [framedPayloadLen, varintFieldLen, encodedLenVarint_eq]
  have hthree := hfits _ List.mem_cons_self
  rw [hfour] at hthree
  exact absurd hthree (by decide)

/-! ### Plans with the fewest envelopes -/

structure Division (encodedLen : WireOperation → Nat) (snapshot : WireTransaction)
    (maxFrameSize : Nat) (groups : List (List WireOperation)) : Prop where
  flatten : groups.flatten = snapshot.operations
  nonempty : ∀ group ∈ groups, group ≠ []
  fits : ∀ group ∈ groups,
    framedPayloadLen encodedLen { snapshot with operations := group } ≤ maxFrameSize

def Fewest (encodedLen : WireOperation → Nat) (snapshot : WireTransaction)
    (maxFrameSize count : Nat) : Prop :=
  (∃ groups, Division encodedLen snapshot maxFrameSize groups ∧ groups.length = count) ∧
    ∀ groups, Division encodedLen snapshot maxFrameSize groups → count ≤ groups.length

def Alone (encodedLen : WireOperation → Nat) (snapshot : WireTransaction) (maxFrameSize : Nat)
    (op : WireOperation) : Prop :=
  framedPayloadLen encodedLen { snapshot with operations := [op] } ≤ maxFrameSize

abbrev WithinFrame (snapshot : WireTransaction) (maxFrameSize operationsLen : Nat) : Prop :=
  envelopeLen snapshot.newRevision snapshot.priority operationsLen ≤ maxFrameSize

theorem envelopeLen_mono {newRevision priority m n : Nat} (h : m ≤ n) :
    envelopeLen newRevision priority m ≤ envelopeLen newRevision priority n := by
  rw [envelopeLen, envelopeLen]
  have hheader := encodedLenVarint_mono (Nat.add_le_add_right (Nat.add_le_add_right h
    (if newRevision ≠ 0 then 1 + encodedLenVarint newRevision else 0))
    (if priority ≠ 0 then 1 + encodedLenVarint priority else 0))
  omega

theorem withinFrame_lowers (snapshot : WireTransaction) (maxFrameSize : Nat) :
    Lowers (WithinFrame snapshot maxFrameSize) :=
  fun _ _ hle hfits => Nat.le_trans (envelopeLen_mono hle) hfits

theorem withinFrame_iff (hbase : snapshot.baseRevision = 0) (group : List WireOperation) :
    framedPayloadLen encodedLen { snapshot with operations := group } ≤ maxFrameSize ↔
      WithinFrame snapshot maxFrameSize (group.map (operationFieldLen encodedLen)).sum := by
  have hlength : framedPayloadLen encodedLen { snapshot with operations := group } =
      envelopeLen snapshot.newRevision snapshot.priority
        (group.map (operationFieldLen encodedLen)).sum := framedPayloadLen_eq hbase
  rw [hlength]

theorem Division.closings_lt {groups : List (List WireOperation)}
    (h : Division encodedLen snapshot maxFrameSize groups) (hbase : snapshot.baseRevision = 0)
    (hfilled : snapshot.operations ≠ []) :
    closings (WithinFrame snapshot maxFrameSize) 0
      (snapshot.operations.map (operationFieldLen encodedLen)) < groups.length := by
  have hsome : groups.map (List.map (operationFieldLen encodedLen)) ≠ [] := by
    intro hnil
    rw [List.map_eq_nil_iff] at hnil
    exact hfilled (by rw [← h.flatten, hnil, List.flatten_nil])
  have hlt := closings_lt_length (withinFrame_lowers snapshot maxFrameSize) hsome ?_
  · rw [← List.map_flatten, h.flatten, List.length_map] at hlt
    exact hlt
  · intro lens hlens
    obtain ⟨group, hgroup, rfl⟩ := List.mem_map.mp hlens
    exact (withinFrame_iff hbase group).mp (h.fits group hgroup)

theorem pack_spec (snapshot : WireTransaction) (maxFrameSize : Nat) (packing : Packing)
    (index : Nat) (lens : List Nat)
    (hopen : packing.start < index ∨ packing.start = index ∧ packing.current = 0) :
    (∃ result, pack snapshot.newRevision snapshot.priority maxFrameSize packing index lens =
        .ok result ∧
      result.parts.length = packing.parts.length +
        closings (WithinFrame snapshot maxFrameSize) packing.current lens ∧
      ∀ len ∈ lens, WithinFrame snapshot maxFrameSize len) ∨
    ∃ i len, lens[i]? = some len ∧ ¬WithinFrame snapshot maxFrameSize len ∧
      pack snapshot.newRevision snapshot.priority maxFrameSize packing index lens =
        .error (.operationExceedsFrame (index + i)
          (envelopeLen snapshot.newRevision snapshot.priority len) maxFrameSize) := by
  induction lens generalizing packing index with
  | nil => exact Or.inl ⟨packing, rfl, rfl, nofun⟩
  | cons len rest ih =>
    rw [pack]
    dsimp only
    by_cases halone : WithinFrame snapshot maxFrameSize len
    swap
    · exact Or.inr ⟨0, len, rfl, halone, if_pos (Nat.lt_of_not_le halone)⟩
    rw [if_neg (Nat.not_lt.mpr halone)]
    -- The rest is packed from a part that is open by now.
    have hrest : ∀ next : Packing, next.start < index + 1 →
        next.parts.length + closings (WithinFrame snapshot maxFrameSize) next.current rest =
          packing.parts.length +
            closings (WithinFrame snapshot maxFrameSize) packing.current (len :: rest) →
        (∃ result, pack snapshot.newRevision snapshot.priority maxFrameSize next (index + 1)
            rest = .ok result ∧
          result.parts.length = packing.parts.length +
            closings (WithinFrame snapshot maxFrameSize) packing.current (len :: rest) ∧
          ∀ other ∈ len :: rest, WithinFrame snapshot maxFrameSize other) ∨
        ∃ i other, (len :: rest)[i]? = some other ∧ ¬WithinFrame snapshot maxFrameSize other ∧
          pack snapshot.newRevision snapshot.priority maxFrameSize next (index + 1) rest =
            .error (.operationExceedsFrame (index + i)
              (envelopeLen snapshot.newRevision snapshot.priority other) maxFrameSize) := by
      intro next hnext hclosings
      rcases ih next (index + 1) (Or.inl hnext) with
        ⟨result, hresult, hlength, hall⟩ | ⟨i, other, hother, hlarge, herror⟩
      · refine Or.inl ⟨result, hresult, hlength.trans hclosings, ?_⟩
        exact List.forall_mem_cons.mpr ⟨halone, hall⟩
      · refine Or.inr ⟨i + 1, other, hother, hlarge, ?_⟩
        rw [herror, Nat.add_assoc, Nat.add_comm 1 i]
    split
    · rename_i hsplit
      refine hrest _ (Nat.lt_succ_self index) ?_
      dsimp only
      rw [Nat.zero_add, List.length_append, List.length_singleton, closings,
        if_neg (Nat.not_le.mpr hsplit.2), Nat.add_assoc]
    · rename_i hstays
      have hfits : WithinFrame snapshot maxFrameSize (packing.current + len) := by
        rcases hopen with hbefore | ⟨-, hzero⟩
        · exact Nat.not_lt.mp fun hover => hstays ⟨hbefore, hover⟩
        · rw [hzero, Nat.zero_add]
          exact halone
      refine hrest _ ?_ ?_
      · dsimp only
        omega
      · dsimp only
        rw [closings, if_pos hfits]

theorem Division.alone {groups : List (List WireOperation)}
    (h : Division encodedLen snapshot maxFrameSize groups) (hbase : snapshot.baseRevision = 0) :
    ∀ op ∈ snapshot.operations, Alone encodedLen snapshot maxFrameSize op := by
  intro op hop
  rw [← h.flatten] at hop
  obtain ⟨group, hgroup, hmem⟩ := List.mem_flatten.mp hop
  refine (withinFrame_iff hbase [op]).mpr ?_
  refine withinFrame_lowers _ _ _ _ ?_ ((withinFrame_iff hbase group).mp (h.fits group hgroup))
  rw [List.map_singleton, List.sum_singleton]
  exact List.le_sum_of_mem (List.mem_map_of_mem hmem)

theorem withinFrame_alone (hbase : snapshot.baseRevision = 0) (op : WireOperation) :
    Alone encodedLen snapshot maxFrameSize op ↔
      WithinFrame snapshot maxFrameSize (operationFieldLen encodedLen op) := by
  rw [Alone, withinFrame_iff hbase, List.map_singleton, List.sum_singleton]

theorem plan_division (hfilled : snapshot.operations ≠ [])
    (hplan : planSnapshotFrames encodedLen snapshot maxFrameSize maxParts = .ok plan) :
    ∃ groups, Division encodedLen snapshot maxFrameSize groups ∧
      groups.length = plan.parts.length := by
  have hcovers := planSnapshotFrames_covers hplan
  rcases Classical.em (partCount plan = 1) with hone | hmany
  · obtain ⟨envelopes, hsplit⟩ := split_planned hcovers
    have hfits := split_fits hplan hsplit hfilled
    rcases split_parts hcovers hsplit with ⟨-, rfl⟩ | ⟨hmany, -⟩
    swap
    · exact absurd hone hmany
    refine ⟨[snapshot.operations], ⟨?_, ?_, ?_⟩, hone.symm⟩
    · simp
    · simpa using hfilled
    · intro group hgroup
      rw [List.mem_singleton.mp hgroup]
      exact hfits snapshot List.mem_cons_self
  · obtain ⟨envelopes, hsplit, hlength, hparts, hflatten⟩ := split_spec hcovers hmany
    have hfits := split_fits hplan hsplit hfilled
    refine ⟨envelopes.map WireTransaction.operations, ⟨hflatten, ?_, ?_⟩, ?_⟩
    · intro group hgroup
      obtain ⟨envelope, henvelope, rfl⟩ := List.mem_map.mp hgroup
      exact (hparts envelope henvelope).2.2.2
    · intro group hgroup
      obtain ⟨envelope, henvelope, rfl⟩ := List.mem_map.mp hgroup
      obtain ⟨hbase, hnew, hpriority, -⟩ := hparts envelope henvelope
      rw [← hbase, ← hnew, ← hpriority]
      exact hfits envelope henvelope
    · rw [List.length_map]
      exact hlength

theorem planSnapshotFrames_cases (encodedLen : WireOperation → Nat) (snapshot : WireTransaction)
    (maxFrameSize maxParts : Nat) (hbase : snapshot.baseRevision = 0) :
    (∃ plan, planSnapshotFrames encodedLen snapshot maxFrameSize maxParts = .ok plan ∧
      plan.parts.length ≤ closings (WithinFrame snapshot maxFrameSize) 0
        (snapshot.operations.map (operationFieldLen encodedLen)) + 1) ∨
    (∃ index op, snapshot.operations[index]? = some op ∧
      ¬Alone encodedLen snapshot maxFrameSize op ∧
      planSnapshotFrames encodedLen snapshot maxFrameSize maxParts =
        err (.operationExceedsFrame index
          (framedPayloadLen encodedLen { snapshot with operations := [op] }) maxFrameSize)) ∨
    (∀ op ∈ snapshot.operations, Alone encodedLen snapshot maxFrameSize op) ∧
      max maxParts 1 < closings (WithinFrame snapshot maxFrameSize) 0
        (snapshot.operations.map (operationFieldLen encodedLen)) + 1 ∧
      planSnapshotFrames encodedLen snapshot maxFrameSize maxParts =
        err (.tooManyParts (closings (WithinFrame snapshot maxFrameSize) 0
          (snapshot.operations.map (operationFieldLen encodedLen)) + 1) (max maxParts 1)
          (framedPayloadLen encodedLen snapshot) maxFrameSize) := by
  rw [planSnapshotFrames, if_neg (not_not.mpr hbase)]
  dsimp only
  split
  · exact Or.inl ⟨_, rfl, Nat.le_add_left 1 _⟩
  rcases pack_spec snapshot maxFrameSize ⟨[], 0, 0⟩ 0
    (snapshot.operations.map (operationFieldLen encodedLen)) (Or.inr ⟨rfl, rfl⟩) with
    ⟨packing, hpack, hlength, hall⟩ | ⟨index, len, hlen, hlarge, herror⟩
  · rw [hpack]
    dsimp only
    have hcount : (packing.parts ++ [(packing.start, (snapshot.operations.map
        (operationFieldLen encodedLen)).length)]).length =
        closings (WithinFrame snapshot maxFrameSize) 0
          (snapshot.operations.map (operationFieldLen encodedLen)) + 1 := by
      rw [List.length_append, List.length_singleton, hlength, List.length_nil, Nat.zero_add]
    split
    · rename_i hmany
      rw [hcount] at hmany ⊢
      refine Or.inr (Or.inr ⟨?_, hmany, ?_⟩)
      · intro op hop
        exact (withinFrame_alone hbase op).mpr (hall _ (List.mem_map_of_mem hop))
      · rw [framedPayloadLen_eq hbase]
        rfl
    · exact Or.inl ⟨_, rfl, hcount.le⟩
  · rw [herror]
    rw [List.getElem?_map, Option.map_eq_some_iff] at hlen
    obtain ⟨op, hop, rfl⟩ := hlen
    refine Or.inr (Or.inl ⟨index, op, hop, ?_, ?_⟩)
    · rw [withinFrame_alone hbase]
      exact hlarge
    · have hlength : framedPayloadLen encodedLen { snapshot with operations := [op] } =
          envelopeLen snapshot.newRevision snapshot.priority
            ([op].map (operationFieldLen encodedLen)).sum := framedPayloadLen_eq hbase
      rw [hlength, List.map_singleton, List.sum_singleton, Nat.zero_add]

/-- A plan with the fewest envelopes where one is possible, and otherwise why there is none. -/
structure Optimal (encodedLen : WireOperation → Nat) (snapshot : WireTransaction)
    (maxFrameSize maxParts : Nat) : Prop where
  planned : (∃ groups, Division encodedLen snapshot maxFrameSize groups ∧
      groups.length ≤ max maxParts 1) →
    ∃ plan, planSnapshotFrames encodedLen snapshot maxFrameSize maxParts = .ok plan ∧
      Fewest encodedLen snapshot maxFrameSize plan.parts.length
  exceeding : (¬∃ groups, Division encodedLen snapshot maxFrameSize groups ∧
      groups.length ≤ max maxParts 1) →
    (∃ op ∈ snapshot.operations, ¬Alone encodedLen snapshot maxFrameSize op) →
      ∃ index op, snapshot.operations[index]? = some op ∧
        ¬Alone encodedLen snapshot maxFrameSize op ∧
        planSnapshotFrames encodedLen snapshot maxFrameSize maxParts =
          err (.operationExceedsFrame index
            (framedPayloadLen encodedLen { snapshot with operations := [op] }) maxFrameSize)
  tooMany : (¬∃ groups, Division encodedLen snapshot maxFrameSize groups ∧
      groups.length ≤ max maxParts 1) →
    (∀ op ∈ snapshot.operations, Alone encodedLen snapshot maxFrameSize op) →
      ∃ count, Fewest encodedLen snapshot maxFrameSize count ∧
        planSnapshotFrames encodedLen snapshot maxFrameSize maxParts =
          err (.tooManyParts count (max maxParts 1) (framedPayloadLen encodedLen snapshot)
            maxFrameSize)

theorem plan_fewest (hbase : snapshot.baseRevision = 0) (hfilled : snapshot.operations ≠ [])
    (hplan : planSnapshotFrames encodedLen snapshot maxFrameSize maxParts = .ok plan)
    (hlength : plan.parts.length ≤ closings (WithinFrame snapshot maxFrameSize) 0
      (snapshot.operations.map (operationFieldLen encodedLen)) + 1) :
    Fewest encodedLen snapshot maxFrameSize plan.parts.length :=
  ⟨plan_division hfilled hplan, fun _ h => Nat.le_trans hlength (h.closings_lt hbase hfilled)⟩

theorem plans_optimal (encodedLen : WireOperation → Nat) (snapshot : WireTransaction)
    (maxFrameSize maxParts : Nat) (hbase : snapshot.baseRevision = 0)
    (hfilled : snapshot.operations ≠ []) : Optimal encodedLen snapshot maxFrameSize maxParts := by
  have hcases := planSnapshotFrames_cases encodedLen snapshot maxFrameSize maxParts hbase
  have hunplanned : (¬∃ groups, Division encodedLen snapshot maxFrameSize groups ∧
      groups.length ≤ max maxParts 1) → ∀ plan,
        planSnapshotFrames encodedLen snapshot maxFrameSize maxParts ≠ .ok plan := by
    intro hnone plan hplan
    obtain ⟨groups, hdivision, hlength⟩ := plan_division hfilled hplan
    have hfew : plan.parts.length ≤ max maxParts 1 := planSnapshotFrames_parts hplan
    exact hnone ⟨groups, hdivision, hlength ▸ hfew⟩
  constructor
  · rintro ⟨groups, hdivision, hfew⟩
    rcases hcases with ⟨plan, hplan, hlength⟩ | ⟨index, op, hop, hlarge, -⟩ | ⟨-, hmany, -⟩
    · exact ⟨plan, hplan, plan_fewest hbase hfilled hplan hlength⟩
    · exact absurd (hdivision.alone hbase op (List.mem_of_getElem? hop)) hlarge
    · exact absurd (Nat.le_trans (hdivision.closings_lt hbase hfilled) hfew)
        (Nat.not_le.mpr hmany)
  · rintro hnone ⟨op, hop, hlarge⟩
    rcases hcases with ⟨plan, hplan, -⟩ | hexceeds | ⟨hall, -⟩
    · exact absurd hplan (hunplanned hnone plan)
    · exact hexceeds
    · exact absurd (hall op hop) hlarge
  · intro hnone hall
    rcases hcases with ⟨plan, hplan, -⟩ | ⟨index, op, hop, hlarge, -⟩ | ⟨-, hmany, hresult⟩
    · exact absurd hplan (hunplanned hnone plan)
    · exact absurd (hall op (List.mem_of_getElem? hop)) hlarge
    refine ⟨_, ?_, hresult⟩
    -- As many parts as are required are planned once they are allowed.
    rcases planSnapshotFrames_cases encodedLen snapshot maxFrameSize
      (closings (WithinFrame snapshot maxFrameSize) 0
        (snapshot.operations.map (operationFieldLen encodedLen)) + 1) hbase with
      ⟨plan, hplan, hlength⟩ | ⟨index, op, hop, hlarge, -⟩ | ⟨-, hmore, -⟩
    · have hfewest := plan_fewest hbase hfilled hplan hlength
      obtain ⟨⟨groups, hdivision, hcount⟩, -⟩ := hfewest
      have hleast := hdivision.closings_lt hbase hfilled
      have hexact : plan.parts.length = closings (WithinFrame snapshot maxFrameSize) 0
          (snapshot.operations.map (operationFieldLen encodedLen)) + 1 := by omega
      exact hexact ▸ plan_fewest hbase hfilled hplan hlength
    · exact absurd (hall op (List.mem_of_getElem? hop)) hlarge
    · omega

theorem smallSnapshot_optimal : Optimal (fun _ => 10) smallSnapshot 32 16 :=
  plans_optimal (fun _ => 10) smallSnapshot 32 16 rfl (by decide)

end Srui.Protocol.SnapshotPlans

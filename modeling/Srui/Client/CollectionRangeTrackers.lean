import Srui.Basic.CheckedArrays
import Srui.Sessiond.SnapshotModels

/-!
The tracker of a collection's item requests in flight.

An operation on `UInt64` that traps, and a range whose bounds are out of order, is none; where the
source itself answers with an optional there is an option within.
-/

namespace Srui.Client.CollectionRangeTrackers

open Basic.Machine Basic.CheckedArrays SemanticTree.Values
open SemanticTree.Models (Model CachedRange)
open Sessiond.SnapshotModels

def pageSize : Nat := 128

def prefetchMargin : Nat := 32

def pendingTTLNanoseconds : Nat := 2000000000

/-- `Range<UInt64>`. -/
structure Range where
  lowerBound : Nat
  upperBound : Nat
  ordered : lowerBound ≤ upperBound
deriving DecidableEq

instance : Membership Nat Range := ⟨fun r i => r.lowerBound ≤ i ∧ i < r.upperBound⟩

instance (i : Nat) (r : Range) : Decidable (i ∈ r) := inferInstanceAs (Decidable (_ ∧ _))

/-- `lower..<upper`. -/
def range (lower upper : Nat) : Option Range :=
  if h : lower ≤ upper then some ⟨lower, upper, h⟩ else none

structure PendingWindow where
  range : Range
  issuedAtNanos : Nat
deriving DecidableEq

structure CollectionRangeRequest where
  nodeID : NodeId
  modelID : ModelId
  startIndex : Nat
  count : Nat
deriving DecidableEq

def alignDown (value page : Nat) : Option Nat :=
  if 0 < page then checkedMul (value / page) page else some value

def alignUp (value page : Nat) : Option Nat :=
  if 0 < page then
    let remainder := value % page
    if remainder = 0 then some value
    else (checkedSub page remainder).map (saturatingAdd value)
  else some value

def exclusiveRange (start count : Nat) : Option (Option Range) :=
  if 0 < count then
    match checkedAdd start count with
    | none => some none
    | some upper => (range start upper).map some
  else some none

def part (lower upper : Nat) : Option (List Range) :=
  if lower < upper then (range lower upper).map fun r => [r] else some []

def pieces (cover hole : Range) : Option (List Range) :=
  if cover.upperBound ≤ hole.lowerBound ∨ hole.upperBound ≤ cover.lowerBound then some [hole]
  else do
    let left ← part hole.lowerBound cover.lowerBound
    let right ← part cover.upperBound hole.upperBound
    some (left ++ right)

def subtractOne (remaining : List Range) (cover : Range) : Option (List Range) :=
  (remaining.mapM (pieces cover)).map List.flatten

def subtract (covers holes : List Range) : Option (List Range) := do
  let remaining ← (covers.insertionSort fun a b => a.lowerBound ≤ b.lowerBound).foldlM
    subtractOne holes
  some (remaining.filter fun r => r.lowerBound < r.upperBound)

/-- Loop of `Model.cachedRanges` over the sorted positions. -/
def cachedRangesLoop (ranges : List CachedRange) :
    Option CachedRange → List Nat → Option (List CachedRange)
  | none, [] => some ranges
  | some r, [] => some (ranges ++ [r])
  | none, idx :: rest => cachedRangesLoop ranges (some ⟨idx, 1⟩) rest
  | some r, idx :: rest => do
    if (← checkedAdd r.start r.length) = idx then
      cachedRangesLoop ranges (some ⟨r.start, ← checkedAdd r.length 1⟩) rest
    else cachedRangesLoop (ranges ++ [r]) (some ⟨idx, 1⟩) rest

def cachedRanges (model : Model) : Option (List CachedRange) :=
  cachedRangesLoop [] none model.items.keys

/-- `CollectionRangeTracker`, with its windows in flight. -/
abbrev CollectionRangeTracker := List PendingWindow

namespace CollectionRangeTracker

def subtractPending (pending : CollectionRangeTracker) (cover : Range) :
    Option CollectionRangeTracker := do
  let next ← pending.mapM fun window => do
    let leftovers ← subtract [cover] [window.range]
    some (leftovers.map fun leftover => PendingWindow.mk leftover window.issuedAtNanos)
  some next.flatten

def noteArrived (pending : CollectionRangeTracker) (start count : Nat) :
    Option CollectionRangeTracker := do
  match ← exclusiveRange start count with
  | none => some pending
  | some arrived => subtractPending pending arrived

def noteDropped (pending : CollectionRangeTracker) (start count : Nat) :
    Option CollectionRangeTracker := do
  match ← exclusiveRange start count with
  | none => some pending
  | some dropped => subtractPending pending dropped

def prefetchStart (visibleStart : Nat) : Option Nat :=
  if prefetchMargin < visibleStart then checkedSub visibleStart prefetchMargin else some 0

def alignedWindow (visibleStart visibleCount itemCount : Nat) : Option (Option Range) :=
  if 0 < itemCount ∧ 0 < visibleCount then do
    let visibleEnd := min itemCount (saturatingAdd visibleStart visibleCount)
    let prefetchStart ← prefetchStart visibleStart
    let prefetchEnd := min itemCount (saturatingAdd visibleEnd prefetchMargin)
    let start ← alignDown prefetchStart pageSize
    let aligned ← alignUp prefetchEnd pageSize
    let upper := if itemCount < aligned then itemCount else aligned
    if upper ≤ start then some none else (range start upper).map some
  else some none

/-- `nowNanos &- issuedAtNanos`, with its wrap, is below the limit. -/
def Unexpired (nowNanos : Nat) (window : PendingWindow) : Prop :=
  (nowNanos + (u64Max + 1 - window.issuedAtNanos)) % (u64Max + 1) < pendingTTLNanoseconds

instance (nowNanos : Nat) : DecidablePred (Unexpired nowNanos) :=
  fun _ => inferInstanceAs (Decidable (_ < _))

def expireStalePending (pending : CollectionRangeTracker) (nowNanos : Nat) :
    CollectionRangeTracker :=
  pending.filter fun window => decide (Unexpired nowNanos window)

def Overlaps (a b : Range) : Prop :=
  max a.lowerBound b.lowerBound < min a.upperBound b.upperBound

instance (a b : Range) : Decidable (Overlaps a b) := inferInstanceAs (Decidable (_ < _))

/-- The part of `requests` that follows once there is a window. -/
def requestsIn (pending : CollectionRangeTracker) (window : Range) (model : Model)
    (nodeID : NodeId) (modelID : ModelId) (nowNanos : Nat) :
    Option (CollectionRangeTracker × List CollectionRangeRequest) := do
  let cached ← cachedRanges model
  let cachedCovers ← cached.mapM fun c => exclusiveRange c.start c.length
  let holes ← subtract (pending.map PendingWindow.range ++ cachedCovers.reduceOption) [window]
  match holes.head?, holes.getLast? with
  | some first, some last => do
    let merged ← range first.lowerBound last.upperBound
    let pending := pending ++ [⟨merged, nowNanos⟩]
    let count ← checkedSub merged.upperBound merged.lowerBound
    if 0 < count then some (pending, [⟨nodeID, modelID, merged.lowerBound, count⟩])
    else some (pending, [])
  | _, _ => some (pending, [])

def requests (pending : CollectionRangeTracker) (visibleStart visibleCount itemCount : Nat)
    (model : Model) (nodeID : NodeId) (modelID : ModelId) (nowNanos : Nat) :
    Option (CollectionRangeTracker × List CollectionRangeRequest) := do
  let pending := expireStalePending pending nowNanos
  if 0 < itemCount ∧ 0 < visibleCount then
    match ← alignedWindow visibleStart visibleCount itemCount with
    | none => some ([], [])
    | some window =>
      requestsIn (pending.filter fun p => decide (Overlaps p.range window)) window model nodeID
        modelID nowNanos
  else some ([], [])

end CollectionRangeTracker

open CollectionRangeTracker

/-! ### Ranges -/

def Within (ranges : List Range) (i : Nat) : Prop := ∃ r ∈ ranges, i ∈ r

def Ascending (ranges : List Range) : Prop :=
  ranges.Pairwise fun a b => a.upperBound ≤ b.lowerBound

variable {i nowNanos : Nat} {rs : List Range}

theorem within_append {rs' : List Range} :
    Within (rs ++ rs') i ↔ Within rs i ∨ Within rs' i := by
  simp only [Within, List.mem_append, or_and_right, exists_or]

theorem within_singleton {r : Range} : Within [r] i ↔ i ∈ r := by
  simp [Within]

theorem within_nil : ¬Within [] i := by
  simp [Within]

theorem range_of_le {lower upper : Nat} (h : lower ≤ upper) :
    range lower upper = some ⟨lower, upper, h⟩ := dif_pos h

theorem part_yields (lower upper : Nat) : Yields (part lower upper) fun rs =>
      (∀ i, Within rs i ↔ lower ≤ i ∧ i < upper) ∧
      (∀ r ∈ rs, r.lowerBound = lower ∧ r.upperBound = upper) ∧ rs.length ≤ 1 := by
  refine .ite (fun h => ?_) fun h => ?_
  · rw [range_of_le h.le]
    exact .pure ⟨fun i => within_singleton, fun r hr => List.mem_singleton.mp hr ▸ ⟨rfl, rfl⟩,
      Nat.le_refl _⟩
  · refine .pure ⟨fun i => ⟨fun hi => absurd hi within_nil, fun hi => ?_⟩, fun r hr => ?_,
      Nat.zero_le _⟩
    · omega
    · exact absurd hr List.not_mem_nil

structure Leaves (holes : List Range) (covered : Nat → Prop) (rs : List Range) : Prop where
  within : ∀ i, Within rs i ↔ Within holes i ∧ ¬covered i
  inside : ∀ r ∈ rs, ∃ hole ∈ holes, hole.lowerBound ≤ r.lowerBound ∧ r.upperBound ≤ hole.upperBound
  ascending : Ascending rs

theorem ascending_of_length_le (h : rs.length ≤ 1) : Ascending rs := by
  rcases rs with - | ⟨r, - | ⟨r', rs⟩⟩
  · exact .nil
  · exact List.pairwise_singleton _ _
  · simp at h

theorem pieces_leaves (cover hole : Range) :
    Yields (pieces cover hole) (Leaves [hole] (· ∈ cover)) := by
  refine .ite (fun h => ?_) fun h => ?_
  · refine .pure ⟨fun i => ?_, fun r hr => ⟨r, hr, Nat.le_refl _, Nat.le_refl _⟩,
      List.pairwise_singleton _ _⟩
    simp only [within_singleton, Membership.mem]
    omega
  · refine (part_yields _ _).bind fun left hleft => (part_yields _ _).bind fun right hright =>
      .pure ⟨fun i => ?_, ?_, ?_⟩
    · have hcover := cover.ordered
      rw [within_append, hleft.1, hright.1, within_singleton]
      simp only [Membership.mem]
      omega
    · intro r hr
      refine ⟨hole, List.mem_cons_self, ?_⟩
      rcases List.mem_append.mp hr with hr | hr
      · obtain ⟨hlower, hupper⟩ := hleft.2.1 r hr
        omega
      · obtain ⟨hlower, hupper⟩ := hright.2.1 r hr
        omega
    · refine List.pairwise_append.mpr ⟨ascending_of_length_le hleft.2.2,
        ascending_of_length_le hright.2.2, fun a ha b hb => ?_⟩
      have hcover := cover.ordered
      have hupper := (hleft.2.1 a ha).2
      have hlower := (hright.2.1 b hb).1
      omega

theorem subtractOne_leaves (cover : Range) {holes : List Range} (h : Ascending holes) :
    Yields (subtractOne holes cover) (Leaves holes (· ∈ cover)) := by
  unfold subtractOne
  induction holes with
  | nil => exact .pure ⟨fun i => by simp [Within], by simp, .nil⟩
  | cons hole holes ih =>
    obtain ⟨hfirst, hrest⟩ := List.pairwise_cons.mp h
    obtain ⟨rs, hrs, hleaves⟩ := pieces_leaves cover hole
    obtain ⟨rests, hrests, hleaves'⟩ := ih hrest
    obtain ⟨rss, hrss, rfl⟩ := Option.map_eq_some_iff.mp hrests
    refine ⟨rs ++ rss.flatten, ?_, fun i => ?_, ?_, ?_⟩
    · rw [List.mapM_cons, hrs, Option.bind_eq_bind, Option.bind_some, hrss]
      rfl
    · rw [within_append, hleaves.within, hleaves'.within, ← or_and_right, ← within_append]
      rfl
    · intro r hr
      rcases List.mem_append.mp hr with hr | hr
      · obtain ⟨hole', hmem, hle⟩ := hleaves.inside r hr
        exact ⟨hole', List.mem_cons.mpr (.inl (List.mem_singleton.mp hmem)), hle⟩
      · obtain ⟨hole', hmem, hle⟩ := hleaves'.inside r hr
        exact ⟨hole', List.mem_cons_of_mem _ hmem, hle⟩
    · refine List.pairwise_append.mpr ⟨hleaves.ascending, hleaves'.ascending, fun a ha b hb => ?_⟩
      obtain ⟨hole', hmem, hlea⟩ := hleaves.inside a ha
      rw [List.mem_singleton.mp hmem] at hlea
      obtain ⟨hole'', hmem'', hleb⟩ := hleaves'.inside b hb
      have hle := hfirst hole'' hmem''
      omega

theorem subtractAll_leaves (covers : List Range) {holes : List Range} (h : Ascending holes) :
    Yields (covers.foldlM subtractOne holes) fun rs =>
      Ascending rs ∧ ∀ i, Within rs i ↔ Within holes i ∧ ¬Within covers i := by
  induction covers generalizing holes with
  | nil => exact .pure ⟨h, fun i => by simp [Within]⟩
  | cons cover covers ih =>
    rw [List.foldlM_cons]
    refine (subtractOne_leaves cover h).bind fun rs hrs => (ih hrs.ascending).mono ?_
    rintro rs' ⟨hascending, hwithin⟩
    refine ⟨hascending, fun i => ?_⟩
    rw [hwithin, hrs.within, and_assoc, ← not_or, ← List.singleton_append, within_append,
      within_singleton]

theorem subtract_leaves (covers : List Range) (window : Range) :
    Yields (subtract covers [window]) fun rs => Ascending rs ∧
      (∀ r ∈ rs, r.lowerBound < r.upperBound) ∧
      ∀ i, Within rs i ↔ i ∈ window ∧ ¬Within covers i := by
  refine (subtractAll_leaves _ (List.pairwise_singleton _ window)).bind fun rs hrs =>
    .pure ⟨hrs.1.filter _, fun r hr => of_decide_eq_true (List.mem_filter.mp hr).2, fun i => ?_⟩
  have hsorted : Within (covers.insertionSort fun a b => a.lowerBound ≤ b.lowerBound) i ↔
      Within covers i := by
    simp only [Within, List.mem_insertionSort]
  rw [← within_singleton (r := window), ← hsorted, ← hrs.2]
  constructor
  · rintro ⟨r, hr, hi⟩
    exact ⟨r, (List.mem_filter.mp hr).1, hi⟩
  · rintro ⟨r, hr, hi⟩
    exact ⟨r, List.mem_filter.mpr ⟨hr, decide_eq_true (hi.1.trans_lt hi.2)⟩, hi⟩

theorem subtractPending_yields (pending : CollectionRangeTracker) (cover : Range) :
    Yields (subtractPending pending cover) fun _ => True := by
  have hpiece (left : List PendingWindow) :
      Yields (some left) fun _ => True := .pure trivial
  exact (Yields.mapM fun _ _ => (subtract_leaves [cover] _).bind fun _ _ =>
    hpiece _).bind fun _ _ => .pure trivial

/-! ### Cached positions -/

theorem exclusiveRange_yields (start count : Nat) :
    Yields (exclusiveRange start count) fun r => ∀ i, (∃ x ∈ r, i ∈ x) ↔
      start ≤ i ∧ i < start + count ∧ start + count ≤ u64Max := by
  unfold exclusiveRange
  by_cases hcount : 0 < count
  · rw [if_pos hcount]
    rcases hadd : checkedAdd start count with - | upper
    · have hover := checkedAdd_eq_none.mp hadd
      refine .pure fun i => ⟨by simp, fun h => ?_⟩
      omega
    · obtain ⟨hfits, rfl⟩ := checkedAdd_eq_some.mp hadd
      simp only [range_of_le (Nat.le_add_right start count), Option.map_some]
      refine .pure fun i => ⟨?_, fun h => ⟨_, rfl, h.1, h.2.1⟩⟩
      rintro ⟨x, hx, hi⟩
      cases hx
      exact ⟨hi.1, hi.2, hfits⟩
  · rw [if_neg hcount]
    refine .pure fun i => ⟨by simp, fun h => ?_⟩
    omega

theorem exclusiveRanges_yield (cached : List CachedRange) :
    Yields (cached.mapM fun c => exclusiveRange c.start c.length) fun rs =>
      ∀ i, Within rs.reduceOption i ↔ ∃ c ∈ cached,
        c.start ≤ i ∧ i < c.start + c.length ∧ c.start + c.length ≤ u64Max := by
  induction cached with
  | nil => exact .pure fun i => by simp [Within]
  | cons c cached ih =>
    rw [List.mapM_cons]
    refine (exclusiveRange_yields c.start c.length).bind fun r hr => ih.bind fun rs hrs =>
      .pure fun i => ?_
    rw [List.exists_mem_cons_iff, ← hr, ← hrs]
    cases r with
    | none => simp
    | some r => simp [Within]

theorem cachedRangesLoop_yields {keys : List Nat} (hsorted : keys.Pairwise (· < ·))
    (hkeys : ∀ key ∈ keys, key ≤ u64Max) (hsize : keys.length ≤ u64Max)
    (ranges : List CachedRange) (current : Option CachedRange)
    (hcurrent : ∀ c ∈ current, c.length + keys.length ≤ u64Max ∧
      ∀ key ∈ keys, c.start + c.length ≤ key) :
    Yields (cachedRangesLoop ranges current keys) fun rs =>
      rs = SemanticTree.Models.cachedRangesLoop ranges current keys ∧
      ∀ r ∈ rs, r ∈ ranges ∨ r.start + r.length ∉ keys ∧
        ∀ c ∈ current, c.start + c.length ≤ r.start + r.length := by
  induction keys generalizing ranges current with
  | nil =>
    cases current with
    | none => exact .pure ⟨rfl, fun r hr => .inl hr⟩
    | some c =>
      refine .pure ⟨rfl, fun r hr => ?_⟩
      rcases List.mem_append.mp hr with hr | hr
      · exact .inl hr
      · rw [List.mem_singleton.mp hr]
        exact .inr ⟨List.not_mem_nil, by simp⟩
  | cons key keys ih =>
    obtain ⟨hfirst, hrest⟩ := List.pairwise_cons.mp hsorted
    rw [List.length_cons] at hsize hcurrent
    have hnext := fun ranges start length (hkey : start + length = key + 1)
        (hlength : length + keys.length ≤ u64Max) =>
      ih hrest (fun k hk => hkeys k (List.mem_cons_of_mem _ hk)) (by omega) ranges
        (some ⟨start, length⟩) (by
          simp only [Option.mem_def, Option.some.injEq, forall_eq', hkey]
          exact ⟨hlength, fun k hk => hfirst k hk⟩)
    cases current with
    | none =>
      refine (hnext ranges key 1 rfl (by omega)).mono fun rs hrs => ⟨hrs.1, fun r hr => ?_⟩
      refine (hrs.2 r hr).imp_right fun h => ⟨fun hmem => ?_, by simp⟩
      have hle := h.2 _ rfl
      rcases List.mem_cons.mp hmem with hmem | hmem
      · dsimp only at hle
        omega
      · exact h.1 hmem
    | some c =>
      obtain ⟨hlength, hbelow⟩ := hcurrent c rfl
      have hle := hbelow key List.mem_cons_self
      have hmax := hkeys key List.mem_cons_self
      have hadd := checkedAdd_eq_some.mpr ⟨hle.trans hmax, rfl⟩
      simp only [cachedRangesLoop, SemanticTree.Models.cachedRangesLoop, hadd,
        Option.bind_eq_bind, Option.bind_some]
      by_cases hadjacent : c.start + c.length = key
      · have hgrown : checkedAdd c.length 1 = some (c.length + 1) :=
          checkedAdd_eq_some.mpr ⟨by omega, rfl⟩
        simp only [if_pos hadjacent, hgrown, Option.bind_some]
        refine (hnext ranges c.start (c.length + 1) (by omega) (by omega)).mono fun rs hrs =>
          ⟨hrs.1, fun r hr => (hrs.2 r hr).imp_right fun h => ?_⟩
        have hbeyond := h.2 _ rfl
        dsimp only at hbeyond
        refine ⟨fun hmem => ?_, by simp; omega⟩
        rcases List.mem_cons.mp hmem with hmem | hmem
        · omega
        · exact h.1 hmem
      · simp only [if_neg hadjacent]
        refine (hnext (ranges ++ [c]) key 1 rfl (by omega)).mono fun rs hrs => ⟨hrs.1, fun r hr => ?_⟩
        rcases hrs.2 r hr with hr | ⟨hrest, hbeyond⟩
        · refine (List.mem_append.mp hr).imp_right fun hr => ?_
          rw [List.mem_singleton.mp hr]
          refine ⟨fun hmem => ?_, by simp⟩
          rcases List.mem_cons.mp hmem with hmem | hmem
          · exact hadjacent hmem
          · have hlater := hfirst _ hmem
            omega
        · have hbeyond := hbeyond _ rfl
          dsimp only at hbeyond
          refine .inr ⟨fun hmem => ?_, by simp; omega⟩
          rcases List.mem_cons.mp hmem with hmem | hmem
          · omega
          · exact hrest hmem

/-- A cached position that is counted: its run ends before the last position there is. -/
def Counted (keys : List Nat) (i : Nat) : Prop := i ∈ keys ∧ ∃ j, i ≤ j ∧ j ≤ u64Max ∧ j ∉ keys

/-- Positions are 64-bit values, and a dictionary counts its entries in a signed one. -/
structure Holdable (model : Model) : Prop where
  positions : ∀ key ∈ model.items.keys, key ≤ u64Max
  size : model.items.keys.length ≤ 9223372036854775807

theorem cachedRanges_yields {model : Model} (h : Holdable model) :
    Yields (cachedRanges model) fun rs => ∀ i, (∃ c ∈ rs, c.start ≤ i ∧
      i < c.start + c.length ∧ c.start + c.length ≤ u64Max) ↔ Counted model.items.keys i := by
  have hsorted : model.items.keys.Pairwise (· < ·) :=
    model.items.ordered_keys.imp Nat.compare_eq_lt.mp
  refine (cachedRangesLoop_yields hsorted h.positions (h.size.trans (by decide)) [] none
    (by simp)).mono ?_
  rintro rs ⟨hrs, hended⟩
  have hkeys : ∀ i, i ∈ model.items.keys ↔
      ∃ c ∈ rs, c.start ≤ i ∧ i < c.start + c.length := by
    intro i
    rw [← cachedRanges_positions, SemanticTree.Models.cachedRanges, ← hrs]
    simp only [positionsOf, List.mem_flatMap, List.mem_range'_1]
  intro i
  constructor
  · rintro ⟨c, hc, hle, hlt, hfits⟩
    rcases hended c hc with hc' | ⟨hend, -⟩
    · exact absurd hc' List.not_mem_nil
    · exact ⟨(hkeys i).mpr ⟨c, hc, hle, hlt⟩, _, hlt.le, hfits, hend⟩
  · rintro ⟨hi, j, hij, hj, hout⟩
    obtain ⟨c, hc, hle, hlt⟩ := (hkeys i).mp hi
    refine ⟨c, hc, hle, hlt, ?_⟩
    by_contra hover
    exact hout ((hkeys j).mpr ⟨c, hc, by omega, by omega⟩)

/-! ### Requests -/

theorem alignDown_yields {value : Nat} (h : value ≤ u64Max) :
    Yields (alignDown value pageSize) fun aligned => aligned ≤ value := by
  have hle := Nat.div_mul_le_self value pageSize
  rw [alignDown, if_pos (by decide), checkedMul, if_pos (hle.trans h)]
  exact .pure hle

theorem alignUp_yields {value : Nat} (h : value ≤ u64Max) :
    Yields (alignUp value pageSize) fun aligned => value ≤ aligned := by
  rw [alignUp, if_pos (by decide)]
  refine .ite (fun _ => .pure (Nat.le_refl _)) fun _ => ?_
  rw [checkedSub_of_le (Nat.mod_lt _ (by decide)).le]
  exact .pure (Nat.le_min.mpr ⟨Nat.le_add_right _ _, h⟩)

theorem alignedWindow_yields {visibleStart itemCount : Nat} (visibleCount : Nat)
    (hstart : visibleStart ≤ u64Max) (hitems : itemCount ≤ u64Max) :
    Yields (alignedWindow visibleStart visibleCount itemCount) fun window =>
      (∀ w ∈ window, w.lowerBound < w.upperBound ∧ w.upperBound ≤ itemCount) ∧
      ∀ i, visibleStart ≤ i → i < visibleStart + visibleCount → i < itemCount →
        ∃ w ∈ window, i ∈ w := by
  refine .ite (fun _ => ?_) fun h => .pure ⟨by simp, fun i _ _ _ => absurd h (by omega)⟩
  have hprefetch : Yields (prefetchStart visibleStart) (· ≤ visibleStart) := by
    refine .ite (fun h => ?_) fun _ => .pure (Nat.zero_le _)
    rw [checkedSub_of_le h.le]
    exact .pure (Nat.sub_le _ _)
  refine hprefetch.bind fun prefetchStart hprefetchStart => ?_
  refine (alignDown_yields (hprefetchStart.trans hstart)).bind fun start hdown => ?_
  refine (alignUp_yields ((Nat.min_le_left _ _).trans hitems)).bind fun aligned hup => ?_
  have hupper : ∀ i, i < visibleStart + visibleCount → i < itemCount →
      i < if itemCount < aligned then itemCount else aligned := by
    intro i hvisible hitem
    have hbound : i + 1 ≤ u64Max := hitem.trans_le hitems
    have hend : i + 1 ≤ min itemCount (saturatingAdd visibleStart visibleCount) :=
      Nat.le_min.mpr ⟨hitem, Nat.le_min.mpr ⟨hvisible, hbound⟩⟩
    have haligned : i + 1 ≤ aligned := le_trans (Nat.le_min.mpr ⟨hitem,
      Nat.le_min.mpr ⟨hend.trans (Nat.le_add_right _ _), hbound⟩⟩) hup
    split_ifs
    · exact hitem
    · exact haligned
  have hle : (if itemCount < aligned then itemCount else aligned) ≤ itemCount := by
    split_ifs <;> omega
  refine .ite (fun h => .pure ⟨by simp, fun i hi hvisible hitem => ?_⟩) fun h => ?_
  · have hlt := hupper i hvisible hitem
    omega
  · rw [range_of_le (Nat.le_of_not_le h)]
    refine .pure ⟨fun w hw => ?_, fun i hi hvisible hitem =>
      ⟨_, rfl, (hdown.trans hprefetchStart).trans hi, hupper i hvisible hitem⟩⟩
    cases hw
    exact ⟨Nat.lt_of_not_le h, hle⟩

def Asks (missing : Nat → Prop) (nodeID : NodeId) (modelID : ModelId)
    (requests : List CollectionRangeRequest) : Prop :=
  (requests = [] ∧ ∀ i, ¬missing i) ∨
    ∃ start count, requests = [⟨nodeID, modelID, start, count⟩] ∧ 0 < count ∧ missing start ∧
      missing (start + count - 1) ∧ ∀ i, missing i → start ≤ i ∧ i < start + count

theorem ends_of_ascending (hascending : Ascending rs) {first last : Range}
    (hfirst : rs.head? = some first) (hlast : rs.getLast? = some last)
    (hi : Within rs i) : first.lowerBound ≤ i ∧ i < last.upperBound := by
  obtain ⟨r, hr, hlower, hupper⟩ := hi
  obtain ⟨rest, rfl⟩ := List.head?_eq_some_iff.mp hfirst
  constructor
  · rcases List.mem_cons.mp hr with rfl | hr
    · exact hlower
    · have hle := (List.pairwise_cons.mp hascending).1 r hr
      have hpos := first.ordered
      omega
  · obtain ⟨init, hinit⟩ := List.getLast?_eq_some_iff.mp hlast
    rw [hinit] at hr hascending
    rcases List.mem_append.mp hr with hr | hr
    · have hle := (List.pairwise_append.mp hascending).2.2 r hr last List.mem_cons_self
      have hpos := last.ordered
      omega
    · rwa [List.mem_singleton.mp hr] at hupper

/-- An index that the windows in flight and the counted runs leave open. -/
def Open (pending : CollectionRangeTracker) (keys : List Nat) (window : Range) (i : Nat) : Prop :=
  i ∈ window ∧ ¬Within (pending.map PendingWindow.range) i ∧ ¬Counted keys i

variable {model : Model}

theorem requestsIn_yields (pending : CollectionRangeTracker) (window : Range)
    (h : Holdable model) (nodeID : NodeId) (modelID : ModelId) (nowNanos : Nat) :
    Yields (requestsIn pending window model nodeID modelID nowNanos) fun out =>
      Asks (Open pending model.items.keys window) nodeID modelID out.2 ∧
      (∀ p ∈ pending, p ∈ out.1) ∧
      ∀ i, Open pending model.items.keys window i →
        ∃ merged, i ∈ merged ∧ ⟨merged, nowNanos⟩ ∈ out.1 := by
  refine (cachedRanges_yields h).bind fun cached hcached => ?_
  refine (exclusiveRanges_yield cached).bind fun covers hcovers => ?_
  refine (subtract_leaves _ window).bind fun holes hholes => ?_
  obtain ⟨hascending, hne, hwithin⟩ := hholes
  have hopen : ∀ i, Within holes i ↔ Open pending model.items.keys window i := by
    intro i
    rw [hwithin, within_append, not_or, hcovers, hcached]
    rfl
  rcases hfirst : holes.head? with - | first
  · have hnil := List.head?_eq_none_iff.mp hfirst
    have hnone : ∀ i, ¬Open pending model.items.keys window i := fun i hi =>
      within_nil (hnil ▸ (hopen i).mpr hi)
    exact .pure ⟨.inl ⟨rfl, hnone⟩, fun p hp => hp, fun i hi => absurd hi (hnone i)⟩
  · rcases hlast : holes.getLast? with - | last
    · rw [List.getLast?_eq_none_iff.mp hlast] at hfirst
      cases hfirst
    have hends := fun i hi => ends_of_ascending hascending hfirst hlast (i := i) ((hopen i).mpr hi)
    have hfirstmem := List.mem_of_head? hfirst
    have hlastmem := List.mem_of_getLast? hlast
    have hfirstne := hne first hfirstmem
    have hlastne := hne last hlastmem
    have hfirstopen := (hopen first.lowerBound).mp ⟨first, hfirstmem, Nat.le_refl _, hfirstne⟩
    have hlastopen := (hopen (last.upperBound - 1)).mp ⟨last, hlastmem,
      show last.lowerBound ≤ last.upperBound - 1 ∧ last.upperBound - 1 < last.upperBound by omega⟩
    have hlt := (hends _ hfirstopen).2
    simp only [range_of_le hlt.le, checkedSub_of_le hlt.le, Option.bind_eq_bind, Option.bind_some,
      if_pos (Nat.sub_pos_of_lt hlt)]
    refine .pure ⟨.inr ⟨_, _, rfl, Nat.sub_pos_of_lt hlt, hfirstopen, ?_, fun i hi => ?_⟩,
      fun p hp => List.mem_append_left _ hp,
      fun i hi => ⟨_, hends i hi, List.mem_append_right _ List.mem_cons_self⟩⟩
    · rwa [Nat.add_sub_cancel' hlt.le]
    · rw [Nat.add_sub_cancel' hlt.le]
      exact hends i hi

/-- An index that an unexpired window covers. -/
def InFlight (pending : CollectionRangeTracker) (nowNanos i : Nat) : Prop :=
  ∃ p ∈ pending, Unexpired nowNanos p ∧ i ∈ p.range

theorem within_kept {pending : CollectionRangeTracker} {window : Range}
    (hi : i ∈ window) : Within ((((expireStalePending pending nowNanos).filter fun p =>
      decide (Overlaps p.range window))).map PendingWindow.range) i ↔
        InFlight pending nowNanos i := by
  simp only [Within, InFlight, List.mem_map, expireStalePending, List.mem_filter,
    decide_eq_true_eq]
  constructor
  · rintro ⟨r, ⟨p, ⟨⟨hp, hunexpired⟩, -⟩, rfl⟩, hir⟩
    exact ⟨p, hp, hunexpired, hir⟩
  · rintro ⟨p, hp, hunexpired, hip⟩
    refine ⟨p.range, ⟨p, ⟨⟨hp, hunexpired⟩, ?_⟩, rfl⟩, hip⟩
    exact max_lt_iff.mpr ⟨lt_min_iff.mpr ⟨hip.1.trans_lt hip.2, hip.1.trans_lt hi.2⟩,
      lt_min_iff.mpr ⟨hi.1.trans_lt hip.2, hi.1.trans_lt hi.2⟩⟩

theorem open_iff {pending : CollectionRangeTracker} {window : Range}
    {keys : List Nat} : Open ((expireStalePending pending nowNanos).filter fun p =>
      decide (Overlaps p.range window)) keys window i ↔
        i ∈ window ∧ ¬InFlight pending nowNanos i ∧ ¬Counted keys i :=
  and_congr_right fun hi => and_congr_left' (not_congr (within_kept hi))

theorem unexpired_now (h : nowNanos ≤ u64Max) (r : Range) :
    Unexpired nowNanos ⟨r, nowNanos⟩ := by
  rw [Unexpired, Nat.add_sub_cancel' (Nat.le_succ_of_le h), Nat.mod_self]
  decide

theorem asks_iff {isOpen missing cached : Nat → Prop} {nodeID : NodeId} {modelID : ModelId}
    {requests : List CollectionRangeRequest} (h : Asks isOpen nodeID modelID requests)
    (himp : ∀ i, missing i ↔ isOpen i ∧ ¬cached i)
    (hlast : ∀ i j, isOpen i → cached i → i ≤ j → isOpen j → cached j) :
    Asks missing nodeID modelID requests ↔ ∀ i, isOpen i → ¬cached i := by
  constructor
  · intro hasks i hi hcached
    rcases h with ⟨-, hnone⟩ | ⟨start, count, hrequests, hpos, -, hend, hall⟩
    · exact hnone i hi
    · rcases hasks with ⟨hnil, -⟩ | ⟨start', count', hrequests', -, -, hend', -⟩
      · rw [hnil] at hrequests
        cases hrequests
      · rw [hrequests] at hrequests'
        cases hrequests'
        have hle := (hall i hi).2
        exact ((himp _).mp hend').2 (hlast i _ hi hcached (by omega) hend)
  · intro hnone
    have heq : missing = isOpen := by
      funext i
      exact propext ((himp i).trans (and_iff_left_of_imp (hnone i)))
    rwa [heq]

/-- The tracker does not trap, its window holds what is visible, and afterwards every index of the
window is cached or in flight. It asks for what was neither exactly when each index of the window
that is not in flight has an uncached position at or after it. -/
theorem requests_cover (pending : CollectionRangeTracker)
    (visibleStart visibleCount itemCount : Nat)
    (model : Model) (nodeID : NodeId) (modelID : ModelId) (nowNanos : Nat)
    (hstart : visibleStart ≤ u64Max) (hitems : itemCount ≤ u64Max) (hnow : nowNanos ≤ u64Max)
    (hmodel : Holdable model) :
    (∀ start count, ∃ arrived dropped, noteArrived pending start count = some arrived ∧
      noteDropped pending start count = some dropped) ∧
    ∃ window pending' requests,
      alignedWindow visibleStart visibleCount itemCount = some window ∧
      pending.requests visibleStart visibleCount itemCount model nodeID modelID nowNanos =
        some (pending', requests) ∧
      (∀ w ∈ window, w.upperBound ≤ itemCount) ∧
      (∀ i, visibleStart ≤ i → i < visibleStart + visibleCount → i < itemCount →
        ∃ w ∈ window, i ∈ w) ∧
      (∀ w ∈ window, ∀ i ∈ w, i ∈ model.items.keys ∨ InFlight pending' nowNanos i) ∧
      (Asks (fun i => (∃ w ∈ window, i ∈ w) ∧ i ∉ model.items.keys ∧
          ¬InFlight pending nowNanos i) nodeID modelID requests ↔
        ∀ w ∈ window, ∀ i ∈ w, ¬InFlight pending nowNanos i →
          ∃ j, i ≤ j ∧ j ≤ u64Max ∧ j ∉ model.items.keys) := by
  have hdrops : ∀ start count, Yields (noteArrived pending start count) fun _ => True := by
    intro start count
    refine (exclusiveRange_yields start count).bind fun r _ => ?_
    cases r with
    | none => exact .pure trivial
    | some r => exact subtractPending_yields pending r
  refine ⟨fun start count => ?_, ?_⟩
  · obtain ⟨arrived, harrived, -⟩ := hdrops start count
    exact ⟨arrived, arrived, harrived, harrived⟩
  obtain ⟨window, hwindow, hinside, hvisible⟩ :=
    alignedWindow_yields visibleCount hstart hitems
  cases window with
  | none =>
    refine ⟨none, [], [], hwindow, ?_, by simp, hvisible, by simp, by simp [Asks]⟩
    unfold requests
    simp only [hwindow, Option.bind_eq_bind, Option.bind_some, ite_self]
  | some window =>
    obtain ⟨hne, hupper⟩ := hinside window rfl
    have hguard : 0 < itemCount ∧ 0 < visibleCount := by
      by_contra h
      rw [alignedWindow, if_neg h] at hwindow
      cases hwindow
    obtain ⟨⟨pending', requests⟩, hrequests, hasks, hkept, hcovered⟩ := requestsIn_yields
      ((expireStalePending pending nowNanos).filter fun p => decide (Overlaps p.range window))
      window hmodel nodeID modelID nowNanos
    refine ⟨some window, pending', requests, hwindow, ?_, fun w hw => (hinside w hw).2, hvisible,
      ?_, ?_⟩
    · simp only [CollectionRangeTracker.requests, if_pos hguard, hwindow, Option.bind_eq_bind,
        Option.bind_some, hrequests]
    · intro w hw i hi
      cases hw
      by_cases hflight : InFlight pending nowNanos i
      · obtain ⟨r, hr, hir⟩ := (within_kept hi).mpr hflight
        obtain ⟨p, hp, rfl⟩ := List.mem_map.mp hr
        exact .inr ⟨p, hkept p hp,
          of_decide_eq_true (List.mem_filter.mp (List.mem_filter.mp hp).1).2, hir⟩
      · by_cases hcounted : Counted model.items.keys i
        · exact .inl hcounted.1
        · obtain ⟨merged, hmerged, hmem⟩ := hcovered i (open_iff.mpr ⟨hi, hflight, hcounted⟩)
          exact .inr ⟨_, hmem, unexpired_now hnow merged, hmerged⟩
    · have hmissing : ∀ i, i ∈ window ∧ i ∉ model.items.keys ∧ ¬InFlight pending nowNanos i ↔
          Open ((expireStalePending pending nowNanos).filter fun p =>
            decide (Overlaps p.range window)) model.items.keys window i ∧ ¬i ∈ model.items.keys := by
        intro i
        rw [open_iff]
        exact ⟨fun h => ⟨⟨h.1, h.2.2, fun hc => h.2.1 hc.1⟩, h.2.1⟩,
          fun h => ⟨h.1.1, h.2, h.1.2.1⟩⟩
      have hbound : ∀ i ∈ window, i ≤ u64Max := fun i hi =>
        (hi.2.trans_le hupper).le.trans hitems
      simp only [Option.mem_def, Option.some.injEq, exists_eq_left', forall_eq']
      rw [asks_iff hasks hmissing]
      · simp only [open_iff]
        constructor
        · intro h i hi hflight
          by_contra hall
          have hkey : i ∈ model.items.keys := by
            by_contra hkey
            exact hall ⟨i, Nat.le_refl _, hbound i hi, hkey⟩
          exact h i ⟨hi, hflight, fun hc => hall hc.2⟩ hkey
        · rintro h i ⟨hi, hflight, hcounted⟩ hkey
          exact hcounted ⟨hkey, h i hi hflight⟩
      · intro i j hi hcached hij hj
        rw [open_iff] at hi hj
        by_contra hout
        exact hi.2.2 ⟨hcached, j, hij, hbound j hj.1, hout⟩

def cachedModel (positions : List Nat) : Model :=
  { Model.new 1 ⟨0, 0⟩ u64Max with
    items := positions.foldl (fun items position =>
      items.insert position ⟨position, .scalar (.bool true), ∅⟩) ∅ }

theorem cached_rows_are_not_asked_for :
    (∀ start count, ∃ arrived dropped, noteArrived [] start count = some arrived ∧
      noteDropped [] start count = some dropped) ∧
    ∃ window pending' requests, alignedWindow 1 2 4 = some window ∧
      CollectionRangeTracker.requests [] 1 2 4 (cachedModel [1]) 1 1 0 =
        some (pending', requests) ∧
      (∀ w ∈ window, w.upperBound ≤ 4) ∧
      (∀ i, 1 ≤ i → i < 1 + 2 → i < 4 → ∃ w ∈ window, i ∈ w) ∧
      (∀ w ∈ window, ∀ i ∈ w, i ∈ (cachedModel [1]).items.keys ∨ InFlight pending' 0 i) ∧
      (Asks (fun i => (∃ w ∈ window, i ∈ w) ∧ i ∉ (cachedModel [1]).items.keys ∧
          ¬InFlight [] 0 i) 1 1 requests ↔
        ∀ w ∈ window, ∀ i ∈ w, ¬InFlight [] 0 i →
          ∃ j, i ≤ j ∧ j ≤ u64Max ∧ j ∉ (cachedModel [1]).items.keys) :=
  requests_cover [] 1 2 4 (cachedModel [1]) 1 1 0 (by decide) (by decide) (by decide)
    ⟨by decide +kernel, by decide +kernel⟩

/-- The last rows have arrived and are cached up to the last position there is. They are asked for
all the same. -/
theorem last_rows_are_asked_for_again : ∃ flying left,
    CollectionRangeTracker.requests [] (u64Max - 1) 1 u64Max (cachedModel []) 1 1 0 =
      some (flying, [⟨1, 1, u64Max - 127, 127⟩]) ∧
    noteArrived flying (u64Max - 2) 2 = some left ∧
    (∃ left', left.requests (u64Max - 1) 1 u64Max
        (cachedModel [u64Max - 2, u64Max - 1, u64Max]) 1 1 0 =
      some (left', [⟨1, 1, u64Max - 2, 2⟩])) ∧
    ∀ i, u64Max - 127 ≤ i → i < u64Max →
      i ∈ (cachedModel [u64Max - 2, u64Max - 1, u64Max]).items.keys ∨ InFlight left 0 i := by
  refine ⟨[⟨⟨u64Max - 127, u64Max, by decide⟩, 0⟩],
    [⟨⟨u64Max - 127, u64Max - 2, by decide⟩, 0⟩], by decide +kernel, by decide +kernel,
    ⟨[⟨⟨u64Max - 127, u64Max - 2, by decide⟩, 0⟩, ⟨⟨u64Max - 2, u64Max, by decide⟩, 0⟩],
      by decide +kernel⟩, fun i hlow hhigh => ?_⟩
  rcases Nat.lt_or_ge i (u64Max - 2) with hflight | hcached
  · exact .inr ⟨_, List.mem_cons_self, by decide, hlow, hflight⟩
  · refine .inl ?_
    have hlast : i = u64Max - 2 ∨ i = u64Max - 1 := by
      unfold u64Max at hcached hhigh ⊢
      omega
    rcases hlast with rfl | rfl
    · decide +kernel
    · decide +kernel

end Srui.Client.CollectionRangeTrackers

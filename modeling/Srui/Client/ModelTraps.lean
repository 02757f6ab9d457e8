import Srui.Client.StoreAgreement
import Srui.SemanticTree.RangeEvictions

/-!
Exactly when a mutation of a client model traps.

The client's `UInt64` and `Int64` operations stop the process where they do not fit. Every other
way a mutation ends is a model or an error that is reported.
-/

namespace Srui.Client.ModelTraps

open Std Basic.Machine Basic.InverseIndex SemanticTree.Values
open SemanticTree.Limits (StoreLimits)
open SemanticTree.Models (Model ModelItem Mutation)
open SemanticTree.ModelIndex (Indexed indexed_new mem_splitOff)
open SemanticTree.ModelMutations
open SemanticTree.ModelBounds (outsideKeys)
open SemanticTree.RangeEvictions (outside_evicted projectedCached_eq)
open Client.ReplicaModels Client.ReplicaStores Client.ModelAgreement
open Client.StoreAgreement (projected_eq)

variable {ε α : Type} {m m' : Model}

/-! ### How a call ends -/

/-- A call returns or reports an error. -/
def Ends : Outcome ε α → Prop
  | .ok _ => True
  | .error (.error _) => True
  | .error .panicked => False
  | .error .diverges => False

instance : DecidablePred (Ends : Outcome ε α → Prop)
  | .ok _ => isTrue trivial
  | .error (.error _) => isTrue trivial
  | .error .panicked => isFalse id
  | .error .diverges => isFalse id

@[simp] theorem ends_ok (a : α) : Ends (.ok a : Outcome ε α) := trivial

@[simp] theorem ends_err (e : ε) : Ends (err e : Outcome ε α) := trivial

theorem ends_error_iff {β : Type} (fault : Fault ε) :
    Ends (.error fault : Outcome ε α) ↔ Ends (.error fault : Outcome ε β) := by
  rcases fault with e | - | -
  · exact iff_of_true trivial trivial
  · exact iff_of_false id id
  · exact iff_of_false id id

variable {client : Outcome StoreError Model} {server : Mutation Model}

theorem Follows.done_iff
    (h : Follows client server) : client = .ok m' ↔ server = (m', .ok ()) := by
  constructor
  · intro hclient
    rcases server with ⟨after, fault | ⟨⟩⟩
    · obtain ⟨fault', hfault, -⟩ := h
      rw [hclient] at hfault
      cases hfault
    · have hdone : client = .ok after := h
      rw [hclient] at hdone
      cases hdone
      rfl
  · exact h.done

theorem Follows.ends_iff
    (h : Follows client server) : Ends client ↔ NoOverflow server := by
  rcases server with ⟨after, fault | ⟨⟩⟩
  · obtain ⟨fault', hclient, hsame⟩ := h
    rw [hclient]
    cases hsame with
    | error => exact iff_of_true trivial nofun
    | panicked => exact iff_of_false id fun hok => hok rfl
  · have hclient : client = .ok after := h
    rw [hclient]
    exact iff_of_true trivial nofun

theorem Follows.noOverflow
    (h : Follows client server) (hclient : client = .ok m') : NoOverflow server := by
  rw [← Follows.ends_iff h, hclient]
  exact ends_ok m'

/-! ### Models whose positions are of their machine type -/

/-- The maps are in step, and every position and the length are a `UInt64`. -/
structure Addressed (m : Model) : Prop where
  indexed : Indexed m
  items : ∀ (i : Nat) (a : ModelItem), m.items[i]? = some a → i ≤ u64Max
  itemCount : m.itemCount ≤ u64Max

theorem addressed_new (id : ModelId) (modelType : TypeRef) {itemCount : Nat}
    (hcount : itemCount ≤ u64Max) : Addressed ⟨id, modelType, itemCount, ∅, ∅⟩ where
  indexed := indexed_new id modelType itemCount
  items := by
    intro i a hi
    simp at hi
  itemCount := hcount

theorem Addressed.lookup (h : Addressed m) {itemID : ItemId} {index : Nat}
    (hindex : m.idToIndex[itemID]? = some index) : index ≤ u64Max := by
  obtain ⟨a, ha, -⟩ := (h.indexed itemID index).mp hindex
  exact h.items index a ha

/-! ### Shifts -/

theorem shift_done (m : Model) (fromIndex : Nat) {delta : Int}
    (hdelta : -9223372036854775808 < delta)
    (hall : ∀ (o : Nat) (a : ModelItem), m.items[o]? = some a → fromIndex ≤ o →
      ∃ i, SemanticTree.Models.shiftedIndex o delta = some i) :
    ∃ shifted, shiftCachedIndices (ε := StoreError) m fromIndex delta = .ok shifted ∧
      shifted.itemCount = m.itemCount := by
  have hserver := SemanticTree.IndexArithmetic.shift_ok
    (SemanticTree.IndexArithmetic.shift_noOverflow hall)
  have hheader := shiftCachedIndices_header m fromIndex delta
  refine ⟨_, (shiftCachedIndices_follows m fromIndex delta hdelta).done (Prod.ext rfl hserver), ?_⟩
  exact hheader.itemCount

theorem shift_traps {fromIndex n o : Nat} {a : ModelItem} (ho : m.items[o]? = some a)
    (hhigh : fromIndex ≤ o) (hover : u64Max < o + n) (hn : 0 < n) :
    shiftCachedIndices (ε := StoreError) m fromIndex n = .error .panicked := by
  rw [shiftCachedIndices, if_neg (by omega)]
  dsimp only
  rw [toShift_eq]
  apply putShifted_panics (by omega)
  intro hall
  obtain ⟨i, hi⟩ := hall (o, a) (mem_splitOff.mpr ⟨ho, hhigh⟩)
  have hfits : i = o + n := SemanticTree.ModelIndex.shiftedIndex_add hn hi
  rw [SemanticTree.Models.shiftedIndex, if_pos (by omega)] at hi
  have hcast : asU64 (n : Int) = n := by simp [asU64]
  rw [hcast] at hi
  exact Nat.not_le.mpr hover (checkedAdd_eq_some.mp hi).1

/-! ### Insertions -/

/-- What an accepted insertion moves and adds still has a position. -/
def InsertFits (m : Model) (index : Nat) (items : List ModelItem) : Prop :=
  index ≤ m.itemCount → firstDuplicate (fun id => m.idToIndex.contains id) [] items = none →
    m.itemCount + items.length ≤ u64Max ∧
      ∀ o ∈ m.items.keys, index ≤ o → o + items.length ≤ u64Max

instance (m : Model) (index : Nat) (items : List ModelItem) :
    Decidable (InsertFits m index items) :=
  inferInstanceAs (Decidable (_ → _ → _ ∧ _))

theorem mem_keys_iff {o : Nat} : o ∈ m.items.keys ↔ ∃ a, m.items[o]? = some a := by
  rw [ExtTreeMap.mem_keys, ExtTreeMap.mem_iff_isSome_getElem?, Option.isSome_iff_exists]

variable {items : List ModelItem}

theorem putItems_done (m : Model) {base offset : Nat}
    (hfits : base + offset + items.length ≤ u64Max) :
    ∃ written, putItems (ε := StoreError) m base offset items = .ok written ∧
      written.itemCount = m.itemCount := by
  have hserver := SemanticTree.IndexArithmetic.writeItems_ok
    (SemanticTree.IndexArithmetic.writeItems_noOverflow (m := m) hfits)
  refine ⟨_, (putItems_follows m base offset items).done (Prod.ext rfl hserver), ?_⟩
  exact (writeItems_header m base offset items).itemCount

theorem putItems_cases (m : Model) (base offset : Nat) (items : List ModelItem) :
    (∃ written, putItems (ε := StoreError) m base offset items = .ok written ∧
        written.itemCount = m.itemCount) ∨
      putItems (ε := StoreError) m base offset items = .error .panicked := by
  induction items generalizing m offset with
  | nil => exact .inl ⟨m, rfl, rfl⟩
  | cons item rest ih =>
    rw [putItems]
    rcases checkedAdd base offset with - | index
    · exact .inr rfl
    · exact ih (putItem m index item) (offset + 1)

theorem insertItems_ends_iff (h : Addressed m) (index : Nat) (items : List ModelItem) :
    Ends (insertItems m index items) ↔ InsertFits m index items := by
  rw [insertItems, InsertFits]
  rcases Nat.lt_or_ge m.itemCount index with hout | hin
  · rw [if_pos hout]
    exact iff_of_true (ends_err _) fun hle => absurd hout (Nat.not_lt.mpr hle)
  rw [if_neg (Nat.not_lt.mpr hin)]
  rcases hdup : firstDuplicate (fun id => m.idToIndex.contains id) [] items with - | itemID
  swap
  · exact iff_of_true (ends_err _) fun _ hnone => absurd hnone (by simp)
  dsimp only
  rcases Nat.eq_zero_or_pos items.length with hnil | hn
  · rw [if_pos hnil]
    refine iff_of_true (ends_ok m) fun _ _ => ⟨hnil ▸ h.itemCount, ?_⟩
    intro o ho _
    obtain ⟨a, ha⟩ := mem_keys_iff.mp ho
    exact hnil ▸ h.items o a ha
  rw [if_neg (Nat.ne_of_gt hn)]
  by_cases hkeys : ∀ o ∈ m.items.keys, index ≤ o → o + items.length ≤ u64Max
  swap
  · -- The shift stops at the first item that has no new position.
    push Not at hkeys
    obtain ⟨o, ho, hhigh, hover⟩ := hkeys
    obtain ⟨a, ha⟩ := mem_keys_iff.mp ho
    rw [shift_traps ha hhigh hover hn]
    refine iff_of_false id fun hfits => ?_
    exact Nat.not_le.mpr hover ((hfits hin rfl).2 o ho hhigh)
  have hpositions : ∀ (o : Nat) (a : ModelItem), m.items[o]? = some a → index ≤ o →
      ∃ i, SemanticTree.Models.shiftedIndex o items.length = some i := by
    intro o a ho hhigh
    exact ⟨_, SemanticTree.IndexArithmetic.shiftedIndex_up hn
      (hkeys o (mem_keys_iff.mpr ⟨a, ho⟩) hhigh)⟩
  obtain ⟨shifted, hshift, hcount⟩ := shift_done m index (by omega) hpositions
  rw [hshift]
  dsimp only
  rcases Nat.lt_or_ge u64Max (m.itemCount + items.length) with hover | hfits
  · -- The new length does not fit, if the last position does.
    have hnone : checkedAdd m.itemCount items.length = none := checkedAdd_eq_none.mpr hover
    refine iff_of_false ?_ fun hfits => Nat.not_le.mpr hover (hfits hin rfl).1
    rcases putItems_cases shifted index 0 items with ⟨written, hwritten, hsame⟩ | htraps
    · rw [hwritten]
      dsimp only
      rw [hsame, hcount, hnone]
      exact id
    · rw [htraps]
      exact id
  · have hpositions : index + 0 + items.length ≤ u64Max := by omega
    obtain ⟨written, hwritten, hsame⟩ := putItems_done shifted hpositions
    rw [hwritten]
    dsimp only
    rw [hsame, hcount, checkedAdd_eq_some.mpr ⟨hfits, rfl⟩]
    exact iff_of_true (ends_ok _) fun _ _ => ⟨hfits, hkeys⟩

theorem insertItems_addressed (h : Addressed m) {index : Nat}
    (hok : insertItems m index items = .ok m') : Addressed m' := by
  have hfits : InsertFits m index items := by
    rw [← insertItems_ends_iff h, hok]
    exact ends_ok m'
  have hfollows := insertItems_follows m index items
  have hserver := (Follows.done_iff hfollows).mp hok
  obtain ⟨hindexed, hinserted⟩ := insertItems_spec h.indexed index items
    (Follows.noOverflow hfollows hok)
  rw [hserver] at hindexed hinserted
  have hinserted := hinserted rfl
  -- What was accepted is what the condition asks about.
  have haccepted : firstDuplicate (fun id => m.idToIndex.contains id) [] items = none := by
    rw [insertItems, if_neg (Nat.not_lt.mpr hinserted.bound)] at hok
    rcases hdup : firstDuplicate (fun id => m.idToIndex.contains id) [] items with - | itemID
    · rfl
    · rw [hdup] at hok
      cases hok
  obtain ⟨hlength, hkeys⟩ := hfits hinserted.bound haccepted
  refine ⟨hindexed, ?_, hinserted.itemCount ▸ hlength⟩
  intro i a hi
  rcases (hinserted.items i a).mp hi with ⟨-, ha⟩ | ⟨k, hk, rfl⟩ | ⟨o, hhigh, ho, rfl⟩
  · exact h.items i a ha
  · have hlow := (List.getElem?_eq_some_iff.mp hk).1
    have hbound := hinserted.bound
    omega
  · exact hkeys o (mem_keys_iff.mpr ⟨a, ho⟩) hhigh

/-! ### Deletions -/

/-- The length of an accepted range is an `Int64`, and the first cached identity of a list has a
position after it. -/
def DeleteFits (m : Model) (index count : Option Nat) (itemIds : List ItemId) : Prop :=
  (itemIds = [] → index.getD 0 + count.getD 0 ≤ m.itemCount → count.getD 0 ≤ int64Max) ∧
    (count.getD 0 = 0 → itemIds.findSome? (fun itemID => m.idToIndex[itemID]?) ≠ some u64Max)

instance (m : Model) (index count : Option Nat) (itemIds : List ItemId) :
    Decidable (DeleteFits m index count itemIds) :=
  inferInstanceAs (Decidable ((_ → _ → _) ∧ (_ → _)))

theorem shiftDown_noOverflow (m : Model) {fromIndex count : Nat} (hcount : count ≤ int64Max)
    (hfrom : count ≤ fromIndex) :
    NoOverflow (SemanticTree.Models.shiftCachedIndices m fromIndex (-(count : Int))) := by
  apply SemanticTree.IndexArithmetic.shift_noOverflow
  intro o a _ hhigh
  exact ⟨_, SemanticTree.IndexArithmetic.shiftedIndex_down hcount (hfrom.trans hhigh)⟩

theorem deletedIds_below (h : Addressed m) {itemID : ItemId} {idx : Nat}
    (hidx : m.idToIndex[itemID]? = some idx) (hlow : idx < u64Max)
    (hdeleted : DeletedIds m m' [itemID]) :
    SemanticTree.IndexArithmetic.Below u64Max m' := by
  have hmoved : ∀ o ≤ u64Max, o - removedBelow m [itemID] o < u64Max := by
    intro o ho
    rw [removedBelow_single, cachedBelow_eq hidx]
    by_cases hbelow : idx < o
    · rw [decide_eq_true hbelow, if_pos rfl]
      omega
    · omega
  constructor
  · intro i a hi
    obtain ⟨o, ho, -, rfl⟩ := (hdeleted.items i a).mp hi
    exact hmoved o (h.items o a ho)
  · intro k i hi
    obtain ⟨o, ho, -, rfl⟩ := (hdeleted.lookup k i).mp hi
    exact hmoved o (h.lookup ho)

theorem deleteIds_ends_iff (h : Addressed m) (itemIds : List ItemId) :
    Ends (deleteIds m itemIds) ↔
      itemIds.findSome? (fun itemID => m.idToIndex[itemID]?) ≠ some u64Max := by
  induction itemIds generalizing m with
  | nil => exact iff_of_true (ends_ok m) (by simp)
  | cons itemID rest ih =>
    rcases hidx : m.idToIndex[itemID]? with - | idx
    · have hless : Addressed { m with itemCount := m.itemCount - 1 } :=
        ⟨h.indexed, h.items, (Nat.sub_le _ _).trans h.itemCount⟩
      rw [List.findSome?_cons, hidx, deleteIds, hidx]
      exact ih hless
    rw [List.findSome?_cons, hidx]
    dsimp only
    rw [Ne, Option.some.injEq, Follows.ends_iff (deleteIds_follows m (itemID :: rest))]
    rcases Nat.lt_or_ge idx u64Max with hlow | hlast
    swap
    · -- The position after the greatest one does not fit.
      have heq : idx = u64Max := Nat.le_antisymm (h.lookup hidx) hlast
      have hnone : checkedAdd idx 1 = none := checkedAdd_eq_none.mpr (by omega)
      refine iff_of_false ?_ (not_not.mpr heq)
      rw [SemanticTree.Models.deleteByIds, hidx]
      dsimp only
      rw [hnone]
      exact fun hok => hok rfl
    refine iff_of_true ?_ (Nat.ne_of_lt hlow)
    have hadd : checkedAdd idx 1 = some (idx + 1) := checkedAdd_eq_some.mpr ⟨hlow, rfl⟩
    rw [deleteByIds_cached hidx hadd]
    have hfits := @shiftDown_noOverflow (dropItem m itemID idx) (idx + 1) 1 (by decide) (by omega)
    obtain ⟨hdone, hshifted⟩ := SemanticTree.ModelIndex.shift_spec
      (dropItem_indexed h.indexed hidx) (shiftFits_dropItem m itemID idx) hfits
    have hbelow := deletedIds_below h hidx hlow (deletedIds_cached h.indexed hidx hshifted)
    rcases hmoved : SemanticTree.Models.shiftCachedIndices (dropItem m itemID idx) (idx + 1) (-1)
      with ⟨shifted, fault | ⟨⟩⟩
    · exact absurd (congrArg Prod.snd hmoved) (by rw [hdone]; simp)
    · rw [hmoved] at hbelow
      exact SemanticTree.IndexArithmetic.deleteByIds_inRange (Nat.le_refl _) hbelow rest

theorem deleteRange_ends_iff (h : Addressed m) (index count : Nat) :
    Ends (deleteRange m index count) ↔
      (index + count ≤ m.itemCount → count ≤ int64Max) := by
  rcases Nat.lt_or_ge m.itemCount (index + count) with hbeyond | hinside
  · refine iff_of_true ?_ fun hin => absurd hbeyond (Nat.not_lt.mpr hin)
    rw [deleteRange]
    rcases hend : checkedAdd index count with - | rangeEnd
    · exact ends_err _
    · dsimp only
      rw [(checkedAdd_eq_some.mp hend).2, if_pos (Or.inr hbeyond)]
      exact ends_err _
  rcases Nat.lt_or_ge int64Max count with hover | hcount
  · refine iff_of_false ?_ fun hfits => Nat.not_le.mpr hover (hfits hinside)
    have hinside64 := hinside.trans h.itemCount
    rw [deleteRange, checkedAdd_eq_some.mpr ⟨hinside64, rfl⟩]
    dsimp only
    rw [if_neg (by omega), if_pos hover]
    exact id
  · refine iff_of_true ?_ fun _ => hcount
    have hfits := hinside.trans h.itemCount
    rw [Follows.ends_iff (deleteRange_inside hfits hinside hcount)]
    refine ((SemanticTree.IndexArithmetic.deleteByRange_inRange (by omega) ?_).mpr
      ⟨hfits, hcount⟩).1
    rw [saturatingAdd, Nat.min_eq_left hfits]
    exact hinside

theorem deleteItems_ends_iff (h : Addressed m) (index count : Option Nat) (itemIds : List ItemId) :
    Ends (deleteItems m index count itemIds) ↔ DeleteFits m index count itemIds := by
  rw [deleteItems, DeleteFits]
  rcases Nat.eq_zero_or_pos (count.getD 0) with hzero | hpos
  · rw [hzero, if_neg (by omega)]
    rcases Classical.em (itemIds = []) with rfl | hids
    · rw [if_neg (by simp), if_neg (by omega)]
      exact iff_of_true (ends_ok m) ⟨fun _ _ => Nat.zero_le _, fun _ => by simp⟩
    · rw [if_pos hids, deleteIds_ends_iff h]
      exact ⟨fun hlast => ⟨fun _ _ => Nat.zero_le _, fun _ => hlast⟩, fun hfits => hfits.2 rfl⟩
  · rcases Classical.em (itemIds = []) with rfl | hids
    · rw [if_neg (by simp), if_neg (by simp), if_pos hpos, deleteRange_ends_iff h]
      exact ⟨fun hcount => ⟨fun _ => hcount, fun hzero => absurd hzero (Nat.ne_of_gt hpos)⟩,
        fun hfits => hfits.1 rfl⟩
    · rw [if_pos ⟨hpos, hids⟩]
      exact iff_of_true (ends_err _)
        ⟨fun hnil => absurd hnil hids, fun hzero => absurd hzero (Nat.ne_of_gt hpos)⟩

variable {index : Option Nat}

theorem deleteItems_addressed (h : Addressed m) {count : Option Nat} {itemIds : List ItemId}
    (hok : deleteItems m index count itemIds = .ok m') : Addressed m' := by
  rw [deleteItems] at hok
  split at hok
  · cases hok
  split at hok
  · have hfollows := deleteIds_follows m itemIds
    have hserver := (Follows.done_iff hfollows).mp hok
    obtain ⟨-, hindexed, hdeleted⟩ := deleteByIds_spec itemIds h.indexed
      (Follows.noOverflow hfollows hok)
    rw [hserver] at hindexed hdeleted
    refine ⟨hindexed, ?_, ?_⟩
    · intro i a hi
      obtain ⟨o, ho, -, rfl⟩ := (hdeleted.items i a).mp hi
      exact (Nat.sub_le _ _).trans (h.items o a ho)
    · rw [hdeleted.itemCount]
      exact (Nat.sub_le _ _).trans h.itemCount
  split at hok
  · rename_i hpos
    -- A range that was deleted lies in the model, where both sides go alike.
    have hinside : index.getD 0 + count.getD 0 ≤ m.itemCount := by
      by_contra hbeyond
      rw [deleteRange] at hok
      rcases hend : checkedAdd (index.getD 0) (count.getD 0) with - | rangeEnd
      · rw [hend] at hok
        cases hok
      · have hover : m.itemCount < rangeEnd := by
          rw [(checkedAdd_eq_some.mp hend).2]
          exact Nat.lt_of_not_le hbeyond
        rw [hend] at hok
        dsimp only at hok
        rw [if_pos (Or.inr hover)] at hok
        cases hok
    have hcount : count.getD 0 ≤ int64Max := by
      apply (deleteRange_ends_iff h (index.getD 0) (count.getD 0)).mp _ hinside
      rw [hok]
      exact ends_ok m'
    have hfollows := deleteRange_inside (hinside.trans h.itemCount) hinside hcount
    have hserver := (Follows.done_iff hfollows).mp hok
    obtain ⟨hindexed, hdeleted⟩ := deleteByRange_spec h.indexed hpos
      (Follows.noOverflow hfollows hok)
    rw [hserver] at hindexed hdeleted
    have hdeleted := hdeleted rfl
    refine ⟨hindexed, ?_, ?_⟩
    · intro i a hi
      rcases (hdeleted.items i a).mp hi with ⟨-, ha⟩ | ⟨o, -, ho, hio⟩
      · exact h.items i a ha
      · exact (Nat.le_of_add_right_le (Nat.le_of_eq hio)).trans (h.items o a ho)
    · rw [hdeleted.itemCount]
      exact (Nat.sub_le _ _).trans h.itemCount
  · cases hok
    exact h

/-! ### Updates -/

theorem updateItems_ends (h : Addressed m) (hindex : index.getD 0 ≤ u64Max)
    (items : List ModelItem) : Ends (updateItems m index items) := by
  rw [Follows.ends_iff (updateItems_follows m index items)]
  rcases index with - | baseIdx
  · exact SemanticTree.IndexArithmetic.updateById_inRange m items
  · exact SemanticTree.IndexArithmetic.updateAt_inRange h.itemCount hindex

theorem updateItems_addressed (h : Addressed m)
    (hok : updateItems m index items = .ok m') : Addressed m' := by
  have hfollows := updateItems_follows m index items
  have hserver := (Follows.done_iff hfollows).mp hok
  have hfits := Follows.noOverflow hfollows hok
  rcases index with - | baseIdx
  · obtain ⟨hindexed, hheader, hsame⟩ := updateById_spec h.indexed items
    have hafter : SemanticTree.Models.updateById m items = (m', .ok ()) := hserver
    rw [hafter] at hindexed hheader hsame
    refine ⟨hindexed, ?_, hheader.itemCount ▸ h.itemCount⟩
    intro i a hi
    have hlookup : m'.idToIndex[a.itemId]? = some i := Inverse.index_eq hindexed hi
    rw [hsame] at hlookup
    exact h.lookup hlookup
  · obtain ⟨hindexed, hupdated⟩ := updateAt_spec h.indexed baseIdx 0 items hfits
    have hafter : SemanticTree.Models.updateAt m baseIdx 0 items = (m', .ok ()) := hserver
    rw [hafter] at hindexed hupdated
    have hupdated := hupdated rfl
    refine ⟨hindexed, ?_, hupdated.itemCount ▸ h.itemCount⟩
    intro i a hi
    rcases (hupdated.items i a).mp hi with ⟨-, ha, -⟩ | ⟨k, hk, rfl, -⟩
    · exact h.items i a ha
    · have hlow := (List.getElem?_eq_some_iff.mp hk).1
      have hbound := hupdated.bound (List.ne_nil_of_length_pos (Nat.zero_lt_of_lt hlow))
      have hcount := h.itemCount
      omega

/-! ### Range resets -/

/-- The end of a range that is replaced is a position, when the range starts in the model and the
cache can hold it. -/
def ResetFits (limits : StoreLimits) (m : Model) (startIndex : Nat) (items : List ModelItem)
    (totalCount : Option Nat) : Prop :=
  startIndex ≤ announcedCount m totalCount → items.length ≤ limits.maxCachedItemsPerModel →
    startIndex + items.length ≤ u64Max

instance (limits : StoreLimits) (m : Model) (startIndex : Nat) (items : List ModelItem)
    (totalCount : Option Nat) : Decidable (ResetFits limits m startIndex items totalCount) :=
  inferInstanceAs (Decidable (_ → _ → _))

theorem projected_window (m : Model) (start stop count : Nat) :
    projected m start stop count = (outsideKeys m start (max stop start)).length + count := by
  have hwindow : projected m start stop count = projected m start (max stop start) count := by
    rw [projected, projected]
    congr 3
    apply List.filter_congr
    intro entry _
    apply decide_eq_decide.mpr
    omega
  rw [hwindow, projected_eq, projectedCached_eq (Nat.le_max_right stop start)]

theorem evictFarthestOutside_window (m : Model) {start stop : Nat} (hstart : start ≤ u64Max)
    (hstop : stop ≤ u64Max) (count : Nat) :
    evictFarthestOutside m start stop count =
      SemanticTree.Models.evictFarthestOutside m start (max stop start) count := by
  rw [← evictFarthestOutside_eq m hstart (Nat.max_le.mpr ⟨hstop, hstart⟩), evictFarthestOutside,
    evictFarthestOutside, Nat.max_eq_left (Nat.le_max_right stop start)]

def roomFor (limits : StoreLimits) (m : Model) (start stop count : Nat) : Model :=
  if limits.maxCachedItemsPerModel < projected m start stop count then
    evictFarthestOutside m start stop
      (projected m start stop count - limits.maxCachedItemsPerModel)
  else m

section Room

variable {limits : StoreLimits} {start stop count : Nat}

theorem roomFor_projected (m : Model) (hstart : start ≤ u64Max) (hstop : stop ≤ u64Max) :
    projected (roomFor limits m start stop count) start stop count ≤
        limits.maxCachedItemsPerModel ↔
      count ≤ limits.maxCachedItemsPerModel := by
  rw [roomFor, projected_window m start stop count]
  split
  · rw [evictFarthestOutside_window m hstart hstop, projected_window,
      outside_evicted (Nat.le_max_right stop start)]
    omega
  · rw [projected_window]
    omega

theorem roomFor_addressed (hstart : start ≤ u64Max) (hstop : stop ≤ u64Max) (h : Addressed m) :
    Addressed (roomFor limits m start stop count) ∧
      (roomFor limits m start stop count).itemCount = m.itemCount := by
  rw [roomFor]
  split
  swap
  · exact ⟨h, rfl⟩
  rw [evictFarthestOutside_window m hstart hstop]
  generalize projected m start stop count - limits.maxCachedItemsPerModel = excess
  have hheader := evictFarthestOutside_header m start (max stop start) excess
  refine ⟨⟨evictFarthestOutside_indexed h.indexed start (max stop start) excess, ?_, ?_⟩,
    hheader.itemCount⟩
  · intro i a hi
    exact h.items i a ((SemanticTree.RangeEvictions.evicted_items m start (max stop start) excess
      i a).mp hi).1
  · exact hheader.itemCount ▸ h.itemCount

end Room

theorem wrapped_le (index : Nat) : index % (u64Max + 1) ≤ u64Max :=
  Nat.le_of_lt_succ (Nat.mod_lt index (Nat.succ_pos u64Max))

theorem replaceRange_eq (limits : StoreLimits) (m : Model) (startIndex : Nat)
    (items : List ModelItem) (totalCount : Option Nat) (hstart : startIndex ≤ u64Max) :
    ∃ room, (Addressed m → Addressed room ∧ room.itemCount = m.itemCount) ∧
      if limits.maxCachedItemsPerModel < items.length then
        ∃ e, replaceRange limits startIndex items totalCount m = err e
      else
        replaceRange limits startIndex items totalCount m =
          resetRange room startIndex items totalCount := by
  have hstop := wrapped_le (startIndex + items.length)
  refine ⟨roomFor limits m startIndex ((startIndex + items.length) % (u64Max + 1)) items.length,
    roomFor_addressed hstart hstop, ?_⟩
  have hroom := @roomFor_projected limits startIndex
    ((startIndex + items.length) % (u64Max + 1)) items.length m hstart hstop
  rw [roomFor] at hroom ⊢
  split
  · rename_i hover
    rw [replaceRange, if_pos (Nat.lt_of_not_le fun hle => Nat.not_le.mpr hover (hroom.mp hle))]
    exact ⟨_, rfl⟩
  · rename_i hfits
    rw [replaceRange, if_neg (Nat.not_lt.mpr (hroom.mpr (Nat.le_of_not_lt hfits)))]

theorem replaceRange_ends_iff (h : Addressed m) (limits : StoreLimits) {startIndex : Nat}
    (hstart : startIndex ≤ u64Max) (items : List ModelItem) (totalCount : Option Nat) :
    Ends (replaceRange limits startIndex items totalCount m) ↔
      ResetFits limits m startIndex items totalCount := by
  obtain ⟨room, haddressed, hreplace⟩ :=
    replaceRange_eq limits m startIndex items totalCount hstart
  rw [ResetFits]
  split at hreplace
  · rename_i hover
    obtain ⟨e, he⟩ := hreplace
    rw [he]
    exact iff_of_true (ends_err e) fun _ hfits => absurd hover (Nat.not_lt.mpr hfits)
  · rename_i hfits
    have hannounced : announcedCount room totalCount = announcedCount m totalCount := by
      rw [announcedCount, announcedCount, (haddressed h).2]
    rw [hreplace, Follows.ends_iff (resetRange_follows room startIndex items totalCount),
      SemanticTree.IndexArithmetic.resetRange_inRange, SemanticTree.IndexArithmetic.IndexCall.Fits,
      hannounced]
    exact ⟨fun hend hin _ => hend hin, fun hend hin => hend hin (Nat.le_of_not_lt hfits)⟩

theorem replaceRange_addressed (h : Addressed m) {limits : StoreLimits} {startIndex : Nat}
    (hstart : startIndex ≤ u64Max) {totalCount : Option Nat}
    (htotal : totalCount.getD 0 ≤ u64Max)
    (hok : replaceRange limits startIndex items totalCount m = .ok m') : Addressed m' := by
  obtain ⟨room, haddressed, hreplace⟩ :=
    replaceRange_eq limits m startIndex items totalCount hstart
  split at hreplace
  · obtain ⟨e, he⟩ := hreplace
    rw [he] at hok
    cases hok
  rw [hreplace] at hok
  obtain ⟨hroom, -⟩ := haddressed h
  have hfollows := resetRange_follows room startIndex items totalCount
  have hserver := (Follows.done_iff hfollows).mp hok
  obtain ⟨hindexed, hreset⟩ := resetRange_spec hroom.indexed startIndex items totalCount
    (Follows.noOverflow hfollows hok)
  rw [hserver] at hindexed hreset
  have hreset := hreset rfl
  have hannounced : announcedCount room totalCount ≤ u64Max := by
    rw [announcedCount]
    split
    · exact htotal
    · exact hroom.itemCount
  refine ⟨hindexed, ?_, hreset.itemCount ▸ hannounced⟩
  intro i a hi
  rcases (hreset.items i a).mp hi with ⟨-, ha⟩ | ⟨k, hk, rfl⟩
  · exact hroom.items i a ha
  · have hlow := (List.getElem?_eq_some_iff.mp hk).1
    have hbound := hreset.bound
    omega

end Srui.Client.ModelTraps

import Srui.Client.ReplicaModels
import Srui.SemanticTree.IndexArithmetic

/-!
The client's model mutations end as the server's do: with the same model, with an error of the
same kind, or by trapping where the server panics.

Range deletions are the exception. The client traps on a count above `Int64.max`, and reports an
end that does not fit where the server may panic.
-/

namespace Srui.Client.ModelAgreement

open Std Basic.Machine Basic.FiniteMaps SemanticTree.Values
open SemanticTree.Models (Model ModelItem Mutation)
open SemanticTree.ModelIndex (cacheAll shiftEntries shiftLoop_eq splitOff splitBase)
open Client.ReplicaModels

variable {ε : Type} {m m' : Model}

/-! ### Outcomes -/

/-- The errors of the model mutations, as the client and the server name them. -/
inductive SameKind : StoreError → SemanticTree.Limits.StoreError → Prop where
  | modelIndexOutOfBounds (index count : Nat) :
      SameKind (.modelIndexOutOfBounds index count) (.modelIndexOutOfBounds index count)
  | duplicateItemId (modelId : ModelId) (itemId : ItemId) :
      SameKind (.duplicateItemId modelId itemId) (.duplicateItemId modelId itemId)
  | invalidModelDelete (reason : String) :
      SameKind (.invalidModelDelete reason) (.invalidModelDelete reason)
  | itemNotFound (itemId : ItemId) : SameKind (.itemNotFound itemId) (.itemNotFound itemId)

inductive SameFault : Fault StoreError → Fault SemanticTree.Limits.StoreError → Prop where
  | error {e : StoreError} {e' : SemanticTree.Limits.StoreError} (kind : SameKind e e') :
      SameFault (.error e) (.error e')
  | panicked : SameFault .panicked .panicked

def Follows (client : Outcome StoreError Model) (server : Mutation Model) : Prop :=
  match server.2 with
  | .ok () => client = .ok server.1
  | .error fault => ∃ fault', client = .error fault' ∧ SameFault fault' fault

theorem Follows.done {client : Outcome StoreError Model} {server : Mutation Model}
    (h : Follows client server) (hserver : server = (m', .ok ())) : client = .ok m' := by
  rw [hserver] at h
  exact h

theorem follows_error {e : StoreError} {e' : SemanticTree.Limits.StoreError} (m : Model)
    (h : SameKind e e') : Follows (err e) (m, err e') := ⟨_, rfl, .error h⟩

theorem follows_panicked (m : Model) : Follows (.error .panicked) (m, .error .panicked) :=
  ⟨_, rfl, .panicked⟩

/-! ### Single items -/

theorem removeItem_eq : removeItem = SemanticTree.Models.removeCached := rfl

theorem putItem_eq : putItem = SemanticTree.Models.cacheItem := rfl

theorem firstDuplicate_eq (refused : ItemId → Bool) (incoming : List ItemId)
    (items : List ModelItem) :
    firstDuplicate refused incoming items =
      SemanticTree.Models.duplicateItem refused incoming items := by
  induction items generalizing incoming with
  | nil => rfl
  | cons item rest ih => rw [firstDuplicate, SemanticTree.Models.duplicateItem, ih]

theorem cachedElsewhere_eq : cachedElsewhere = SemanticTree.Models.cachedOutside := rfl

theorem putItems_follows (m : Model) (base offset : Nat) (items : List ModelItem) :
    Follows (putItems m base offset items)
      (SemanticTree.Models.writeItems m base offset items) := by
  induction items generalizing m offset with
  | nil => rfl
  | cons item rest ih =>
    rw [putItems, SemanticTree.Models.writeItems]
    rcases checkedAdd base offset with - | index
    · exact follows_panicked m
    · exact ih _ _

/-! ### Shifts -/

variable {delta : Int}

/-- A shift that fits an `i64` moves an item to the same place on both sides. -/
theorem shiftedIndex_eq (hdelta : -9223372036854775808 < delta) (o : Nat) :
    shiftedIndex o delta = SemanticTree.Models.shiftedIndex o delta := by
  rw [shiftedIndex, SemanticTree.Models.shiftedIndex]
  rcases Classical.em (0 < delta) with hpos | hneg
  · have hcast : asU64 delta = delta.toNat := by
      rw [asU64, if_pos (by omega)]
    rw [if_pos hpos, if_pos hpos, hcast]
  · have hcast : asU64 (negI64 delta) = (-delta).toNat := by
      rw [negI64, if_neg (by omega), asU64, if_pos (by omega)]
    rw [if_neg hneg, if_neg hneg, hcast]

theorem taken_eq (entries : List (Nat × ModelItem)) (m : Model) :
    entries.foldl (fun model entry =>
      { model with
        items := model.items.erase entry.1
        idToIndex := model.idToIndex.erase entry.2.itemId }) m =
      { m with
        items := eraseAll m.items (entries.map Prod.fst)
        idToIndex := eraseAll m.idToIndex (entries.map fun entry => entry.2.itemId) } := by
  induction entries generalizing m with
  | nil => rfl
  | cons entry entries ih =>
    rw [List.foldl_cons, ih]
    rfl

variable {entries : List (Nat × ModelItem)}

theorem putShifted_eq (hdelta : -9223372036854775808 < delta) (m : Model)
    (hall : ∀ entry ∈ entries, ∃ i, SemanticTree.Models.shiftedIndex entry.1 delta = some i) :
    putShifted (ε := ε) m delta entries = .ok (cacheAll m (shiftEntries delta entries)) := by
  induction entries generalizing m with
  | nil => rfl
  | cons entry rest ih =>
    obtain ⟨o, item⟩ := entry
    obtain ⟨i, hi⟩ := hall (o, item) (by simp)
    rw [putShifted, shiftedIndex_eq hdelta, hi]
    simp only
    rw [ih _ fun entry hentry => hall entry (List.mem_cons_of_mem _ hentry)]
    simp [shiftEntries, hi, cacheAll, putItem_eq]

theorem putShifted_panics (hdelta : -9223372036854775808 < delta) (m : Model)
    (hsome : ¬∀ entry ∈ entries, ∃ i, SemanticTree.Models.shiftedIndex entry.1 delta = some i) :
    putShifted (ε := ε) m delta entries = .error .panicked := by
  induction entries generalizing m with
  | nil => exact absurd nofun hsome
  | cons entry rest ih =>
    obtain ⟨o, item⟩ := entry
    rw [putShifted, shiftedIndex_eq hdelta]
    rcases hi : SemanticTree.Models.shiftedIndex o delta with - | i
    · rfl
    · apply ih
      intro hrest
      apply hsome
      intro entry hentry
      rcases List.mem_cons.mp hentry with rfl | hentry
      · exact ⟨i, hi⟩
      · exact hrest entry hentry

theorem shiftLoop_of_all (m : Model)
    (hall : ∀ entry ∈ entries, ∃ i, SemanticTree.Models.shiftedIndex entry.1 delta = some i) :
    SemanticTree.Models.shiftLoop m delta entries =
      (cacheAll m (shiftEntries delta entries), .ok ()) :=
  (shiftLoop_eq m delta entries
    (SemanticTree.IndexArithmetic.shiftLoop_noOverflow hall)).2

theorem shiftLoop_panics (m : Model)
    (hsome : ¬∀ entry ∈ entries, ∃ i, SemanticTree.Models.shiftedIndex entry.1 delta = some i) :
    (SemanticTree.Models.shiftLoop m delta entries).2 = .error .panicked := by
  by_contra hok
  exact hsome (shiftLoop_eq m delta entries hok).1

theorem cacheAll_eq (m : Model) (entries : List (Nat × ModelItem)) :
    cacheAll m entries =
      { m with
        items := insertAll m.items entries
        idToIndex := insertAll m.idToIndex (entries.map fun entry =>
          (entry.2.itemId, entry.1)) } := by
  induction entries generalizing m with
  | nil => rfl
  | cons entry entries ih =>
    have hcons : cacheAll m (entry :: entries) =
        cacheAll (SemanticTree.Models.cacheItem m entry.1 entry.2) entries := rfl
    rw [hcons, ih]
    rfl

theorem toShift_eq (m : Model) (fromIndex : Nat) :
    (m.items.toList.filter fun entry => decide (fromIndex ≤ entry.1)) = splitOff m fromIndex := by
  rw [splitOff, ExtTreeMap.toList_filter]

theorem eraseAll_splitOff (m : Model) (fromIndex : Nat) :
    eraseAll m.items ((splitOff m fromIndex).map Prod.fst) = (splitBase m fromIndex).items := by
  apply ExtTreeMap.ext_getElem?
  intro k
  rw [getElem?_eraseAll]
  apply Option.ext
  intro a
  rw [SemanticTree.ModelIndex.splitBase_items]
  have hmoved : k ∈ (splitOff m fromIndex).map Prod.fst ↔
      fromIndex ≤ k ∧ ∃ a, m.items[k]? = some a := by
    rw [List.mem_map]
    constructor
    · rintro ⟨⟨o, a⟩, hmem, rfl⟩
      obtain ⟨ha, hle⟩ := SemanticTree.ModelIndex.mem_splitOff.mp hmem
      exact ⟨hle, a, ha⟩
    · rintro ⟨hle, a, ha⟩
      exact ⟨(k, a), SemanticTree.ModelIndex.mem_splitOff.mpr ⟨ha, hle⟩, rfl⟩
  rcases Classical.em (k ∈ (splitOff m fromIndex).map Prod.fst) with hmem | hnot
  · rw [if_pos hmem]
    have hle := (hmoved.mp hmem).1
    constructor
    · intro h
      cases h
    · rintro ⟨-, hlt⟩
      omega
  · rw [if_neg hnot]
    constructor
    · intro ha
      refine ⟨ha, ?_⟩
      by_contra hge
      exact hnot (hmoved.mpr ⟨Nat.le_of_not_lt hge, a, ha⟩)
    · exact And.left

theorem shiftCachedIndices_follows (m : Model) (fromIndex : Nat) (delta : Int)
    (hdelta : -9223372036854775808 < delta) :
    Follows (shiftCachedIndices m fromIndex delta)
      (SemanticTree.Models.shiftCachedIndices m fromIndex delta) := by
  rw [shiftCachedIndices, SemanticTree.Models.shiftCachedIndices]
  split
  · rfl
  change Follows _ (SemanticTree.Models.shiftLoop (splitBase m fromIndex) delta
    (splitOff m fromIndex))
  dsimp only
  rw [toShift_eq, taken_eq]
  by_cases hall : ∀ entry ∈ splitOff m fromIndex,
      ∃ i, SemanticTree.Models.shiftedIndex entry.1 delta = some i
  swap
  · have hpanics := shiftLoop_panics (splitBase m fromIndex) hall
    rw [putShifted_panics hdelta _ hall, Follows, hpanics]
    exact ⟨_, rfl, .panicked⟩
  rw [shiftLoop_of_all (splitBase m fromIndex) hall, putShifted_eq hdelta _ hall,
    eraseAll_splitOff]
  -- What the client dropped from the reverse lookup is written again.
  have hids : ((splitOff m fromIndex).map fun entry => entry.2.itemId) ⊆
      ((shiftEntries delta (splitOff m fromIndex)).map fun entry =>
        (entry.2.itemId, entry.1)).map Prod.fst := by
    intro id hid
    obtain ⟨⟨o, item⟩, hmem, rfl⟩ := List.mem_map.mp hid
    obtain ⟨i, hi⟩ := hall (o, item) hmem
    refine List.mem_map.mpr ⟨(item.itemId, i), List.mem_map.mpr ⟨(i, item), ?_, rfl⟩, rfl⟩
    exact SemanticTree.ModelIndex.mem_shiftEntries.mpr ⟨o, hmem, hi⟩
  change Except.ok _ = Except.ok _
  rw [cacheAll_eq, cacheAll_eq]
  dsimp only
  rw [insertAll_eraseAll hids]
  rfl

/-! ### Mutations -/

theorem insertItems_follows (m : Model) (index : Nat) (items : List ModelItem) :
    Follows (insertItems m index items) (SemanticTree.Models.insertItems m index items) := by
  rw [insertItems, SemanticTree.Models.insertItems, firstDuplicate_eq]
  by_cases hindex : m.itemCount < index
  · rw [if_pos hindex, if_pos hindex]
    exact follows_error m (.modelIndexOutOfBounds _ _)
  rw [if_neg hindex, if_neg hindex]
  rcases SemanticTree.Models.duplicateItem (fun id => m.idToIndex.contains id) [] items
    with - | dup
  swap
  · exact follows_error m (.duplicateItemId _ _)
  dsimp only
  split
  · rfl
  have hshift := shiftCachedIndices_follows m index items.length (by omega)
  rcases hmoved : SemanticTree.Models.shiftCachedIndices m index items.length with
    ⟨shifted, fault | ⟨⟩⟩
  · rw [hmoved] at hshift
    obtain ⟨fault', hclient, hsame⟩ := hshift
    rw [hclient]
    exact ⟨fault', rfl, hsame⟩
  rw [hshift.done hmoved]
  dsimp only
  have hwrite := putItems_follows shifted index 0 items
  rcases hwritten : SemanticTree.Models.writeItems shifted index 0 items with
    ⟨written, fault | ⟨⟩⟩
  · rw [hwritten] at hwrite
    obtain ⟨fault', hclient, hsame⟩ := hwrite
    rw [hclient]
    exact ⟨fault', rfl, hsame⟩
  rw [hwrite.done hwritten]
  dsimp only
  rcases checkedAdd written.itemCount items.length with - | itemCount
  · exact follows_panicked written
  · rfl

theorem deleteIds_follows (m : Model) (itemIds : List ItemId) :
    Follows (deleteIds m itemIds) (SemanticTree.Models.deleteByIds m itemIds) := by
  induction itemIds generalizing m with
  | nil => rfl
  | cons itemID rest ih =>
    rw [deleteIds, SemanticTree.Models.deleteByIds]
    rcases m.idToIndex[itemID]? with - | idx
    · exact ih _
    dsimp only
    rcases checkedAdd idx 1 with - | fromIndex
    · exact follows_panicked _
    dsimp only
    generalize ({ m with
      idToIndex := m.idToIndex.erase itemID
      items := m.items.erase idx
      itemCount := m.itemCount - 1 } : Model) = removed
    have hshift := shiftCachedIndices_follows removed fromIndex (-1) (by decide)
    rcases hmoved : SemanticTree.Models.shiftCachedIndices removed fromIndex (-1) with
      ⟨shifted, fault | ⟨⟩⟩
    · rw [hmoved] at hshift
      obtain ⟨fault', hclient, hsame⟩ := hshift
      rw [hclient]
      exact ⟨fault', rfl, hsame⟩
    · rw [hshift.done hmoved]
      exact ih shifted

variable {count : Nat}

theorem negI64_count (h : count ≤ int64Max) : negI64 (asI64 count) = -(count : Int) := by
  rw [int64Max] at h
  rw [asI64, if_pos h, negI64, if_neg (by omega)]

/-- A range that lies in the model and whose length fits an `Int64` goes alike on both sides. -/
theorem deleteRange_inside {index : Nat} (hfits : index + count ≤ u64Max)
    (hinside : index + count ≤ m.itemCount) (hcount : count ≤ int64Max) :
    Follows (deleteRange m index count) (SemanticTree.Models.deleteByRange m index count) := by
  have hend : checkedAdd index count = some (index + count) :=
    checkedAdd_eq_some.mpr ⟨hfits, rfl⟩
  have hserver : ¬(index > m.itemCount ∨ saturatingAdd index count > m.itemCount) := by
    rw [saturatingAdd, Nat.min_eq_left hfits]
    omega
  have hclient : ¬(m.itemCount < index ∨ m.itemCount < index + count) := by omega
  rw [deleteRange, SemanticTree.Models.deleteByRange, if_neg hserver, hend]
  dsimp only
  rw [if_neg hclient, if_neg (Nat.not_lt.mpr hcount), removeItem_eq, negI64_count hcount]
  generalize (m.items.keys.filter fun k => decide (index ≤ k ∧ k < index + count)).foldl
    SemanticTree.Models.removeCached m = removed
  have hdelta : -9223372036854775808 < -(count : Int) := by
    rw [int64Max] at hcount
    omega
  have hshift := shiftCachedIndices_follows removed (index + count) _ hdelta
  rcases hmoved : SemanticTree.Models.shiftCachedIndices removed (index + count) (-(count : Int))
    with ⟨shifted, fault | ⟨⟩⟩
  · rw [hmoved] at hshift
    obtain ⟨fault', hclient, hsame⟩ := hshift
    rw [hclient]
    exact ⟨fault', rfl, hsame⟩
  · rw [hshift.done hmoved]
    rfl

theorem deleteRange_agrees {index : Nat} (hcount : count ≤ int64Max)
    (h : SemanticTree.Models.deleteByRange m index count = (m', .ok ())) :
    deleteRange m index count = .ok m' := by
  have hbound : index + count ≤ u64Max ∧ index + count ≤ m.itemCount := by
    rw [SemanticTree.Models.deleteByRange] at h
    split at h
    · cases h
    rename_i hrange
    rcases hend : checkedAdd index count with - | rangeEnd
    · rw [hend] at h
      cases h
    have hfits := (checkedAdd_eq_some.mp hend).1
    rw [saturatingAdd, Nat.min_eq_left hfits] at hrange
    omega
  exact (deleteRange_inside hbound.1 hbound.2 hcount).done h

/-- In a model of at most `Int64.max` items every range goes alike on both sides. -/
theorem deleteRange_follows (hcount : m.itemCount ≤ int64Max) (index count : Nat) :
    Follows (deleteRange m index count) (SemanticTree.Models.deleteByRange m index count) := by
  have hlimit : int64Max < u64Max := by decide
  rcases hend : checkedAdd index count with - | rangeEnd
  · have hover := checkedAdd_eq_none.mp hend
    have hsaturated : saturatingAdd index count = u64Max := Nat.min_eq_right (Nat.le_of_lt hover)
    rw [deleteRange, SemanticTree.Models.deleteByRange, hend, hsaturated,
      if_pos (Or.inr (Nat.lt_of_le_of_lt hcount hlimit))]
    exact follows_error m (.modelIndexOutOfBounds _ _)
  obtain ⟨hfits, rfl⟩ := checkedAdd_eq_some.mp hend
  rcases Nat.lt_or_ge m.itemCount (index + count) with hbeyond | hinside
  · have hsaturated : saturatingAdd index count = index + count := Nat.min_eq_left hfits
    rw [deleteRange, SemanticTree.Models.deleteByRange, hend, hsaturated, if_pos (Or.inr hbeyond)]
    dsimp only
    rw [if_pos (Or.inr hbeyond)]
    exact follows_error m (.modelIndexOutOfBounds _ _)
  · exact deleteRange_inside hfits hinside (by omega)

theorem deleteItems_of_range {index count : Option Nat} {itemIds : List ItemId}
    (hrange : Follows (deleteRange m (index.getD 0) (count.getD 0))
      (SemanticTree.Models.deleteByRange m (index.getD 0) (count.getD 0))) :
    Follows (deleteItems m index count itemIds)
      (SemanticTree.Models.deleteItems m index count itemIds) := by
  rw [deleteItems, SemanticTree.Models.deleteItems]
  split
  · exact follows_error m (.invalidModelDelete _)
  split
  · exact deleteIds_follows m itemIds
  split
  · exact hrange
  · rfl

theorem deleteItems_agrees {index count : Option Nat} {itemIds : List ItemId}
    (hcount : count.getD 0 ≤ int64Max)
    (h : SemanticTree.Models.deleteItems m index count itemIds = (m', .ok ())) :
    deleteItems m index count itemIds = .ok m' := by
  rw [SemanticTree.Models.deleteItems] at h
  rw [deleteItems]
  split at h
  · cases h
  rename_i hboth
  rw [if_neg hboth]
  split at h
  · rename_i hids
    rw [if_pos hids]
    exact (deleteIds_follows m itemIds).done h
  rename_i hids
  rw [if_neg hids]
  split at h
  · rename_i hrange
    rw [if_pos hrange]
    exact deleteRange_agrees hcount h
  · rename_i hrange
    rw [if_neg hrange]
    cases h
    rfl

theorem updateFrom_follows (m : Model) (baseIdx offset : Nat) (items : List ModelItem) :
    Follows (updateFrom m baseIdx offset items)
      (SemanticTree.Models.updateAt m baseIdx offset items) := by
  induction items generalizing m offset with
  | nil => rfl
  | cons item rest ih =>
    rw [updateFrom, SemanticTree.Models.updateAt]
    rcases checkedAdd baseIdx offset with - | targetIdx
    · exact follows_panicked m
    dsimp only
    by_cases hbeyond : m.itemCount ≤ targetIdx
    · rw [if_pos hbeyond, if_pos hbeyond]
      exact follows_error m (.modelIndexOutOfBounds _ _)
    · rw [if_neg hbeyond, if_neg hbeyond]
      exact ih _ _

theorem updateIds_follows (m : Model) (items : List ModelItem) :
    Follows (updateIds m items) (SemanticTree.Models.updateById m items) := by
  induction items generalizing m with
  | nil => rfl
  | cons item rest ih =>
    rw [updateIds, SemanticTree.Models.updateById]
    rcases m.idToIndex[item.itemId]? with - | idx
    · exact follows_error m (.itemNotFound _)
    · exact ih _

theorem updateItems_follows (m : Model) (index : Option Nat) (items : List ModelItem) :
    Follows (updateItems m index items) (SemanticTree.Models.updateItems m index items) := by
  rcases index with - | baseIdx
  · exact updateIds_follows m items
  · exact updateFrom_follows m baseIdx 0 items

theorem resetRange_follows (m : Model) (startIndex : Nat) (items : List ModelItem)
    (totalCount : Option Nat) :
    Follows (resetRange m startIndex items totalCount)
      (SemanticTree.Models.resetRange m startIndex items totalCount) := by
  rw [resetRange, SemanticTree.Models.resetRange]
  -- Both announce the new length first.
  generalize (if 0 < totalCount.getD 0 then { m with itemCount := totalCount.getD 0 } else m) =
    announced
  by_cases hstart : announced.itemCount < startIndex
  · rw [if_pos hstart, if_pos hstart]
    exact follows_error announced (.modelIndexOutOfBounds _ _)
  rw [if_neg hstart, if_neg hstart]
  rcases checkedAdd startIndex items.length with - | endIndex
  · exact follows_panicked announced
  dsimp only
  by_cases hend : announced.itemCount < endIndex
  · rw [if_pos hend, if_pos hend]
    exact follows_error announced (.modelIndexOutOfBounds _ _)
  rw [if_neg hend, if_neg hend, cachedElsewhere_eq, firstDuplicate_eq]
  rcases SemanticTree.Models.duplicateItem
    (SemanticTree.Models.cachedOutside announced startIndex endIndex) [] items with - | dup
  · exact putItems_follows _ startIndex 0 items
  · exact follows_error announced (.duplicateItemId _ _)

/-! ### Eviction -/

theorem distance_eq (a mid : Nat) : distance a mid = SemanticTree.Models.absDiff a mid := by
  rw [distance, SemanticTree.Models.absDiff]
  split <;> omega

theorem fartherFrom_eq : FartherFrom = SemanticTree.Models.EvictsBefore := by
  funext mid a b
  simp only [FartherFrom, SemanticTree.Models.EvictsBefore, distance_eq]

theorem insertionSort_congr {α : Type} {r r' : α → α → Prop} [DecidableRel r] [DecidableRel r']
    (h : r = r') (l : List α) : l.insertionSort r = l.insertionSort r' := by
  subst h
  congr

theorem evictFarthestOutside_eq (m : Model) {keepStart keepEnd : Nat} (hstart : keepStart ≤ u64Max)
    (hend : keepEnd ≤ u64Max) (count : Nat) :
    evictFarthestOutside m keepStart keepEnd count =
      SemanticTree.Models.evictFarthestOutside m keepStart keepEnd count := by
  have hmid : SemanticTree.Models.keepMidpoint keepStart keepEnd =
      keepStart + (max keepEnd keepStart - keepStart) / 2 := by
    rw [SemanticTree.Models.keepMidpoint, saturatingAdd]
    omega
  rw [evictFarthestOutside, SemanticTree.Models.evictFarthestOutside,
    SemanticTree.Models.evictionCandidates, hmid, removeItem_eq]
  rw [insertionSort_congr (congrFun fartherFrom_eq _)]

end Srui.Client.ModelAgreement

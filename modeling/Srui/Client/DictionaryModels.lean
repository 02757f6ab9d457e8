import Srui.Client.ModelAgreement
import Srui.SemanticTree.ListViews
import Srui.SemanticTree.ModelBounds

/-!
The client's models with their items in a dictionary.

A dictionary is walked in an order that its contents do not determine. The mutations that walk
the items are stated here over any such order, and leave the same model behind in all of them.
-/

namespace Srui.Client.DictionaryModels

open Std Basic.Machine Basic.FiniteMaps SemanticTree.Values
open SemanticTree.Models (Model ModelItem)
open SemanticTree.ModelIndex SemanticTree.ModelMutations SemanticTree.IndexArithmetic
open SemanticTree.ModelBounds SemanticTree.ListViews Client.ReplicaModels Client.ModelAgreement

structure Walk where
  entries : ExtTreeMap Nat ModelItem → List (Nat × ModelItem)
  perm : ∀ items, (entries items).Perm items.toList

namespace Walk

variable (walk : Walk)

def keys (model : Model) : List Nat := (walk.entries model.items).map Prod.fst

def evictFarthestOutside (model : Model) (keepStart keepEnd count : Nat) : Model :=
  let keepEnd := max keepEnd keepStart
  let mid := keepStart + (keepEnd - keepStart) / 2
  let candidates := ((walk.keys model).filter fun index =>
    decide (index < keepStart ∨ keepEnd ≤ index)).insertionSort (FartherFrom mid)
  (candidates.take count).foldl removeItem model

def shiftCachedIndices {ε : Type} (model : Model) (fromIndex : Nat) (delta : Int) :
    Outcome ε Model :=
  if delta = 0 then .ok model
  else
    let toShift := (walk.entries model.items).filter fun entry => decide (fromIndex ≤ entry.1)
    let taken := toShift.foldl (fun model entry =>
      { model with
        items := model.items.erase entry.1
        idToIndex := model.idToIndex.erase entry.2.itemId }) model
    putShifted taken delta toShift

def insertItems (model : Model) (index : Nat) (items : List ModelItem) :
    Outcome StoreError Model :=
  if model.itemCount < index then err (.modelIndexOutOfBounds index model.itemCount)
  else
    match firstDuplicate (fun id => model.idToIndex.contains id) [] items with
    | some itemID => err (.duplicateItemId model.id itemID)
    | none =>
      if items.length = 0 then .ok model
      else
        match walk.shiftCachedIndices model index items.length with
        | .error fault => .error fault
        | .ok shifted =>
          match putItems shifted index 0 items with
          | .error fault => .error fault
          | .ok written =>
            match checkedAdd written.itemCount items.length with
            | none => .error .panicked
            | some itemCount => .ok { written with itemCount := itemCount }

def deleteIds (model : Model) : List ItemId → Outcome StoreError Model
  | [] => .ok model
  | itemID :: rest =>
    match model.idToIndex[itemID]? with
    | some idx =>
      let removed :=
        { model with
          idToIndex := model.idToIndex.erase itemID
          items := model.items.erase idx
          itemCount := model.itemCount - 1 }
      match checkedAdd idx 1 with
      | none => .error .panicked
      | some fromIndex =>
        match walk.shiftCachedIndices removed fromIndex (-1) with
        | .error fault => .error fault
        | .ok shifted => deleteIds shifted rest
    | none => deleteIds { model with itemCount := model.itemCount - 1 } rest

def deleteRange (model : Model) (idx cnt : Nat) : Outcome StoreError Model :=
  match checkedAdd idx cnt with
  | none => err (.modelIndexOutOfBounds u64Max model.itemCount)
  | some rangeEnd =>
    if model.itemCount < idx ∨ model.itemCount < rangeEnd then
      err (.modelIndexOutOfBounds rangeEnd model.itemCount)
    else
      let keysToRemove := (walk.keys model).filter fun k => decide (idx ≤ k ∧ k < rangeEnd)
      let removed := keysToRemove.foldl removeItem model
      if int64Max < cnt then .error .panicked
      else
        match walk.shiftCachedIndices removed rangeEnd (-(cnt : Int)) with
        | .error fault => .error fault
        | .ok shifted => .ok { shifted with itemCount := shifted.itemCount - cnt }

def deleteItems (model : Model) (index count : Option Nat) (itemIds : List ItemId) :
    Outcome StoreError Model :=
  let hasRange := 0 < count.getD 0
  let hasIDs := itemIds ≠ []
  if hasRange ∧ hasIDs then
    err (.invalidModelDelete "cannot combine item_ids and range deletion in ModelDelete (§8, §13)")
  else if hasIDs then walk.deleteIds model itemIds
  else if hasRange then walk.deleteRange model (index.getD 0) (count.getD 0)
  else .ok model

end Walk

variable {walk : Walk} {m m' : Model} {fromIndex : Nat} {delta : Int}

/-! ### Any order -/

theorem keys_perm (walk : Walk) (m : Model) : (walk.keys m).Perm m.items.keys := by
  rw [Walk.keys, ← ExtTreeMap.map_fst_toList_eq_keys]
  exact (walk.perm m.items).map Prod.fst

theorem insertionSort_perm_eq (mid : Nat) {l l' : List Nat} (h : l.Perm l') :
    l.insertionSort (FartherFrom mid) = l'.insertionSort (FartherFrom mid) := by
  rw [insertionSort_congr (congrFun fartherFrom_eq mid),
    insertionSort_congr (congrFun fartherFrom_eq mid)]
  refine List.Perm.eq_of_pairwise
    (fun a b _ _ hab hba => evictsBefore_antisymm mid a b hab hba)
    (List.pairwise_insertionSort _ l) (List.pairwise_insertionSort _ l') ?_
  exact (List.perm_insertionSort _ l).trans (h.trans (List.perm_insertionSort _ l').symm)

theorem evictFarthestOutside_walk (walk : Walk) (m : Model) (keepStart keepEnd count : Nat) :
    walk.evictFarthestOutside m keepStart keepEnd count =
      evictFarthestOutside m keepStart keepEnd count := by
  rw [Walk.evictFarthestOutside, evictFarthestOutside,
    insertionSort_perm_eq _ ((keys_perm walk m).filter _)]

theorem toShift_perm (walk : Walk) (m : Model) (fromIndex : Nat) :
    ((walk.entries m.items).filter fun entry => decide (fromIndex ≤ entry.1)).Perm
      (splitOff m fromIndex) := by
  rw [← toShift_eq]
  exact (walk.perm m.items).filter _

theorem shiftCachedIndices_walk {ε : Type} (walk : Walk) (h : Indexed m)
    (hdelta : -9223372036854775808 < delta)
    (hall : ∀ entry ∈ splitOff m fromIndex,
      ∃ i, SemanticTree.Models.shiftedIndex entry.1 delta = some i) :
    walk.shiftCachedIndices (ε := ε) m fromIndex delta = shiftCachedIndices m fromIndex delta := by
  have hperm := toShift_perm walk m fromIndex
  rw [Walk.shiftCachedIndices, shiftCachedIndices]
  split
  · rfl
  generalize (walk.entries m.items).filter (fun entry => decide (fromIndex ≤ entry.1)) =
    toShift at hperm
  have hall' : ∀ entry ∈ toShift,
      ∃ i, SemanticTree.Models.shiftedIndex entry.1 delta = some i :=
    fun entry hmem => hall entry (hperm.mem_iff.mp hmem)
  have hentries : (shiftEntries delta toShift).Perm
      (shiftEntries delta (splitOff m fromIndex)) := hperm.filterMap _
  dsimp only
  rw [toShift_eq, taken_eq, taken_eq, putShifted_eq hdelta _ hall, putShifted_eq hdelta _ hall',
    cacheAll_eq, cacheAll_eq]
  dsimp only
  rw [eraseAll_perm m.items (hperm.map _), eraseAll_perm m.idToIndex (hperm.map _),
    insertAll_perm shiftEntries_positions_nodup hentries,
    insertAll_perm (shiftEntries_ids_nodup h) (hentries.map _)]

theorem removeAll_perm {keys keys' : List Nat} (h : Indexed m) (hperm : keys.Perm keys') :
    keys.foldl removeItem m = keys'.foldl removeItem m := by
  have hheader : SameHeader m (keys.foldl removeItem m) := removeAll_header keys m
  have hheader' : SameHeader m (keys'.foldl removeItem m) := removeAll_header keys' m
  refine model_ext (removeAll_indexed keys' h) (removeAll_indexed keys h) ⟨?_, ?_, ?_⟩ ?_
  · exact hheader.id.trans hheader'.id.symm
  · exact hheader.modelType.trans hheader'.modelType.symm
  · exact hheader.itemCount.trans hheader'.itemCount.symm
  · intro i a
    rw [removeItem_eq, removeAll_items, removeAll_items]
    simp only [hperm.mem_iff]

/-! ### Mutations in any order -/

theorem insertItems_walk (walk : Walk) (h : Indexed m) (hbelow : Below m.itemCount m)
    {index : Nat} {items : List ModelItem} (hfits : m.itemCount + items.length ≤ int64Max) :
    walk.insertItems m index items = insertItems m index items := by
  rw [Walk.insertItems, insertItems]
  split
  · rfl
  rcases firstDuplicate (fun id => m.idToIndex.contains id) [] items with - | dup
  swap
  · rfl
  dsimp only
  split
  · rfl
  rename_i hsome
  have hlimit : int64Max ≤ u64Max := by decide
  have hall : ∀ entry ∈ splitOff m index,
      ∃ i, SemanticTree.Models.shiftedIndex entry.1 items.length = some i := by
    rintro ⟨o, a⟩ hentry
    have hlow : o < m.itemCount := hbelow.items o a (mem_splitOff.mp hentry).1
    exact ⟨o + items.length, shiftedIndex_up (Nat.pos_of_ne_zero hsome) (by omega)⟩
  rewrite [shiftCachedIndices_walk walk h (by omega) hall]
  rfl

theorem deleteIds_walk (walk : Walk) {bound : Nat} (hbound : bound ≤ u64Max)
    (itemIds : List ItemId) (h : Indexed m) (hbelow : Below bound m) :
    walk.deleteIds m itemIds = deleteIds m itemIds := by
  induction itemIds generalizing m with
  | nil => rfl
  | cons itemID rest ih =>
    rw [Walk.deleteIds, deleteIds]
    rcases hidx : m.idToIndex[itemID]? with - | idx
    · exact ih h ⟨hbelow.items, hbelow.ids⟩
    dsimp only
    have hlow : idx < bound := hbelow.ids itemID idx hidx
    have hadd : checkedAdd idx 1 = some (idx + 1) := checkedAdd_eq_some.mpr ⟨by omega, rfl⟩
    rw [hadd]
    dsimp only
    have hdropped : ({ m with
        idToIndex := m.idToIndex.erase itemID
        items := m.items.erase idx
        itemCount := m.itemCount - 1 } : Model) = dropItem m itemID idx := rfl
    rw [hdropped]
    have hindexed : Indexed (dropItem m itemID idx) := dropItem_indexed h hidx
    -- A cached item above the deleted one moves down by one.
    have hall : ∀ entry ∈ splitOff (dropItem m itemID idx) (idx + 1),
        ∃ i, SemanticTree.Models.shiftedIndex entry.1 (-1) = some i := by
      rintro ⟨o, a⟩ hentry
      have hhigh : idx + 1 ≤ o := (mem_splitOff.mp hentry).2
      exact ⟨o - 1, @shiftedIndex_down o 1 (by decide) (by omega)⟩
    rw [shiftCachedIndices_walk walk hindexed (by decide) hall]
    have hmoved : NoOverflow (SemanticTree.Models.shiftCachedIndices
        (dropItem m itemID idx) (idx + 1) (-1)) :=
      shift_noOverflow fun o a ho hhigh => hall (o, a) (mem_splitOff.mpr ⟨ho, hhigh⟩)
    obtain ⟨hdone, hshifted⟩ :=
      shift_spec hindexed (shiftFits_dropItem m itemID idx) hmoved
    have hnext := ((hbelow.dropItem itemID idx).shiftDown hmoved).2
    have hfollows := shiftCachedIndices_follows (dropItem m itemID idx) (idx + 1) (-1)
      (by decide)
    rw [hfollows.done (Prod.ext rfl hdone)]
    exact ih hshifted.indexed hnext

theorem deleteRange_walk (walk : Walk) (h : Indexed m) (idx cnt : Nat) :
    walk.deleteRange m idx cnt = deleteRange m idx cnt := by
  rw [Walk.deleteRange, deleteRange]
  rcases hend : checkedAdd idx cnt with - | rangeEnd
  · rfl
  dsimp only
  split
  · rfl
  split
  · rfl
  rename_i hcount
  have hkeys : ((walk.keys m).filter fun k => decide (idx ≤ k ∧ k < rangeEnd)).Perm
      (m.items.keys.filter fun k => decide (idx ≤ k ∧ k < rangeEnd)) := (keys_perm walk m).filter _
  obtain ⟨-, rfl⟩ := checkedAdd_eq_some.mp hend
  rw [removeAll_perm h hkeys, removeItem_eq]
  have hremoved := removeAll_indexed
    (m.items.keys.filter fun k => decide (idx ≤ k ∧ k < idx + cnt)) h
  generalize (m.items.keys.filter fun k => decide (idx ≤ k ∧ k < idx + cnt)).foldl
    SemanticTree.Models.removeCached m = removed at hremoved ⊢
  have hdelta : -9223372036854775808 < -(cnt : Int) := by
    rw [int64Max] at hcount
    omega
  have hall : ∀ entry ∈ splitOff removed (idx + cnt),
      ∃ i, SemanticTree.Models.shiftedIndex entry.1 (-(cnt : Int)) = some i := by
    rintro ⟨o, a⟩ hentry
    have hhigh : idx + cnt ≤ o := (mem_splitOff.mp hentry).2
    exact ⟨o - cnt, shiftedIndex_down (Nat.not_lt.mp hcount) (by omega)⟩
  rewrite [shiftCachedIndices_walk walk hremoved hdelta hall]
  rfl

theorem deleteItems_walk (walk : Walk) (h : Indexed m) (hbelow : Below m.itemCount m)
    (hcount : m.itemCount ≤ u64Max) (index count : Option Nat) (itemIds : List ItemId) :
    walk.deleteItems m index count itemIds = deleteItems m index count itemIds := by
  rw [Walk.deleteItems, deleteItems, deleteIds_walk walk hcount itemIds h hbelow,
    deleteRange_walk walk h]

end Srui.Client.DictionaryModels

import Srui.SemanticTree.Limits

/-!
Collection models with a sparse cache of items.

A call that mutates a model and then fails keeps what it has already written,
so every mutation returns the model it leaves behind together with its result.
-/

namespace Srui.SemanticTree.Models

open Std Basic.Machine SemanticTree.Values SemanticTree.Limits

structure ModelItem where
  itemId : ItemId
  value : Value
  properties : PropertyMap
deriving DecidableEq

/-- A collection model: its logical length, the cached items by position, and
the reverse lookup from item identity to position. -/
structure Model where
  id : ModelId
  modelType : TypeRef
  itemCount : Nat
  items : ExtTreeMap Nat ModelItem
  idToIndex : ExtTreeMap ItemId Nat
deriving DecidableEq

/-- `Model::new`. -/
def Model.new (id : ModelId) (modelType : TypeRef) (itemCount : Nat) : Model where
  id := id
  modelType := modelType
  itemCount := itemCount
  items := ∅
  idToIndex := ∅

abbrev Mutation (σ : Type) := σ × Outcome StoreError Unit

def cachedItemCount (m : Model) : Nat := m.items.size

/-- `Model::get_item_by_id`. -/
def getItemById (m : Model) (itemId : ItemId) : Option ModelItem :=
  m.idToIndex[itemId]?.bind fun index => m.items[index]?

/-- Drops the item cached at `index`, if any, from both maps. -/
def removeCached (m : Model) (index : Nat) : Model :=
  match m.items[index]? with
  | some item =>
    { m with items := m.items.erase index, idToIndex := m.idToIndex.erase item.itemId }
  | none => m

/-- Caches `item` at `index` in both maps. -/
def cacheItem (m : Model) (index : Nat) (item : ModelItem) : Model :=
  { m with items := m.items.insert index item,
           idToIndex := m.idToIndex.insert item.itemId index }

/-- `u64::abs_diff`. -/
def absDiff (a b : Nat) : Nat := (a - b) + (b - a)

/-- Eviction order around `mid`: farthest first, the lower index on a tie. -/
def EvictsBefore (mid a b : Nat) : Prop :=
  absDiff b mid < absDiff a mid ∨ (absDiff a mid = absDiff b mid ∧ a ≤ b)

instance (mid : Nat) : DecidableRel (EvictsBefore mid) :=
  fun _ _ => inferInstanceAs (Decidable (_ ∨ _))

def keepMidpoint (keepStart keepEnd : Nat) : Nat :=
  saturatingAdd keepStart ((max keepEnd keepStart - keepStart) / 2)

/-- Cached positions an eviction may drop, in the order it drops them. -/
def evictionCandidates (m : Model) (keepStart keepEnd : Nat) : List Nat :=
  (m.items.keys.filter fun index =>
    decide (index < keepStart ∨ max keepEnd keepStart ≤ index)).insertionSort
      (EvictsBefore (keepMidpoint keepStart keepEnd))

/-- `Model::evict_farthest_outside`. -/
def evictFarthestOutside (m : Model) (keepStart keepEnd count : Nat) : Model :=
  ((evictionCandidates m keepStart keepEnd).take count).foldl removeCached m

structure CachedRange where
  start : Nat
  length : Nat
deriving DecidableEq, Repr

/-- Loop of `Model::cached_ranges` over the cached positions in order. -/
def cachedRangesLoop (ranges : List CachedRange) : Option CachedRange → List Nat → List CachedRange
  | none, [] => ranges
  | some r, [] => ranges ++ [r]
  | none, index :: indices => cachedRangesLoop ranges (some ⟨index, 1⟩) indices
  | some r, index :: indices =>
    if r.start + r.length = index then
      cachedRangesLoop ranges (some ⟨r.start, r.length + 1⟩) indices
    else cachedRangesLoop (ranges ++ [r]) (some ⟨index, 1⟩) indices

/-- `Model::cached_ranges`. -/
def cachedRanges (m : Model) : List CachedRange := cachedRangesLoop [] none m.items.keys

/-- Position of a shifted entry; `none` is an overflowing addition or
subtraction. -/
def shiftedIndex (oldIndex : Nat) (delta : Int) : Option Nat :=
  if delta > 0 then checkedAdd oldIndex (asU64 delta)
  else if asU64 (negI64 delta) ≤ oldIndex then some (oldIndex - asU64 (negI64 delta))
  else none

/-- Re-inserts the entries split off by a shift, each at its new position. -/
def shiftLoop (m : Model) (delta : Int) : List (Nat × ModelItem) → Mutation Model
  | [] => (m, .ok ())
  | (oldIndex, item) :: rest =>
    match shiftedIndex oldIndex delta with
    | none => (m, .error .panicked)
    | some newIndex => shiftLoop (cacheItem m newIndex item) delta rest

/-- `Model::shift_cached_indices`. -/
def shiftCachedIndices (m : Model) (fromIndex : Nat) (delta : Int) : Mutation Model :=
  if delta = 0 then (m, .ok ())
  else
    shiftLoop { m with items := m.items.filter fun index _ => decide (index < fromIndex) } delta
      (m.items.filter fun index _ => decide (fromIndex ≤ index)).toList

def duplicateItem (blocked : ItemId → Bool) (incoming : List ItemId) :
    List ModelItem → Option ItemId
  | [] => none
  | item :: rest =>
    if blocked item.itemId || incoming.contains item.itemId then some item.itemId
    else duplicateItem blocked (item.itemId :: incoming) rest

/-- Caches a batch at consecutive positions from `base + offset`. -/
def writeItems (m : Model) (base : Nat) : Nat → List ModelItem → Mutation Model
  | _, [] => (m, .ok ())
  | offset, item :: rest =>
    match checkedAdd base offset with
    | none => (m, .error .panicked)
    | some index => writeItems (cacheItem m index item) base (offset + 1) rest

/-- `Model::insert_items`. A vector holds at most `isize::MAX` items, so its length is
its own image as an `i64`. -/
def insertItems (m : Model) (index : Nat) (items : List ModelItem) : Mutation Model :=
  if index > m.itemCount then (m, err (.modelIndexOutOfBounds index m.itemCount))
  else
    match duplicateItem (fun id => m.idToIndex.contains id) [] items with
    | some itemId => (m, err (.duplicateItemId m.id itemId))
    | none =>
      if items.length = 0 then (m, .ok ())
      else
        match shiftCachedIndices m index items.length with
        | (m, .error f) => (m, .error f)
        | (m, .ok ()) =>
          match writeItems m index 0 items with
          | (m, .error f) => (m, .error f)
          | (m, .ok ()) =>
            match checkedAdd m.itemCount items.length with
            | none => (m, .error .panicked)
            | some itemCount => ({ m with itemCount := itemCount }, .ok ())

def deleteByIds (m : Model) : List ItemId → Mutation Model
  | [] => (m, .ok ())
  | itemId :: rest =>
    match m.idToIndex[itemId]? with
    | some index =>
      let removed := { m with idToIndex := m.idToIndex.erase itemId,
                              items := m.items.erase index,
                              itemCount := m.itemCount - 1 }
      match checkedAdd index 1 with
      | none => (removed, .error .panicked)
      | some fromIndex =>
        match shiftCachedIndices removed fromIndex (-1) with
        | (m, .error f) => (m, .error f)
        | (m, .ok ()) => deleteByIds m rest
    | none => deleteByIds { m with itemCount := m.itemCount - 1 } rest

/-- Deletion of the positions `index .. index + count`. -/
def deleteByRange (m : Model) (index count : Nat) : Mutation Model :=
  if index > m.itemCount ∨ saturatingAdd index count > m.itemCount then
    (m, err (.modelIndexOutOfBounds (saturatingAdd index count) m.itemCount))
  else
    match checkedAdd index count with
    | none => (m, .error .panicked)
    | some endIndex =>
      let cached := m.items.keys.filter fun k => decide (index ≤ k ∧ k < endIndex)
      match shiftCachedIndices (cached.foldl removeCached m) endIndex (negI64 (asI64 count)) with
      | (m, .error f) => (m, .error f)
      | (m, .ok ()) => ({ m with itemCount := m.itemCount - count }, .ok ())

/-- `Model::delete_items`. -/
def deleteItems (m : Model) (index count : Option Nat) (itemIds : List ItemId) : Mutation Model :=
  if 0 < count.getD 0 ∧ itemIds ≠ [] then
    (m, err (.invalidModelDelete
      "cannot combine item_ids and range deletion in ModelDelete (§8, §13)"))
  else if itemIds ≠ [] then deleteByIds m itemIds
  else if 0 < count.getD 0 then deleteByRange m (index.getD 0) (count.getD 0)
  else (m, .ok ())

/-- Frees the position an incoming identity is cached at, unless it is the
position it is about to be written to. -/
def releaseOldPosition (m : Model) (itemId : ItemId) (target : Nat) : Model :=
  match m.idToIndex[itemId]? with
  | some oldIndex =>
    if oldIndex ≠ target then
      { m with idToIndex := m.idToIndex.erase itemId, items := m.items.erase oldIndex }
    else { m with idToIndex := m.idToIndex.erase itemId }
  | none => m

/-- Positional form of `Model::update_items`. -/
def updateAt (m : Model) (base : Nat) : Nat → List ModelItem → Mutation Model
  | _, [] => (m, .ok ())
  | offset, item :: rest =>
    match checkedAdd base offset with
    | none => (m, .error .panicked)
    | some target =>
      if target ≥ m.itemCount then (m, err (.modelIndexOutOfBounds target m.itemCount))
      else
        updateAt (cacheItem (removeCached (releaseOldPosition m item.itemId target) target)
          target item) base (offset + 1) rest

/-- Identity form of `Model::update_items`. -/
def updateById (m : Model) : List ModelItem → Mutation Model
  | [] => (m, .ok ())
  | item :: rest =>
    match m.idToIndex[item.itemId]? with
    | some index => updateById { m with items := m.items.insert index item } rest
    | none => (m, err (.itemNotFound item.itemId))

/-- `Model::update_items`. -/
def updateItems (m : Model) (index : Option Nat) (items : List ModelItem) : Mutation Model :=
  match index with
  | some base => updateAt m base 0 items
  | none => updateById m items

def cachedOutside (m : Model) (startIndex endIndex : Nat) (itemId : ItemId) : Bool :=
  match m.idToIndex[itemId]? with
  | some existing => decide (existing < startIndex ∨ endIndex ≤ existing)
  | none => false

/-- `Model::reset_range`. The logical length is set before anything is
validated. -/
def resetRange (m : Model) (startIndex : Nat) (items : List ModelItem)
    (totalCount : Option Nat) : Mutation Model :=
  let m := if 0 < totalCount.getD 0 then { m with itemCount := totalCount.getD 0 } else m
  if startIndex > m.itemCount then (m, err (.modelIndexOutOfBounds startIndex m.itemCount))
  else
    match checkedAdd startIndex items.length with
    | none => (m, .error .panicked)
    | some endIndex =>
      if endIndex > m.itemCount then (m, err (.modelIndexOutOfBounds endIndex m.itemCount))
      else
        match duplicateItem (cachedOutside m startIndex endIndex) [] items with
        | some itemId => (m, err (.duplicateItemId m.id itemId))
        | none =>
          writeItems ((List.range' startIndex items.length).foldl removeCached m)
            startIndex 0 items

end Srui.SemanticTree.Models

import Srui.SemanticTree.Models

/-!
The collection models of the client's replica.

The records have the fields of the server's and are shared with it; the functions are
the client's own. A method works on a copy that is written back only when it does not
throw, so a call returns the model it leaves or how it ended. Sums of `UInt64` trap.
-/

namespace Srui.Client.ReplicaModels

open Std Basic.Machine SemanticTree.Values
open SemanticTree.Models (Model ModelItem)

inductive StandardPropertyValueType where
  | any
  | bool
  | enumToken
  | float64
  | list
  | resourceHash
  | size
  | string
  | unsignedInt
deriving DecidableEq, Repr

inductive StoreError where
  | nodeIdAlreadyUsed (id : NodeId)
  | nodeNotFound (id : NodeId)
  | parentNotFound (id : NodeId)
  | invalidChildrenReorder (parentID : NodeId) (reason : String)
  | cycleDetected (nodeID targetParent : NodeId)
  | maxTreeDepthExceeded (limit actual : Nat)
  | maxNodeCountExceeded (limit current : Nat)
  | maxStringLengthExceeded (limit actual : Nat)
  | maxValueDepthExceeded (limit actual : Nat)
  | maxListLengthExceeded (limit actual : Nat)
  | maxRecordPropertiesExceeded (limit actual : Nat)
  | maxModelCountExceeded (limit current : Nat)
  | maxCachedItemsPerModelExceeded (limit current attempted : Nat)
  | maxItemsPerModelOperationExceeded (limit actual : Nat)
  | invalidModelDelete (reason : String)
  | invalidPropertyValueType (property : PropertyRef) (expected : StandardPropertyValueType)
      (actual : String)
  | childIndexOutOfBounds (index : Int) (count : Nat)
  | modelIdAlreadyUsed (id : ModelId)
  | modelNotFound (id : ModelId)
  | itemNotFound (id : ItemId)
  | modelIndexOutOfBounds (index count : Nat)
  | duplicateItemId (modelID : ModelId) (itemID : ItemId)
  | operationError (message : String)
deriving DecidableEq, Repr

/-- `Int64.max`. -/
def int64Max : Nat := 9223372036854775807

def distance (a mid : Nat) : Nat := if mid < a then a - mid else mid - a

/-- The comparator of `evictFarthestOutside`, as an order on positions. -/
def FartherFrom (mid a b : Nat) : Prop :=
  distance b mid < distance a mid ∨ (distance a mid = distance b mid ∧ a ≤ b)

instance (mid : Nat) : DecidableRel (FartherFrom mid) :=
  fun _ _ => inferInstanceAs (Decidable (_ ∨ _))

def removeItem (model : Model) (index : Nat) : Model :=
  match model.items[index]? with
  | some item =>
    { model with
      items := model.items.erase index
      idToIndex := model.idToIndex.erase item.itemId }
  | none => model

def putItem (model : Model) (index : Nat) (item : ModelItem) : Model :=
  { model with
    idToIndex := model.idToIndex.insert item.itemId index
    items := model.items.insert index item }

def evictFarthestOutside (model : Model) (keepStart keepEnd count : Nat) : Model :=
  let keepEnd := max keepEnd keepStart
  let mid := keepStart + (keepEnd - keepStart) / 2
  let candidates := (model.items.keys.filter fun index =>
    decide (index < keepStart ∨ keepEnd ≤ index)).insertionSort (FartherFrom mid)
  (candidates.take count).foldl removeItem model

/-- The new position of a shifted item, none where the sum or the difference traps. -/
def shiftedIndex (oldIdx : Nat) (delta : Int) : Option Nat :=
  if 0 < delta then checkedAdd oldIdx delta.toNat
  else if (-delta).toNat ≤ oldIdx then some (oldIdx - (-delta).toNat)
  else none

/-- The loop of `shiftCachedIndices` that puts the shifted items back. -/
def putShifted {ε : Type} (model : Model) (delta : Int) :
    List (Nat × ModelItem) → Outcome ε Model
  | [] => .ok model
  | (oldIdx, item) :: rest =>
    match shiftedIndex oldIdx delta with
    | none => .error .panicked
    | some newIdx => putShifted (putItem model newIdx item) delta rest

/-- `shiftCachedIndices`; the items to shift are taken out of both maps first. -/
def shiftCachedIndices {ε : Type} (model : Model) (fromIndex : Nat) (delta : Int) :
    Outcome ε Model :=
  if delta = 0 then .ok model
  else
    let toShift := model.items.toList.filter fun entry => decide (fromIndex ≤ entry.1)
    let taken := toShift.foldl (fun model entry =>
      { model with
        items := model.items.erase entry.1
        idToIndex := model.idToIndex.erase entry.2.itemId }) model
    putShifted taken delta toShift

def firstDuplicate (refused : ItemId → Bool) (incoming : List ItemId) :
    List ModelItem → Option ItemId
  | [] => none
  | item :: rest =>
    if refused item.itemId || incoming.contains item.itemId then some item.itemId
    else firstDuplicate refused (item.itemId :: incoming) rest

/-- Caches items at consecutive positions from `base + offset`. -/
def putItems {ε : Type} (model : Model) (base : Nat) :
    Nat → List ModelItem → Outcome ε Model
  | _, [] => .ok model
  | offset, item :: rest =>
    match checkedAdd base offset with
    | none => .error .panicked
    | some index => putItems (putItem model index item) base (offset + 1) rest

def insertItems (model : Model) (index : Nat) (items : List ModelItem) :
    Outcome StoreError Model :=
  if model.itemCount < index then err (.modelIndexOutOfBounds index model.itemCount)
  else
    match firstDuplicate (fun id => model.idToIndex.contains id) [] items with
    | some itemID => err (.duplicateItemId model.id itemID)
    | none =>
      if items.length = 0 then .ok model
      else
        match shiftCachedIndices model index items.length with
        | .error fault => .error fault
        | .ok shifted =>
          match putItems shifted index 0 items with
          | .error fault => .error fault
          | .ok written =>
            match checkedAdd written.itemCount items.length with
            | none => .error .panicked
            | some itemCount => .ok { written with itemCount := itemCount }

/-- The loop of `deleteItems` over identities. -/
def deleteIds (model : Model) : List ItemId → Outcome StoreError Model
  | [] => .ok model
  | itemID :: rest =>
    match model.idToIndex[itemID]? with
    | some idx =>
      let removed :=
        { model with
          idToIndex := model.idToIndex.erase itemID
          items := model.items.erase idx
          itemCount := model.itemCount - 1 }
      match checkedAdd idx 1 with
      | none => .error .panicked
      | some fromIndex =>
        match shiftCachedIndices removed fromIndex (-1) with
        | .error fault => .error fault
        | .ok shifted => deleteIds shifted rest
    | none => deleteIds { model with itemCount := model.itemCount - 1 } rest

/-- The range form of `deleteItems`. The count is converted to an `Int64`, which traps
above its largest value. -/
def deleteRange (model : Model) (idx cnt : Nat) : Outcome StoreError Model :=
  match checkedAdd idx cnt with
  | none => err (.modelIndexOutOfBounds u64Max model.itemCount)
  | some rangeEnd =>
    if model.itemCount < idx ∨ model.itemCount < rangeEnd then
      err (.modelIndexOutOfBounds rangeEnd model.itemCount)
    else
      let keysToRemove := model.items.keys.filter fun k => decide (idx ≤ k ∧ k < rangeEnd)
      let removed := keysToRemove.foldl removeItem model
      if int64Max < cnt then .error .panicked
      else
        match shiftCachedIndices removed rangeEnd (-(cnt : Int)) with
        | .error fault => .error fault
        | .ok shifted => .ok { shifted with itemCount := shifted.itemCount - cnt }

def deleteItems (model : Model) (index count : Option Nat) (itemIds : List ItemId) :
    Outcome StoreError Model :=
  let hasRange := 0 < count.getD 0
  let hasIDs := itemIds ≠ []
  if hasRange ∧ hasIDs then
    err (.invalidModelDelete "cannot combine item_ids and range deletion in ModelDelete (§8, §13)")
  else if hasIDs then deleteIds model itemIds
  else if hasRange then deleteRange model (index.getD 0) (count.getD 0)
  else .ok model

def releaseItem (model : Model) (itemID : ItemId) (targetIdx : Nat) : Model :=
  match model.idToIndex[itemID]? with
  | some oldPos =>
    let released := { model with idToIndex := model.idToIndex.erase itemID }
    if oldPos ≠ targetIdx then { released with items := released.items.erase oldPos }
    else released
  | none => model

/-- The loop of `updateItems` over positions. -/
def updateFrom (model : Model) (baseIdx : Nat) : Nat → List ModelItem → Outcome StoreError Model
  | _, [] => .ok model
  | offset, item :: rest =>
    match checkedAdd baseIdx offset with
    | none => .error .panicked
    | some targetIdx =>
      if model.itemCount ≤ targetIdx then
        err (.modelIndexOutOfBounds targetIdx model.itemCount)
      else
        updateFrom
          (putItem (removeItem (releaseItem model item.itemId targetIdx) targetIdx)
            targetIdx item) baseIdx (offset + 1) rest

/-- The loop of `updateItems` over identities. -/
def updateIds (model : Model) : List ModelItem → Outcome StoreError Model
  | [] => .ok model
  | item :: rest =>
    match model.idToIndex[item.itemId]? with
    | some idx => updateIds { model with items := model.items.insert idx item } rest
    | none => err (.itemNotFound item.itemId)

def updateItems (model : Model) (index : Option Nat) (items : List ModelItem) :
    Outcome StoreError Model :=
  match index with
  | some baseIdx => updateFrom model baseIdx 0 items
  | none => updateIds model items

def cachedElsewhere (model : Model) (startIndex endIndex : Nat) (itemID : ItemId) : Bool :=
  match model.idToIndex[itemID]? with
  | some existingIdx => decide (existingIdx < startIndex ∨ endIndex ≤ existingIdx)
  | none => false

def resetRange (model : Model) (startIndex : Nat) (items : List ModelItem)
    (totalCount : Option Nat) : Outcome StoreError Model :=
  let model := if 0 < totalCount.getD 0 then { model with itemCount := totalCount.getD 0 } else model
  if model.itemCount < startIndex then err (.modelIndexOutOfBounds startIndex model.itemCount)
  else
    match checkedAdd startIndex items.length with
    | none => .error .panicked
    | some endIndex =>
      if model.itemCount < endIndex then err (.modelIndexOutOfBounds endIndex model.itemCount)
      else
        match firstDuplicate (cachedElsewhere model startIndex endIndex) [] items with
        | some itemID => err (.duplicateItemId model.id itemID)
        | none =>
          putItems ((List.range' startIndex items.length).foldl removeItem model) startIndex 0
            items

end Srui.Client.ReplicaModels

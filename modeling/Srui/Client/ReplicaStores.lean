import Srui.Client.ReplicaModels
import Srui.SemanticTree.Stores

/-!
The client's replica of the semantic graph and its mutation operations.

The records are the server's; the checks and the mutations are the client's own, among
them the check of a standard property's value against the registry. Every operation
checks before it mutates. Walks along parents and children are bounded as on the server.
-/

namespace Srui.Client.ReplicaStores

open Std Basic.Machine SemanticTree.Values
open SemanticTree.Models (Model ModelItem)
open SemanticTree.Limits (StoreLimits)
open SemanticTree.Stores (NodeMap SemanticStore)
open Client.ReplicaModels

/-- `standardPropertyValueType`. -/
def standardPropertyValueType (property : PropertyRef) : Option StandardPropertyValueType :=
  if property.namespaceId ≠ 0 then none
  else
    match property.localId with
    | 1 | 2 | 4 | 12 | 14 | 28 => some .string
    | 3 | 6 | 11 | 18 | 19 | 25 | 26 | 27 | 30 => some .enumToken
    | 5 | 16 | 29 => some .list
    | 7 | 8 | 9 | 10 => some .bool
    | 13 => some .any
    | 15 => some .resourceHash
    | 17 => some .unsignedInt
    | 20 | 21 => some .float64
    | 22 | 23 | 24 => some .size
    | _ => none

/-- `Value.runtimeTypeName`. -/
def runtimeTypeName : Value → String
  | .scalar .null => "null"
  | .scalar (.bool _) => "bool"
  | .scalar (.signedInt _) => "int64"
  | .scalar (.unsignedInt _) => "uint64"
  | .scalar (.float64 _) => "float64"
  | .scalar (.string _) => "string"
  | .scalar (.nodeId _) => "node_id"
  | .scalar (.itemId _) => "item_id"
  | .scalar (.resourceHash _) => "resource_hash"
  | .scalar (.enumToken _ _) => "enum"
  | .scalar (.size _ _) => "size"
  | .scalar (.point _ _) => "point"
  | .scalar (.range _ _) => "range"
  | .scalar (.rect _ _ _ _) => "rect"
  | .scalar (.edgeInsets _ _ _ _) => "edge_insets"
  | .list _ => "list"
  | .record _ _ => "record"

def matchesType : StandardPropertyValueType → Value → Bool
  | .any, _ => true
  | .bool, .scalar (.bool _) => true
  | .enumToken, .scalar (.enumToken _ _) => true
  | .float64, .scalar (.float64 _) => true
  | .list, .list _ => true
  | .resourceHash, .scalar (.resourceHash _) => true
  | .size, .scalar (.size _ _) => true
  | .string, .scalar (.string _) => true
  | .unsignedInt, .scalar (.unsignedInt _) => true
  | _, _ => false

def validatePropertyValueType (property : PropertyRef) (value : Value) :
    Except StoreError Unit :=
  match standardPropertyValueType property with
  | none => .ok ()
  | some expected =>
    if matchesType expected value then .ok ()
    else .error (.invalidPropertyValueType property expected (runtimeTypeName value))

mutual

/-- `StoreLimits.validateInner`. -/
def validateInner (limits : StoreLimits) : Value → Nat → Except StoreError Unit
  | .scalar s, depth =>
    if limits.maxValueDepth < depth then
      .error (.maxValueDepthExceeded limits.maxValueDepth depth)
    else
      match s with
      | .string s =>
        if limits.maxStringLength < s.utf8ByteSize then
          .error (.maxStringLengthExceeded limits.maxStringLength s.utf8ByteSize)
        else .ok ()
      | _ => .ok ()
  | .list items, depth =>
    if limits.maxValueDepth < depth then
      .error (.maxValueDepthExceeded limits.maxValueDepth depth)
    else if limits.maxListElements < items.length then
      .error (.maxListLengthExceeded limits.maxListElements items.length)
    else validateElements limits items (depth + 1)
  | .record _ properties, depth =>
    if limits.maxValueDepth < depth then
      .error (.maxValueDepthExceeded limits.maxValueDepth depth)
    else if limits.maxRecordProperties < properties.length then
      .error (.maxRecordPropertiesExceeded limits.maxRecordProperties properties.length)
    else validateFields limits properties (depth + 1)

def validateElements (limits : StoreLimits) : List Value → Nat → Except StoreError Unit
  | [], _ => .ok ()
  | item :: rest, depth =>
    match validateInner limits item depth with
    | .error e => .error e
    | .ok () => validateElements limits rest depth

def validateFields (limits : StoreLimits) :
    List (PropertyRef × Value) → Nat → Except StoreError Unit
  | [], _ => .ok ()
  | (_, value) :: rest, depth =>
    match validateInner limits value depth with
    | .error e => .error e
    | .ok () => validateFields limits rest depth

end

/-- `StoreLimits.validate`. -/
def validate (limits : StoreLimits) (value : Value) : Except StoreError Unit :=
  validateInner limits value 1

def validatePropertyReferences (store : SemanticStore) (property : PropertyRef) (value : Value) :
    Except StoreError Unit :=
  if property = PropertyRef.modelRef then
    match value with
    | .scalar (.unsignedInt u) =>
      if store.models.contains u then .ok () else .error (.modelNotFound u)
    | .scalar (.signedInt i) =>
      if 0 ≤ i then
        if store.models.contains i.toNat then .ok () else .error (.modelNotFound i.toNat)
      else .error (.operationError "model_ref property must be a non-negative integer")
    | _ => .error (.operationError "model_ref property must be a non-negative integer")
  else .ok ()

def checkProperty (store : SemanticStore) (property : PropertyRef) (value : Value) :
    Except StoreError Unit :=
  match validate store.limits value with
  | .error e => .error e
  | .ok () =>
    match validatePropertyValueType property value with
    | .error e => .error e
    | .ok () => validatePropertyReferences store property value

def checkProperties (store : SemanticStore) : List (PropertyRef × Value) → Except StoreError Unit
  | [] => .ok ()
  | (property, value) :: rest =>
    match checkProperty store property value with
    | .error e => .error e
    | .ok () => checkProperties store rest

/-- The loop of `nodeDepth`. -/
def depthLoop (nodes : NodeMap) : Nat → NodeId → Nat → Outcome StoreError (Option Nat)
  | 0, _, _ => .error .diverges
  | steps + 1, currentID, depth =>
    match nodes[currentID]? with
    | none => .ok none
    | some node =>
      match node.parentId with
      | some parent => depthLoop nodes steps parent (depth + 1)
      | none => .ok (some (depth + 1))

def nodeDepth (store : SemanticStore) (id : NodeId) : Outcome StoreError (Option Nat) :=
  depthLoop store.nodes (store.nodes.size + 1) id 0

/-- The recursion of `subtreeDepth`. -/
def subtreeDepthWithin (nodes : NodeMap) : Nat → NodeId → Option Nat
  | 0, _ => none
  | steps + 1, id =>
    match nodes[id]? with
    | none => some 1
    | some node =>
      (node.orderedChildren.foldlM (fun maxChildDepth childID =>
        (subtreeDepthWithin nodes steps childID).map fun childDepth =>
          if maxChildDepth < childDepth then childDepth else maxChildDepth) 0).map (1 + ·)

def subtreeDepth (store : SemanticStore) (id : NodeId) : Outcome StoreError Nat :=
  match subtreeDepthWithin store.nodes (store.nodes.size + 1) id with
  | none => .error .diverges
  | some depth => .ok depth

def childDepth (store : SemanticStore) (parentID : Option NodeId) : Outcome StoreError Nat :=
  match parentID with
  | none => .ok 1
  | some pid =>
    match nodeDepth store pid with
    | .error fault => .error fault
    | .ok none => err (.parentNotFound pid)
    | .ok (some parentDepth) =>
      if store.limits.maxTreeDepth < parentDepth + 1 then
        err (.maxTreeDepthExceeded store.limits.maxTreeDepth (parentDepth + 1))
      else .ok (parentDepth + 1)

def destinationCount (store : SemanticStore) (parentID : Option NodeId) :
    Outcome StoreError Nat :=
  match parentID with
  | none => .ok store.roots.length
  | some pid =>
    match store.nodes[pid]? with
    | none => err (.parentNotFound pid)
    | some parent => .ok parent.orderedChildren.length

def checkIndex (index : Option Int) (count : Nat) : Outcome StoreError Unit :=
  match index with
  | some idx => if idx < 0 ∨ (count : Int) < idx then err (.childIndexOutOfBounds idx count)
      else .ok ()
  | none => .ok ()

def rewriteList (store : SemanticStore) (parentID : Option NodeId)
    (f : List NodeId → List NodeId) : SemanticStore :=
  match parentID with
  | some pid =>
    { store with nodes := store.nodes.modify pid fun node =>
        { node with orderedChildren := f node.orderedChildren } }
  | none => { store with roots := f store.roots }

def insertChild (index : Option Int) (id : NodeId) (ids : List NodeId) : List NodeId :=
  match index with
  | some idx => ids.insertIdx idx.toNat id
  | none => ids ++ [id]

def createNode (store : SemanticStore) (id : NodeId) (nodeType : TypeRef)
    (parentID : Option NodeId) (childIndex : Option Int)
    (properties : List (PropertyRef × Value)) : Outcome StoreError SemanticStore :=
  if id ∈ store.usedIds then err (.nodeIdAlreadyUsed id)
  else if store.limits.maxNodeCount ≤ store.nodes.size then
    err (.maxNodeCountExceeded store.limits.maxNodeCount store.nodes.size)
  else
    match childDepth store parentID with
    | .error fault => .error fault
    | .ok depth =>
      if store.limits.maxTreeDepth < depth then
        err (.maxTreeDepthExceeded store.limits.maxTreeDepth depth)
      else
        match checkProperties store properties with
        | .error e => err e
        | .ok () =>
          match destinationCount store parentID with
          | .error fault => .error fault
          | .ok count =>
            match checkIndex childIndex count with
            | .error fault => .error fault
            | .ok () =>
              let inserted := rewriteList store parentID (insertChild childIndex id)
              .ok { inserted with
                nodes := inserted.nodes.insert id
                  ⟨id, nodeType, parentID, [], insertProperties ∅ properties⟩
                usedIds := insert id inserted.usedIds }

/-- `deleteSubtreeRecursive`. -/
def deleteSubtreeRecursive : Nat → NodeMap × List NodeId → NodeId → NodeMap × List NodeId
  | 0, state, _ => state
  | steps + 1, (nodes, deleted), id =>
    match nodes[id]? with
    | none => (nodes, deleted)
    | some node =>
      node.orderedChildren.foldl (deleteSubtreeRecursive steps)
        (nodes.erase id, deleted ++ [id])

def deleteNode (store : SemanticStore) (id : NodeId) : Outcome StoreError SemanticStore :=
  match store.nodes[id]? with
  | none => err (.nodeNotFound id)
  | some node =>
    let detached := rewriteList store node.parentId fun ids => ids.filter (· ≠ id)
    .ok { detached with
      nodes := (deleteSubtreeRecursive (detached.nodes.size + 1) (detached.nodes, []) id).1 }

def setProperty (store : SemanticStore) (nodeID : NodeId) (property : PropertyRef)
    (value : Value) : Outcome StoreError SemanticStore :=
  match checkProperty store property value with
  | .error e => err e
  | .ok () =>
    match store.nodes[nodeID]? with
    | none => err (.nodeNotFound nodeID)
    | some node =>
      let updated := { node with properties := node.properties.insert property value }
      .ok { store with nodes := store.nodes.insert nodeID updated }

def clearProperty (store : SemanticStore) (nodeID : NodeId) (property : PropertyRef) :
    Outcome StoreError SemanticStore :=
  match store.nodes[nodeID]? with
  | none => err (.nodeNotFound nodeID)
  | some node =>
    let updated := { node with properties := node.properties.erase property }
    .ok { store with nodes := store.nodes.insert nodeID updated }

def batchPropertySet (store : SemanticStore) (nodeID : NodeId)
    (properties : List (PropertyRef × Value)) : Outcome StoreError SemanticStore :=
  match checkProperties store properties with
  | .error e => err e
  | .ok () =>
    match store.nodes[nodeID]? with
    | none => err (.nodeNotFound nodeID)
    | some node =>
      let updated := { node with properties := insertProperties node.properties properties }
      .ok { store with nodes := store.nodes.insert nodeID updated }

/-- The walk of `moveNode` from the new parent upwards. -/
def meetsAncestor (nodes : NodeMap) (nodeID : NodeId) : Nat → NodeId → Outcome StoreError Bool
  | 0, _ => .error .diverges
  | steps + 1, curr =>
    match nodes[curr]? with
    | none => .ok false
    | some node =>
      match node.parentId with
      | none => .ok false
      | some pid => if pid = nodeID then .ok true else meetsAncestor nodes nodeID steps pid

def detectCycle (store : SemanticStore) (nodeID : NodeId) (newParentID : Option NodeId) :
    Outcome StoreError Unit :=
  match newParentID with
  | none => .ok ()
  | some targetParent =>
    if targetParent = nodeID then err (.cycleDetected nodeID targetParent)
    else
      match meetsAncestor store.nodes nodeID (store.nodes.size + 1) targetParent with
      | .error fault => .error fault
      | .ok true => err (.cycleDetected nodeID targetParent)
      | .ok false => .ok ()

def parentDepth (store : SemanticStore) (newParentID : Option NodeId) : Outcome StoreError Nat :=
  match newParentID with
  | none => .ok 0
  | some pid =>
    match nodeDepth store pid with
    | .error fault => .error fault
    | .ok none => err (.parentNotFound pid)
    | .ok (some depth) => .ok depth

def clampChild (index : Option Int) (id : NodeId) (ids : List NodeId) : List NodeId :=
  match index with
  | some idx => ids.insertIdx (min idx.toNat ids.length) id
  | none => ids ++ [id]

def moveNode (store : SemanticStore) (nodeID : NodeId) (newParentID : Option NodeId)
    (newChildIndex : Option Int) : Outcome StoreError SemanticStore :=
  match store.nodes[nodeID]? with
  | none => err (.nodeNotFound nodeID)
  | some node =>
    match detectCycle store nodeID newParentID with
    | .error fault => .error fault
    | .ok () =>
      match subtreeDepth store nodeID with
      | .error fault => .error fault
      | .ok subDepth =>
        match parentDepth store newParentID with
        | .error fault => .error fault
        | .ok newParentDepth =>
          if store.limits.maxTreeDepth < newParentDepth + subDepth then
            err (.maxTreeDepthExceeded store.limits.maxTreeDepth
              (newParentDepth + subDepth))
          else
            match destinationCount store newParentID with
            | .error fault => .error fault
            | .ok currentDestLen =>
              match checkIndex newChildIndex currentDestLen with
              | .error fault => .error fault
              | .ok () =>
                let detached := rewriteList store node.parentId fun ids =>
                  ids.filter (· ≠ nodeID)
                let attached := rewriteList detached newParentID
                  (clampChild newChildIndex nodeID)
                .ok { attached with
                  nodes := attached.nodes.modify nodeID fun node =>
                    { node with parentId := newParentID } }

def describeNodeId (id : NodeId) : String := "NodeId(" ++ toString id ++ ")"

/-- The checks of `reorderChildren` on the new order. -/
def checkOrder (parentID : NodeId) (current : List NodeId) (newSet : List NodeId) :
    List NodeId → Except StoreError Unit
  | [] => .ok ()
  | child :: rest =>
    if child ∉ current then
      .error (.invalidChildrenReorder parentID ("child " ++ describeNodeId child ++
        " is not a child of parent " ++ describeNodeId parentID))
    else if child ∈ newSet then
      .error (.invalidChildrenReorder parentID ("duplicate child " ++ describeNodeId child ++
        " in permutation list"))
    else checkOrder parentID current (child :: newSet) rest

def reorderChildren (store : SemanticStore) (parentID : NodeId) (newOrder : List NodeId) :
    Outcome StoreError SemanticStore :=
  match store.nodes[parentID]? with
  | none => err (.parentNotFound parentID)
  | some parentNode =>
    if newOrder.length ≠ parentNode.orderedChildren.length then
      err (.invalidChildrenReorder parentID
        ("expected " ++ toString parentNode.orderedChildren.length ++ " children, got " ++
          toString newOrder.length))
    else
      match checkOrder parentID parentNode.orderedChildren [] newOrder with
      | .error e => err e
      | .ok () => .ok (rewriteList store (some parentID) fun _ => newOrder)

def createModel (store : SemanticStore) (id : ModelId) (modelType : TypeRef) (itemCount : Nat) :
    Outcome StoreError SemanticStore :=
  if id ∈ store.usedModelIds then err (.modelIdAlreadyUsed id)
  else if store.limits.maxModelCount ≤ store.models.size then
    err (.maxModelCountExceeded store.limits.maxModelCount store.models.size)
  else
    .ok { store with
      models := store.models.insert id ⟨id, modelType, itemCount, ∅, ∅⟩
      usedModelIds := insert id store.usedModelIds }

def checkItemCount (limits : StoreLimits) (count : Nat) : Except StoreError Unit :=
  if limits.maxItemsPerModelOperation < count then
    .error (.maxItemsPerModelOperationExceeded limits.maxItemsPerModelOperation count)
  else .ok ()

def checkItemValues (limits : StoreLimits) : List ModelItem → Except StoreError Unit
  | [] => .ok ()
  | item :: rest =>
    match validate limits item.value with
    | .error e => .error e
    | .ok () =>
      match validateFields limits item.properties.toList 1 with
      | .error e => .error e
      | .ok () => checkItemValues limits rest

def checkItems (limits : StoreLimits) (items : List ModelItem) : Except StoreError Unit :=
  match checkItemCount limits items.length with
  | .error e => .error e
  | .ok () => checkItemValues limits items

def withModel (store : SemanticStore) (id : ModelId) (f : Model → Outcome StoreError Model) :
    Outcome StoreError SemanticStore :=
  match store.models[id]? with
  | none => err (.modelNotFound id)
  | some model =>
    match f model with
    | .error fault => .error fault
    | .ok changed => .ok { store with models := store.models.insert id changed }

def modelInsert (store : SemanticStore) (id : ModelId) (index : Nat) (items : List ModelItem) :
    Outcome StoreError SemanticStore :=
  match checkItems store.limits items with
  | .error e => err e
  | .ok () =>
    withModel store id fun model =>
      if store.limits.maxCachedItemsPerModel < model.items.size + items.length then
        err (.maxCachedItemsPerModelExceeded store.limits.maxCachedItemsPerModel
          model.items.size (model.items.size + items.length))
      else insertItems model index items

def modelDelete (store : SemanticStore) (id : ModelId) (index count : Option Nat)
    (itemIds : List ItemId) : Outcome StoreError SemanticStore :=
  match checkItemCount store.limits itemIds.length with
  | .error e => err e
  | .ok () => withModel store id fun model => deleteItems model index count itemIds

def modelUpdate (store : SemanticStore) (id : ModelId) (index : Option Nat)
    (items : List ModelItem) : Outcome StoreError SemanticStore :=
  match checkItems store.limits items with
  | .error e => err e
  | .ok () => withModel store id fun model => updateItems model index items

def projected (model : Model) (startIndex endIndex count : Nat) : Nat :=
  model.items.size -
    (model.items.toList.filter fun entry =>
      decide (startIndex ≤ entry.1 ∧ entry.1 < endIndex)).length + count

/-- `modelResetRange` on the model. The end of the range wraps around. -/
def replaceRange (limits : StoreLimits) (startIndex : Nat) (items : List ModelItem)
    (totalCount : Option Nat) (model : Model) : Outcome StoreError Model :=
  let endIndex := (startIndex + items.length) % (u64Max + 1)
  let before := projected model startIndex endIndex items.length
  let model :=
    if limits.maxCachedItemsPerModel < before then
      evictFarthestOutside model startIndex endIndex (before - limits.maxCachedItemsPerModel)
    else model
  if limits.maxCachedItemsPerModel < projected model startIndex endIndex items.length then
    err (.maxCachedItemsPerModelExceeded limits.maxCachedItemsPerModel model.items.size
      (projected model startIndex endIndex items.length))
  else resetRange model startIndex items totalCount

def modelResetRange (store : SemanticStore) (id : ModelId) (startIndex : Nat)
    (items : List ModelItem) (totalCount : Option Nat) : Outcome StoreError SemanticStore :=
  match checkItems store.limits items with
  | .error e => err e
  | .ok () => withModel store id (replaceRange store.limits startIndex items totalCount)

inductive StoreOperation where
  | createNode (id : NodeId) (nodeType : TypeRef) (parentID : Option NodeId)
      (childIndex : Option Int) (properties : List (PropertyRef × Value))
  | deleteNode (id : NodeId)
  | setProperty (id : NodeId) (property : PropertyRef) (value : Value)
  | clearProperty (id : NodeId) (property : PropertyRef)
  | moveNode (id : NodeId) (newParentID : Option NodeId) (newChildIndex : Option Int)
  | reorderChildren (parentID : NodeId) (newOrder : List NodeId)
  | batchPropertySet (id : NodeId) (properties : List (PropertyRef × Value))
  | createModel (id : ModelId) (modelType : TypeRef) (itemCount : Nat)
  | modelInsert (id : ModelId) (index : Nat) (items : List ModelItem)
  | modelDelete (id : ModelId) (index count : Option Nat) (itemIds : List ItemId)
  | modelUpdate (id : ModelId) (index : Option Nat) (items : List ModelItem)
  | modelResetRange (id : ModelId) (startIndex : Nat) (items : List ModelItem)
      (totalCount : Option Nat)
deriving DecidableEq

/-- `StoreOperation.apply(to:)`. -/
def applyTo (store : SemanticStore) : StoreOperation → Outcome StoreError SemanticStore
  | .createNode id nodeType parentID childIndex properties =>
    createNode store id nodeType parentID childIndex properties
  | .deleteNode id => deleteNode store id
  | .setProperty id property value => setProperty store id property value
  | .clearProperty id property => clearProperty store id property
  | .moveNode id newParentID newChildIndex => moveNode store id newParentID newChildIndex
  | .reorderChildren parentID newOrder => reorderChildren store parentID newOrder
  | .batchPropertySet id properties => batchPropertySet store id properties
  | .createModel id modelType itemCount => createModel store id modelType itemCount
  | .modelInsert id index items => modelInsert store id index items
  | .modelDelete id index count itemIds => modelDelete store id index count itemIds
  | .modelUpdate id index items => modelUpdate store id index items
  | .modelResetRange id startIndex items totalCount =>
    modelResetRange store id startIndex items totalCount

end Srui.Client.ReplicaStores

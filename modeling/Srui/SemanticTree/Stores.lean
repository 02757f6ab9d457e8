import Srui.SemanticTree.Models

/-!
The authoritative in-memory node graph and its mutation operations.

Parent chains and child lists are followed with as many steps as there are
live nodes and one more: a walk that needs more than that has met a node twice
and never returns in the source.
-/

namespace Srui.SemanticTree.Stores

open Std Basic.Machine SemanticTree.Values SemanticTree.Limits SemanticTree.Models

structure Node where
  id : NodeId
  nodeType : TypeRef
  parentId : Option NodeId
  orderedChildren : List NodeId
  properties : PropertyMap
deriving DecidableEq

abbrev NodeMap := ExtTreeMap NodeId Node

/-- `Node::new`. -/
def Node.new (id : NodeId) (nodeType : TypeRef) (parentId : Option NodeId)
    (properties : List (PropertyRef × Value)) : Node where
  id := id
  nodeType := nodeType
  parentId := parentId
  orderedChildren := []
  properties := collectProperties properties

/-- The store: live nodes, ordered roots, every identifier ever used, live
models, limits and committed revision. -/
structure SemanticStore where
  nodes : NodeMap
  roots : List NodeId
  usedIds : Finset NodeId
  models : ExtTreeMap ModelId Model
  usedModelIds : Finset ModelId
  limits : StoreLimits
  revision : Revision
deriving DecidableEq

/-- `SemanticStore::with_limits_and_revision`. -/
def SemanticStore.withLimitsAndRevision (limits : StoreLimits) (revision : Revision) :
    SemanticStore where
  nodes := ∅
  roots := []
  usedIds := ∅
  models := ∅
  usedModelIds := ∅
  limits := limits
  revision := revision

/-- `SemanticStore::with_limits`. -/
def SemanticStore.withLimits (limits : StoreLimits) : SemanticStore :=
  SemanticStore.withLimitsAndRevision limits 0

/-- `SemanticStore::parent_of`. -/
def parentOf (s : SemanticStore) (id : NodeId) : Option (Option NodeId) :=
  s.nodes[id]?.map Node.parentId

/-- Loop of `SemanticStore::node_depth`. -/
def nodeDepthLoop (nodes : NodeMap) : Nat → NodeId → Nat → Outcome StoreError (Option Nat)
  | 0, _, _ => .error .diverges
  | steps + 1, current, depth =>
    match nodes[current]? with
    | none => .ok none
    | some node =>
      match node.parentId with
      | some parent => nodeDepthLoop nodes steps parent (depth + 1)
      | none => .ok (some (depth + 1))

/-- `SemanticStore::node_depth`; a root has depth one. -/
def nodeDepth (s : SemanticStore) (id : NodeId) : Outcome StoreError (Option Nat) :=
  nodeDepthLoop s.nodes (s.nodes.size + 1) id 0

/-- Recursion of `SemanticStore::subtree_depth`. -/
def subtreeDepthRec (nodes : NodeMap) : Nat → NodeId → Option Nat
  | 0, _ => none
  | steps + 1, id =>
    match nodes[id]? with
    | none => some 1
    | some node =>
      (node.orderedChildren.foldlM (fun deepest child =>
        (subtreeDepthRec nodes steps child).map (max deepest)) 0).map (1 + ·)

/-- `SemanticStore::subtree_depth`. -/
def subtreeDepth (s : SemanticStore) (id : NodeId) : Outcome StoreError Nat :=
  match subtreeDepthRec s.nodes (s.nodes.size + 1) id with
  | none => .error .diverges
  | some depth => .ok depth

def validatePropertyReferences (s : SemanticStore) (property : PropertyRef) (value : Value) :
    Except StoreError Unit :=
  if property = PropertyRef.modelRef then
    match value with
    | .scalar (.unsignedInt u) =>
      if s.models.contains u then .ok () else .error (.modelNotFound u)
    | .scalar (.signedInt i) =>
      if 0 ≤ i then
        if s.models.contains i.toNat then .ok () else .error (.modelNotFound i.toNat)
      else .error (.operationError "model_ref property must be a non-negative integer")
    | _ => .error (.operationError "model_ref property must be a non-negative integer")
  else .ok ()

def validateProperty (s : SemanticStore) (property : PropertyRef) (value : Value) :
    Except StoreError Unit :=
  match validateValue s.limits value with
  | .error e => .error e
  | .ok () => validatePropertyReferences s property value

def validateProperties (s : SemanticStore) : List (PropertyRef × Value) → Except StoreError Unit
  | [] => .ok ()
  | (property, value) :: rest =>
    match validateProperty s property value with
    | .error e => .error e
    | .ok () => validateProperties s rest

/-- Inserts at `index`, or appends when no index is given. -/
def insertAt (ids : List NodeId) (index : Option Nat) (id : NodeId) : List NodeId :=
  match index with
  | some i => ids.insertIdx i id
  | none => ids ++ [id]

def updateChildren (s : SemanticStore) (parent : NodeId) (f : List NodeId → List NodeId) :
    SemanticStore :=
  { s with nodes := s.nodes.modify parent fun node =>
      { node with orderedChildren := f node.orderedChildren } }

def updateContainer (s : SemanticStore) (parentId : Option NodeId)
    (f : List NodeId → List NodeId) : SemanticStore :=
  match parentId with
  | some parent => updateChildren s parent f
  | none => { s with roots := f s.roots }

/-- The list a node with parent `parentId` hangs in. -/
def containerOf (s : SemanticStore) (parentId : Option NodeId) : List NodeId :=
  match parentId with
  | some parent => (s.nodes[parent]?.map Node.orderedChildren).getD []
  | none => s.roots

/-- Depth a new child of `parentId` would have. -/
def targetDepth (s : SemanticStore) (parentId : Option NodeId) : Outcome StoreError Nat :=
  match parentId with
  | none => .ok 1
  | some parent =>
    match nodeDepth s parent with
    | .error f => .error f
    | .ok none => err (.parentNotFound parent)
    | .ok (some parentDepth) =>
      if parentDepth + 1 > s.limits.maxTreeDepth then
        err (.maxTreeDepthExceeded s.limits.maxTreeDepth (parentDepth + 1))
      else .ok (parentDepth + 1)

def checkChildIndex (index : Option Nat) (count : Nat) : Outcome StoreError Unit :=
  match index with
  | some i => if i > count then err (.childIndexOutOfBounds i count) else .ok ()
  | none => .ok ()

/-- `SemanticStore::create_node`. -/
def createNode (s : SemanticStore) (id : NodeId) (nodeType : TypeRef) (parentId : Option NodeId)
    (childIndex : Option Nat) (properties : List (PropertyRef × Value)) :
    Outcome StoreError SemanticStore :=
  if id ∈ s.usedIds then err (.nodeIdAlreadyUsed id)
  else if s.nodes.size ≥ s.limits.maxNodeCount then
    err (.maxNodeCountExceeded s.limits.maxNodeCount s.nodes.size)
  else
    match targetDepth s parentId with
    | .error f => .error f
    | .ok depth =>
      if depth > s.limits.maxTreeDepth then
        err (.maxTreeDepthExceeded s.limits.maxTreeDepth depth)
      else
        match validateProperties s properties with
        | .error e => err e
        | .ok () =>
          match checkChildIndex childIndex (containerOf s parentId).length with
          | .error f => .error f
          | .ok () =>
            let attached := updateContainer s parentId fun ids => insertAt ids childIndex id
            .ok { attached with
              nodes := attached.nodes.insert id (Node.new id nodeType parentId properties)
              usedIds := insert id attached.usedIds }

/-- `SemanticStore::delete_subtree_recursive`; one step more than there are
live nodes can only find the identifier missing. -/
def deleteSubtreeRecursive : Nat → NodeMap × List NodeId → NodeId → NodeMap × List NodeId
  | 0, state, _ => state
  | steps + 1, (nodes, deleted), id =>
    match nodes[id]? with
    | none => (nodes, deleted)
    | some node =>
      node.orderedChildren.foldl (deleteSubtreeRecursive steps)
        (nodes.erase id, deleted ++ [id])

/-- `SemanticStore::delete_node`, with the deleted identifiers. -/
def deleteNode (s : SemanticStore) (id : NodeId) :
    Outcome StoreError (SemanticStore × List NodeId) :=
  match s.nodes[id]? with
  | none => err (.nodeNotFound id)
  | some node =>
    let detached := updateContainer s node.parentId fun ids => ids.filter (· ≠ id)
    let result := deleteSubtreeRecursive (detached.nodes.size + 1) (detached.nodes, []) id
    .ok ({ detached with nodes := result.1 }, result.2)

def putNode (s : SemanticStore) (id : NodeId) (node : Node) : SemanticStore :=
  { s with nodes := s.nodes.insert id node }

/-- `SemanticStore::set_property`, with the previous value. -/
def setProperty (s : SemanticStore) (id : NodeId) (property : PropertyRef) (value : Value) :
    Outcome StoreError (SemanticStore × Option Value) :=
  match validateProperty s property value with
  | .error e => err e
  | .ok () =>
    match s.nodes[id]? with
    | none => err (.nodeNotFound id)
    | some node =>
      .ok (putNode s id { node with properties := node.properties.insert property value },
        node.properties[property]?)

/-- `SemanticStore::clear_property`, with the previous value. -/
def clearProperty (s : SemanticStore) (id : NodeId) (property : PropertyRef) :
    Outcome StoreError (SemanticStore × Option Value) :=
  match s.nodes[id]? with
  | none => err (.nodeNotFound id)
  | some node =>
    .ok (putNode s id { node with properties := node.properties.erase property },
      node.properties[property]?)

/-- `SemanticStore::batch_property_set`. -/
def batchPropertySet (s : SemanticStore) (id : NodeId) (properties : List (PropertyRef × Value)) :
    Outcome StoreError SemanticStore :=
  match validateProperties s properties with
  | .error e => err e
  | .ok () =>
    match s.nodes[id]? with
    | none => err (.nodeNotFound id)
    | some node =>
      .ok (putNode s id
        { node with properties := insertProperties node.properties properties })

/-- Cycle walk of `move_node`: whether `id` is a strict ancestor of `current`. -/
def cycleWalk (nodes : NodeMap) (id : NodeId) : Nat → NodeId → Outcome StoreError Bool
  | 0, _ => .error .diverges
  | steps + 1, current =>
    match nodes[current]? with
    | none => .ok false
    | some node =>
      match node.parentId with
      | none => .ok false
      | some parent => if parent = id then .ok true else cycleWalk nodes id steps parent

/-- Whether moving `id` under `newParentId` closes a cycle. -/
def checkCycle (s : SemanticStore) (id : NodeId) (newParentId : Option NodeId) :
    Outcome StoreError Unit :=
  match newParentId with
  | none => .ok ()
  | some target =>
    if target = id then err (.cycleDetected id target)
    else
      match cycleWalk s.nodes id (s.nodes.size + 1) target with
      | .error f => .error f
      | .ok true => err (.cycleDetected id target)
      | .ok false => .ok ()

def newParentDepth (s : SemanticStore) (newParentId : Option NodeId) : Outcome StoreError Nat :=
  match newParentId with
  | none => .ok 0
  | some parent =>
    match nodeDepth s parent with
    | .error f => .error f
    | .ok none => err (.parentNotFound parent)
    | .ok (some depth) => .ok depth

/-- The mutating tail of `move_node`: leave the old container, enter the new
one at the clamped index, and record the new parent. -/
def relocate (s : SemanticStore) (id : NodeId) (node : Node) (newParentId : Option NodeId)
    (newChildIndex : Option Nat) : SemanticStore :=
  let detached := updateContainer s node.parentId fun ids => ids.filter (· ≠ id)
  let attached := updateContainer detached newParentId fun ids =>
    insertAt ids (newChildIndex.map (min · ids.length)) id
  { attached with nodes := attached.nodes.modify id fun n => { n with parentId := newParentId } }

/-- `SemanticStore::move_node`. -/
def moveNode (s : SemanticStore) (id : NodeId) (newParentId : Option NodeId)
    (newChildIndex : Option Nat) : Outcome StoreError SemanticStore :=
  match s.nodes[id]? with
  | none => err (.nodeNotFound id)
  | some node =>
    match checkCycle s id newParentId with
    | .error f => .error f
    | .ok () =>
      match subtreeDepth s id with
      | .error f => .error f
      | .ok subtree =>
        match newParentDepth s newParentId with
        | .error f => .error f
        | .ok parentDepth =>
          if parentDepth + subtree > s.limits.maxTreeDepth then
            err (.maxTreeDepthExceeded s.limits.maxTreeDepth (parentDepth + subtree))
          else
            match checkChildIndex newChildIndex (containerOf s newParentId).length with
            | .error f => .error f
            | .ok () => .ok (relocate s id node newParentId newChildIndex)

def showNodeId (id : NodeId) : String := "NodeId(" ++ toString id ++ ")"

/-- Checks of `reorder_children` on the requested order, first failure first. -/
def validateReorder (parentId : NodeId) (current : List NodeId) (seen : List NodeId) :
    List NodeId → Except StoreError Unit
  | [] => .ok ()
  | child :: rest =>
    if child ∉ current then
      .error (.invalidChildrenReorder parentId ("child " ++ showNodeId child ++
        " is not a child of parent " ++ showNodeId parentId))
    else if child ∈ seen then
      .error (.invalidChildrenReorder parentId ("duplicate child " ++ showNodeId child ++
        " in permutation list"))
    else validateReorder parentId current (child :: seen) rest

/-- `SemanticStore::reorder_children`. -/
def reorderChildren (s : SemanticStore) (parentId : NodeId) (newOrder : List NodeId) :
    Outcome StoreError SemanticStore :=
  match s.nodes[parentId]? with
  | none => err (.parentNotFound parentId)
  | some node =>
    if newOrder.length ≠ node.orderedChildren.length then
      err (.invalidChildrenReorder parentId
        ("expected " ++ toString node.orderedChildren.length ++ " children, got " ++
          toString newOrder.length))
    else
      match validateReorder parentId node.orderedChildren [] newOrder with
      | .error e => err e
      | .ok () => .ok (updateChildren s parentId fun _ => newOrder)

/-- `SemanticStore::create_model`. -/
def createModel (s : SemanticStore) (id : ModelId) (modelType : TypeRef) (itemCount : Nat) :
    Outcome StoreError SemanticStore :=
  if id ∈ s.usedModelIds then err (.modelIdAlreadyUsed id)
  else if s.models.size ≥ s.limits.maxModelCount then
    err (.maxModelCountExceeded s.limits.maxModelCount s.models.size)
  else
    .ok { s with models := s.models.insert id (Model.new id modelType itemCount)
                 usedModelIds := insert id s.usedModelIds }

/-- An order in which the properties of each item are visited. The source keeps
them in a hash map, and every copy of an item has an order of its own. -/
structure Visit where
  order : ModelItem → List (PropertyRef × Value)
  perm : ∀ item, (order item).Perm item.properties.toList

def Visit.ascending : Visit := ⟨fun item => item.properties.toList, fun _ => .refl _⟩

def validateItemIn (visit : Visit) (limits : StoreLimits) (item : ModelItem) :
    Except StoreError Unit :=
  match validateValue limits item.value with
  | .error e => .error e
  | .ok () => validatePropertiesInner limits (visit.order item) 1

def validateItemsIn (visit : Visit) (limits : StoreLimits) :
    List ModelItem → Except StoreError Unit
  | [] => .ok ()
  | item :: rest =>
    match validateItemIn visit limits item with
    | .error e => .error e
    | .ok () => validateItemsIn visit limits rest

/-- The check `model_insert`, `model_update` and `model_reset_range` share. -/
def validateBatchIn (visit : Visit) (limits : StoreLimits) (items : List ModelItem) :
    Except StoreError Unit :=
  match validateModelItemsBatch limits items.length with
  | .error e => .error e
  | .ok () => validateItemsIn visit limits items

-- A run of a store takes the ascending order for all: another one changes only
-- which of several violations is reported (`PropertyVisits.applyIn_agrees`).

def validateItem (limits : StoreLimits) (item : ModelItem) : Except StoreError Unit :=
  validateItemIn .ascending limits item

def validateItems (limits : StoreLimits) (items : List ModelItem) : Except StoreError Unit :=
  validateItemsIn .ascending limits items

def validateBatch (limits : StoreLimits) (items : List ModelItem) : Except StoreError Unit :=
  validateBatchIn .ascending limits items

theorem validateItem_def (limits : StoreLimits) (item : ModelItem) :
    validateItem limits item =
      match validateValue limits item.value with
      | .error e => .error e
      | .ok () => validatePropertiesInner limits item.properties.toList 1 := rfl

theorem validateItems_cons (limits : StoreLimits) (item : ModelItem) (rest : List ModelItem) :
    validateItems limits (item :: rest) =
      match validateItem limits item with
      | .error e => .error e
      | .ok () => validateItems limits rest := rfl

theorem validateBatch_def (limits : StoreLimits) (items : List ModelItem) :
    validateBatch limits items =
      match validateModelItemsBatch limits items.length with
      | .error e => .error e
      | .ok () => validateItems limits items := rfl

/-- Runs a mutation on the model `id` and writes back what it leaves. -/
def onModel (s : SemanticStore) (id : ModelId) (f : Model → Mutation Model) :
    Mutation SemanticStore :=
  match s.models[id]? with
  | none => (s, err (.modelNotFound id))
  | some model => ({ s with models := s.models.insert id (f model).1 }, (f model).2)

/-- `SemanticStore::model_insert`, after its check of the batch. -/
def modelInsertChecked (checked : Except StoreError Unit) (s : SemanticStore)
    (id : ModelId) (index : Nat) (items : List ModelItem) : Mutation SemanticStore :=
  match checked with
  | .error e => (s, err e)
  | .ok () =>
    onModel s id fun model =>
      if cachedItemCount model + items.length > s.limits.maxCachedItemsPerModel then
        (model, err (.maxCachedItemsPerModelExceeded s.limits.maxCachedItemsPerModel
          (cachedItemCount model) (cachedItemCount model + items.length)))
      else insertItems model index items

/-- `SemanticStore::model_insert`. -/
def modelInsert (s : SemanticStore) (id : ModelId) (index : Nat) (items : List ModelItem) :
    Mutation SemanticStore :=
  modelInsertChecked (validateBatch s.limits items) s id index items

/-- `SemanticStore::model_delete`. -/
def modelDelete (s : SemanticStore) (id : ModelId) (index count : Option Nat)
    (itemIds : List ItemId) : Mutation SemanticStore :=
  match validateModelItemsBatch s.limits itemIds.length with
  | .error e => (s, err e)
  | .ok () => onModel s id fun model => deleteItems model index count itemIds

/-- `SemanticStore::model_update`, after its check of the batch. -/
def modelUpdateChecked (checked : Except StoreError Unit) (s : SemanticStore)
    (id : ModelId) (index : Option Nat) (items : List ModelItem) : Mutation SemanticStore :=
  match checked with
  | .error e => (s, err e)
  | .ok () => onModel s id fun model => updateItems model index items

/-- `SemanticStore::model_update`. -/
def modelUpdate (s : SemanticStore) (id : ModelId) (index : Option Nat)
    (items : List ModelItem) : Mutation SemanticStore :=
  modelUpdateChecked (validateBatch s.limits items) s id index items

/-- Cached items once `count` of them replace those in `startIndex .. endIndex`. -/
def projectedCached (model : Model) (startIndex endIndex count : Nat) : Nat :=
  cachedItemCount model -
    (model.items.keys.filter fun k => decide (startIndex ≤ k ∧ k < endIndex)).length + count

/-- Body of `SemanticStore::model_reset_range` on the model it names: makes
room by eviction, then resets. -/
def resetCached (limits : StoreLimits) (model : Model) (startIndex : Nat)
    (items : List ModelItem) (totalCount : Option Nat) : Mutation Model :=
  let endIndex := saturatingAdd startIndex items.length
  let limit := limits.maxCachedItemsPerModel
  let model :=
    if projectedCached model startIndex endIndex items.length > limit then
      evictFarthestOutside model startIndex endIndex
        (projectedCached model startIndex endIndex items.length - limit)
    else model
  if projectedCached model startIndex endIndex items.length > limit then
    (model, err (.maxCachedItemsPerModelExceeded limit (cachedItemCount model)
      (projectedCached model startIndex endIndex items.length)))
  else resetRange model startIndex items totalCount

/-- `SemanticStore::model_reset_range`, after its check of the batch. -/
def modelResetRangeChecked (checked : Except StoreError Unit) (s : SemanticStore)
    (id : ModelId) (startIndex : Nat) (items : List ModelItem) (totalCount : Option Nat) :
    Mutation SemanticStore :=
  match checked with
  | .error e => (s, err e)
  | .ok () => onModel s id fun model => resetCached s.limits model startIndex items totalCount

/-- `SemanticStore::model_reset_range`. -/
def modelResetRange (s : SemanticStore) (id : ModelId) (startIndex : Nat)
    (items : List ModelItem) (totalCount : Option Nat) : Mutation SemanticStore :=
  modelResetRangeChecked (validateBatch s.limits items) s id startIndex items totalCount

end Srui.SemanticTree.Stores

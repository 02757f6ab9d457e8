import Srui.SemanticTree.Stores

/-!
Mutation operations as data, and their application to a store.
-/

namespace Srui.SemanticTree.Operations

open Basic.Machine SemanticTree.Values SemanticTree.Limits SemanticTree.Models SemanticTree.Stores

/-- High-level mutation operation wrapping the store primitives. -/
inductive Operation where
  | createNode (id : NodeId) (nodeType : TypeRef) (parentId : Option NodeId)
      (childIndex : Option Nat) (properties : List (PropertyRef × Value))
  | deleteNode (id : NodeId)
  | setProperty (id : NodeId) (property : PropertyRef) (value : Value)
  | clearProperty (id : NodeId) (property : PropertyRef)
  | moveNode (id : NodeId) (newParentId : Option NodeId) (newChildIndex : Option Nat)
  | reorderChildren (parentId : NodeId) (newOrder : List NodeId)
  | batchPropertySet (id : NodeId) (properties : List (PropertyRef × Value))
  | createModel (id : ModelId) (modelType : TypeRef) (itemCount : Nat)
  | modelInsert (id : ModelId) (index : Nat) (items : List ModelItem)
  | modelDelete (id : ModelId) (index count : Option Nat) (itemIds : List ItemId)
  | modelUpdate (id : ModelId) (index : Option Nat) (items : List ModelItem)
  | modelResetRange (id : ModelId) (startIndex : Nat) (items : List ModelItem)
      (totalCount : Option Nat)
deriving DecidableEq

def commit (s : SemanticStore) : Outcome StoreError SemanticStore → Mutation SemanticStore
  | .ok s' => (s', .ok ())
  | .error f => (s, .error f)

/-- `commit` for a primitive that also returns a value nobody reads here. -/
def commitFst {α : Type} (s : SemanticStore) :
    Outcome StoreError (SemanticStore × α) → Mutation SemanticStore
  | .ok (s', _) => (s', .ok ())
  | .error f => (s, .error f)

/-- `Operation::apply`. -/
def apply (op : Operation) (s : SemanticStore) : Mutation SemanticStore :=
  match op with
  | .createNode id nodeType parentId childIndex properties =>
    commit s (createNode s id nodeType parentId childIndex properties)
  | .deleteNode id => commitFst s (deleteNode s id)
  | .setProperty id property value => commitFst s (setProperty s id property value)
  | .clearProperty id property => commitFst s (clearProperty s id property)
  | .moveNode id newParentId newChildIndex =>
    commit s (moveNode s id newParentId newChildIndex)
  | .reorderChildren parentId newOrder => commit s (reorderChildren s parentId newOrder)
  | .batchPropertySet id properties => commit s (batchPropertySet s id properties)
  | .createModel id modelType itemCount => commit s (createModel s id modelType itemCount)
  | .modelInsert id index items => modelInsert s id index items
  | .modelDelete id index count itemIds => modelDelete s id index count itemIds
  | .modelUpdate id index items => modelUpdate s id index items
  | .modelResetRange id startIndex items totalCount =>
    modelResetRange s id startIndex items totalCount

/-- `Operation::apply_owned`: the same dispatch, moving the operation's fields
instead of cloning them. -/
def applyOwned (op : Operation) (s : SemanticStore) : Mutation SemanticStore :=
  match op with
  | .createNode id nodeType parentId childIndex properties =>
    commit s (createNode s id nodeType parentId childIndex properties)
  | .deleteNode id => commitFst s (deleteNode s id)
  | .setProperty id property value => commitFst s (setProperty s id property value)
  | .clearProperty id property => commitFst s (clearProperty s id property)
  | .moveNode id newParentId newChildIndex =>
    commit s (moveNode s id newParentId newChildIndex)
  | .reorderChildren parentId newOrder => commit s (reorderChildren s parentId newOrder)
  | .batchPropertySet id properties => commit s (batchPropertySet s id properties)
  | .createModel id modelType itemCount => commit s (createModel s id modelType itemCount)
  | .modelInsert id index items => modelInsert s id index items
  | .modelDelete id index count itemIds => modelDelete s id index count itemIds
  | .modelUpdate id index items => modelUpdate s id index items
  | .modelResetRange id startIndex items totalCount =>
    modelResetRange s id startIndex items totalCount

theorem applyOwned_eq_apply : applyOwned = apply := by
  funext op s
  cases op <;> rfl

end Srui.SemanticTree.Operations

import Srui.Client.ModelAgreement
import Srui.Client.ReplicaStores
import Srui.SemanticTree.OperationEffects

/-!
The client carries out every operation the server does, with the same result.

Two things are asked of the operation: a standard property is given a value of the kind
the registry declares, which only the client checks, and a range deletion counts no more
than `Int64.max` items.
-/

namespace Srui.Client.StoreAgreement

open Std Basic.Machine SemanticTree.Values
open SemanticTree.Models (Model ModelItem Mutation)
open SemanticTree.Limits (StoreLimits)
open SemanticTree.Stores (NodeMap SemanticStore)
open SemanticTree.Operations (Operation)
open Client.ReplicaModels Client.ReplicaStores Client.ModelAgreement

variable {s s' : SemanticStore} {limits : StoreLimits}

/-! ### What is asked of an operation -/

def givenProperties : Operation → List (PropertyRef × Value)
  | .createNode _ _ _ _ properties => properties
  | .setProperty _ property value => [(property, value)]
  | .batchPropertySet _ properties => properties
  | _ => []

/-- The registry declares each value's kind for its property, or says nothing of it. -/
def Typed (op : Operation) : Prop :=
  ∀ entry ∈ givenProperties op, validatePropertyValueType entry.1 entry.2 = .ok ()

instance (op : Operation) : Decidable (Typed op) :=
  inferInstanceAs (Decidable (∀ entry ∈ givenProperties op, _))

def deletedCount : Operation → Nat
  | .modelDelete _ _ count _ => count.getD 0
  | _ => 0

def translate : Operation → StoreOperation
  | .createNode id nodeType parentId childIndex properties =>
    .createNode id nodeType parentId (childIndex.map Int.ofNat) properties
  | .deleteNode id => .deleteNode id
  | .setProperty id property value => .setProperty id property value
  | .clearProperty id property => .clearProperty id property
  | .moveNode id newParentId newChildIndex =>
    .moveNode id newParentId (newChildIndex.map Int.ofNat)
  | .reorderChildren parentId newOrder => .reorderChildren parentId newOrder
  | .batchPropertySet id properties => .batchPropertySet id properties
  | .createModel id modelType itemCount => .createModel id modelType itemCount
  | .modelInsert id index items => .modelInsert id index items
  | .modelDelete id index count itemIds => .modelDelete id index count itemIds
  | .modelUpdate id index items => .modelUpdate id index items
  | .modelResetRange id startIndex items totalCount =>
    .modelResetRange id startIndex items totalCount

/-! ### Values and properties -/

mutual

theorem validateInner_agrees : (value : Value) → (depth : Nat) →
    SemanticTree.Limits.validateValueInner limits value depth = .ok () →
    validateInner limits value depth = .ok ()
  | .scalar s, depth => by
    intro h
    rw [SemanticTree.Limits.validateValueInner] at h
    split at h
    · cases h
    rename_i hdepth
    rcases s with - | - | - | - | - | text | - | - | - | - | - | - | - | - | -
    case string =>
      rw [SemanticTree.Limits.validateScalar] at h
      split at h
      · cases h
      · rename_i hlength
        rw [validateInner, if_neg hdepth, if_neg hlength]
    all_goals simp only [validateInner, if_neg hdepth]
  | .list items, depth => by
    intro h
    rw [SemanticTree.Limits.validateValueInner] at h
    rw [validateInner]
    split at h
    · cases h
    rename_i hdepth
    split at h
    · cases h
    rename_i hlength
    rw [if_neg hdepth, if_neg hlength]
    exact validateElements_agrees items (depth + 1) h
  | .record _ properties, depth => by
    intro h
    rw [SemanticTree.Limits.validateValueInner] at h
    rw [validateInner]
    split at h
    · cases h
    rename_i hdepth
    split at h
    · cases h
    rename_i hlength
    rw [if_neg hdepth, if_neg hlength]
    exact validateFields_agrees properties (depth + 1) h

theorem validateElements_agrees : (items : List Value) → (depth : Nat) →
    SemanticTree.Limits.validateItemsInner limits items depth = .ok () →
    validateElements limits items depth = .ok ()
  | [], _ => fun _ => by rw [validateElements]
  | item :: rest, depth => by
    intro h
    rw [SemanticTree.Limits.validateItemsInner] at h
    rw [validateElements]
    split at h
    · cases h
    · rename_i hitem
      rw [validateInner_agrees item depth hitem]
      exact validateElements_agrees rest depth h

theorem validateFields_agrees : (properties : List (PropertyRef × Value)) → (depth : Nat) →
    SemanticTree.Limits.validatePropertiesInner limits properties depth = .ok () →
    validateFields limits properties depth = .ok ()
  | [], _ => fun _ => by rw [validateFields]
  | (_, value) :: rest, depth => by
    intro h
    rw [SemanticTree.Limits.validatePropertiesInner] at h
    rw [validateFields]
    split at h
    · cases h
    · rename_i hvalue
      rw [validateInner_agrees value depth hvalue]
      exact validateFields_agrees rest depth h

end

variable {value : Value} {property : PropertyRef}

theorem validatePropertyReferences_agrees
    (h : SemanticTree.Stores.validatePropertyReferences s property value = .ok ()) :
    validatePropertyReferences s property value = .ok () := by
  rw [SemanticTree.Stores.validatePropertyReferences.eq_def] at h
  rw [validatePropertyReferences.eq_def]
  rcases Classical.em (property = PropertyRef.modelRef) with hmodel | hother
  swap
  · exact if_neg hother
  rw [if_pos hmodel] at h ⊢
  split at h
  · split at h
    · rename_i hlive
      exact if_pos hlive
    · cases h
  · split at h
    · rename_i hsign
      split at h
      · rename_i hlive
        exact (if_pos hsign).trans (if_pos hlive)
      · cases h
    · cases h
  · cases h

theorem checkProperty_agrees
    (h : SemanticTree.Stores.validateProperty s property value = .ok ())
    (htyped : validatePropertyValueType property value = .ok ()) :
    checkProperty s property value = .ok () := by
  rw [SemanticTree.Stores.validateProperty] at h
  split at h
  · cases h
  · rename_i hvalid
    have hclient : validate s.limits value = .ok () := validateInner_agrees value 1 hvalid
    rw [checkProperty, hclient, htyped]
    exact validatePropertyReferences_agrees h

variable {properties : List (PropertyRef × Value)}

theorem checkProperties_agrees
    (h : SemanticTree.Stores.validateProperties s properties = .ok ())
    (htyped : ∀ entry ∈ properties, validatePropertyValueType entry.1 entry.2 = .ok ()) :
    checkProperties s properties = .ok () := by
  induction properties with
  | nil => rfl
  | cons entry rest ih =>
    obtain ⟨property, value⟩ := entry
    rw [SemanticTree.Stores.validateProperties] at h
    split at h
    · cases h
    · rename_i hfirst
      rw [checkProperties, checkProperty_agrees hfirst (htyped (property, value) (by simp))]
      exact ih h fun entry hentry => htyped entry (List.mem_cons_of_mem _ hentry)

/-! ### Walks -/

variable {id : NodeId} {depth : Nat}

theorem depthLoop_agrees {nodes : NodeMap} {steps : Nat}
    {result : Option Nat}
    (h : SemanticTree.Stores.nodeDepthLoop nodes steps id depth = .ok result) :
    depthLoop nodes steps id depth = .ok result := by
  induction steps generalizing id depth with
  | zero => cases h
  | succ steps ih =>
    rw [SemanticTree.Stores.nodeDepthLoop] at h
    split at h
    · rename_i hnode
      rw [depthLoop, hnode]
      cases h
      rfl
    rename_i node hnode
    split at h
    · rename_i parent hparent
      rw [depthLoop, hnode]
      simp only [hparent]
      exact ih h
    · rename_i hroot
      rw [depthLoop, hnode]
      simp only [hroot]
      cases h
      rfl

theorem nodeDepth_agrees {result : Option Nat}
    (h : SemanticTree.Stores.nodeDepth s id = .ok result) : nodeDepth s id = .ok result :=
  depthLoop_agrees h

theorem subtreeDepthWithin_eq (nodes : NodeMap) (steps : Nat) (id : NodeId) :
    subtreeDepthWithin nodes steps id = SemanticTree.Stores.subtreeDepthRec nodes steps id := by
  induction steps generalizing id with
  | zero => rfl
  | succ steps ih =>
    have hdeeper : ∀ deepest childDepth : Nat,
        (if deepest < childDepth then childDepth else deepest) = max deepest childDepth := by
      intro deepest childDepth
      split <;> omega
    rw [subtreeDepthWithin, SemanticTree.Stores.subtreeDepthRec]
    rcases nodes[id]? with - | node
    · rfl
    · simp only [ih, hdeeper]

theorem subtreeDepth_agrees
    (h : SemanticTree.Stores.subtreeDepth s id = .ok depth) : subtreeDepth s id = .ok depth := by
  rw [SemanticTree.Stores.subtreeDepth] at h
  split at h
  · cases h
  · rename_i hdepth
    rw [subtreeDepth, subtreeDepthWithin_eq, hdepth]
    cases h
    rfl

variable {parentId : Option NodeId}

theorem destinationCount_agrees
    (h : ∀ parent, parentId = some parent → ∃ node, s.nodes[parent]? = some node) :
    destinationCount s parentId =
      .ok (SemanticTree.Stores.containerOf s parentId).length := by
  rcases parentId with - | parent
  · rfl
  · obtain ⟨node, hnode⟩ := h parent rfl
    simp [destinationCount, SemanticTree.Stores.containerOf, hnode]

theorem nodeDepth_present
    (h : SemanticTree.Stores.nodeDepth s id = .ok (some depth)) :
    ∃ node, s.nodes[id]? = some node := by
  rw [SemanticTree.Stores.nodeDepth, SemanticTree.Stores.nodeDepthLoop] at h
  split at h
  · cases h
  · rename_i node hnode
    exact ⟨node, hnode⟩

theorem childDepth_agrees
    (h : SemanticTree.Stores.targetDepth s parentId = .ok depth) :
    childDepth s parentId = .ok depth ∧
      destinationCount s parentId =
        .ok (SemanticTree.Stores.containerOf s parentId).length := by
  rcases parentId with - | parent
  · cases h
    exact ⟨rfl, rfl⟩
  rw [SemanticTree.Stores.targetDepth] at h
  split at h
  · cases h
  · cases h
  rename_i parentDepth hdepth
  split at h
  · cases h
  rename_i hlimit
  cases h
  constructor
  · rw [childDepth, nodeDepth_agrees hdepth]
    exact if_neg hlimit
  · apply destinationCount_agrees
    rintro _ ⟨⟩
    exact nodeDepth_present hdepth

theorem parentDepth_agrees
    (h : SemanticTree.Stores.newParentDepth s parentId = .ok depth) :
    parentDepth s parentId = .ok depth ∧
      destinationCount s parentId =
        .ok (SemanticTree.Stores.containerOf s parentId).length := by
  rcases parentId with - | parent
  · cases h
    exact ⟨rfl, rfl⟩
  rw [SemanticTree.Stores.newParentDepth] at h
  split at h
  · cases h
  · cases h
  rename_i found hdepth
  cases h
  constructor
  · rw [parentDepth, nodeDepth_agrees hdepth]
  · apply destinationCount_agrees
    rintro _ ⟨⟩
    exact nodeDepth_present hdepth

theorem meetsAncestor_agrees {nodes : NodeMap} {steps : Nat} {current : NodeId}
    {result : Bool} (h : SemanticTree.Stores.cycleWalk nodes id steps current = .ok result) :
    meetsAncestor nodes id steps current = .ok result := by
  induction steps generalizing current with
  | zero => cases h
  | succ steps ih =>
    rw [SemanticTree.Stores.cycleWalk] at h
    split at h
    · rename_i hnode
      rw [meetsAncestor, hnode]
      cases h
      rfl
    rename_i node hnode
    split at h
    · rename_i hroot
      rw [meetsAncestor, hnode]
      simp only [hroot]
      cases h
      rfl
    rename_i parent hparent
    rw [meetsAncestor, hnode]
    simp only [hparent]
    split at h
    · rename_i hmeets
      rw [if_pos hmeets]
      cases h
      rfl
    · rename_i hother
      rw [if_neg hother]
      exact ih h

theorem detectCycle_agrees
    (h : SemanticTree.Stores.checkCycle s id parentId = .ok ()) :
    detectCycle s id parentId = .ok () := by
  rcases parentId with - | target
  · rfl
  rw [SemanticTree.Stores.checkCycle] at h
  rw [detectCycle]
  split at h
  · cases h
  rename_i hother
  rw [if_neg hother]
  split at h
  · cases h
  · cases h
  · rename_i hwalk
    rw [meetsAncestor_agrees hwalk]

/-! ### Lists of children -/

theorem rewriteList_eq (s : SemanticStore) (parentId : Option NodeId)
    (f : List NodeId → List NodeId) :
    rewriteList s parentId f = SemanticTree.Stores.updateContainer s parentId f := by
  rcases parentId with - | parent
  · rfl
  · rfl

variable {index : Option Nat}

theorem checkIndex_agrees {count : Nat}
    (h : SemanticTree.Stores.checkChildIndex index count = .ok ()) :
    checkIndex (index.map Int.ofNat) count = .ok () := by
  rcases index with - | i
  · rfl
  rw [SemanticTree.Stores.checkChildIndex] at h
  split at h
  · cases h
  · rename_i hle
    rw [Option.map_some, checkIndex]
    apply if_neg
    simp only [Int.ofNat_eq_natCast]
    omega

theorem insertChild_eq (index : Option Nat) (id : NodeId) :
    insertChild (index.map Int.ofNat) id = fun ids =>
      SemanticTree.Stores.insertAt ids index id := by
  funext ids
  rcases index with - | i
  · rfl
  · rfl

theorem clampChild_eq (index : Option Nat) (id : NodeId) :
    clampChild (index.map Int.ofNat) id = fun ids =>
      SemanticTree.Stores.insertAt ids (index.map (min · ids.length)) id := by
  funext ids
  rcases index with - | i
  · rfl
  · rfl

theorem checkOrder_agrees {parentId : NodeId} {current seen newOrder : List NodeId}
    (h : SemanticTree.Stores.validateReorder parentId current seen newOrder = .ok ()) :
    checkOrder parentId current seen newOrder = .ok () := by
  induction newOrder generalizing seen with
  | nil => rfl
  | cons child rest ih =>
    rw [SemanticTree.Stores.validateReorder] at h
    rw [checkOrder]
    split at h
    · cases h
    rename_i hchild
    split at h
    · cases h
    rename_i hfresh
    rw [if_neg hchild, if_neg hfresh]
    exact ih h

/-! ### Operations on nodes -/

theorem createNode_agrees {nodeType : TypeRef}
    {childIndex : Option Nat}
    (htyped : ∀ entry ∈ properties, validatePropertyValueType entry.1 entry.2 = .ok ())
    (h : SemanticTree.Stores.createNode s id nodeType parentId childIndex properties = .ok s') :
    createNode s id nodeType parentId (childIndex.map Int.ofNat) properties = .ok s' := by
  rw [SemanticTree.Stores.createNode] at h
  rw [createNode]
  split at h
  · cases h
  rename_i hunused
  split at h
  · cases h
  rename_i hroom
  rw [if_neg hunused, if_neg hroom]
  split at h
  · cases h
  rename_i depth hdepth
  split at h
  · cases h
  rename_i hlimit
  obtain ⟨hclient, hcount⟩ := childDepth_agrees hdepth
  rw [hclient]
  simp only
  rw [if_neg hlimit]
  split at h
  · cases h
  rename_i hproperties
  rw [checkProperties_agrees hproperties htyped, hcount]
  simp only
  split at h
  · cases h
  rename_i hindex
  rw [checkIndex_agrees hindex, rewriteList_eq, insertChild_eq]
  cases h
  rfl

theorem deleteSubtreeRecursive_eq :
    deleteSubtreeRecursive = SemanticTree.Stores.deleteSubtreeRecursive := by
  funext steps
  induction steps with
  | zero => rfl
  | succ steps ih =>
    funext ⟨nodes, deleted⟩ id
    rewrite [deleteSubtreeRecursive, SemanticTree.Stores.deleteSubtreeRecursive, ih]
    rfl

theorem deleteNode_agrees {deleted : List NodeId}
    (h : SemanticTree.Stores.deleteNode s id = .ok (s', deleted)) : deleteNode s id = .ok s' := by
  rw [SemanticTree.Stores.deleteNode] at h
  split at h
  · cases h
  rename_i node hnode
  rw [deleteNode, hnode]
  simp only
  rw [rewriteList_eq, deleteSubtreeRecursive_eq]
  cases h
  rfl

theorem setProperty_agrees
    {previous : Option Value} (htyped : validatePropertyValueType property value = .ok ())
    (h : SemanticTree.Stores.setProperty s id property value = .ok (s', previous)) :
    setProperty s id property value = .ok s' := by
  rw [SemanticTree.Stores.setProperty] at h
  split at h
  · cases h
  rename_i hproperty
  split at h
  · cases h
  · rename_i node hnode
    rw [setProperty, checkProperty_agrees hproperty htyped]
    simp only [hnode]
    cases h
    rfl

theorem clearProperty_agrees {previous : Option Value}
    (h : SemanticTree.Stores.clearProperty s id property = .ok (s', previous)) :
    clearProperty s id property = .ok s' := by
  rw [SemanticTree.Stores.clearProperty] at h
  split at h
  · cases h
  · rename_i node hnode
    rw [clearProperty, hnode]
    cases h
    rfl

theorem batchPropertySet_agrees
    (htyped : ∀ entry ∈ properties, validatePropertyValueType entry.1 entry.2 = .ok ())
    (h : SemanticTree.Stores.batchPropertySet s id properties = .ok s') :
    batchPropertySet s id properties = .ok s' := by
  rw [SemanticTree.Stores.batchPropertySet] at h
  split at h
  · cases h
  rename_i hproperties
  split at h
  · cases h
  · rename_i node hnode
    rw [batchPropertySet, checkProperties_agrees hproperties htyped]
    simp only [hnode]
    cases h
    rfl

theorem moveNode_agrees {newParentId : Option NodeId} {newChildIndex : Option Nat}
    (h : SemanticTree.Stores.moveNode s id newParentId newChildIndex = .ok s') :
    moveNode s id newParentId (newChildIndex.map Int.ofNat) = .ok s' := by
  rw [SemanticTree.Stores.moveNode] at h
  split at h
  · cases h
  rename_i node hnode
  rw [moveNode, hnode]
  simp only
  split at h
  · cases h
  rename_i hcycle
  rw [detectCycle_agrees hcycle]
  simp only
  split at h
  · cases h
  rename_i subtree hsubtree
  rw [subtreeDepth_agrees hsubtree]
  simp only
  split at h
  · cases h
  rename_i parentDepth hparent
  obtain ⟨hclient, hcount⟩ := parentDepth_agrees hparent
  rw [hclient]
  simp only
  split at h
  · cases h
  rename_i hlimit
  rw [if_neg hlimit, hcount]
  simp only
  split at h
  · cases h
  rename_i hindex
  rw [checkIndex_agrees hindex, rewriteList_eq, rewriteList_eq, clampChild_eq]
  cases h
  rfl

theorem reorderChildren_agrees {parentId : NodeId} {newOrder : List NodeId}
    (h : SemanticTree.Stores.reorderChildren s parentId newOrder = .ok s') :
    reorderChildren s parentId newOrder = .ok s' := by
  rw [SemanticTree.Stores.reorderChildren] at h
  split at h
  · cases h
  rename_i node hnode
  rw [reorderChildren, hnode]
  simp only
  split at h
  · cases h
  rename_i hlength
  rw [if_neg hlength]
  split at h
  · cases h
  rename_i horder
  rw [checkOrder_agrees horder]
  cases h
  rfl

/-! ### Operations on models -/

theorem createModel_agrees {id : ModelId} {modelType : TypeRef} {itemCount : Nat}
    (h : SemanticTree.Stores.createModel s id modelType itemCount = .ok s') :
    createModel s id modelType itemCount = .ok s' := by
  rw [SemanticTree.Stores.createModel] at h
  rw [createModel]
  split at h
  · cases h
  rename_i hunused
  split at h
  · cases h
  rename_i hroom
  rw [if_neg hunused, if_neg hroom]
  cases h
  rfl

theorem checkItemCount_agrees {count : Nat}
    (h : SemanticTree.Limits.validateModelItemsBatch limits count = .ok ()) :
    checkItemCount limits count = .ok () := by
  rw [SemanticTree.Limits.validateModelItemsBatch] at h
  split at h
  · cases h
  · rename_i hle
    exact if_neg hle

variable {items : List ModelItem}

theorem checkItemValues_agrees
    (h : SemanticTree.Stores.validateItems limits items = .ok ()) :
    checkItemValues limits items = .ok () := by
  induction items with
  | nil => rfl
  | cons item rest ih =>
    rw [SemanticTree.Stores.validateItems_cons] at h
    split at h
    · cases h
    rename_i hitem
    rw [SemanticTree.Stores.validateItem_def] at hitem
    split at hitem
    · cases hitem
    rename_i hvalue
    have hclient : validate limits item.value = .ok () := validateInner_agrees item.value 1 hvalue
    rw [checkItemValues, hclient, validateFields_agrees item.properties.toList 1 hitem]
    exact ih h

theorem checkItems_agrees
    (h : SemanticTree.Stores.validateBatch limits items = .ok ()) :
    checkItems limits items = .ok () := by
  rw [SemanticTree.Stores.validateBatch_def] at h
  split at h
  · cases h
  · rename_i hcount
    rw [checkItems, checkItemCount_agrees hcount]
    exact checkItemValues_agrees h

theorem withModel_agrees {id : ModelId} {f : Model → Mutation Model}
    {g : Model → Outcome StoreError Model}
    (hagrees : ∀ m m', f m = (m', .ok ()) → g m = .ok m')
    (h : SemanticTree.Stores.onModel s id f = (s', .ok ())) : withModel s id g = .ok s' := by
  rw [SemanticTree.Stores.onModel] at h
  split at h
  · cases h
  rename_i model hmodel
  obtain ⟨hstore, hanswer⟩ := Prod.mk.inj h
  have hdone : f model = ((f model).1, .ok ()) := Prod.ext rfl hanswer
  rw [withModel, hmodel]
  simp only
  rw [hagrees model (f model).1 hdone, ← hstore]

theorem modelInsert_agrees {id : ModelId} {index : Nat}
    (h : SemanticTree.Stores.modelInsert s id index items = (s', .ok ())) :
    modelInsert s id index items = .ok s' := by
  rw [SemanticTree.Stores.modelInsert, SemanticTree.Stores.modelInsertChecked.eq_def] at h
  rw [modelInsert]
  split at h
  · cases h
  rename_i hbatch
  rw [checkItems_agrees hbatch]
  refine withModel_agrees ?_ h
  intro m m' hm
  split at hm
  · cases hm
  · rename_i hfits
    rw [SemanticTree.Models.cachedItemCount] at hfits
    rw [if_neg hfits]
    exact (insertItems_follows m index items).done hm

theorem modelDelete_agrees {id : ModelId} {count : Option Nat} {itemIds : List ItemId}
    (hcount : count.getD 0 ≤ int64Max)
    (h : SemanticTree.Stores.modelDelete s id index count itemIds = (s', .ok ())) :
    modelDelete s id index count itemIds = .ok s' := by
  rw [SemanticTree.Stores.modelDelete] at h
  rw [modelDelete]
  split at h
  · cases h
  rename_i hbatch
  rw [checkItemCount_agrees hbatch]
  exact withModel_agrees (fun m m' hm => deleteItems_agrees hcount hm) h

theorem modelUpdate_agrees {id : ModelId}
    (h : SemanticTree.Stores.modelUpdate s id index items = (s', .ok ())) :
    modelUpdate s id index items = .ok s' := by
  rw [SemanticTree.Stores.modelUpdate, SemanticTree.Stores.modelUpdateChecked.eq_def] at h
  rw [modelUpdate]
  split at h
  · cases h
  rename_i hbatch
  rw [checkItems_agrees hbatch]
  exact withModel_agrees (fun m m' hm => (updateItems_follows m index items).done hm) h

theorem projected_eq (m : Model) (startIndex endIndex count : Nat) :
    projected m startIndex endIndex count =
      SemanticTree.Stores.projectedCached m startIndex endIndex count := by
  rw [projected, SemanticTree.Stores.projectedCached, SemanticTree.Models.cachedItemCount,
    ← ExtTreeMap.map_fst_toList_eq_keys, List.filter_map, List.length_map]
  rfl

theorem replaceRange_agrees {startIndex : Nat} {totalCount : Option Nat}
    {m m' : Model}
    (h : SemanticTree.Stores.resetCached limits m startIndex items totalCount = (m', .ok ())) :
    replaceRange limits startIndex items totalCount m = .ok m' := by
  rw [SemanticTree.Stores.resetCached] at h
  generalize hroom : (if SemanticTree.Stores.projectedCached m startIndex
    (saturatingAdd startIndex items.length) items.length > limits.maxCachedItemsPerModel then _
    else m) = room at h
  split at h
  · cases h
  rename_i hfits
  have hend : startIndex + items.length ≤ u64Max :=
    SemanticTree.ModelMutations.resetRange_fits (congrArg Prod.snd h)
  have hreset := (resetRange_follows room startIndex items totalCount).done h
  have hsaturated : saturatingAdd startIndex items.length = startIndex + items.length := by
    rw [saturatingAdd, Nat.min_eq_left hend]
  have hwrapped : (startIndex + items.length) % (u64Max + 1) = startIndex + items.length :=
    Nat.mod_eq_of_lt (Nat.lt_succ_of_le hend)
  rw [hsaturated] at hroom hfits
  rw [replaceRange]
  simp only [hwrapped, projected_eq, evictFarthestOutside_eq m (Nat.le_of_add_right_le hend) hend,
    hroom]
  rw [if_neg hfits]
  exact hreset

theorem modelResetRange_agrees {id : ModelId} {startIndex : Nat}
    {totalCount : Option Nat}
    (h : SemanticTree.Stores.modelResetRange s id startIndex items totalCount = (s', .ok ())) :
    modelResetRange s id startIndex items totalCount = .ok s' := by
  rw [SemanticTree.Stores.modelResetRange, SemanticTree.Stores.modelResetRangeChecked.eq_def] at h
  rw [modelResetRange]
  split at h
  · cases h
  rename_i hbatch
  rw [checkItems_agrees hbatch]
  exact withModel_agrees (fun m m' hm => replaceRange_agrees hm) h

/-! ### Any operation -/

theorem commit_ok {result : Outcome SemanticTree.Limits.StoreError SemanticStore}
    (h : SemanticTree.Operations.commit s result = (s', .ok ())) : result = .ok s' := by
  rcases result with fault | after
  · cases h
  · cases h
    rfl

theorem commitFst_ok {α : Type}
    {result : Outcome SemanticTree.Limits.StoreError (SemanticStore × α)}
    (h : SemanticTree.Operations.commitFst s result = (s', .ok ())) :
    ∃ rest, result = .ok (s', rest) := by
  rcases result with fault | ⟨after, rest⟩
  · cases h
  · cases h
    exact ⟨rest, rfl⟩

theorem apply_agrees {op : Operation} (htyped : Typed op) (hcount : deletedCount op ≤ int64Max)
    (h : SemanticTree.Operations.apply op s = (s', .ok ())) :
    applyTo s (translate op) = .ok s' := by
  cases op with
  | createNode => exact createNode_agrees htyped (commit_ok h)
  | deleteNode =>
    obtain ⟨rest, hdone⟩ := commitFst_ok h
    exact deleteNode_agrees hdone
  | setProperty id property value =>
    obtain ⟨rest, hdone⟩ := commitFst_ok h
    exact setProperty_agrees (htyped (property, value) (by simp [givenProperties])) hdone
  | clearProperty =>
    obtain ⟨rest, hdone⟩ := commitFst_ok h
    exact clearProperty_agrees hdone
  | moveNode => exact moveNode_agrees (commit_ok h)
  | reorderChildren => exact reorderChildren_agrees (commit_ok h)
  | batchPropertySet => exact batchPropertySet_agrees htyped (commit_ok h)
  | createModel => exact createModel_agrees (commit_ok h)
  | modelInsert => exact modelInsert_agrees h
  | modelDelete => exact modelDelete_agrees hcount h
  | modelUpdate => exact modelUpdate_agrees h
  | modelResetRange => exact modelResetRange_agrees h

end Srui.Client.StoreAgreement

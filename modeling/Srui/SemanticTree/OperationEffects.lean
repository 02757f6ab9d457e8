import Srui.Basic.Runs
import Srui.SemanticTree.Operations
import Srui.SemanticTree.ModelMutations

/-!
What applying an operation can change in the models of a store, and that the
reverse lookups of all models survive every run without an overflow.
-/

namespace Srui.SemanticTree.OperationEffects

open Std Basic.Machine SemanticTree.Values SemanticTree.Limits SemanticTree.Models
open SemanticTree.Stores SemanticTree.Operations

def applyStep (s : SemanticStore) (op : Operation) : SemanticStore := (apply op s).1

structure SameModels (s s' : SemanticStore) : Prop where
  models : s'.models = s.models
  usedModelIds : s'.usedModelIds = s.usedModelIds
  limits : s'.limits = s.limits
  revision : s'.revision = s.revision

theorem SameModels.refl (s : SemanticStore) : SameModels s s := ⟨rfl, rfl, rfl, rfl⟩

theorem SameModels.trans {a b c : SemanticStore} (h : SameModels a b) (h' : SameModels b c) :
    SameModels a c :=
  ⟨h'.models.trans h.models, h'.usedModelIds.trans h.usedModelIds, h'.limits.trans h.limits,
    h'.revision.trans h.revision⟩

theorem updateContainer_sameModels (s : SemanticStore) (parentId : Option NodeId)
    (f : List NodeId → List NodeId) : SameModels s (updateContainer s parentId f) := by
  cases parentId <;> exact ⟨rfl, rfl, rfl, rfl⟩

variable {s s' : SemanticStore}

theorem validateProperty_congr {t : SemanticStore} (hmodels : s.models = t.models)
    (hlimits : s.limits = t.limits) (property : PropertyRef) (value : Value) :
    validateProperty s property value = validateProperty t property value := by
  unfold validateProperty validatePropertyReferences
  rw [hmodels, hlimits]

variable {id : NodeId}

theorem createNode_ok {nodeType : TypeRef}
    {parentId : Option NodeId} {childIndex : Option Nat} {properties : List (PropertyRef × Value)}
    (h : createNode s id nodeType parentId childIndex properties = .ok s') :
    id ∉ s.usedIds ∧ s.nodes.size < s.limits.maxNodeCount ∧
      (∃ depth, targetDepth s parentId = .ok depth ∧ depth ≤ s.limits.maxTreeDepth) ∧
      validateProperties s properties = .ok () ∧
      checkChildIndex childIndex (containerOf s parentId).length = .ok () ∧
      s' = { updateContainer s parentId (fun ids => insertAt ids childIndex id) with
        nodes := (updateContainer s parentId (fun ids => insertAt ids childIndex id)).nodes.insert
          id (Node.new id nodeType parentId properties)
        usedIds := insert id
          (updateContainer s parentId (fun ids => insertAt ids childIndex id)).usedIds } := by
  unfold createNode at h
  split at h
  · simp [err] at h
  rename_i hused
  split at h
  · simp [err] at h
  rename_i hsize
  split at h
  · simp at h
  rename_i depth hdepth
  split at h
  · simp [err] at h
  rename_i hlimit
  split at h
  · simp [err] at h
  rename_i hprops
  split at h
  · simp at h
  rename_i hindex
  exact ⟨hused, by omega, ⟨depth, hdepth, by omega⟩, hprops, hindex, (Except.ok.inj h).symm⟩

theorem deleteNode_ok {deleted : List NodeId}
    (h : deleteNode s id = .ok (s', deleted)) :
    ∃ node, s.nodes[id]? = some node ∧
      s' = { updateContainer s node.parentId (fun ids => ids.filter (· ≠ id)) with
        nodes := (deleteSubtreeRecursive
          ((updateContainer s node.parentId fun ids => ids.filter (· ≠ id)).nodes.size + 1)
          ((updateContainer s node.parentId fun ids => ids.filter (· ≠ id)).nodes, []) id).1 } := by
  unfold deleteNode at h
  split at h
  · simp [err] at h
  rename_i node hnode
  refine ⟨node, hnode, ?_⟩
  have heq := Except.ok.inj h
  rw [Prod.mk.injEq] at heq
  exact heq.1.symm

theorem setProperty_ok {property : PropertyRef}
    {value : Value} {old : Option Value} (h : setProperty s id property value = .ok (s', old)) :
    validateProperty s property value = .ok () ∧ ∃ node, s.nodes[id]? = some node ∧
      s' = putNode s id { node with properties := node.properties.insert property value } := by
  unfold setProperty at h
  split at h
  · simp [err] at h
  rename_i hvalid
  split at h
  · simp [err] at h
  rename_i node hnode
  have heq := Except.ok.inj h
  rw [Prod.mk.injEq] at heq
  exact ⟨hvalid, node, hnode, heq.1.symm⟩

theorem clearProperty_ok {property : PropertyRef}
    {old : Option Value} (h : clearProperty s id property = .ok (s', old)) :
    ∃ node, s.nodes[id]? = some node ∧
      s' = putNode s id { node with properties := node.properties.erase property } := by
  unfold clearProperty at h
  split at h
  · simp [err] at h
  rename_i node hnode
  have heq := Except.ok.inj h
  rw [Prod.mk.injEq] at heq
  exact ⟨node, hnode, heq.1.symm⟩

theorem batchPropertySet_ok
    {properties : List (PropertyRef × Value)} (h : batchPropertySet s id properties = .ok s') :
    validateProperties s properties = .ok () ∧ ∃ node, s.nodes[id]? = some node ∧
      s' = putNode s id
        { node with properties := insertProperties node.properties properties } := by
  unfold batchPropertySet at h
  split at h
  · simp [err] at h
  rename_i hvalid
  split at h
  · simp [err] at h
  rename_i node hnode
  exact ⟨hvalid, node, hnode, (Except.ok.inj h).symm⟩

theorem moveNode_ok {newParentId : Option NodeId}
    {newChildIndex : Option Nat} (h : moveNode s id newParentId newChildIndex = .ok s') :
    ∃ node subtree parentDepth, s.nodes[id]? = some node ∧
      checkCycle s id newParentId = .ok () ∧ subtreeDepth s id = .ok subtree ∧
      newParentDepth s newParentId = .ok parentDepth ∧
      parentDepth + subtree ≤ s.limits.maxTreeDepth ∧
      checkChildIndex newChildIndex (containerOf s newParentId).length = .ok () ∧
      s' = relocate s id node newParentId newChildIndex := by
  unfold moveNode at h
  split at h
  · simp [err] at h
  rename_i node hnode
  split at h
  · simp at h
  rename_i hcycle
  split at h
  · simp at h
  rename_i subtree hsubtree
  split at h
  · simp at h
  rename_i parentDepth hparent
  split at h
  · simp [err] at h
  rename_i hlimit
  split at h
  · simp at h
  rename_i hindex
  exact ⟨node, subtree, parentDepth, hnode, hcycle, hsubtree, hparent, by omega, hindex,
    (Except.ok.inj h).symm⟩

theorem reorderChildren_ok {parentId : NodeId} {newOrder : List NodeId}
    (h : reorderChildren s parentId newOrder = .ok s') :
    ∃ node, s.nodes[parentId]? = some node ∧
      newOrder.length = node.orderedChildren.length ∧
      validateReorder parentId node.orderedChildren [] newOrder = .ok () ∧
      s' = updateChildren s parentId fun _ => newOrder := by
  unfold reorderChildren at h
  split at h
  · simp [err] at h
  rename_i node hnode
  split at h
  · simp [err] at h
  rename_i hlength
  split at h
  · simp [err] at h
  rename_i hvalid
  exact ⟨node, hnode, not_not.mp hlength, hvalid, (Except.ok.inj h).symm⟩

theorem createModel_ok {id : ModelId} {modelType : TypeRef}
    {itemCount : Nat} (h : createModel s id modelType itemCount = .ok s') :
    id ∉ s.usedModelIds ∧ s.models.size < s.limits.maxModelCount ∧
      s' = { s with models := s.models.insert id (Model.new id modelType itemCount)
                    usedModelIds := insert id s.usedModelIds } := by
  unfold createModel at h
  split at h
  · simp [err] at h
  rename_i hused
  split at h
  · simp [err] at h
  rename_i hsize
  exact ⟨hused, by omega, (Except.ok.inj h).symm⟩

theorem commit_sameModels {r : Outcome StoreError SemanticStore}
    (h : ∀ s', r = .ok s' → SameModels s s') : SameModels s (commit s r).1 := by
  cases r with
  | error f => exact SameModels.refl s
  | ok s' => exact h s' rfl

theorem commitFst_sameModels {α : Type}
    {r : Outcome StoreError (SemanticStore × α)}
    (h : ∀ s' a, r = .ok (s', a) → SameModels s s') : SameModels s (commitFst s r).1 := by
  cases r with
  | error f => exact SameModels.refl s
  | ok result => exact h result.1 result.2 rfl

theorem relocate_sameModels (s : SemanticStore) (id : NodeId) (node : Node)
    (newParentId : Option NodeId) (newChildIndex : Option Nat) :
    SameModels s (relocate s id node newParentId newChildIndex) := by
  have hdetached := updateContainer_sameModels s node.parentId fun ids => ids.filter (· ≠ id)
  have hattached := updateContainer_sameModels
    (updateContainer s node.parentId fun ids => ids.filter (· ≠ id)) newParentId
    fun ids => insertAt ids (newChildIndex.map (min · ids.length)) id
  have hboth := hdetached.trans hattached
  exact ⟨hboth.models, hboth.usedModelIds, hboth.limits, hboth.revision⟩

def mutationOf (limits : StoreLimits) : Operation → Option (ModelId × (Model → Mutation Model))
  | .modelInsert id index items =>
    some (id, fun model =>
      if cachedItemCount model + items.length > limits.maxCachedItemsPerModel then
        (model, err (.maxCachedItemsPerModelExceeded limits.maxCachedItemsPerModel
          (cachedItemCount model) (cachedItemCount model + items.length)))
      else insertItems model index items)
  | .modelDelete id index count itemIds =>
    some (id, fun model => deleteItems model index count itemIds)
  | .modelUpdate id index items => some (id, fun model => updateItems model index items)
  | .modelResetRange id startIndex items totalCount =>
    some (id, fun model => resetCached limits model startIndex items totalCount)
  | _ => none

inductive ModelEffect (s : SemanticStore) (op : Operation) : Prop where
  | same (h : SameModels s (apply op s).1) (hnone : mutationOf s.limits op = none)
  | refused (id : ModelId) (f : Model → Mutation Model) (e : StoreError)
      (hop : mutationOf s.limits op = some (id, f)) (h : apply op s = (s, err e))
  | created (id : ModelId) (modelType : TypeRef) (itemCount : Nat)
      (hop : op = .createModel id modelType itemCount) (hid : id ∉ s.usedModelIds)
      (hsize : s.models.size < s.limits.maxModelCount)
      (h : apply op s = ({ s with models := s.models.insert id (Model.new id modelType itemCount)
                                  usedModelIds := insert id s.usedModelIds }, .ok ()))
  | mutated (id : ModelId) (f : Model → Mutation Model) (model : Model)
      (hop : mutationOf s.limits op = some (id, f)) (hmodel : s.models[id]? = some model)
      (h : apply op s = ({ s with models := s.models.insert id (f model).1 }, (f model).2))

theorem onModel_effect {op : Operation} {id : ModelId}
    {f : Model → Mutation Model} (hop : mutationOf s.limits op = some (id, f))
    (happly : apply op s = onModel s id f) : ModelEffect s op := by
  cases hmodel : s.models[id]? with
  | none =>
    refine .refused id f (.modelNotFound id) hop ?_
    rw [happly, onModel, hmodel]
  | some model =>
    refine .mutated id f model hop hmodel ?_
    rw [happly, onModel, hmodel]

theorem apply_modelEffect (s : SemanticStore) (op : Operation) : ModelEffect s op := by
  cases op with
  | createNode id nodeType parentId childIndex properties =>
    refine .same (commit_sameModels ?_) rfl
    intro s' h
    obtain ⟨-, -, -, -, -, rfl⟩ := createNode_ok h
    have hframe := updateContainer_sameModels s parentId fun ids => insertAt ids childIndex id
    exact ⟨hframe.models, hframe.usedModelIds, hframe.limits, hframe.revision⟩
  | deleteNode id =>
    refine .same (commitFst_sameModels ?_) rfl
    intro s' deleted h
    obtain ⟨node, -, rfl⟩ := deleteNode_ok h
    have hframe := updateContainer_sameModels s node.parentId fun ids => ids.filter (· ≠ id)
    exact ⟨hframe.models, hframe.usedModelIds, hframe.limits, hframe.revision⟩
  | setProperty id property value =>
    refine .same (commitFst_sameModels ?_) rfl
    intro s' old h
    obtain ⟨-, node, -, rfl⟩ := setProperty_ok h
    exact ⟨rfl, rfl, rfl, rfl⟩
  | clearProperty id property =>
    refine .same (commitFst_sameModels ?_) rfl
    intro s' old h
    obtain ⟨node, -, rfl⟩ := clearProperty_ok h
    exact ⟨rfl, rfl, rfl, rfl⟩
  | moveNode id newParentId newChildIndex =>
    refine .same (commit_sameModels ?_) rfl
    intro s' h
    obtain ⟨node, -, -, -, -, -, -, -, -, rfl⟩ := moveNode_ok h
    exact relocate_sameModels s id node newParentId newChildIndex
  | reorderChildren parentId newOrder =>
    refine .same (commit_sameModels ?_) rfl
    intro s' h
    obtain ⟨node, -, -, -, rfl⟩ := reorderChildren_ok h
    exact ⟨rfl, rfl, rfl, rfl⟩
  | batchPropertySet id properties =>
    refine .same (commit_sameModels ?_) rfl
    intro s' h
    obtain ⟨-, node, -, rfl⟩ := batchPropertySet_ok h
    exact ⟨rfl, rfl, rfl, rfl⟩
  | createModel id modelType itemCount =>
    cases h : createModel s id modelType itemCount with
    | error f =>
      refine .same ?_ rfl
      rw [apply, h]
      exact SameModels.refl s
    | ok s' =>
      obtain ⟨hid, hsize, rfl⟩ := createModel_ok h
      refine .created id modelType itemCount rfl hid hsize ?_
      rw [apply, h]
      rfl
  | modelInsert id index items =>
    cases hbatch : validateBatch s.limits items with
    | error e => exact .refused id _ e rfl (by rw [apply, modelInsert, hbatch, modelInsertChecked])
    | ok _ => exact onModel_effect rfl (by rw [apply, modelInsert, hbatch, modelInsertChecked])
  | modelDelete id index count itemIds =>
    cases hbatch : validateModelItemsBatch s.limits itemIds.length with
    | error e => exact .refused id _ e rfl (by rw [apply, modelDelete, hbatch])
    | ok _ => exact onModel_effect rfl (by rw [apply, modelDelete, hbatch])
  | modelUpdate id index items =>
    cases hbatch : validateBatch s.limits items with
    | error e => exact .refused id _ e rfl (by rw [apply, modelUpdate, hbatch, modelUpdateChecked])
    | ok _ => exact onModel_effect rfl (by rw [apply, modelUpdate, hbatch, modelUpdateChecked])
  | modelResetRange id startIndex items totalCount =>
    cases hbatch : validateBatch s.limits items with
    | error e => exact .refused id _ e rfl (by rw [apply, modelResetRange, hbatch, modelResetRangeChecked])
    | ok _ => exact onModel_effect rfl (by rw [apply, modelResetRange, hbatch, modelResetRangeChecked])

theorem apply_limits (s : SemanticStore) (op : Operation) :
    (apply op s).1.limits = s.limits := by
  rcases apply_modelEffect s op with ⟨hsame, -⟩ | ⟨id, f, e, -, heq⟩ |
    ⟨id, modelType, itemCount, -, -, -, heq⟩ | ⟨id, f, model, -, -, heq⟩
  · exact hsame.limits
  all_goals rw [heq]

end Srui.SemanticTree.OperationEffects

import Srui.Client.ModelTraps
import Srui.SemanticTree.NodeRuns

/-!
The client's operations on nodes keep its graph a forest, so that every walk they take ends.
-/

namespace Srui.Client.ReplicaForests

open Std Basic.Machine Basic.Forests SemanticTree.Values
open SemanticTree.Stores (SemanticStore containerOf parentOf)
open SemanticTree.OperationEffects SemanticTree.NodeWalks SemanticTree.NodeForest
open Client.ReplicaModels Client.ReplicaStores Client.StoreAgreement Client.ModelTraps

variable {s s' : SemanticStore}

/-- An operation ends, and if it is carried out it keeps the forest and leaves the models. -/
structure Keeps (s : SemanticStore) (result : Outcome StoreError SemanticStore) : Prop where
  ends : Ends result
  forest : ∀ s', result = .ok s' → StoreForest s'
  models : ∀ s', result = .ok s' → s'.models = s.models
  limits : ∀ s', result = .ok s' → s'.limits = s.limits

theorem keeps_err (s : SemanticStore) (e : StoreError) : Keeps s (err e) :=
  ⟨ends_err e, nofun, nofun, nofun⟩

theorem keeps_ok (hforest : StoreForest s') (hmodels : s'.models = s.models)
    (hlimits : s'.limits = s.limits) : Keeps s (.ok s') := by
  refine ⟨ends_ok s', ?_, ?_, ?_⟩
  · rintro _ ⟨⟩
    exact hforest
  · rintro _ ⟨⟩
    exact hmodels
  · rintro _ ⟨⟩
    exact hlimits

/-! ### Walks -/

theorem nodeDepth_cases (h : StoreForest s) (x : NodeId) :
    nodeDepth s x = .ok none ∨ ∃ d, Depth (parentOf s) x d ∧ nodeDepth s x = .ok (some d) := by
  rcases h.nodeDepth_cases x with ⟨-, hnone⟩ | ⟨d, hd, hsome⟩
  · exact .inl (nodeDepth_agrees hnone)
  · exact .inr ⟨d, hd, nodeDepth_agrees hsome⟩

theorem subtreeDepth_ok (h : StoreForest s) (x : NodeId) :
    ∃ depth, SemanticTree.Stores.subtreeDepth s x = .ok depth ∧ subtreeDepth s x = .ok depth := by
  have hreturns := (SemanticTree.NodeRuns.StoreForest.walks_return h x).2.1
  rcases hserver : SemanticTree.Stores.subtreeDepth s x with fault | depth
  · rw [hserver] at hreturns
    rw [SemanticTree.Stores.subtreeDepth] at hserver
    split at hserver
    · cases hserver
      exact absurd rfl hreturns
    · cases hserver
  · exact ⟨depth, rfl, subtreeDepth_agrees hserver⟩

theorem destination_of_depth {c : Option NodeId} {d : Nat}
    (hdepth : ContainerDepth (parentOf s) c d) :
    destinationCount s c = .ok (containerOf s c).length := by
  apply destinationCount_agrees
  rintro p rfl
  obtain ⟨c', hlive⟩ := containerDepth_live hdepth p rfl
  obtain ⟨node, hnode, -⟩ := parentIn_eq_some.mp hlive
  exact ⟨node, hnode⟩

theorem childDepth_cases (h : StoreForest s) (c : Option NodeId) :
    (∃ e, childDepth s c = err e) ∨
      ∃ d, ContainerDepth (parentOf s) c d ∧ childDepth s c = .ok (d + 1) := by
  rcases c with - | p
  · exact .inr ⟨0, rfl, rfl⟩
  rw [childDepth]
  rcases nodeDepth_cases h p with hnone | ⟨d, hd, hsome⟩
  · rw [hnone]
    exact .inl ⟨_, rfl⟩
  · rw [hsome]
    dsimp only
    split
    · exact .inl ⟨_, rfl⟩
    · exact .inr ⟨d, hd, rfl⟩

theorem parentDepth_cases (h : StoreForest s) (c : Option NodeId) :
    (∃ e, parentDepth s c = err e) ∨
      ∃ d, ContainerDepth (parentOf s) c d ∧ parentDepth s c = .ok d := by
  rcases c with - | p
  · exact .inr ⟨0, rfl, rfl⟩
  rw [parentDepth]
  rcases nodeDepth_cases h p with hnone | ⟨d, hd, hsome⟩
  · rw [hnone]
    exact .inl ⟨_, rfl⟩
  · rw [hsome]
    exact .inr ⟨d, hd, rfl⟩

theorem detectCycle_cases (h : StoreForest s) (id : NodeId) (c : Option NodeId) :
    (∃ e, detectCycle s id c = err e) ∨
      (detectCycle s id c = .ok () ∧ SemanticTree.Stores.checkCycle s id c = .ok ()) := by
  rcases c with - | target
  · exact .inr ⟨rfl, rfl⟩
  rw [detectCycle, SemanticTree.Stores.checkCycle]
  split
  · exact .inl ⟨_, rfl⟩
  have hwalk : ∃ found,
      SemanticTree.Stores.cycleWalk s.nodes id (s.nodes.size + 1) target = .ok found := by
    rcases hx : s.nodes[target]? with - | node
    · exact ⟨false, cycleWalk_of_dead hx _⟩
    · obtain ⟨d, hd⟩ := h.depth_exists hx
      have hsize : d ≤ s.nodes.size := depth_le_size hd
      obtain ⟨found, hfound, -⟩ := cycleWalk_eq id hd (hsize.trans (Nat.le_succ _))
      exact ⟨found, hfound⟩
  obtain ⟨found, hfound⟩ := hwalk
  rw [hfound, meetsAncestor_agrees hfound]
  rcases found with - | -
  · exact .inr ⟨rfl, rfl⟩
  · exact .inl ⟨_, rfl⟩

theorem checkIndex_cases (index : Option Int) (count : Nat) :
    (∃ e, checkIndex index count = err e) ∨
      (checkIndex index count = .ok () ∧ ∃ index' : Option Nat, index = index'.map Int.ofNat ∧
        ∀ i, index' = some i → i ≤ count) := by
  rcases index with - | idx
  · exact .inr ⟨rfl, none, rfl, nofun⟩
  rw [checkIndex]
  split
  · exact .inl ⟨_, rfl⟩
  · rename_i hinside
    refine .inr ⟨rfl, some idx.toNat, ?_, ?_⟩
    · rw [Option.map_some, Int.ofNat_eq_natCast, Int.toNat_of_nonneg (by omega)]
    · rintro i ⟨⟩
      omega

theorem checkOrder_ok {parentId : NodeId} {current seen newOrder : List NodeId}
    (h : checkOrder parentId current seen newOrder = .ok ()) :
    SemanticTree.Stores.validateReorder parentId current seen newOrder = .ok () := by
  induction newOrder generalizing seen with
  | nil => rfl
  | cons child rest ih =>
    rw [checkOrder] at h
    rw [SemanticTree.Stores.validateReorder]
    split at h
    · cases h
    rename_i hchild
    split at h
    · cases h
    rename_i hfresh
    rw [if_neg hchild, if_neg hfresh]
    exact ih h

/-! ### Operations -/

variable (h : StoreForest s)

include h

theorem createNode_keeps (id : NodeId) (nodeType : TypeRef) (parentID : Option NodeId)
    (childIndex : Option Int) (properties : List (PropertyRef × Value)) :
    Keeps s (createNode s id nodeType parentID childIndex properties) := by
  rw [createNode]
  split
  · exact keeps_err s _
  rename_i hunused
  split
  · exact keeps_err s _
  rename_i hroom
  rcases childDepth_cases h parentID with ⟨e, he⟩ | ⟨d, hdepth, hok⟩
  · rw [he]
    exact keeps_err s e
  rw [hok]
  dsimp only
  split
  · exact keeps_err s _
  rename_i hlimit
  rcases checkProperties s properties with e | ⟨⟩
  · exact keeps_err s e
  dsimp only
  rw [destination_of_depth hdepth]
  dsimp only
  rcases checkIndex_cases childIndex (containerOf s parentID).length with
    ⟨e, he⟩ | ⟨hinside, index, rfl, hindex⟩
  · rw [he]
    exact keeps_err s e
  rw [hinside, rewriteList_eq, insertChild_eq]
  have hsame := updateContainer_sameModels s parentID
    fun ids => SemanticTree.Stores.insertAt ids index id
  refine keeps_ok ?_ hsame.models hsame.limits
  exact h.created hunused (Nat.lt_of_not_le hroom) hdepth (Nat.le_of_not_lt hlimit) hindex

theorem deleteNode_keeps (id : NodeId) : Keeps s (deleteNode s id) := by
  rw [deleteNode]
  rcases hnode : s.nodes[id]? with - | node
  · exact keeps_err s _
  dsimp only
  rw [rewriteList_eq, deleteSubtreeRecursive_eq]
  have hsame := updateContainer_sameModels s node.parentId fun ids => ids.filter (· ≠ id)
  refine keeps_ok ?_ hsame.models hsame.limits
  exact h.deleted hnode (deleteSubtreeRecursive_removed (Nat.lt_succ_self _))

theorem setProperty_keeps (id : NodeId) (property : PropertyRef) (value : Value) :
    Keeps s (setProperty s id property value) := by
  rw [setProperty]
  rcases checkProperty s property value with e | ⟨⟩
  · exact keeps_err s e
  rcases hnode : s.nodes[id]? with - | node
  · exact keeps_err s _
  · exact keeps_ok (h.putProperties hnode _) rfl rfl

theorem clearProperty_keeps (id : NodeId) (property : PropertyRef) :
    Keeps s (clearProperty s id property) := by
  rw [clearProperty]
  rcases hnode : s.nodes[id]? with - | node
  · exact keeps_err s _
  · exact keeps_ok (h.putProperties hnode _) rfl rfl

theorem batchPropertySet_keeps (id : NodeId) (properties : List (PropertyRef × Value)) :
    Keeps s (batchPropertySet s id properties) := by
  rw [batchPropertySet]
  rcases checkProperties s properties with e | ⟨⟩
  · exact keeps_err s e
  rcases hnode : s.nodes[id]? with - | node
  · exact keeps_err s _
  · exact keeps_ok (h.putProperties hnode _) rfl rfl

theorem moveNode_keeps (id : NodeId) (newParentID : Option NodeId) (newChildIndex : Option Int) :
    Keeps s (moveNode s id newParentID newChildIndex) := by
  rw [moveNode]
  rcases hnode : s.nodes[id]? with - | node
  · exact keeps_err s _
  dsimp only
  rcases detectCycle_cases h id newParentID with ⟨e, he⟩ | ⟨hfree, hcycle⟩
  · rw [he]
    exact keeps_err s e
  rw [hfree]
  dsimp only
  obtain ⟨subtree, hsubtree, hclient⟩ := subtreeDepth_ok h id
  rw [hclient]
  dsimp only
  rcases parentDepth_cases h newParentID with ⟨e, he⟩ | ⟨d, hdepth, hok⟩
  · rw [he]
    exact keeps_err s e
  rw [hok]
  dsimp only
  split
  · exact keeps_err s _
  rename_i hlimit
  rw [destination_of_depth hdepth]
  dsimp only
  rcases checkIndex_cases newChildIndex (containerOf s newParentID).length with
    ⟨e, he⟩ | ⟨hinside, index, rfl, -⟩
  · rw [he]
    exact keeps_err s e
  rw [hinside, rewriteList_eq, rewriteList_eq, clampChild_eq]
  have hsame := relocate_sameModels s id node newParentID index
  refine keeps_ok ?_ hsame.models hsame.limits
  exact h.moved hnode hcycle hsubtree hdepth (Nat.le_of_not_lt hlimit)

theorem reorderChildren_keeps (parentID : NodeId) (newOrder : List NodeId) :
    Keeps s (reorderChildren s parentID newOrder) := by
  rw [reorderChildren]
  rcases hnode : s.nodes[parentID]? with - | node
  · exact keeps_err s _
  dsimp only
  split
  · exact keeps_err s _
  rename_i hlength
  rcases horder : checkOrder parentID node.orderedChildren [] newOrder with e | ⟨⟩
  · exact keeps_err s e
  dsimp only
  rw [rewriteList_eq]
  have hsame := updateContainer_sameModels s (some parentID) fun _ => newOrder
  refine keeps_ok ?_ hsame.models hsame.limits
  exact h.reordered hnode (reorder_perm (not_not.mp hlength) (checkOrder_ok horder))

end Srui.Client.ReplicaForests

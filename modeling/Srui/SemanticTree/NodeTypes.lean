import Srui.SemanticTree.NodeRuns

/-!
The type of a node: it never changes, and a node goes only by a deletion.
-/

namespace Srui.SemanticTree.NodeTypes

open Std Basic.FiniteMaps Basic.Runs SemanticTree.Values SemanticTree.Models SemanticTree.Stores
open SemanticTree.Operations SemanticTree.OperationEffects SemanticTree.NodeWalks
open SemanticTree.NodeRuns SemanticTree.NodeForest

variable {s : SemanticStore}

def typeOf (s : SemanticStore) (id : NodeId) : Option TypeRef := s.nodes[id]?.map Node.nodeType

/-- `matches!(op, Operation::DeleteNode { .. })`. -/
def isDeleteNode : Operation → Bool
  | .deleteNode _ => true
  | _ => false

variable {id : NodeId}

theorem typeOf_eq_none : typeOf s id = none ↔ s.nodes[id]? = none :=
  Option.map_eq_none_iff

theorem typeOf_updateContainer (s : SemanticStore) (c : Option NodeId)
    (f : List NodeId → List NodeId) : typeOf (updateContainer s c f) = typeOf s := by
  cases c with
  | none => rfl
  | some p =>
    funext x
    change ((s.nodes.modify p _)[x]?).map Node.nodeType = s.nodes[x]?.map Node.nodeType
    rw [getElem?_adjust]
    split
    · rw [Option.map_map]
      rfl
    · rfl

theorem typeOf_putNode {node node' : Node} (hnode : s.nodes[id]? = some node)
    (htype : node'.nodeType = node.nodeType) : typeOf (putNode s id node') = typeOf s := by
  funext x
  change ((s.nodes.insert id node')[x]?).map Node.nodeType = s.nodes[x]?.map Node.nodeType
  rw [getElem?_put]
  split_ifs with hx
  · subst hx
    rw [hnode]
    exact congrArg some htype
  · rfl

theorem typeOf_relocate (s : SemanticStore) (id : NodeId) (node : Node) (c : Option NodeId)
    (index : Option Nat) : typeOf (relocate s id node c index) = typeOf s := by
  have hsame : typeOf (relinked s id node c index) = typeOf s :=
    (typeOf_updateContainer (detached s id node) c _).trans
      (typeOf_updateContainer s node.parentId _)
  rw [← hsame]
  funext x
  change ((relocate s id node c index).nodes[x]?).map Node.nodeType = _
  rw [getElem?_relocate]
  split
  · rw [Option.map_map]
    rfl
  · rfl

theorem typeOf_created {nodeType : TypeRef} {parentId : Option NodeId}
    {childIndex : Option Nat} {properties : List (PropertyRef × Value)} {s' : SemanticStore}
    (h : createNode s id nodeType parentId childIndex properties = .ok s') (x : NodeId) :
    typeOf s' x = if x = id then some nodeType else typeOf s x := by
  obtain ⟨-, -, -, -, -, rfl⟩ := createNode_ok h
  change (((updateContainer s parentId _).nodes.insert id _)[x]?).map Node.nodeType = _
  rw [getElem?_put]
  by_cases hx : x = id
  · rw [if_pos hx.symm, if_pos hx]
    rfl
  · rw [if_neg (Ne.symm hx), if_neg hx]
    exact congrFun (typeOf_updateContainer s parentId _) x

theorem apply_typeOf (hused : id ∈ s.usedIds) (op : Operation) :
    typeOf (apply op s).1 id = typeOf s id ∨
      isDeleteNode op = true ∧ typeOf (apply op s).1 id = none := by
  have hput {x : NodeId} {node node' : Node} (hnode : s.nodes[x]? = some node)
      (htype : node'.nodeType = node.nodeType) : typeOf (putNode s x node') id = typeOf s id :=
    congrFun (typeOf_putNode hnode htype) id
  have hmutation {model : ModelId} {f : Model → Mutation Model}
      (hop : mutationOf s.limits op = some (model, f)) :
      typeOf (apply op s).1 id = typeOf s id := by
    unfold typeOf
    rw [(mutation_sameNodes hop).1]
  cases op with
  | createNode x nodeType parentId childIndex properties =>
    refine .inl (commit_invariant (P := fun t => typeOf t id = typeOf s id) rfl ?_)
    intro s' hok
    rw [typeOf_created hok, if_neg]
    rintro rfl
    exact (createNode_ok hok).1 hused
  | deleteNode x =>
    refine commitFst_invariant (P := fun t => typeOf t id = typeOf s id ∨
      isDeleteNode (.deleteNode x) = true ∧ typeOf t id = none) (.inl rfl) ?_
    intro s' deleted hok
    obtain ⟨node, hnode, rfl⟩ := deleteNode_ok hok
    have hremoved : Removed (updateContainer s node.parentId fun ids => ids.filter (· ≠ x)).nodes
        (deleteSubtreeRecursive
          ((updateContainer s node.parentId fun ids => ids.filter (· ≠ x)).nodes.size + 1)
          ((updateContainer s node.parentId fun ids => ids.filter (· ≠ x)).nodes, []) x).1 [x] :=
      deleteSubtreeRecursive_removed (Nat.lt_succ_self _)
    have hbefore := congrFun
      (typeOf_updateContainer s node.parentId fun ids => ids.filter (· ≠ x)) id
    cases hafter : (deleteSubtreeRecursive
        ((updateContainer s node.parentId fun ids => ids.filter (· ≠ x)).nodes.size + 1)
        ((updateContainer s node.parentId fun ids => ids.filter (· ≠ x)).nodes, [])
        x).1[id]? with
    | none =>
      exact .inr ⟨rfl, typeOf_eq_none.mpr hafter⟩
    | some kept =>
      refine .inl (Eq.trans ?_ hbefore)
      unfold typeOf
      rw [hremoved.kept id kept hafter]
      exact congrArg (Option.map Node.nodeType) hafter
  | setProperty x property value =>
    refine .inl (commitFst_invariant (P := fun t => typeOf t id = typeOf s id) rfl ?_)
    intro s' old hok
    obtain ⟨-, node, hnode, rfl⟩ := setProperty_ok hok
    exact hput hnode rfl
  | clearProperty x property =>
    refine .inl (commitFst_invariant (P := fun t => typeOf t id = typeOf s id) rfl ?_)
    intro s' old hok
    obtain ⟨node, hnode, rfl⟩ := clearProperty_ok hok
    exact hput hnode rfl
  | moveNode x newParentId newChildIndex =>
    refine .inl (commit_invariant (P := fun t => typeOf t id = typeOf s id) rfl ?_)
    intro s' hok
    obtain ⟨node, -, -, hnode, -, -, -, -, -, rfl⟩ := moveNode_ok hok
    exact congrFun (typeOf_relocate s x node newParentId newChildIndex) id
  | reorderChildren parentId newOrder =>
    refine .inl (commit_invariant (P := fun t => typeOf t id = typeOf s id) rfl ?_)
    intro s' hok
    obtain ⟨node, -, -, -, rfl⟩ := reorderChildren_ok hok
    exact congrFun (typeOf_updateContainer s (some parentId) fun _ => newOrder) id
  | batchPropertySet x properties =>
    refine .inl (commit_invariant (P := fun t => typeOf t id = typeOf s id) rfl ?_)
    intro s' hok
    obtain ⟨-, node, hnode, rfl⟩ := batchPropertySet_ok hok
    exact hput hnode rfl
  | createModel x modelType itemCount =>
    refine .inl (commit_invariant (P := fun t => typeOf t id = typeOf s id) rfl ?_)
    intro s' hok
    obtain ⟨-, -, rfl⟩ := createModel_ok hok
    rfl
  | modelInsert x index items | modelDelete x index count itemIds | modelUpdate x index items
  | modelResetRange x startIndex items totalCount => exact .inl (hmutation rfl)

theorem run_typeOf (hused : id ∈ s.usedIds) (ops : List Operation) :
    typeOf (run applyStep s ops) id = typeOf s id ∨
      ops.any isDeleteNode = true ∧ typeOf (run applyStep s ops) id = none := by
  induction ops generalizing s with
  | nil => exact .inl rfl
  | cons op rest ih =>
    rw [run_cons, List.any_cons]
    rcases ih (apply_used hused op) with hkept | ⟨hany, hgone⟩
    · rcases apply_typeOf hused op with hsame | ⟨hdelete, hnone⟩
      · exact .inl (hkept.trans hsame)
      · exact .inr ⟨by rw [hdelete]; rfl, hkept.trans hnone⟩
    · exact .inr ⟨by rw [hany, Bool.or_true], hgone⟩

end Srui.SemanticTree.NodeTypes

import Srui.SemanticTree.NodeForest

/-!
The node graph over whole runs of operations, failed ones included.
-/

namespace Srui.SemanticTree.NodeRuns

open Std Basic.Machine Basic.FiniteMaps Basic.Forests Basic.Runs SemanticTree.Values
open SemanticTree.Limits SemanticTree.Models SemanticTree.Stores SemanticTree.Operations
open SemanticTree.OperationEffects SemanticTree.NodeWalks SemanticTree.NodeForest

variable {s : SemanticStore}

theorem commit_invariant {P : SemanticStore → Prop} (hs : P s)
    {r : Outcome StoreError SemanticStore} (h : ∀ s', r = .ok s' → P s') : P (commit s r).1 := by
  cases r with
  | error f => exact hs
  | ok s' => exact h s' rfl

theorem commitFst_invariant {α : Type} {P : SemanticStore → Prop} (hs : P s)
    {r : Outcome StoreError (SemanticStore × α)} (h : ∀ s' a, r = .ok (s', a) → P s') :
    P (commitFst s r).1 := by
  cases r with
  | error f => exact hs
  | ok result => exact h result.1 result.2 rfl

variable {op : Operation} {f : Model → Mutation Model}

theorem mutation_sameNodes {id : ModelId}
    (hop : mutationOf s.limits op = some (id, f)) :
    (apply op s).1.nodes = s.nodes ∧ (apply op s).1.roots = s.roots ∧
      (apply op s).1.usedIds = s.usedIds ∧ (apply op s).1.limits = s.limits := by
  rcases apply_modelEffect s op with ⟨-, hnone⟩ | ⟨id, f, e, -, heq⟩ |
    ⟨id, modelType, itemCount, rfl, -, -, heq⟩ | ⟨id, f, model, -, -, heq⟩
  · rw [hop] at hnone
    simp at hnone
  all_goals
    rw [heq]
    exact ⟨rfl, rfl, rfl, rfl⟩

variable {id : NodeId}

theorem mutation_used {model : ModelId}
    (h : id ∈ s.usedIds) (hop : mutationOf s.limits op = some (model, f)) :
    id ∈ (apply op s).1.usedIds := by
  rw [(mutation_sameNodes hop).2.2.1]
  exact h

theorem StoreForest.mutated (h : StoreForest s) {id : ModelId}
    (hop : mutationOf s.limits op = some (id, f)) :
    StoreForest (apply op s).1 := by
  obtain ⟨hnodes, hroots, hused, hlimits⟩ := mutation_sameNodes hop
  exact h.of_sameNodes hnodes hroots hused hlimits

theorem apply_storeForest (h : StoreForest s) (op : Operation) : StoreForest (apply op s).1 := by
  cases op with
  | createNode id nodeType parentId childIndex properties =>
    refine commit_invariant h ?_
    intro s' hok
    obtain ⟨hid, hcount, ⟨depth, hdepth, hlimit⟩, -, hindex, rfl⟩ := createNode_ok hok
    obtain ⟨d, hc, rfl⟩ := h.targetDepth_ok hdepth
    exact h.created hid hcount hc hlimit (checkChildIndex_ok hindex)
  | deleteNode id =>
    refine commitFst_invariant h ?_
    intro s' deleted hok
    obtain ⟨node, hnode, rfl⟩ := deleteNode_ok hok
    exact h.deleted hnode (deleteSubtreeRecursive_removed (Nat.lt_succ_self _))
  | setProperty id property value =>
    refine commitFst_invariant h ?_
    intro s' old hok
    obtain ⟨-, node, hnode, rfl⟩ := setProperty_ok hok
    exact h.putProperties hnode _
  | clearProperty id property =>
    refine commitFst_invariant h ?_
    intro s' old hok
    obtain ⟨node, hnode, rfl⟩ := clearProperty_ok hok
    exact h.putProperties hnode _
  | moveNode id newParentId newChildIndex =>
    refine commit_invariant h ?_
    intro s' hok
    obtain ⟨node, subtree, parentDepth, hnode, hcycle, hsubtree, hparent, hlimit, -, rfl⟩ :=
      moveNode_ok hok
    exact h.moved hnode hcycle hsubtree (h.newParentDepth_ok hparent) hlimit
  | reorderChildren parentId newOrder =>
    refine commit_invariant h ?_
    intro s' hok
    obtain ⟨node, hnode, hlength, hvalid, rfl⟩ := reorderChildren_ok hok
    exact h.reordered hnode (reorder_perm hlength hvalid)
  | batchPropertySet id properties =>
    refine commit_invariant h ?_
    intro s' hok
    obtain ⟨-, node, hnode, rfl⟩ := batchPropertySet_ok hok
    exact h.putProperties hnode _
  | createModel id modelType itemCount =>
    refine commit_invariant h ?_
    intro s' hok
    obtain ⟨-, -, rfl⟩ := createModel_ok hok
    exact h.of_sameNodes rfl rfl rfl rfl
  | modelInsert id index items | modelDelete id index count itemIds | modelUpdate id index items
  | modelResetRange id startIndex items totalCount => exact StoreForest.mutated h rfl

theorem run_storeForest (limits : StoreLimits) (revision : Revision) (ops : List Operation) :
    StoreForest (run applyStep (SemanticStore.withLimitsAndRevision limits revision) ops) := by
  have hstep : ∀ s op, StoreForest s → StoreForest (applyStep s op) := by
    intro s op h
    exact apply_storeForest h op
  exact run_invariant hstep (storeForest_empty limits revision) ops

theorem apply_used (h : id ∈ s.usedIds) (op : Operation) :
    id ∈ (apply op s).1.usedIds := by
  cases op with
  | createNode x nodeType parentId childIndex properties =>
    refine commit_invariant (P := fun t => id ∈ t.usedIds) h ?_
    intro s' hok
    obtain ⟨-, -, -, -, -, rfl⟩ := createNode_ok hok
    rw [updateContainer_usedIds]
    exact Finset.mem_insert_of_mem h
  | deleteNode x =>
    refine commitFst_invariant (P := fun t => id ∈ t.usedIds) h ?_
    intro s' deleted hok
    obtain ⟨node, -, rfl⟩ := deleteNode_ok hok
    rw [updateContainer_usedIds]
    exact h
  | setProperty x property value =>
    refine commitFst_invariant (P := fun t => id ∈ t.usedIds) h ?_
    intro s' old hok
    obtain ⟨-, node, -, rfl⟩ := setProperty_ok hok
    exact h
  | clearProperty x property =>
    refine commitFst_invariant (P := fun t => id ∈ t.usedIds) h ?_
    intro s' old hok
    obtain ⟨node, -, rfl⟩ := clearProperty_ok hok
    exact h
  | moveNode x newParentId newChildIndex =>
    refine commit_invariant (P := fun t => id ∈ t.usedIds) h ?_
    intro s' hok
    obtain ⟨node, -, -, -, -, -, -, -, -, rfl⟩ := moveNode_ok hok
    rw [(relocate_frame s x node newParentId newChildIndex).2]
    exact h
  | reorderChildren parentId newOrder =>
    refine commit_invariant (P := fun t => id ∈ t.usedIds) h ?_
    intro s' hok
    obtain ⟨node, -, -, -, rfl⟩ := reorderChildren_ok hok
    exact h
  | batchPropertySet x properties =>
    refine commit_invariant (P := fun t => id ∈ t.usedIds) h ?_
    intro s' hok
    obtain ⟨-, node, -, rfl⟩ := batchPropertySet_ok hok
    exact h
  | createModel x modelType itemCount =>
    refine commit_invariant (P := fun t => id ∈ t.usedIds) h ?_
    intro s' hok
    obtain ⟨-, -, rfl⟩ := createModel_ok hok
    exact h
  | modelInsert x index items | modelDelete x index count itemIds | modelUpdate x index items
  | modelResetRange x startIndex items totalCount => exact mutation_used h rfl

theorem run_used (h : id ∈ s.usedIds) (ops : List Operation) :
    id ∈ (run applyStep s ops).usedIds := by
  have hstep : ∀ s op, id ∈ s.usedIds → id ∈ (applyStep s op).usedIds := by
    intro s op h
    exact apply_used h op
  exact run_invariant (P := fun t : SemanticStore => id ∈ t.usedIds) hstep h ops

/-- An identifier on record as used that names no live node. -/
def Retired (id : NodeId) (s : SemanticStore) : Prop := id ∈ s.usedIds ∧ s.nodes[id]? = none

theorem dead_of_parentOf {s' : SemanticStore} (h : s.nodes[id]? = none)
    (hparent : parentOf s' id = parentOf s id) : s'.nodes[id]? = none := by
  rw [← parentIn_eq_none, ← parentOf_eq, hparent]
  exact parentIn_eq_none.mpr h

theorem mutation_dead {model : ModelId}
    (h : s.nodes[id]? = none) (hop : mutationOf s.limits op = some (model, f)) :
    (apply op s).1.nodes[id]? = none := by
  rw [(mutation_sameNodes hop).1]
  exact h

theorem apply_retired (h : Retired id s) (op : Operation) :
    Retired id (apply op s).1 := by
  refine ⟨apply_used h.1 op, ?_⟩
  have hput : ∀ {x : NodeId} {node node' : Node}, s.nodes[x]? = some node →
      (putNode s x node').nodes[id]? = none := by
    intro x node node' hx
    change (s.nodes.insert x node')[id]? = none
    rw [getElem?_put, if_neg]
    · exact h.2
    · rintro rfl
      rw [h.2] at hx
      simp at hx
  cases op with
  | createNode x nodeType parentId childIndex properties =>
    refine commit_invariant (P := fun t => t.nodes[id]? = none) h.2 ?_
    intro s' hok
    obtain ⟨hx, -, -, -, -, rfl⟩ := createNode_ok hok
    have hne : id ≠ x := by
      rintro rfl
      exact hx h.1
    exact dead_of_parentOf h.2 ((parentOf_created id).trans (if_neg hne))
  | deleteNode x =>
    refine commitFst_invariant (P := fun t => t.nodes[id]? = none) h.2 ?_
    intro s' deleted hok
    obtain ⟨node, hnode, rfl⟩ := deleteNode_ok hok
    apply (deleteSubtreeRecursive_removed (Nat.lt_succ_self _)).none_of_none
    exact dead_of_parentOf h.2 (congrFun (parentOf_updateContainer s node.parentId _) id)
  | setProperty x property value =>
    refine commitFst_invariant (P := fun t => t.nodes[id]? = none) h.2 ?_
    intro s' old hok
    obtain ⟨-, node, hnode, rfl⟩ := setProperty_ok hok
    exact hput hnode
  | clearProperty x property =>
    refine commitFst_invariant (P := fun t => t.nodes[id]? = none) h.2 ?_
    intro s' old hok
    obtain ⟨node, hnode, rfl⟩ := clearProperty_ok hok
    exact hput hnode
  | moveNode x newParentId newChildIndex =>
    refine commit_invariant (P := fun t => t.nodes[id]? = none) h.2 ?_
    intro s' hok
    obtain ⟨node, -, -, hnode, -, -, -, -, -, rfl⟩ := moveNode_ok hok
    have hne : id ≠ x := by
      rintro rfl
      rw [h.2] at hnode
      simp at hnode
    exact dead_of_parentOf h.2
      ((parentOf_relocate hnode newParentId newChildIndex id).trans (if_neg hne))
  | reorderChildren parentId newOrder =>
    refine commit_invariant (P := fun t => t.nodes[id]? = none) h.2 ?_
    intro s' hok
    obtain ⟨node, -, -, -, rfl⟩ := reorderChildren_ok hok
    exact dead_of_parentOf h.2
      (congrFun (parentOf_updateContainer s (some parentId) fun _ => newOrder) id)
  | batchPropertySet x properties =>
    refine commit_invariant (P := fun t => t.nodes[id]? = none) h.2 ?_
    intro s' hok
    obtain ⟨-, node, hnode, rfl⟩ := batchPropertySet_ok hok
    exact hput hnode
  | createModel x modelType itemCount =>
    refine commit_invariant (P := fun t => t.nodes[id]? = none) h.2 ?_
    intro s' hok
    obtain ⟨-, -, rfl⟩ := createModel_ok hok
    exact h.2
  | modelInsert x index items | modelDelete x index count itemIds | modelUpdate x index items
  | modelResetRange x startIndex items totalCount => exact mutation_dead h.2 rfl

theorem run_retired (h : Retired id s) (ops : List Operation) :
    Retired id (run applyStep s ops) := by
  have hstep : ∀ s op, Retired id s → Retired id (applyStep s op) := by
    intro s op h
    exact apply_retired h op
  exact run_invariant hstep h ops

theorem StoreForest.lists_nodup (h : StoreForest s) :
    (s.roots ++ s.nodes.toList.flatMap fun entry => entry.2.orderedChildren).Nodup := by
  have hchildren : ∀ entry ∈ s.nodes.toList,
      entry.2.orderedChildren = containerOf s (some entry.1) := by
    rintro ⟨p, node⟩ hentry
    exact (childrenIn_of_node (mem_toList.mp hentry)).symm
  have hdisjoint : ∀ {c c' : Option NodeId} {x : NodeId}, x ∈ containerOf s c →
      x ∈ containerOf s c' → c = c' := by
    intro c c' x hx hx'
    rw [h.forest.hangs] at hx hx'
    exact Option.some.inj (hx.symm.trans hx')
  rw [List.nodup_append]
  refine ⟨h.forest.nodup none, ?_, ?_⟩
  · rw [List.nodup_flatMap]
    refine ⟨?_, ?_⟩
    · intro entry hentry
      rw [hchildren entry hentry]
      exact h.forest.nodup _
    · have hkeys := nodup_toList_keys s.nodes
      rw [List.Nodup, List.pairwise_map] at hkeys
      refine hkeys.imp_of_mem ?_
      intro a b ha hb hne x hxa hxb
      dsimp only at hxa hxb
      rw [hchildren a ha] at hxa
      rw [hchildren b hb] at hxb
      exact hne (Option.some.inj (hdisjoint hxa hxb))
  · intro x hx y hy
    rintro rfl
    obtain ⟨entry, hentry, hxe⟩ := List.mem_flatMap.mp hy
    rw [hchildren entry hentry] at hxe
    have hnone : (none : Option NodeId) = some entry.1 := hdisjoint (c := none) hx hxe
    simp at hnone

theorem StoreForest.walks_return (h : StoreForest s) (x : NodeId) :
    nodeDepth s x ≠ .error .diverges ∧ subtreeDepth s x ≠ .error .diverges ∧
      ∀ id, cycleWalk s.nodes id (s.nodes.size + 1) x ≠ .error .diverges := by
  refine ⟨?_, ?_, ?_⟩
  · rcases h.nodeDepth_cases x with ⟨-, hnone⟩ | ⟨d, -, hsome⟩
    · simp [hnone]
    · simp [hsome]
  · have hbudget : ∀ d, Depth (parentIn s.nodes) x d → s.nodes.size < s.nodes.size + 1 + d := by
      intro d _
      omega
    obtain ⟨depth, hdepth⟩ := subtreeDepthRec_isSome h.forest (fun _ => rfl) hbudget (by omega)
    simp [subtreeDepth, hdepth]
  · intro id
    cases hx : s.nodes[x]? with
    | none => simp [cycleWalk_of_dead hx]
    | some n =>
      obtain ⟨d, hd⟩ := h.depth_exists hx
      have hsize : d ≤ s.nodes.size := depth_le_size hd
      obtain ⟨found, hfound, -⟩ := cycleWalk_eq id hd (show d ≤ s.nodes.size + 1 by omega)
      simp [hfound]

/-- In every store reached from an empty one by any operations, successful or
not: parent pointers and child lists name each other, no identifier is listed
twice, every live node reaches a root within the depth limit and the walks over
the graph return, the node limit holds, and a deleted identifier stays dead. -/
theorem reachable_store_forest (limits : StoreLimits) (revision : Revision)
    (ops : List Operation) (s : SemanticStore)
    (hs : s = run applyStep (SemanticStore.withLimitsAndRevision limits revision) ops) :
    ((∀ x : NodeId, x ∈ s.roots ↔ ∃ n, s.nodes[x]? = some n ∧ n.parentId = none) ∧
      ∀ (p : NodeId) (np : Node), s.nodes[p]? = some np → ∀ x, x ∈ np.orderedChildren ↔
        ∃ n, s.nodes[x]? = some n ∧ n.parentId = some p) ∧
    (s.roots ++ s.nodes.toList.flatMap fun entry => entry.2.orderedChildren).Nodup ∧
    ((∀ (x : NodeId) (n : Node), s.nodes[x]? = some n →
        ∃ d, Depth (parentOf s) x d ∧ d ≤ limits.maxTreeDepth ∧ nodeDepth s x = .ok (some d)) ∧
      ∀ x, nodeDepth s x ≠ .error .diverges ∧ subtreeDepth s x ≠ .error .diverges ∧
        ∀ id, cycleWalk s.nodes id (s.nodes.size + 1) x ≠ .error .diverges) ∧
    s.nodes.size ≤ limits.maxNodeCount ∧
    (∀ (x : NodeId) (n : Node), s.nodes[x]? = some n → x ∈ s.usedIds) ∧
    ∀ (before between after : List Operation) (x : NodeId), ops = before ++ between ++ after →
      (∃ n, (run applyStep (SemanticStore.withLimitsAndRevision limits revision)
        before).nodes[x]? = some n) →
      (run applyStep (SemanticStore.withLimitsAndRevision limits revision)
        (before ++ between)).nodes[x]? = none →
      s.nodes[x]? = none := by
  have hforest : StoreForest s := hs ▸ run_storeForest limits revision ops
  have hlimits : s.limits = limits := by
    rw [hs]
    exact run_invariant (P := fun t : SemanticStore => t.limits = limits)
      (fun s op h => (apply_limits s op).trans h) rfl ops
  refine ⟨⟨?_, ?_⟩, StoreForest.lists_nodup hforest, ⟨?_, StoreForest.walks_return hforest⟩, ?_, ?_,
    ?_⟩
  · intro x
    exact (hforest.forest.hangs x none).trans parentIn_eq_some
  · intro p np hp x
    rw [← childrenIn_of_node hp, ← containerOf_child]
    exact (hforest.forest.hangs x (some p)).trans parentIn_eq_some
  · intro x n hx
    obtain ⟨d, hd⟩ := hforest.depth_exists hx
    exact ⟨d, hd, hlimits ▸ hforest.depth x d hd, nodeDepth_eq hd⟩
  · exact hlimits ▸ hforest.count
  · intro x n hx
    exact hforest.used x n.parentId (parentIn_of_node hx)
  · rintro before between after x rfl ⟨n, hlive⟩ hdead
    have hbefore := run_storeForest limits revision before
    have husedBefore := hbefore.used x n.parentId (parentIn_of_node hlive)
    have hused : x ∈ (run applyStep (SemanticStore.withLimitsAndRevision limits revision)
        (before ++ between)).usedIds := by
      rw [run_append]
      exact run_used husedBefore between
    rw [hs, run_append]
    exact (run_retired ⟨hused, hdead⟩ after).2

def adoptionRun : List Operation :=
  [.createNode 1 ⟨0, 1⟩ none none [], .createNode 2 ⟨0, 1⟩ (some 1) none [],
    .createNode 3 ⟨0, 1⟩ none (some 0) [], .moveNode 2 (some 3) (some 0), .deleteNode 1,
    .moveNode 3 (some 2) none]

theorem adoptionRun_forest :
    (run applyStep (SemanticStore.withLimits StoreLimits.default) adoptionRun).nodes.size = 2 ∧
      ∀ x : NodeId,
        x ∈ (run applyStep (SemanticStore.withLimits StoreLimits.default) adoptionRun).roots ↔
          ∃ n, (run applyStep (SemanticStore.withLimits StoreLimits.default)
            adoptionRun).nodes[x]? = some n ∧ n.parentId = none :=
  ⟨by decide +kernel, (reachable_store_forest StoreLimits.default 0 adoptionRun _ rfl).1.1⟩

end Srui.SemanticTree.NodeRuns

import Srui.SemanticTree.NodeWalks
import Srui.SemanticTree.ModelInvariants

/-!
The forest invariant of a store, kept by every operation and so by every run.
-/

namespace Srui.SemanticTree.NodeForest

open Std Basic.Machine Basic.FiniteMaps Basic.Forests SemanticTree.Values SemanticTree.Limits
open SemanticTree.Stores SemanticTree.Operations SemanticTree.OperationEffects
open SemanticTree.NodeWalks

/-- Parent pointers and child lists agree and stay within the limits, and every
live identifier is on record as used. -/
structure StoreForest (s : SemanticStore) : Prop where
  forest : Forest (parentOf s) (containerOf s)
  depth : ∀ x d, Depth (parentOf s) x d → d ≤ s.limits.maxTreeDepth
  count : s.nodes.size ≤ s.limits.maxNodeCount
  used : ∀ x c, parentOf s x = some c → x ∈ s.usedIds
  ids : ∀ (x : NodeId) (n : Node), s.nodes[x]? = some n → n.id = x

variable {s s' : SemanticStore}

theorem containerOf_child (s : SemanticStore) (id : NodeId) :
    containerOf s (some id) = childrenIn s.nodes id := rfl

theorem parentOf_updateContainer (s : SemanticStore) (c : Option NodeId)
    (f : List NodeId → List NodeId) : parentOf (updateContainer s c f) = parentOf s := by
  cases c with
  | none => rfl
  | some p =>
    funext x
    change ((s.nodes.modify p _)[x]?).map Node.parentId = s.nodes[x]?.map Node.parentId
    rw [getElem?_adjust]
    split
    · rw [Option.map_map]
      rfl
    · rfl

variable {c : Option NodeId}

theorem containerOf_updateContainer (hc : Container (parentOf s) c)
    (f : List NodeId → List NodeId) (c' : Option NodeId) :
    containerOf (updateContainer s c f) c' =
      if c' = c then f (containerOf s c) else containerOf s c' := by
  cases c with
  | none =>
    cases c' with
    | none => rfl
    | some q => rfl
  | some p =>
    cases c' with
    | none => rfl
    | some q =>
      change ((s.nodes.modify p _)[q]?.map Node.orderedChildren).getD [] = _
      rw [getElem?_adjust]
      by_cases hpq : p = q
      · subst hpq
        obtain ⟨c', hlive⟩ := hc p rfl
        obtain ⟨node, hnode, -⟩ := parentIn_eq_some.mp hlive
        rw [if_pos rfl, if_pos rfl, hnode, containerOf, hnode]
        rfl
      · have hne : ¬(some q : Option NodeId) = some p := by
          intro heq
          exact hpq (Option.some.inj heq).symm
        rw [if_neg hpq, if_neg hne]
        rfl

theorem updateContainer_size (s : SemanticStore) (c : Option NodeId)
    (f : List NodeId → List NodeId) : (updateContainer s c f).nodes.size = s.nodes.size := by
  cases c with
  | none => rfl
  | some p => exact size_adjust _ _ _

theorem updateContainer_usedIds (s : SemanticStore) (c : Option NodeId)
    (f : List NodeId → List NodeId) : (updateContainer s c f).usedIds = s.usedIds := by
  cases c <;> rfl

theorem updateContainer_limits (s : SemanticStore) (c : Option NodeId)
    (f : List NodeId → List NodeId) : (updateContainer s c f).limits = s.limits :=
  (updateContainer_sameModels s c f).limits

theorem updateContainer_ids (hids : ∀ (x : NodeId) (n : Node), s.nodes[x]? = some n → n.id = x)
    (c : Option NodeId) (f : List NodeId → List NodeId) (x : NodeId) (n : Node)
    (h : (updateContainer s c f).nodes[x]? = some n) : n.id = x := by
  cases c with
  | none => exact hids x n h
  | some p =>
    change (s.nodes.modify p _)[x]? = some n at h
    rw [getElem?_adjust] at h
    split at h
    · rw [Option.map_eq_some_iff] at h
      obtain ⟨m, hm, rfl⟩ := h
      exact hids x m hm
    · exact hids x n h

theorem storeForest_empty (limits : StoreLimits) (revision : Revision) :
    StoreForest (SemanticStore.withLimitsAndRevision limits revision) := by
  have hdead : ∀ x, parentOf (SemanticStore.withLimitsAndRevision limits revision) x = none := by
    intro x
    simp [parentOf, SemanticStore.withLimitsAndRevision]
  have hempty : ∀ c, containerOf (SemanticStore.withLimitsAndRevision limits revision) c = [] := by
    intro c
    cases c <;> simp [containerOf, SemanticStore.withLimitsAndRevision]
  refine ⟨⟨?_, ?_, ?_⟩, ?_, ?_, ?_, ?_⟩
  · intro x c
    simp [hdead, hempty]
  · intro c
    simp [hempty]
  · intro x c hx
    simp [hdead] at hx
  · intro x d hd
    obtain ⟨c, hc⟩ := hd.live
    simp [hdead] at hc
  · simp [SemanticStore.withLimitsAndRevision]
  · intro x c hx
    simp [hdead] at hx
  · intro x n hx
    simp [SemanticStore.withLimitsAndRevision] at hx

theorem StoreForest.depth_exists (h : StoreForest s) {x : NodeId} {n : Node}
    (hx : s.nodes[x]? = some n) : ∃ d, Depth (parentOf s) x d :=
  h.forest.grounded x n.parentId (parentIn_of_node hx)

/-- `node_depth` of a node that may not be live. -/
theorem StoreForest.nodeDepth_cases (h : StoreForest s) (x : NodeId) :
    (s.nodes[x]? = none ∧ nodeDepth s x = .ok none) ∨
      ∃ d, Depth (parentOf s) x d ∧ nodeDepth s x = .ok (some d) := by
  cases hx : s.nodes[x]? with
  | none => exact Or.inl ⟨rfl, nodeDepth_of_dead hx⟩
  | some n =>
    obtain ⟨d, hd⟩ := h.depth_exists hx
    exact Or.inr ⟨d, hd, nodeDepth_eq hd⟩

variable {d : Nat}

theorem containerDepth_live
    (hc : ContainerDepth (parentOf s) c d) : Container (parentOf s) c := by
  rintro p rfl
  exact Depth.live hc

theorem StoreForest.targetDepth_ok (h : StoreForest s) {depth : Nat}
    (hdepth : targetDepth s c = .ok depth) :
    ∃ d, ContainerDepth (parentOf s) c d ∧ depth = d + 1 := by
  cases c with
  | none => exact ⟨0, rfl, (Except.ok.inj hdepth).symm⟩
  | some p =>
    rcases h.nodeDepth_cases p with ⟨-, hnone⟩ | ⟨d, hd, hsome⟩
    · simp [targetDepth, hnone, err] at hdepth
    · refine ⟨d, hd, ?_⟩
      simp only [targetDepth, hsome] at hdepth
      split at hdepth
      · simp [err] at hdepth
      · exact (Except.ok.inj hdepth).symm

theorem StoreForest.newParentDepth_ok (h : StoreForest s)
    (hdepth : newParentDepth s c = .ok d) : ContainerDepth (parentOf s) c d := by
  cases c with
  | none => exact (Except.ok.inj hdepth).symm
  | some p =>
    rcases h.nodeDepth_cases p with ⟨-, hnone⟩ | ⟨e, he, hsome⟩
    · simp [newParentDepth, hnone, err] at hdepth
    · simp only [newParentDepth, hsome] at hdepth
      rw [← Except.ok.inj hdepth]
      exact he

variable {index : Option Nat}

theorem insertAt_perm {ids : List NodeId} (id : NodeId)
    (h : ∀ i, index = some i → i ≤ ids.length) : (insertAt ids index id).Perm (id :: ids) := by
  cases index with
  | none => exact List.perm_append_singleton id ids
  | some i => exact List.perm_insertIdx id ids (h i rfl)

theorem checkChildIndex_ok {count : Nat}
    (h : checkChildIndex index count = .ok ()) : ∀ i, index = some i → i ≤ count := by
  rintro i rfl
  rw [checkChildIndex] at h
  split at h
  · simp [err] at h
  · omega

variable {id : NodeId}

theorem StoreForest.fresh (h : StoreForest s) (hid : id ∉ s.usedIds) :
    parentOf s id = none := by
  by_contra hne
  obtain ⟨c, hc⟩ := Option.ne_none_iff_exists'.mp hne
  exact hid (h.used id c hc)

/-- The store `create_node` returns once its checks have passed. -/
def created (s : SemanticStore) (id : NodeId) (nodeType : TypeRef) (parentId : Option NodeId)
    (childIndex : Option Nat) (properties : List (PropertyRef × Value)) : SemanticStore :=
  let attached := updateContainer s parentId fun ids => insertAt ids childIndex id
  { attached with nodes := attached.nodes.insert id (Node.new id nodeType parentId properties)
                  usedIds := insert id attached.usedIds }

section Create

variable {id : NodeId} {nodeType : TypeRef} {parentId : Option NodeId} {childIndex : Option Nat}
variable {properties : List (PropertyRef × Value)}

theorem parentOf_created (x : NodeId) :
    parentOf (created s id nodeType parentId childIndex properties) x =
      if x = id then some parentId else parentOf s x := by
  change (((updateContainer s parentId fun ids => insertAt ids childIndex id).nodes.insert id
    (Node.new id nodeType parentId properties))[x]?).map Node.parentId = _
  rw [getElem?_put]
  by_cases hx : id = x
  · rw [if_pos hx, if_pos hx.symm]
    rfl
  · rw [if_neg hx, if_neg (Ne.symm hx)]
    exact congrFun (parentOf_updateContainer s parentId _) x

theorem containerOf_created (hc : Container (parentOf s) parentId) (c : Option NodeId) :
    containerOf (created s id nodeType parentId childIndex properties) c =
      if c = some id then [] else if c = parentId then
        insertAt (containerOf s parentId) childIndex id else containerOf s c := by
  have hattached := containerOf_updateContainer hc (fun ids => insertAt ids childIndex id) c
  cases c with
  | none => exact hattached
  | some q =>
    change ((((updateContainer s parentId fun ids => insertAt ids childIndex id).nodes.insert id
      (Node.new id nodeType parentId properties))[q]?).map Node.orderedChildren).getD [] = _
    rw [getElem?_put]
    by_cases hq : id = q
    · subst hq
      rw [if_pos rfl, if_pos rfl]
      rfl
    · have hne : ¬(some q : Option NodeId) = some id := by
        intro heq
        exact hq (Option.some.inj heq).symm
      rw [if_neg hq, if_neg hne]
      exact hattached

theorem StoreForest.created (h : StoreForest s) (hid : id ∉ s.usedIds)
    (hcount : s.nodes.size < s.limits.maxNodeCount) {d : Nat}
    (hc : ContainerDepth (parentOf s) parentId d) (hdepth : d + 1 ≤ s.limits.maxTreeDepth)
    (hindex : ∀ i, childIndex = some i → i ≤ (containerOf s parentId).length) :
    StoreForest (created s id nodeType parentId childIndex properties) := by
  have hfresh := h.fresh hid
  have hlive := containerDepth_live hc
  have hup : ∀ x, parentOf (NodeForest.created s id nodeType parentId childIndex properties) x =
      if x = id then some parentId else parentOf s x := parentOf_created
  have hlimits : (NodeForest.created s id nodeType parentId childIndex properties).limits =
      s.limits := updateContainer_limits s parentId _
  have hforest : Forest (parentOf (NodeForest.created s id nodeType parentId childIndex properties))
      (containerOf (NodeForest.created s id nodeType parentId childIndex properties)) := by
    refine h.forest.attach hfresh ⟨d, hc⟩ hup ?_
    intro c
    rw [containerOf_created hlive]
    by_cases hself : c = some id
    · subst hself
      have hne : ¬some id = parentId := by
        intro heq
        obtain ⟨c', hc'⟩ := hlive id heq.symm
        rw [hfresh] at hc'
        simp at hc'
      rw [if_pos rfl, if_neg hne, h.forest.kids_of_dead hfresh]
    · rw [if_neg hself]
      split
      · exact insertAt_perm id hindex
      · exact List.Perm.refl _
  refine ⟨hforest, ?_, ?_, ?_, ?_⟩
  · intro x e he
    rw [hlimits]
    by_cases hx : x = id
    · have hcontainer : ContainerDepth
          (parentOf (NodeForest.created s id nodeType parentId childIndex properties)) parentId d := by
        cases parentId with
        | none => exact hc
        | some p => exact Depth.attach hfresh hup hc
      have hnew : Depth (parentOf (NodeForest.created s id nodeType parentId childIndex properties))
          x (d + 1) := hcontainer.member (by rw [hup, if_pos hx])
      rw [he.unique hnew]
      exact hdepth
    · obtain ⟨c, hlivex⟩ := he.live
      rw [hup, if_neg hx] at hlivex
      obtain ⟨e', he'⟩ := h.forest.grounded x c hlivex
      rw [he.unique (he'.attach hfresh hup)]
      exact h.depth x e' he'
  · rw [hlimits]
    have hnone : (updateContainer s parentId fun ids => insertAt ids childIndex id).nodes[id]? =
        none := by
      rw [← parentIn_eq_none, ← parentOf_eq, parentOf_updateContainer]
      exact hfresh
    change ((updateContainer s parentId _).nodes.insert id _).size ≤ _
    rw [size_insert_of_fresh _ hnone, updateContainer_size]
    exact hcount
  · intro x c hx
    change x ∈ insert id (updateContainer s parentId _).usedIds
    rw [updateContainer_usedIds, Finset.mem_insert]
    rw [hup] at hx
    split at hx
    · rename_i heq
      exact Or.inl heq
    · exact Or.inr (h.used x c hx)
  · intro x n hx
    change ((updateContainer s parentId fun ids => insertAt ids childIndex id).nodes.insert id
      (Node.new id nodeType parentId properties))[x]? = some n at hx
    rw [getElem?_put] at hx
    split at hx
    · rename_i heq
      rw [← Option.some.inj hx]
      exact heq
    · exact updateContainer_ids h.ids parentId _ x n hx

end Create

variable {node : Node}

/-- The store once the node has left its container. -/
def detached (s : SemanticStore) (id : NodeId) (node : Node) : SemanticStore :=
  updateContainer s node.parentId fun ids => ids.filter (· ≠ id)

/-- The store once it has joined the other one. -/
def relinked (s : SemanticStore) (id : NodeId) (node : Node) (c : Option NodeId)
    (index : Option Nat) : SemanticStore :=
  updateContainer (detached s id node) c fun ids =>
    insertAt ids (index.map (min · ids.length)) id

theorem containerOf_detached (h : Forest (parentOf s) (containerOf s))
    (hnode : s.nodes[id]? = some node) (c : Option NodeId) :
    containerOf (detached s id node) c = (containerOf s c).filter (· ≠ id) := by
  have hup : parentOf s id = some node.parentId := parentIn_of_node hnode
  have hlive : Container (parentOf s) node.parentId := by
    intro p hp
    rw [hp] at hup
    exact h.parent_live hup
  rw [detached, containerOf_updateContainer hlive]
  split
  · rename_i heq
    rw [heq]
  · rename_i hne
    symm
    rw [List.filter_eq_self]
    intro x hx
    rw [decide_eq_true_eq]
    rintro rfl
    rw [h.hangs, hup] at hx
    exact hne (Option.some.inj hx).symm

theorem StoreForest.deleted (h : StoreForest s) (hnode : s.nodes[id]? = some node)
    {nodes' : NodeMap} (hremoved : Removed (detached s id node).nodes nodes' [id]) :
    StoreForest { detached s id node with nodes := nodes' } := by
  have hdetached := containerOf_detached h.forest hnode
  have hparent : parentOf (detached s id node) = _ := parentOf_updateContainer s node.parentId _
  have hsize : (detached s id node).nodes.size = _ := updateContainer_size s node.parentId _
  have hlimits : (detached s id node).limits = _ := updateContainer_limits s node.parentId _
  have hused : (detached s id node).usedIds = _ := updateContainer_usedIds s node.parentId _
  have hids : ∀ x (n : Node), (detached s id node).nodes[x]? = some n → n.id = x :=
    updateContainer_ids h.ids node.parentId _
  generalize detached s id node = t at *
  -- a dead node counts as gone, so that the new parent pointers are the old ones cut down
  have hup : ∀ y, parentIn nodes' y = if nodes'[y]? = none then none else parentOf s y := by
    intro y
    split
    · rename_i hgone
      exact parentIn_eq_none.mpr hgone
    · rename_i hstays
      obtain ⟨n, hn⟩ := Option.ne_none_iff_exists'.mp hstays
      rw [← hparent, parentIn_of_node hn]
      exact (parentIn_of_node (hremoved.kept y n hn)).symm
  have hchild : ∀ {x p : NodeId}, x ∈ childrenIn t.nodes p → parentOf s x = some (some p) := by
    intro x p hx
    have hx : x ∈ containerOf t (some p) := hx
    rw [hdetached, List.mem_filter] at hx
    exact (h.forest.hangs x (some p)).mp hx.1
  have hclosed : ∀ x p, parentOf s x = some (some p) → nodes'[p]? = none → nodes'[x]? = none := by
    intro x p hx hp
    by_cases hid : x = id
    · subst hid
      exact hremoved.gone x (by simp)
    · obtain ⟨c, hc⟩ := h.forest.parent_live hx
      rw [← hparent] at hc
      obtain ⟨np, hnp, -⟩ := parentIn_eq_some.mp hc
      refine hremoved.closed p np hnp hp x ?_
      rw [← childrenIn_of_node hnp, ← containerOf_child, hdetached, List.mem_filter]
      exact ⟨(h.forest.hangs x (some p)).mpr hx, by simpa using hid⟩
  have hgone : ∀ {y : NodeId} {c : Option NodeId}, parentOf s y = some c →
      (∀ p, c = some p → nodes'[p]? ≠ none) → (nodes'[y]? = none ↔ y = id) := by
    intro y c hy hc
    constructor
    · intro hdead
      rw [← hparent] at hy
      obtain ⟨ny, hny, -⟩ := parentIn_eq_some.mp hy
      rcases hremoved.caused y ny hny hdead with hmem | ⟨z, nz, hz, hzgone, hin⟩
      · simpa using hmem
      · rw [← childrenIn_of_node hz] at hin
        have hyz := hchild hin
        rw [hparent] at hy
        rw [hy, Option.some.injEq] at hyz
        exact absurd hzgone (hc z hyz)
    · rintro rfl
      exact hremoved.gone y (by simp)
  have hforest : Forest (parentIn nodes') (containerOf { t with nodes := nodes' }) := by
    refine h.forest.prune (fun y => nodes'[y]? = none) hclosed hup ?_ ?_
    · intro c hc
      have hsame : containerOf { t with nodes := nodes' } c = containerOf t c := by
        cases c with
        | none => rfl
        | some p =>
          obtain ⟨n, hn⟩ := Option.ne_none_iff_exists'.mp (hc p rfl)
          change childrenIn nodes' p = childrenIn t.nodes p
          rw [childrenIn_of_node hn, childrenIn_of_node (hremoved.kept p n hn)]
      rw [hsame, hdetached]
      apply List.filter_congr
      intro y hy
      have hiff := hgone ((h.forest.hangs y c).mp hy) hc
      rw [decide_eq_decide]
      exact (not_congr hiff).symm
    · intro p hp
      change childrenIn nodes' p = []
      rw [childrenIn, hp]
      rfl
  refine ⟨hforest, ?_, ?_, ?_, ?_⟩
  · intro x d hd
    change d ≤ t.limits.maxTreeDepth
    rw [hlimits]
    obtain ⟨c, hc⟩ := hd.live
    have hc : parentIn nodes' x = some c := hc
    rw [hup] at hc
    split at hc
    · simp at hc
    · rename_i hstays
      obtain ⟨e, he⟩ := h.forest.grounded x c hc
      have hkept : Depth (parentIn nodes') x e := he.prune hclosed hup hstays
      rw [hd.unique hkept]
      exact h.depth x e he
  · change nodes'.size ≤ t.limits.maxNodeCount
    rw [hlimits]
    have hle := hremoved.size_le
    have := h.count
    omega
  · intro x c hx
    change x ∈ t.usedIds
    rw [hused]
    have hx : parentIn nodes' x = some c := hx
    rw [hup] at hx
    split at hx
    · simp at hx
    · exact h.used x c hx
  · intro x n hx
    exact hids x n (hremoved.kept x n hx)

theorem checkCycle_ok (hc : ContainerDepth (parentOf s) c d) (hcycle : checkCycle s id c = .ok ()) :
    ∀ p, c = some p → ∀ k, ¬Below (parentOf s) id p k := by
  rintro p rfl
  have hd : Depth (parentIn s.nodes) p d := hc
  have hsize := depth_le_size hd
  rw [checkCycle] at hcycle
  split at hcycle
  · simp [err] at hcycle
  rename_i hne
  obtain ⟨found, hfound, hnot⟩ := cycleWalk_eq id hd (show d ≤ s.nodes.size + 1 by omega)
  rw [hfound] at hcycle
  cases found with
  | true => simp [err] at hcycle
  | false => exact hnot rfl hne

theorem subtreeDepth_bound (h : StoreForest s) {subtree : Nat}
    (hsubtree : subtreeDepth s id = .ok subtree) {y : NodeId} {k : Nat}
    (hbelow : Below (parentOf s) id y k) : k ≤ subtree := by
  rw [subtreeDepth] at hsubtree
  split at hsubtree
  · simp at hsubtree
  · rename_i depth hdepth
    rw [← Except.ok.inj hsubtree]
    exact subtreeDepthRec_bound h.forest (fun _ => rfl) hdepth hbelow

theorem parentOf_relinked (s : SemanticStore) (id : NodeId) (node : Node) (c : Option NodeId)
    (index : Option Nat) : parentOf (relinked s id node c index) = parentOf s :=
  (parentOf_updateContainer (detached s id node) c _).trans
    (parentOf_updateContainer s node.parentId _)

theorem getElem?_relocate (s : SemanticStore) (id : NodeId) (node : Node) (c : Option NodeId)
    (index : Option Nat) (x : NodeId) : (relocate s id node c index).nodes[x]? =
      if id = x then (relinked s id node c index).nodes[x]?.map fun n => { n with parentId := c }
      else (relinked s id node c index).nodes[x]? :=
  getElem?_adjust ..

theorem parentOf_relocate (hnode : s.nodes[id]? = some node) (c : Option NodeId)
    (index : Option Nat) (x : NodeId) :
    parentOf (relocate s id node c index) x = if x = id then some c else parentOf s x := by
  have hsame := parentOf_relinked s id node c index
  change ((relocate s id node c index).nodes[x]?).map Node.parentId = _
  rw [getElem?_relocate]
  by_cases hx : x = id
  · subst hx
    have hlive : parentOf (relinked s x node c index) x = some node.parentId := by
      rw [hsame]
      exact parentIn_of_node hnode
    obtain ⟨n, hn, -⟩ := parentIn_eq_some.mp hlive
    rw [if_pos rfl, if_pos rfl, hn]
    rfl
  · rw [if_neg (Ne.symm hx), if_neg hx]
    exact congrFun hsame x

theorem containerOf_relocate (h : Forest (parentOf s) (containerOf s))
    (hnode : s.nodes[id]? = some node) (hc : Container (parentOf s) c) (index : Option Nat)
    (c' : Option NodeId) :
    (containerOf (relocate s id node c index) c').Perm
      (if c' = c then id :: (containerOf s c').erase id else (containerOf s c').erase id) := by
  have hdetached := containerOf_detached h hnode
  have hparent : parentOf (detached s id node) = _ := parentOf_updateContainer s node.parentId _
  have herase : ∀ c', (containerOf s c').filter (· ≠ id) = (containerOf s c').erase id := by
    intro c'
    rw [(h.nodup c').erase_eq_filter]
    apply List.filter_congr
    intro x _
    by_cases hx : x = id
    · simp [hx]
    · simp [hx]
  have hattached : containerOf (relinked s id node c index) c' = _ :=
    containerOf_updateContainer (hparent ▸ hc) _ c'
  have hfinal : containerOf (relocate s id node c index) c' =
      containerOf (relinked s id node c index) c' := by
    cases c' with
    | none => rfl
    | some q =>
      change (((relocate s id node c index).nodes[q]?).map Node.orderedChildren).getD [] = _
      rw [getElem?_relocate]
      split
      · rw [Option.map_map]
        rfl
      · rfl
  rw [hfinal, hattached]
  split
  · rename_i heq
    subst heq
    rw [hdetached, herase]
    refine insertAt_perm id ?_
    intro i hi
    obtain ⟨j, -, rfl⟩ := Option.map_eq_some_iff.mp hi
    exact Nat.min_le_right j _
  · rw [hdetached, herase]

theorem relocate_ids (hids : ∀ (x : NodeId) (n : Node), s.nodes[x]? = some n → n.id = x)
    (id : NodeId) (node : Node) (c : Option NodeId) (index : Option Nat) (x : NodeId) (n : Node)
    (h : (relocate s id node c index).nodes[x]? = some n) : n.id = x := by
  have hattached : ∀ x (n : Node), (relinked s id node c index).nodes[x]? = some n → n.id = x :=
    updateContainer_ids (updateContainer_ids hids node.parentId _) c _
  rw [getElem?_relocate] at h
  split at h
  · obtain ⟨m, hm, rfl⟩ := Option.map_eq_some_iff.mp h
    exact hattached x m hm
  · exact hattached x n h

theorem relocate_frame (s : SemanticStore) (id : NodeId) (node : Node) (c : Option NodeId)
    (index : Option Nat) :
    (relocate s id node c index).nodes.size = s.nodes.size ∧
      (relocate s id node c index).usedIds = s.usedIds := by
  constructor
  · change ((relinked s id node c index).nodes.modify id _).size = _
    rw [size_adjust, relinked, updateContainer_size, detached, updateContainer_size]
  · change (relinked s id node c index).usedIds = _
    rw [relinked, updateContainer_usedIds, detached, updateContainer_usedIds]

theorem StoreForest.moved (h : StoreForest s) (hnode : s.nodes[id]? = some node) {subtree : Nat}
    (hcycle : checkCycle s id c = .ok ()) (hsubtree : subtreeDepth s id = .ok subtree)
    (hc : ContainerDepth (parentOf s) c d) (hdepth : d + subtree ≤ s.limits.maxTreeDepth) :
    StoreForest (relocate s id node c index) := by
  obtain ⟨dx, hdx⟩ := h.depth_exists hnode
  have hout := checkCycle_ok hc hcycle
  have hup := parentOf_relocate hnode c index
  have hlimits := (relocate_sameModels s id node c index).limits
  have hcontainer := hc.move hup hout
  have hforest : Forest (parentOf (relocate s id node c index))
      (containerOf (relocate s id node c index)) :=
    h.forest.move hdx hc hout hup
      (containerOf_relocate h.forest hnode (containerDepth_live hc) index)
  refine ⟨hforest, ?_, ?_, ?_, relocate_ids h.ids id node c index⟩
  · intro y e he
    rw [hlimits]
    by_cases hbelow : ∃ k, Below (parentOf s) id y k
    · obtain ⟨k, hk⟩ := hbelow
      have hbound := subtreeDepth_bound h hsubtree hk
      rw [he.unique (Depth.move_inside hdx hup hcontainer hk)]
      omega
    · have hne : y ≠ id := by
        rintro rfl
        exact hbelow ⟨1, .self⟩
      obtain ⟨c', hc'⟩ := he.live
      rw [hup, if_neg hne] at hc'
      obtain ⟨e', he'⟩ := h.forest.grounded y c' hc'
      have hkept := he'.move_outside hup fun k hk => hbelow ⟨k, hk⟩
      rw [he.unique hkept]
      exact h.depth y e' he'
  · rw [(relocate_frame s id node c index).1, hlimits]
    exact h.count
  · intro x c' hx
    rw [(relocate_frame s id node c index).2]
    rw [hup] at hx
    split at hx
    · rename_i heq
      rw [heq]
      exact h.used id node.parentId (parentIn_of_node hnode)
    · exact h.used x c' hx

variable {newOrder : List NodeId}

theorem validateReorder_ok {parentId : NodeId} {current seen : List NodeId}
    (h : validateReorder parentId current seen newOrder = .ok ()) :
    newOrder.Nodup ∧ (∀ x ∈ newOrder, x ∈ current) ∧ ∀ x ∈ newOrder, x ∉ seen := by
  induction newOrder generalizing seen with
  | nil => simp
  | cons child rest ih =>
    rw [validateReorder] at h
    split at h
    · simp at h
    rename_i hcurrent
    split at h
    · simp at h
    rename_i hseen
    obtain ⟨hnodup, hmem, hfresh⟩ := ih h
    refine ⟨?_, ?_, ?_⟩
    · rw [List.nodup_cons]
      refine ⟨fun hchild => ?_, hnodup⟩
      exact hfresh child hchild (by simp)
    · intro x hx
      rcases List.mem_cons.mp hx with rfl | hx
      · exact not_not.mp hcurrent
      · exact hmem x hx
    · intro x hx
      rcases List.mem_cons.mp hx with rfl | hx
      · exact hseen
      · intro hin
        exact hfresh x hx (by simp [hin])

theorem reorder_perm {parentId : NodeId} {current : List NodeId}
    (hlength : newOrder.length = current.length)
    (h : validateReorder parentId current [] newOrder = .ok ()) : newOrder.Perm current := by
  obtain ⟨hnodup, hmem, -⟩ := validateReorder_ok h
  exact (hnodup.subperm hmem).perm_of_length_le (by omega)

theorem StoreForest.reordered (h : StoreForest s) {parentId : NodeId}
    (hnode : s.nodes[parentId]? = some node)
    (hperm : newOrder.Perm node.orderedChildren) :
    StoreForest (updateChildren s parentId fun _ => newOrder) := by
  have hlive : Container (parentOf s) (some parentId) := by
    intro p hp
    rw [← Option.some.inj hp]
    exact ⟨_, parentIn_of_node hnode⟩
  have hcontainer := containerOf_updateContainer hlive fun _ => newOrder
  have hparent : parentOf (updateChildren s parentId fun _ => newOrder) = parentOf s :=
    parentOf_updateContainer s (some parentId) fun _ => newOrder
  have hforest : Forest (parentOf s)
      (containerOf (updateChildren s parentId fun _ => newOrder)) := by
    refine h.forest.reorder ?_
    intro c
    change (containerOf (updateContainer s (some parentId) fun _ => newOrder) c).Perm _
    rw [hcontainer]
    split
    · rename_i heq
      rw [heq, containerOf_child, childrenIn_of_node hnode]
      exact hperm
    · exact List.Perm.refl _
  refine ⟨by rw [hparent]; exact hforest, ?_, ?_, ?_, ?_⟩
  · rw [hparent]
    exact h.depth
  · have hsize := updateContainer_size s (some parentId) fun _ => newOrder
    change (updateContainer s (some parentId) fun _ => newOrder).nodes.size ≤ _
    rw [hsize]
    exact h.count
  · rw [hparent]
    exact h.used
  · exact updateContainer_ids h.ids (some parentId) fun _ => newOrder

theorem StoreForest.putProperties (h : StoreForest s) (hnode : s.nodes[id]? = some node)
    (properties : PropertyMap) :
    StoreForest (putNode s id { node with properties := properties }) := by
  have hlookup : ∀ x, (putNode s id { node with properties := properties }).nodes[x]? =
      if id = x then some { node with properties := properties } else s.nodes[x]? := by
    intro x
    change (s.nodes.insert id _)[x]? = _
    rw [getElem?_put]
  have hparent : parentOf (putNode s id { node with properties := properties }) = parentOf s := by
    funext x
    rw [parentOf, parentOf, hlookup]
    split
    · rename_i heq
      rw [← heq, hnode]
      rfl
    · rfl
  have hcontainer : containerOf (putNode s id { node with properties := properties }) =
      containerOf s := by
    funext c
    cases c with
    | none => rfl
    | some q =>
      rw [containerOf, containerOf, hlookup]
      split
      · rename_i heq
        rw [← heq, hnode]
        rfl
      · rfl
  refine ⟨?_, ?_, ?_, ?_, ?_⟩
  · rw [hparent, hcontainer]
    exact h.forest
  · rw [hparent]
    exact h.depth
  · change (s.nodes.insert id _).size ≤ _
    rw [size_insert_of_present _ hnode]
    exact h.count
  · rw [hparent]
    exact h.used
  · intro x n hx
    rw [hlookup] at hx
    split at hx
    · rename_i heq
      rw [← Option.some.inj hx, ← heq]
      exact h.ids id node hnode
    · exact h.ids x n hx

theorem StoreForest.of_sameNodes (h : StoreForest s) (hnodes : s'.nodes = s.nodes)
    (hroots : s'.roots = s.roots) (hused : s'.usedIds = s.usedIds)
    (hlimits : s'.limits = s.limits) : StoreForest s' := by
  have hparent : parentOf s' = parentOf s := by
    rw [parentOf_eq, parentOf_eq, hnodes]
  have hcontainer : containerOf s' = containerOf s := by
    funext c
    cases c with
    | none => exact hroots
    | some q => rw [containerOf_child, containerOf_child, hnodes]
  refine ⟨?_, ?_, ?_, ?_, ?_⟩
  · rw [hparent, hcontainer]
    exact h.forest
  · rw [hparent, hlimits]
    exact h.depth
  · rw [hnodes, hlimits]
    exact h.count
  · rw [hparent, hused]
    exact h.used
  · rw [hnodes]
    exact h.ids

end Srui.SemanticTree.NodeForest

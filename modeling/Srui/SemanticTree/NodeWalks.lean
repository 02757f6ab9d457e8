import Srui.Basic.Forests
import Srui.SemanticTree.OperationEffects

/-!
The node graph of a store as a forest: what its walks compute, and what the
recursive deletion removes.
-/

namespace Srui.SemanticTree.NodeWalks

open Std Basic.FiniteMaps Basic.Forests SemanticTree.Values SemanticTree.Stores

def parentIn (nodes : NodeMap) (id : NodeId) : Option (Option NodeId) :=
  nodes[id]?.map Node.parentId

def childrenIn (nodes : NodeMap) (id : NodeId) : List NodeId :=
  (nodes[id]?.map Node.orderedChildren).getD []

theorem parentOf_eq (s : SemanticStore) : parentOf s = parentIn s.nodes := rfl

variable {nodes : NodeMap} {id : NodeId}

theorem parentIn_eq_some {parent : Option NodeId} :
    parentIn nodes id = some parent ↔ ∃ node, nodes[id]? = some node ∧ node.parentId = parent := by
  rw [parentIn, Option.map_eq_some_iff]

theorem parentIn_of_node {node : Node} (h : nodes[id]? = some node) :
    parentIn nodes id = some node.parentId :=
  parentIn_eq_some.mpr ⟨node, h, rfl⟩

theorem parentIn_eq_none :
    parentIn nodes id = none ↔ nodes[id]? = none := by
  rw [parentIn, Option.map_eq_none_iff]

theorem childrenIn_of_node {node : Node} (h : nodes[id]? = some node) :
    childrenIn nodes id = node.orderedChildren := by
  rw [childrenIn, h]
  rfl

theorem depth_le_size {d : Nat} (h : Depth (parentIn nodes) id d) :
    d ≤ nodes.size := by
  rw [← card_keySet]
  apply h.le_card
  intro y c hy
  obtain ⟨node, hnode, -⟩ := parentIn_eq_some.mp hy
  exact mem_keySet.mpr ⟨node, hnode⟩

variable {steps : Nat}

/-- `node_depth` counts the nodes on the way to the top level. -/
theorem nodeDepthLoop_eq {d : Nat} (h : Depth (parentIn nodes) id d) (hsteps : d ≤ steps)
    (acc : Nat) :
    nodeDepthLoop nodes steps id acc = .ok (some (acc + d)) := by
  induction h generalizing steps acc with
  | root hroot =>
    obtain ⟨node, hnode, hparent⟩ := parentIn_eq_some.mp hroot
    cases steps with
    | zero => omega
    | succ steps => simp [nodeDepthLoop, hnode, hparent]
  | @child x p d hchild hp ih =>
    obtain ⟨node, hnode, hparent⟩ := parentIn_eq_some.mp hchild
    cases steps with
    | zero => omega
    | succ steps =>
      rw [nodeDepthLoop]
      simp only [hnode, hparent]
      rw [ih (by omega)]
      congr 2
      omega

theorem nodeDepth_eq {s : SemanticStore} {d : Nat} (h : Depth (parentOf s) id d) :
    nodeDepth s id = .ok (some d) := by
  have hsize : d ≤ s.nodes.size := depth_le_size h
  rw [nodeDepth, nodeDepthLoop_eq h (by omega), Nat.zero_add]

theorem nodeDepth_of_dead {s : SemanticStore} (h : s.nodes[id]? = none) :
    nodeDepth s id = .ok none := by
  simp [nodeDepth, nodeDepthLoop, h]

/-- The cycle walk finds `id` exactly when `current` hangs strictly below it. -/
theorem cycleWalk_eq (id : NodeId) {current : NodeId} {d : Nat}
    (h : Depth (parentIn nodes) current d) (hsteps : d ≤ steps) :
    ∃ found, cycleWalk nodes id steps current = .ok found ∧
      (found = false → current ≠ id → ∀ k, ¬Below (parentIn nodes) id current k) := by
  induction h generalizing steps with
  | @root x hroot =>
    obtain ⟨node, hnode, hparent⟩ := parentIn_eq_some.mp hroot
    cases steps with
    | zero => omega
    | succ steps =>
      refine ⟨false, by simp [cycleWalk, hnode, hparent], ?_⟩
      intro _ hne k hbelow
      cases hbelow with
      | self => exact hne rfl
      | step hy _ => simp [hroot] at hy
  | @child x p d hchild hp ih =>
    obtain ⟨node, hnode, hparent⟩ := parentIn_eq_some.mp hchild
    cases steps with
    | zero => omega
    | succ steps =>
      rw [cycleWalk]
      simp only [hnode, hparent]
      split
      · exact ⟨true, rfl, fun hfalse => by simp at hfalse⟩
      · rename_i hpid
        obtain ⟨found, hfound, hnot⟩ := @ih steps (by omega)
        refine ⟨found, hfound, ?_⟩
        intro hfalse hne k hbelow
        cases hbelow with
        | self => exact hne rfl
        | step hy hbelow =>
          rw [hchild, Option.some.injEq, Option.some.injEq] at hy
          subst hy
          exact hnot hfalse hpid _ hbelow

theorem cycleWalk_of_dead {current : NodeId} (h : nodes[current]? = none) (steps : Nat) :
    cycleWalk nodes id (steps + 1) current = .ok false := by
  simp [cycleWalk, h]

section Subtrees

variable {nodes : NodeMap} {kids : Option NodeId → List NodeId}

theorem foldlM_max {f : NodeId → Option Nat} {children : List NodeId} {acc deepest : Nat}
    (h : children.foldlM (fun deepest child => (f child).map (max deepest)) acc = some deepest) :
    acc ≤ deepest ∧ ∀ child ∈ children, ∃ e, f child = some e ∧ e ≤ deepest := by
  induction children generalizing acc with
  | nil =>
    have hacc : acc = deepest := by simpa using h
    exact ⟨by omega, by simp⟩
  | cons child rest ih =>
    rw [List.foldlM_cons] at h
    cases hchild : f child with
    | none => simp [hchild] at h
    | some e =>
      have hrest : rest.foldlM (fun deepest child => (f child).map (max deepest))
          (max acc e) = some deepest := by simpa [hchild] using h
      obtain ⟨hacc, hall⟩ := ih hrest
      refine ⟨by omega, ?_⟩
      intro other hother
      rcases List.mem_cons.mp hother with rfl | hother
      · exact ⟨e, hchild, by omega⟩
      · exact hall other hother

theorem foldlM_max_isSome {f : NodeId → Option Nat} {children : List NodeId} (acc : Nat)
    (h : ∀ child ∈ children, ∃ e, f child = some e) :
    ∃ deepest, children.foldlM (fun deepest child => (f child).map (max deepest)) acc =
      some deepest := by
  induction children generalizing acc with
  | nil => exact ⟨acc, rfl⟩
  | cons child rest ih =>
    obtain ⟨e, he⟩ := h child (by simp)
    rw [List.foldlM_cons, he]
    exact ih (max acc e) fun other hother => h other (by simp [hother])

/-- `subtree_depth` bounds the length of every chain down from `id`. -/
theorem subtreeDepthRec_bound (hforest : Forest (parentIn nodes) kids)
    (hkids : ∀ id, kids (some id) = childrenIn nodes id) {depth : Nat}
    (h : subtreeDepthRec nodes steps id = some depth) {y : NodeId} {k : Nat}
    (hbelow : Below (parentIn nodes) id y k) : k ≤ depth := by
  induction steps generalizing id depth y k with
  | zero => simp [subtreeDepthRec] at h
  | succ steps ih =>
    rw [subtreeDepthRec] at h
    have hk := hbelow.pos
    cases hnode : nodes[id]? with
    | none =>
      have hdepth : depth = 1 := by simpa [hnode] using h.symm
      cases k with
      | zero => omega
      | succ k =>
        cases k with
        | zero => omega
        | succ k =>
          obtain ⟨z, hz, -⟩ := hbelow.head
          obtain ⟨c, hc⟩ := hforest.parent_live hz
          rw [parentIn_eq_none.mpr hnode] at hc
          simp at hc
    | some node =>
      simp only [hnode, Option.map_eq_some_iff] at h
      obtain ⟨deepest, hfold, rfl⟩ := h
      cases k with
      | zero => omega
      | succ k =>
        cases k with
        | zero => omega
        | succ k =>
          obtain ⟨z, hz, hzy⟩ := hbelow.head
          have hmem : z ∈ node.orderedChildren := by
            rw [← childrenIn_of_node hnode, ← hkids]
            exact (hforest.hangs z _).mpr hz
          obtain ⟨e, he, hle⟩ := (foldlM_max hfold).2 z hmem
          have := ih he hzy
          omega

/-- With a step for every live node, `subtree_depth` returns. -/
theorem subtreeDepthRec_isSome (hforest : Forest (parentIn nodes) kids)
    (hkids : ∀ id, kids (some id) = childrenIn nodes id)
    (h : ∀ d, Depth (parentIn nodes) id d → nodes.size < steps + d) (hsteps : 0 < steps) :
    ∃ depth, subtreeDepthRec nodes steps id = some depth := by
  induction steps generalizing id with
  | zero => omega
  | succ steps ih =>
    rw [subtreeDepthRec]
    cases hnode : nodes[id]? with
    | none => exact ⟨1, rfl⟩
    | some node =>
      obtain ⟨d, hd⟩ := hforest.grounded id _ (parentIn_of_node hnode)
      have hbound := h d hd
      have hsome : ∀ child ∈ node.orderedChildren,
          ∃ e, subtreeDepthRec nodes steps child = some e := by
        intro child hchild
        rw [← childrenIn_of_node hnode, ← hkids, hforest.hangs] at hchild
        have hdepth : Depth (parentIn nodes) child (d + 1) := .child hchild hd
        have hsize := depth_le_size hdepth
        refine ih ?_ (by omega)
        intro e he
        rw [← hdepth.unique he]
        omega
      obtain ⟨deepest, hfold⟩ := foldlM_max_isSome 0 hsome
      exact ⟨1 + deepest, by simp [hfold]⟩

end Subtrees

/-- What a recursive deletion of `targets` does to a node map. -/
structure Removed (nodes nodes' : NodeMap) (targets : List NodeId) : Prop where
  kept : ∀ (y : NodeId) (n : Node), nodes'[y]? = some n → nodes[y]? = some n
  gone : ∀ y ∈ targets, nodes'[y]? = none
  closed : ∀ (y : NodeId) (n : Node), nodes[y]? = some n → nodes'[y]? = none →
    ∀ z ∈ n.orderedChildren, nodes'[z]? = none
  caused : ∀ (z : NodeId) (n : Node), nodes[z]? = some n → nodes'[z]? = none →
    z ∈ targets ∨ ∃ (y : NodeId) (ny : Node), nodes[y]? = some ny ∧ nodes'[y]? = none ∧
      z ∈ ny.orderedChildren

theorem removed_nothing (nodes : NodeMap) : Removed nodes nodes [] := by
  refine ⟨fun _ _ h => h, by simp, ?_, ?_⟩
  all_goals
    intro y n hy hgone
    rw [hy] at hgone
    simp at hgone

theorem removed_of_dead (h : nodes[id]? = none) :
    Removed nodes nodes [id] := by
  have hnothing := removed_nothing nodes
  refine ⟨hnothing.kept, ?_, hnothing.closed, ?_⟩
  · intro y hy
    rw [List.mem_singleton.mp hy]
    exact h
  · intro z n hz hgone
    rw [hz] at hgone
    simp at hgone

theorem Removed.size_le {nodes' : NodeMap} {targets : List NodeId}
    (h : Removed nodes nodes' targets) : nodes'.size ≤ nodes.size := by
  rw [← card_keySet, ← card_keySet]
  apply Finset.card_le_card
  intro y hy
  obtain ⟨n, hn⟩ := mem_keySet.mp hy
  exact mem_keySet.mpr ⟨n, h.kept y n hn⟩

theorem Removed.none_of_none {nodes' : NodeMap} {targets : List NodeId}
    (h : Removed nodes nodes' targets) {y : NodeId} (hy : nodes[y]? = none) :
    nodes'[y]? = none := by
  by_contra hne
  obtain ⟨n, hn⟩ := Option.ne_none_iff_exists'.mp hne
  rw [h.kept y n hn] at hy
  simp at hy

theorem Removed.trans {nodes₁ nodes₂ : NodeMap} {first rest : List NodeId}
    (h : Removed nodes nodes₁ first) (h' : Removed nodes₁ nodes₂ rest) :
    Removed nodes nodes₂ (first ++ rest) := by
  refine ⟨fun y n hy => h.kept y n (h'.kept y n hy), ?_, ?_, ?_⟩
  · intro y hy
    rcases List.mem_append.mp hy with hy | hy
    · exact h'.none_of_none (h.gone y hy)
    · exact h'.gone y hy
  · intro y n hy hgone z hz
    cases hmid : nodes₁[y]? with
    | none => exact h'.none_of_none (h.closed y n hy hmid z hz)
    | some n' =>
      have hsame : n' = n := Option.some.inj ((h.kept y n' hmid).symm.trans hy)
      exact h'.closed y n' hmid hgone z (hsame ▸ hz)
  · intro z n hz hgone
    cases hmid : nodes₁[z]? with
    | none =>
      rcases h.caused z n hz hmid with hfirst | ⟨y, ny, hy, hygone, hchild⟩
      · exact Or.inl (List.mem_append_left rest hfirst)
      · exact Or.inr ⟨y, ny, hy, h'.none_of_none hygone, hchild⟩
    | some n' =>
      rcases h'.caused z n' hmid hgone with hrest | ⟨y, ny, hy, hygone, hchild⟩
      · exact Or.inl (List.mem_append_right first hrest)
      · exact Or.inr ⟨y, ny, h.kept y ny hy, hygone, hchild⟩

theorem Removed.node {nodes' : NodeMap} {node : Node} (hnode : nodes[id]? = some node)
    (h : Removed (nodes.erase id) nodes' node.orderedChildren) : Removed nodes nodes' [id] := by
  have hdropped : nodes'[id]? = none := by
    apply h.none_of_none
    rw [getElem?_drop, if_pos rfl]
  have hother : ∀ {y : NodeId} {n : Node}, nodes[y]? = some n → y ≠ id →
      (nodes.erase id)[y]? = some n := by
    intro y n hy hne
    rw [getElem?_drop, if_neg (Ne.symm hne)]
    exact hy
  have hback : ∀ {y : NodeId} {n : Node}, (nodes.erase id)[y]? = some n → nodes[y]? = some n := by
    intro y n hy
    rw [getElem?_drop] at hy
    split at hy
    · simp at hy
    · exact hy
  refine ⟨fun y n hy => hback (h.kept y n hy), ?_, ?_, ?_⟩
  · intro y hy
    rw [List.mem_singleton.mp hy]
    exact hdropped
  · intro y n hy hgone z hz
    by_cases hid : y = id
    · subst hid
      rw [hnode] at hy
      exact h.gone z (Option.some.inj hy ▸ hz)
    · exact h.closed y n (hother hy hid) hgone z hz
  · intro z n hz hgone
    by_cases hid : z = id
    · exact Or.inl (by simp [hid])
    · rcases h.caused z n (hother hz hid) hgone with hchild | ⟨y, ny, hy, hygone, hchild⟩
      · exact Or.inr ⟨id, node, hnode, hdropped, hchild⟩
      · exact Or.inr ⟨y, ny, hback hy, hygone, hchild⟩

theorem deleteSubtreeRecursive_removed {deleted : List NodeId} (hsteps : nodes.size < steps) :
    Removed nodes (deleteSubtreeRecursive steps (nodes, deleted) id).1 [id] := by
  induction steps generalizing nodes deleted id with
  | zero => omega
  | succ steps ih =>
    rw [deleteSubtreeRecursive]
    cases hnode : nodes[id]? with
    | none => exact removed_of_dead hnode
    | some node =>
      have hsize := size_erase_of_present hnode
      -- the children are folded from the left; each call leaves no larger a map
      have hfold : ∀ (children : List NodeId) (state : NodeMap × List NodeId),
          state.1.size < steps →
          Removed state.1 (children.foldl (deleteSubtreeRecursive steps) state).1 children := by
        intro children
        induction children with
        | nil =>
          intro state _
          exact removed_nothing state.1
        | cons child rest ihrest =>
          intro state hstate
          have hfirst := @ih state.1 child state.2 hstate
          have hrest := ihrest (deleteSubtreeRecursive steps state child)
            (Nat.lt_of_le_of_lt hfirst.size_le hstate)
          exact hfirst.trans hrest
      have herased : (nodes.erase id, deleted ++ [id]).1.size < steps := by
        dsimp only
        omega
      exact Removed.node hnode (hfold node.orderedChildren _ herased)

end Srui.SemanticTree.NodeWalks

import Srui.SemanticTree.NodeForest
import Srui.Sessiond.SnapshotModels

/-!
The nodes of an exported snapshot: creating them in pre-order, each at the
position it has among its siblings, rebuilds the forest.
-/

namespace Srui.Sessiond.SnapshotNodes

open Std Basic.Machine Basic.FiniteMaps Basic.Forests SemanticTree.Values SemanticTree.Stores
open SemanticTree.Operations SemanticTree.OperationEffects SemanticTree.NodeWalks
open SemanticTree.NodeForest SemanticTree.Wire SemanticTree.WireRoundTrip Sessiond.Snapshots
open Sessiond.SnapshotModels

structure SameContent (n n' : Node) : Prop where
  id : n'.id = n.id
  nodeType : n'.nodeType = n.nodeType
  properties : n'.properties = n.properties

/-- A store that holds the part of another one on the given nodes, which are
closed under parents. -/
structure Grown (original : SemanticStore) (done : Finset NodeId) (s : SemanticStore) : Prop where
  closed : ∀ x p, x ∈ done → parentOf original x = some (some p) → p ∈ done
  live : ∀ x ∈ done, ∃ c, parentOf original x = some c
  parents : ∀ x, parentOf s x = if x ∈ done then parentOf original x else none
  containers : ∀ c, containerOf s c = (containerOf original c).filter (· ∈ done)
  content : ∀ (x : NodeId) (n : Node), s.nodes[x]? = some n →
    ∃ n₀, original.nodes[x]? = some n₀ ∧ SameContent n₀ n
  used : s.usedIds = done
  models : s.models = original.models
  limits : s.limits = original.limits

variable {original s : SemanticStore} {done : Finset NodeId}

theorem Grown.keySet_eq (h : Grown original done s) : keySet s.nodes = done := by
  ext x
  have hparent := h.parents x
  constructor
  · intro hx
    obtain ⟨n, hn⟩ := mem_keySet.mp hx
    rw [parentOf_eq, parentIn_of_node hn] at hparent
    by_contra hnot
    simp [hnot] at hparent
  · intro hx
    obtain ⟨c, hc⟩ := h.live x hx
    rw [if_pos hx, hc] at hparent
    obtain ⟨n, hn, -⟩ := parentIn_eq_some.mp hparent
    exact mem_keySet.mpr ⟨n, hn⟩

theorem done_subset (h : Grown original done s) : done ⊆ keySet original.nodes := by
  intro x hx
  obtain ⟨c, hc⟩ := h.live x hx
  obtain ⟨n, hn, -⟩ := parentIn_eq_some.mp hc
  exact mem_keySet.mpr ⟨n, hn⟩

theorem Grown.depth (h : Grown original done s) {x : NodeId} {d : Nat}
    (hd : Depth (parentOf original) x d) (hx : x ∈ done) : Depth (parentOf s) x d := by
  induction hd with
  | @root x hroot =>
    refine .root ?_
    rw [h.parents, if_pos hx, hroot]
  | @child x p d hchild hp ih =>
    refine .child ?_ (ih (h.closed x p hx hchild))
    rw [h.parents, if_pos hx, hchild]

theorem Grown.complete (h : Grown original done s) (hforest : StoreForest original)
    (hall : ∀ x c, parentOf original x = some c → x ∈ done) :
    s.nodes = original.nodes ∧ s.roots = original.roots := by
  have hcontainers : ∀ c, containerOf s c = containerOf original c := by
    intro c
    rw [h.containers, List.filter_eq_self]
    intro x hx
    exact decide_eq_true (hall x c ((hforest.forest.hangs x c).mp hx))
  have hparents : ∀ x, parentOf s x = parentOf original x := by
    intro x
    rw [h.parents]
    split
    · rfl
    · rename_i hnot
      symm
      by_contra hne
      obtain ⟨c, hc⟩ := Option.ne_none_iff_exists'.mp hne
      exact hnot (hall x c hc)
  refine ⟨?_, hcontainers none⟩
  apply ExtTreeMap.ext_getElem?
  intro x
  have hparent := hparents x
  have hchildren := hcontainers (some x)
  cases hn : s.nodes[x]? with
  | none =>
    rw [parentOf_eq, parentIn_eq_none.mpr hn] at hparent
    exact (parentIn_eq_none.mp hparent.symm).symm
  | some n =>
    obtain ⟨n₀, hn₀, hcontent⟩ := h.content x n hn
    rw [parentOf_eq, parentOf_eq, parentIn_of_node hn, parentIn_of_node hn₀,
      Option.some.injEq] at hparent
    rw [containerOf_child, containerOf_child, childrenIn_of_node hn,
      childrenIn_of_node hn₀] at hchildren
    rw [hn₀]
    cases n
    cases n₀
    simp only [Option.some.injEq, Node.mk.injEq]
    exact ⟨hcontent.id, hcontent.nodeType, hparent, hchildren, hcontent.properties⟩

/-!
One node created at its place.
-/

/-- Node `x` comes next: its parent is there, and exactly the siblings before it. -/
structure Next (original : SemanticStore) (done : Finset NodeId) (c : Option NodeId)
    (before after : List NodeId) (x : NodeId) : Prop where
  container : containerOf original c = before ++ x :: after
  parent : ∀ p, c = some p → p ∈ done
  earlier : ∀ y ∈ before, y ∈ done
  later : ∀ y ∈ after, y ∉ done
  fresh : x ∉ done

variable {c : Option NodeId} {before after : List NodeId} {x : NodeId}

theorem Next.hangs (hnext : Next original done c before after x) (hforest : StoreForest original) :
    parentOf original x = some c := by
  rw [← hforest.forest.hangs, hnext.container]
  simp

theorem Next.siblings (hnext : Next original done c before after x) :
    (containerOf original c).filter (· ∈ done) = before := by
  rw [hnext.container, List.filter_append, List.filter_cons_of_neg (by simp [hnext.fresh])]
  have hbefore : before.filter (· ∈ done) = before := by
    rw [List.filter_eq_self]
    exact fun y hy => decide_eq_true (hnext.earlier y hy)
  have hafter : after.filter (· ∈ done) = [] := by
    rw [List.filter_eq_nil_iff]
    intro y hy
    simpa using hnext.later y hy
  rw [hbefore, hafter, List.append_nil]

theorem Next.siblings_insert (hnext : Next original done c before after x)
    (hforest : StoreForest original) :
    (containerOf original c).filter (· ∈ insert x done) = before ++ [x] := by
  have hnodup := hforest.forest.nodup c
  rw [hnext.container] at hnodup ⊢
  have hafter : after.filter (· ∈ insert x done) = [] := by
    rw [List.filter_eq_nil_iff]
    intro y hy
    have hne : y ≠ x := by
      rintro rfl
      exact (List.nodup_cons.mp (List.nodup_append.mp hnodup).2.1).1 hy
    simpa [hne] using hnext.later y hy
  have hbefore : before.filter (· ∈ insert x done) = before := by
    rw [List.filter_eq_self]
    intro y hy
    simpa using Or.inr (hnext.earlier y hy)
  rw [List.filter_append, List.filter_cons_of_pos (by simp), hafter, hbefore]

theorem Grown.no_children (h : Grown original done s) (hforest : StoreForest original)
    (hfresh : x ∉ done) : (containerOf original (some x)).filter (· ∈ insert x done) = [] := by
  rw [List.filter_eq_nil_iff]
  intro y hy
  have hup := (hforest.forest.hangs y _).mp hy
  have hne : y ≠ x := by
    rintro rfl
    obtain ⟨d, hd⟩ := hforest.forest.grounded y _ hup
    exact Below.not_parent hd hup .self
  have hnot : y ∉ done := fun hmem => hfresh (h.closed y x hmem hup)
  simp [hne, hnot]

theorem updateContainer_content (s : SemanticStore) (c : Option NodeId)
    (f : List NodeId → List NodeId) {y : NodeId} {n : Node}
    (h : (updateContainer s c f).nodes[y]? = some n) :
    ∃ n₀, s.nodes[y]? = some n₀ ∧ SameContent n₀ n := by
  cases c with
  | none => exact ⟨n, h, rfl, rfl, rfl⟩
  | some p =>
    change (s.nodes.modify p _)[y]? = some n at h
    rw [getElem?_adjust] at h
    split at h
    · obtain ⟨n₀, hn₀, rfl⟩ := Option.map_eq_some_iff.mp h
      exact ⟨n₀, hn₀, rfl, rfl, rfl⟩
    · exact ⟨n, h, rfl, rfl, rfl⟩

theorem SameContent.trans {a b c : Node} (h : SameContent a b) (h' : SameContent b c) :
    SameContent a c :=
  ⟨h'.id.trans h.id, h'.nodeType.trans h.nodeType, h'.properties.trans h.properties⟩

variable {node : Node}

theorem Grown.create (h : Grown original done s) (hforest : StoreForest original)
    (hnext : Next original done c before after x)
    (hnode : original.nodes[x]? = some node) :
    Grown original (insert x done)
      (created s x node.nodeType c (some before.length) node.properties.toList) where
  closed := by
    intro y p hy hp
    rcases Finset.mem_insert.mp hy with rfl | hy
    · rw [hnext.hangs hforest, Option.some.injEq] at hp
      exact Finset.mem_insert_of_mem (hnext.parent p hp)
    · exact Finset.mem_insert_of_mem (h.closed y p hy hp)
  live := by
    intro y hy
    rcases Finset.mem_insert.mp hy with rfl | hy
    · exact ⟨c, hnext.hangs hforest⟩
    · exact h.live y hy
  parents := by
    intro y
    rw [parentOf_created, h.parents]
    by_cases hy : y = x
    · subst hy
      simp [hnext.hangs hforest]
    · simp [hy]
  containers := by
    have hlive : Container (parentOf s) c := by
      rintro p rfl
      have hp := hnext.parent p rfl
      obtain ⟨c', hc'⟩ := h.live p hp
      exact ⟨c', by rw [h.parents, if_pos hp, hc']⟩
    intro c'
    rw [containerOf_created hlive]
    by_cases hself : c' = some x
    · subst hself
      rw [if_pos rfl, h.no_children hforest hnext.fresh]
    · rw [if_neg hself]
      by_cases hc : c' = c
      · subst hc
        rw [if_pos rfl, h.containers, hnext.siblings, hnext.siblings_insert hforest, insertAt,
          List.insertIdx_length_self]
      · rw [if_neg hc, h.containers]
        refine List.filter_congr fun y hy => ?_
        have hne : y ≠ x := by
          rintro rfl
          have hup := (hforest.forest.hangs y c').mp hy
          rw [hnext.hangs hforest, Option.some.injEq] at hup
          exact hc hup.symm
        simp [hne]
  content := by
    intro y n hy
    change ((updateContainer s c _).nodes.insert x _)[y]? = some n at hy
    rw [getElem?_put] at hy
    split at hy
    · rename_i hxy
      subst hxy
      refine ⟨node, hnode, ?_⟩
      rw [← Option.some.inj hy]
      exact ⟨(hforest.ids x node hnode).symm, rfl, insertAll_toList node.properties⟩
    · obtain ⟨n₁, hn₁, hsame⟩ := updateContainer_content s c _ hy
      obtain ⟨n₀, hn₀, hcontent⟩ := h.content y n₁ hn₁
      exact ⟨n₀, hn₀, hcontent.trans hsame⟩
  used := by
    change insert x (updateContainer s c _).usedIds = insert x done
    rw [updateContainer_usedIds, h.used]
  models := by
    cases c <;> exact h.models
  limits := (updateContainer_limits s c _).trans h.limits

/-- Every property passes the checks of the store that holds it. -/
def PropertiesValid (s : SemanticStore) : Prop :=
  ∀ (x : NodeId) (n : Node) (property : PropertyRef) (value : Value),
    s.nodes[x]? = some n → n.properties[property]? = some value →
      validateProperty s property value = .ok ()

theorem validateProperties_ok {properties : List (PropertyRef × Value)}
    (h : ∀ entry ∈ properties, validateProperty s entry.1 entry.2 = .ok ()) :
    validateProperties s properties = .ok () := by
  induction properties with
  | nil => rfl
  | cons entry rest ih =>
    rw [validateProperties, h entry List.mem_cons_self]
    exact ih fun other hother => h other (List.mem_cons_of_mem _ hother)

theorem Next.target (hnext : Next original done c before after x) (h : Grown original done s)
    (hforest : StoreForest original) :
    ∃ depth, targetDepth s c = .ok depth ∧ depth ≤ s.limits.maxTreeDepth := by
  have hup := hnext.hangs hforest
  rw [h.limits]
  cases c with
  | none => exact ⟨1, rfl, hforest.depth x 1 (.root hup)⟩
  | some p =>
    obtain ⟨c', hc'⟩ := h.live p (hnext.parent p rfl)
    obtain ⟨d, hd⟩ := hforest.forest.grounded p c' hc'
    have hdepth := nodeDepth_eq (h.depth hd (hnext.parent p rfl))
    have hle := hforest.depth x (d + 1) (.child hup hd)
    refine ⟨d + 1, ?_, hle⟩
    rw [targetDepth, hdepth]
    simp only
    rw [h.limits, if_neg (by omega)]

theorem Grown.createNode_eq (h : Grown original done s) (hforest : StoreForest original)
    (hvalid : PropertiesValid original) (hnext : Next original done c before after x)
    (hnode : original.nodes[x]? = some node) :
    createNode s x node.nodeType c (some before.length) node.properties.toList =
      .ok (created s x node.nodeType c (some before.length) node.properties.toList) := by
  have hused : x ∉ s.usedIds := by
    rw [h.used]
    exact hnext.fresh
  have hcount : s.nodes.size < s.limits.maxNodeCount := by
    have hsub : insert x done ⊆ keySet original.nodes :=
      Finset.insert_subset (mem_keySet.mpr ⟨node, hnode⟩) (done_subset h)
    have hcard := Finset.card_le_card hsub
    rw [Finset.card_insert_of_notMem hnext.fresh, card_keySet] at hcard
    have hle := hforest.count
    rw [← card_keySet, h.keySet_eq, h.limits]
    omega
  obtain ⟨depth, htarget, hdepth⟩ := hnext.target h hforest
  have hproperties : validateProperties s node.properties.toList = .ok () := by
    refine validateProperties_ok fun entry hentry => ?_
    rw [validateProperty_congr h.models h.limits]
    exact hvalid x node entry.1 entry.2 hnode (mem_toList.mp hentry)
  have hindex : checkChildIndex (some before.length) (containerOf s c).length = .ok () := by
    rw [checkChildIndex, h.containers, hnext.siblings, if_neg (by omega)]
  rw [createNode, if_neg hused, if_neg (by omega), htarget]
  simp only
  rw [if_neg (by omega), hproperties]
  simp only
  rw [hindex]
  rfl

/-- The operation `visit_node` writes for a node. -/
def nodeOp (node : Node) (childIndex : UInt32) : WireOperation :=
  .createNode (some ⟨node.id, some node.nodeType, node.parentId.getD 0, childIndex,
    encodeProperties node.properties.toList⟩)

theorem container_length_le (hforest : StoreForest original) (c : Option NodeId) :
    (containerOf original c).length ≤ original.nodes.size := by
  rw [← card_keySet, ← List.toFinset_card_of_nodup (hforest.forest.nodup c)]
  refine Finset.card_le_card fun x hx => ?_
  obtain ⟨n, hn, -⟩ := parentIn_eq_some.mp ((hforest.forest.hangs x c).mp (List.mem_toFinset.mp hx))
  exact mem_keySet.mpr ⟨n, hn⟩

structure NodesExportable (original : SemanticStore) : Prop where
  forest : StoreForest original
  valid : PropertiesValid original
  parents : ∀ (x : NodeId) (n : Node), original.nodes[x]? = some n → n.parentId ≠ some 0
  width : original.nodes.size ≤ u32Max

theorem nodeOp_rebuilds (h : Grown original done s) (horiginal : NodesExportable original)
    (hnext : Next original done c before after x)
    (hnode : original.nodes[x]? = some node) :
    ∃ s', Grown original (insert x done) s' ∧
      Rebuilds [nodeOp node (UInt32.ofNat before.length)] s s' := by
  have hforest := horiginal.forest
  have hparent : node.parentId = c := by
    have hup := hnext.hangs hforest
    rw [parentOf_eq, parentIn_of_node hnode] at hup
    exact Option.some.inj hup
  have hzero : c ≠ some 0 := hparent ▸ horiginal.parents x node hnode
  have hindex : before.length < u32Max := by
    have hlength := container_length_le hforest c
    have hwidth := horiginal.width
    rw [hnext.container, List.length_append, List.length_cons] at hlength
    omega
  have hdecode : decodeOperation (nodeOp node (UInt32.ofNat before.length)) =
      .ok (.createNode x node.nodeType c (some before.length) node.properties.toList) := by
    have hback : decodeChildIndex (encodeChildIndex (some before.length)) = some before.length :=
      decodeChildIndex_encodeChildIndex fun i hi => Option.some.inj hi ▸ hindex
    rw [encodeChildIndex] at hback
    simp only [nodeOp, decodeOperation, decodeProperties_encodeProperties, asTxnError, hback,
      hparent, decodeParent_getD hzero, hforest.ids x node hnode]
  have happly : apply (.createNode x node.nodeType c (some before.length) node.properties.toList) s =
      (created s x node.nodeType c (some before.length) node.properties.toList, .ok ()) := by
    change commit s (createNode s x node.nodeType c (some before.length)
      node.properties.toList) = _
    rw [h.createNode_eq hforest horiginal.valid hnext hnode]
    rfl
  have hsingle := Rebuilds.single (s := s) hdecode (by rw [happly])
  rw [happly] at hsingle
  exact ⟨_, h.create hforest hnext hnode, hsingle⟩

/-!
Pre-order visits. A visit of `x` adds exactly the nodes at or below `x`.
-/

/-- `done'` is `done` with the nodes at or below one of the roots. -/
def Visited (original : SemanticStore) (done : Finset NodeId) (roots : List NodeId)
    (done' : Finset NodeId) : Prop :=
  ∀ z, z ∈ done' ↔ z ∈ done ∨ ∃ y ∈ roots, ∃ k, Below (parentOf original) y z k

/-- What a visit of `x` at its place does. -/
def Visits (original : SemanticStore) (visit : UInt32 → List WireOperation →
    Option (List WireOperation)) (x : NodeId) : Prop :=
  ∀ (done : Finset NodeId) (s : SemanticStore) (c : Option NodeId) (before after : List NodeId)
    (ops : List WireOperation), Grown original done s → Next original done c before after x →
      (∀ z k, Below (parentOf original) x z k → z ∉ done) →
      ∃ written done' s', visit (UInt32.ofNat before.length) ops = some (ops ++ written) ∧
        Visited original done [x] done' ∧ Grown original done' s' ∧ Rebuilds written s s'

theorem visitSiblings (horiginal : NodesExportable original)
    (visit : NodeId → UInt32 → List WireOperation → Option (List WireOperation))
    {todo : List NodeId} (hvisit : ∀ y ∈ todo, Visits original (visit y) y)
    (h : Grown original done s) (hcontainer : containerOf original c = before ++ todo)
    (hparent : ∀ p, c = some p → p ∈ done) (hbefore : ∀ y ∈ before, y ∈ done)
    (htodo : ∀ y ∈ todo, ∀ z k, Below (parentOf original) y z k → z ∉ done)
    (ops : List WireOperation) :
    ∃ written done' s',
      (todo.zipIdx before.length).foldlM
        (fun ops entry => visit entry.1 (UInt32.ofNat entry.2) ops) ops = some (ops ++ written) ∧
        Visited original done todo done' ∧ Grown original done' s' ∧ Rebuilds written s s' := by
  induction todo generalizing done s before ops with
  | nil =>
    refine ⟨[], done, s, by simp, ?_, h, Rebuilds.refl s⟩
    intro z
    simp
  | cons y rest ih =>
    have hforest := horiginal.forest.forest
    have hnext : Next original done c before rest y := by
      refine ⟨hcontainer, hparent, hbefore, ?_, ?_⟩
      · intro z hz
        exact htodo z (List.mem_cons_of_mem y hz) z 1 .self
      · exact htodo y List.mem_cons_self y 1 .self
    obtain ⟨written, done₁, s₁, hfirst, hvisited, hgrown, hrebuilds⟩ :=
      hvisit y List.mem_cons_self done s c before rest ops h hnext (htodo y List.mem_cons_self)
    have hkeep : ∀ z ∈ done, z ∈ done₁ := fun z hz => (hvisited z).mpr (Or.inl hz)
    have hcontainer' : containerOf original c = (before ++ [y]) ++ rest := by
      rw [hcontainer]
      simp
    have hbefore' : ∀ z ∈ before ++ [y], z ∈ done₁ := by
      intro z hz
      rcases List.mem_append.mp hz with hz | hz
      · exact hkeep z (hbefore z hz)
      · rw [List.mem_singleton.mp hz]
        exact (hvisited y).mpr (Or.inr ⟨y, List.mem_singleton_self y, 1, .self⟩)
    have htodo' : ∀ w ∈ rest, ∀ z k, Below (parentOf original) w z k → z ∉ done₁ := by
      intro w hw z k hz hmem
      rcases (hvisited z).mp hmem with hold | ⟨y', hy', k', hz'⟩
      · exact htodo w (List.mem_cons_of_mem y hw) z k hz hold
      · -- two different members of one container have no node below both
        rw [List.mem_singleton.mp hy'] at hz'
        have hyw : y ≠ w := by
          rintro rfl
          have hnodup := hforest.nodup c
          rw [hcontainer] at hnodup
          exact (List.nodup_cons.mp (List.nodup_append.mp hnodup).2.1).1 hw
        have hyup : parentOf original y = some c := by
          rw [← hforest.hangs, hcontainer]
          simp
        have hwup : parentOf original w = some c := by
          rw [← hforest.hangs, hcontainer]
          simp [hw]
        exact hforest.siblings_disjoint hyup hwup hyw hz' hz
    obtain ⟨more, done', s', hrest, hvisited', hgrown', hrebuilds'⟩ :=
      ih (fun w hw => hvisit w (List.mem_cons_of_mem y hw)) hgrown hcontainer'
        (fun p hp => hkeep p (hparent p hp)) hbefore' htodo' (ops ++ written)
    refine ⟨written ++ more, done', s', ?_, ?_, hgrown', hrebuilds.append hrebuilds'⟩
    · rw [List.zipIdx_cons, List.foldlM_cons, hfirst]
      rw [List.length_append, List.length_singleton] at hrest
      rw [← List.append_assoc]
      exact hrest
    · intro z
      rw [hvisited', hvisited]
      constructor
      · rintro ((hz | ⟨w, hw, hk⟩) | ⟨w, hw, hk⟩)
        · exact Or.inl hz
        · exact Or.inr ⟨w, List.mem_singleton.mp hw ▸ List.mem_cons_self, hk⟩
        · exact Or.inr ⟨w, List.mem_cons_of_mem y hw, hk⟩
      · rintro (hz | ⟨w, hw, hk⟩)
        · exact Or.inl (Or.inl hz)
        · rcases List.mem_cons.mp hw with rfl | hw
          · exact Or.inl (Or.inr ⟨w, List.mem_singleton_self w, hk⟩)
          · exact Or.inr ⟨w, hw, hk⟩

variable {steps : Nat}

theorem visitNode_visits (horiginal : NodesExportable original) {x : NodeId}
    (hlive : ∃ n, original.nodes[x]? = some n)
    (hsteps : ∀ d, Depth (parentOf original) x d → original.nodes.size < steps + d) :
    Visits original (visitNode original.nodes steps x) x := by
  have hforest := horiginal.forest.forest
  induction steps generalizing x with
  | zero =>
    obtain ⟨n, hn⟩ := hlive
    obtain ⟨d, hd⟩ := horiginal.forest.depth_exists hn
    have hsize := depth_le_size hd
    have hbound := hsteps d hd
    omega
  | succ steps ih =>
    obtain ⟨node, hnode⟩ := hlive
    obtain ⟨d, hd⟩ := horiginal.forest.depth_exists hnode
    intro done s c before after ops hgrown hnext hbelow
    obtain ⟨s₁, hgrown₁, hcreate⟩ := nodeOp_rebuilds hgrown horiginal hnext hnode
    have hchildren : containerOf original (some x) = [] ++ node.orderedChildren := by
      rw [containerOf_child, childrenIn_of_node hnode, List.nil_append]
    have hup : ∀ y ∈ node.orderedChildren, parentOf original y = some (some x) := by
      intro y hy
      rw [← hforest.hangs, hchildren, List.nil_append]
      exact hy
    have hvisit : ∀ y ∈ node.orderedChildren,
        Visits original (visitNode original.nodes steps y) y := by
      intro y hy
      obtain ⟨n, hn, -⟩ := parentIn_eq_some.mp (hup y hy)
      refine ih ⟨n, hn⟩ fun e he => ?_
      have hdepth : Depth (parentOf original) y (d + 1) := .child (hup y hy) hd
      have hbound := hsteps d hd
      rw [← hdepth.unique he]
      omega
    have hfresh : ∀ y ∈ node.orderedChildren, ∀ z k, Below (parentOf original) y z k →
        z ∉ insert x done := by
      intro y hy z k hz hmem
      rcases Finset.mem_insert.mp hmem with rfl | hmem
      · have hdepth := hz.depth (.child (hup y hy) hd)
        have hpos := hz.pos
        have := hd.unique hdepth
        omega
      · exact hbelow z (k + 1) (hz.under (hup y hy)) hmem
    obtain ⟨written, done', s', hfold, hvisited, hgrown', hrebuilds⟩ :=
      visitSiblings horiginal (visitNode original.nodes steps) hvisit hgrown₁ hchildren
        (fun p hp => by rw [← Option.some.inj hp]; exact Finset.mem_insert_self x done)
        (by simp) hfresh (ops ++ [nodeOp node (UInt32.ofNat before.length)])
    refine ⟨nodeOp node (UInt32.ofNat before.length) :: written, done', s', ?_, ?_, hgrown', ?_⟩
    · rw [visitNode, hnode]
      rw [List.append_assoc] at hfold
      exact hfold
    · intro z
      rw [hvisited, Finset.mem_insert]
      simp only [List.mem_singleton]
      constructor
      · rintro ((rfl | hz) | ⟨y, hy, k, hk⟩)
        · exact Or.inr ⟨z, rfl, 1, .self⟩
        · exact Or.inl hz
        · exact Or.inr ⟨x, rfl, k + 1, hk.under (hup y hy)⟩
      · rintro (hz | ⟨w, rfl, k, hk⟩)
        · exact Or.inl (Or.inr hz)
        · rcases hk.top with rfl | ⟨y, j, hy, hk⟩
          · exact Or.inl (Or.inl rfl)
          · have hmem : y ∈ node.orderedChildren := by
              rw [← List.nil_append node.orderedChildren, ← hchildren, hforest.hangs]
              exact hy
            exact Or.inr ⟨y, hmem, j, hk⟩
    · exact hcreate.append hrebuilds

/-!
A snapshot has an operation for every node, so its length bounds the positions
that have to fit a child index.
-/

/-- The operations grew by one for each of some nodes, among them those at or
below the roots. -/
def Counts (original : SemanticStore) (roots : List NodeId) (ops ops' : List WireOperation) :
    Prop :=
  ∃ ids : List NodeId, ops'.length = ops.length + ids.length ∧
    ∀ y ∈ roots, ∀ z k, Below (parentOf original) y z k → z ∈ ids

variable {ops ops' : List WireOperation}

theorem foldVisits_counts (original : SemanticStore) {visit : NodeId → UInt32 →
      List WireOperation → Option (List WireOperation)} {todo : List NodeId}
    (hvisit : ∀ y ∈ todo, ∀ idx ops ops', visit y idx ops = some ops' →
      Counts original [y] ops ops')
    {start : Nat}
    (h : (todo.zipIdx start).foldlM (fun ops entry => visit entry.1 (UInt32.ofNat entry.2) ops)
      ops = some ops') : Counts original todo ops ops' := by
  induction todo generalizing start ops with
  | nil =>
    have heq : ops = ops' := by simpa using h
    exact ⟨[], by simp [heq], by simp⟩
  | cons y rest ih =>
    rw [List.zipIdx_cons, List.foldlM_cons] at h
    cases hfirst : visit y (UInt32.ofNat start) ops with
    | none => simp [hfirst] at h
    | some middle =>
      rw [hfirst] at h
      obtain ⟨ids, hlength, hids⟩ := hvisit y List.mem_cons_self _ _ _ hfirst
      obtain ⟨more, hmore, hrest⟩ :=
        ih (fun w hw => hvisit w (List.mem_cons_of_mem y hw)) h
      refine ⟨ids ++ more, by rw [List.length_append]; omega, ?_⟩
      intro w hw z k hz
      rcases List.mem_cons.mp hw with rfl | hw
      · exact List.mem_append_left _ (hids w (List.mem_singleton_self w) z k hz)
      · exact List.mem_append_right _ (hrest w hw z k hz)

theorem visitNode_counts (hforest : StoreForest original) {x : NodeId}
    (hlive : ∃ n, original.nodes[x]? = some n) {idx : UInt32}
    (h : visitNode original.nodes steps x idx ops = some ops') : Counts original [x] ops ops' := by
  induction steps generalizing x idx ops ops' with
  | zero => simp [visitNode] at h
  | succ steps ih =>
    obtain ⟨node, hnode⟩ := hlive
    rw [visitNode, hnode] at h
    have hup : ∀ y, y ∈ node.orderedChildren ↔ parentOf original y = some (some x) := by
      intro y
      rw [← hforest.forest.hangs, containerOf_child, childrenIn_of_node hnode]
    obtain ⟨ids, hlength, hids⟩ := foldVisits_counts original
      (fun y hy idx ops ops' hvisit => by
        obtain ⟨n, hn, -⟩ := parentIn_eq_some.mp ((hup y).mp hy)
        exact ih ⟨n, hn⟩ hvisit) h
    refine ⟨x :: ids, ?_, ?_⟩
    · rw [List.length_append, List.length_singleton] at hlength
      rw [List.length_cons]
      omega
    · intro w hw z k hz
      rw [List.mem_singleton.mp hw] at hz
      rcases hz.top with rfl | ⟨y, j, hy, hk⟩
      · exact List.mem_cons_self
      · exact List.mem_cons_of_mem _ (hids y ((hup y).mpr hy) z j hk)

theorem roots_count (hforest : StoreForest original)
    (h : original.roots.zipIdx.foldlM (fun ops entry => visitNode original.nodes steps entry.1
      (UInt32.ofNat entry.2) ops) ops = some ops') :
    ops.length + original.nodes.size ≤ ops'.length := by
  have hroot : ∀ y, y ∈ original.roots ↔ parentOf original y = some none :=
    fun y => hforest.forest.hangs y none
  obtain ⟨ids, hlength, hids⟩ := foldVisits_counts original
    (fun y hy idx ops ops' hvisit => by
      obtain ⟨n, hn, -⟩ := parentIn_eq_some.mp ((hroot y).mp hy)
      exact visitNode_counts hforest ⟨n, hn⟩ hvisit) h
  have hsub : keySet original.nodes ⊆ ids.toFinset := by
    intro z hz
    obtain ⟨n, hn⟩ := mem_keySet.mp hz
    obtain ⟨d, hd⟩ := hforest.depth_exists hn
    obtain ⟨y, k, hy, hk⟩ := hd.below_root
    exact List.mem_toFinset.mpr (hids y ((hroot y).mpr hy) z k hk)
  have hcard := Finset.card_le_card hsub
  rw [card_keySet] at hcard
  have hle := List.toFinset_card_le ids
  omega

theorem visitRoots_rebuild (horiginal : NodesExportable original)
    (h : Grown original ∅ s) (ops : List WireOperation) :
    ∃ written s', original.roots.zipIdx.foldlM (fun ops entry => visitNode original.nodes
        (original.nodes.size + 1) entry.1 (UInt32.ofNat entry.2) ops) ops =
        some (ops ++ written) ∧ Rebuilds written s s' ∧
      s'.nodes = original.nodes ∧ s'.roots = original.roots ∧ s'.models = original.models ∧
      s'.usedIds ⊆ keySet original.nodes := by
  have hforest := horiginal.forest
  have hroot : ∀ y ∈ original.roots, ∃ n, original.nodes[y]? = some n := by
    intro y hy
    obtain ⟨n, hn, -⟩ := parentIn_eq_some.mp ((hforest.forest.hangs y none).mp hy)
    exact ⟨n, hn⟩
  have hcontainer : containerOf original none = [] ++ original.roots := rfl
  obtain ⟨written, done', s', hfold, hvisited, hgrown, hrebuilds⟩ :=
    visitSiblings horiginal (visitNode original.nodes (original.nodes.size + 1))
      (fun y hy => visitNode_visits horiginal (hroot y hy) fun d hd => by
        have := hd.pos
        omega)
      h hcontainer (by simp) (by simp) (by simp) ops
  refine ⟨written, s', hfold, hrebuilds, ?_⟩
  obtain ⟨hnodes, hroots⟩ := hgrown.complete hforest (by
    intro x c hx
    obtain ⟨d, hd⟩ := hforest.forest.grounded x c hx
    obtain ⟨y, k, hy, hk⟩ := hd.below_root
    exact (hvisited x).mpr (Or.inr ⟨y, (hforest.forest.hangs y none).mpr hy, k, hk⟩))
  exact ⟨hnodes, hroots, hgrown.models, hgrown.used ▸ done_subset hgrown⟩

end Srui.Sessiond.SnapshotNodes

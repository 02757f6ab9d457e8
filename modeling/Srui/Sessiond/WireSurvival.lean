import Srui.Sessiond.StoreIntegrity

/-!
Which of the operations a store accepts do the same to it once they have travelled on
the wire.
-/

namespace Srui.Sessiond.WireSurvival

open Std Basic.Machine Basic.FiniteMaps Basic.Runs SemanticTree.Values SemanticTree.Limits
open SemanticTree.Models SemanticTree.Stores SemanticTree.Operations SemanticTree.OperationEffects
open SemanticTree.NodeWalks SemanticTree.NodeForest SemanticTree.NodeRuns SemanticTree.Wire
open SemanticTree.WireRoundTrip Sessiond.ModelSnapshots Sessiond.StoreIntegrity

/-- The operation decodes, and what it decodes to succeeds and leaves the same store. -/
def Survives (s : SemanticStore) (op : Operation) : Prop :=
  ∃ received, decodeOperation (encodeOperation op) = .ok received ∧
    apply received s = ((apply op s).1, .ok ())

/-- What keeps the sentinels of the messages out of reach: the lists of nodes are shorter
than `u32::MAX`, and no model is longer than `u64::MAX`. -/
structure Addressable (s : SemanticStore) : Prop where
  forest : StoreForest s
  nodes : s.limits.maxNodeCount < u32Max
  models : ∀ (id : ModelId) (m : Model), s.models[id]? = some m → m.itemCount ≤ u64Max

variable {s : SemanticStore}

theorem StoreForest.container_length (h : StoreForest s) (c : Option NodeId) :
    (containerOf s c).length ≤ s.nodes.size := by
  rw [← List.toFinset_card_of_nodup (h.forest.nodup c), ← card_keySet]
  apply Finset.card_le_card
  intro x hx
  obtain ⟨n, hn, -⟩ := parentIn_eq_some.mp ((h.forest.hangs x c).mp (List.mem_toFinset.mp hx))
  exact mem_keySet.mpr ⟨n, hn⟩

theorem Addressable.childIndex (h : Addressable s) {index : Option Nat} {c : Option NodeId}
    (hindex : checkChildIndex index (containerOf s c).length = .ok ()) :
    ∀ i, index = some i → i < u32Max := by
  intro i hi
  have hbound : i ≤ (containerOf s c).length := checkChildIndex_ok hindex i hi
  have hlength := StoreForest.container_length h.forest c
  exact Nat.lt_of_le_of_lt (hbound.trans (hlength.trans h.forest.count)) h.nodes

theorem commit_ok {r : Outcome StoreError SemanticStore} (h : (commit s r).2 = .ok ()) :
    r = .ok (commit s r).1 := by
  cases r with
  | ok s' => rfl
  | error f => simp [commit] at h

/-- No items are ever written from `u64::MAX` on. -/
theorem Addressable.update (h : Addressable s) {id : ModelId} {items : List ModelItem}
    (hok : (apply (.modelUpdate id (some u64Max) items) s).2 = .ok ()) : items = [] := by
  cases items with
  | nil => rfl
  | cons item rest =>
    rw [apply, modelUpdate, modelUpdateChecked.eq_def] at hok
    split at hok
    · simp [err] at hok
    rw [onModel] at hok
    split at hok
    · simp [err] at hok
    rename_i model hmodel
    have hwidth := h.models id model hmodel
    have hadd : checkedAdd u64Max 0 = some u64Max := by decide
    simp only [updateItems, updateAt, hadd] at hok
    rw [if_pos hwidth] at hok
    simp [err] at hok

variable {op : Operation}

theorem Addressable.wireSafe (h : Addressable s) (hok : (apply op s).2 = .ok ())
    (hparent : GivesParent (· ≠ some 0) op) : WireSafe op := by
  cases op with
  | createNode id nodeType parentId childIndex properties =>
    obtain ⟨-, -, -, -, hindex, -⟩ := createNode_ok (commit_ok hok)
    exact ⟨hparent, h.childIndex hindex⟩
  | moveNode id newParentId newChildIndex =>
    obtain ⟨node, _, _, -, -, -, -, -, hindex, -⟩ := moveNode_ok (commit_ok hok)
    exact ⟨hparent, h.childIndex hindex⟩
  | modelUpdate id index items =>
    rintro rfl
    exact h.update hok
  | _ => trivial

theorem parentOf_create {id : NodeId} {nodeType : TypeRef} {parentId : Option NodeId}
    {childIndex : Option Nat} {properties : List (PropertyRef × Value)}
    (hok : (apply (.createNode id nodeType parentId childIndex properties) s).2 = .ok ()) :
    parentOf (apply (.createNode id nodeType parentId childIndex properties) s).1 id =
      some parentId := by
  obtain ⟨-, -, -, -, -, hs'⟩ := createNode_ok (commit_ok hok)
  rw [apply, hs', parentOf]
  simp [Node.new]

theorem parentOf_move {id : NodeId} {newParentId : Option NodeId} {newChildIndex : Option Nat}
    (hok : (apply (.moveNode id newParentId newChildIndex) s).2 = .ok ()) :
    parentOf (apply (.moveNode id newParentId newChildIndex) s).1 id = some newParentId := by
  obtain ⟨node, _, _, hnode, -, -, -, -, -, hs'⟩ := moveNode_ok (commit_ok hok)
  rw [apply, hs', parentOf_relocate hnode, if_pos rfl]

theorem not_survives (hok : (apply op s).2 = .ok ())
    (hparent : ¬ GivesParent (· ≠ some 0) op) : ¬ Survives s op := by
  rintro ⟨received, hdecode, happly⟩
  rw [decodeOperation_encodeOperation] at hdecode
  obtain rfl := Except.ok.inj hdecode
  have hreceived : (apply (wireImage op) s).2 = .ok () := by rw [happly]
  have hstores : (apply (wireImage op) s).1 = (apply op s).1 := by rw [happly]
  cases op with
  | createNode id nodeType parentId childIndex properties =>
    obtain rfl : parentId = some 0 := not_not.mp hparent
    have hroot := parentOf_create hreceived
    have hchild := parentOf_create hok
    rw [wireImage] at hstores
    rw [hstores, hchild] at hroot
    simp [decodeParent] at hroot
  | moveNode id newParentId newChildIndex =>
    obtain rfl : newParentId = some 0 := not_not.mp hparent
    have hroot := parentOf_move hreceived
    have hchild := parentOf_move hok
    rw [wireImage] at hstores
    rw [hstores, hchild] at hroot
    simp [decodeParent] at hroot
  | _ => exact hparent trivial

theorem Addressable.survives_iff (h : Addressable s)
    (hok : (apply op s).2 = .ok ()) : Survives s op ↔ GivesParent (· ≠ some 0) op := by
  constructor
  · intro hsurvives
    by_contra hparent
    exact not_survives hok hparent hsurvives
  · intro hparent
    refine ⟨wireImage op, decodeOperation_encodeOperation op, ?_⟩
    rw [apply_wireImage (h.wireSafe hok hparent)]
    exact Prod.ext rfl hok

theorem run_addressable {ops : List Operation} (hsized : ∀ op ∈ ops, WordSized op) :
    Addressable (run applyStep (SemanticStore.withLimits StoreLimits.default) ops) := by
  have hwidth : ∀ (id : ModelId) (m : Model),
      (run applyStep (SemanticStore.withLimits StoreLimits.default) ops).models[id]? = some m →
        m.itemCount ≤ u64Max := by
    have hsizes : EveryStep applyStep (fun _ op => WordSized op)
        (SemanticStore.withLimits StoreLimits.default) ops := everyStep_of_mem hsized _
    refine hsizes.invariant (P := fun t : SemanticStore => ∀ (id : ModelId) (m : Model),
      t.models[id]? = some m → m.itemCount ≤ u64Max) (fun _ _ h hop => apply_width h hop) ?_
    intro id m hm
    simp [SemanticStore.withLimits, SemanticStore.withLimitsAndRevision] at hm
  have hlimits : (run applyStep (SemanticStore.withLimits StoreLimits.default) ops).limits =
      StoreLimits.default :=
    run_invariant (P := fun t : SemanticStore => t.limits = StoreLimits.default)
      (fun t op ht => (apply_limits t op).trans ht) rfl ops
  exact ⟨run_storeForest StoreLimits.default 0 ops, by rw [hlimits]; decide, hwidth⟩

/-- In every store that operations lead to from an empty one with the default limits, an
operation that succeeds does the same after a round trip exactly when it does not put a
node under node zero. -/
theorem accepted_survives_iff (ops : List Operation) (hsized : ∀ op ∈ ops, WordSized op)
    (op : Operation)
    (hok : (apply op (run applyStep (SemanticStore.withLimits StoreLimits.default) ops)).2 =
      .ok ()) :
    Survives (run applyStep (SemanticStore.withLimits StoreLimits.default) ops) op ↔
      GivesParent (· ≠ some 0) op :=
  (run_addressable hsized).survives_iff hok

theorem childOfOne_survives :
    Survives (run applyStep (SemanticStore.withLimits StoreLimits.default)
        [.createNode 1 ⟨0, 1⟩ none none []]) (.createNode 2 ⟨0, 1⟩ (some 1) (some 0) []) ↔
      GivesParent (· ≠ some 0) (.createNode 2 ⟨0, 1⟩ (some 1) (some 0) []) :=
  accepted_survives_iff [.createNode 1 ⟨0, 1⟩ none none []] (by decide)
    (.createNode 2 ⟨0, 1⟩ (some 1) (some 0) []) (by decide +kernel)

theorem childOfZero_not_survives :
    (apply (.createNode 1 ⟨0, 1⟩ (some 0) none [])
        (run applyStep (SemanticStore.withLimits StoreLimits.default)
          [.createNode 0 ⟨0, 1⟩ none none []])).2 = .ok () ∧
      ¬ Survives (run applyStep (SemanticStore.withLimits StoreLimits.default)
        [.createNode 0 ⟨0, 1⟩ none none []]) (.createNode 1 ⟨0, 1⟩ (some 0) none []) := by
  have hok : (apply (.createNode 1 ⟨0, 1⟩ (some 0) none [])
      (run applyStep (SemanticStore.withLimits StoreLimits.default)
        [.createNode 0 ⟨0, 1⟩ none none []])).2 = .ok () := by decide +kernel
  exact ⟨hok, not_survives hok fun h => h rfl⟩

end Srui.Sessiond.WireSurvival

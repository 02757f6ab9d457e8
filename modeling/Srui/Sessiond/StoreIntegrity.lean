import Srui.SemanticTree.NodeRuns
import Srui.Sessiond.ModelSnapshots

/-!
What was checked on the way into a store holds of all that is in it: properties and
items within the limits, and references to live models.
-/

namespace Srui.Sessiond.StoreIntegrity

open Std Basic.FiniteMaps Basic.Runs SemanticTree.Values SemanticTree.Limits SemanticTree.Models
open SemanticTree.Stores SemanticTree.Operations SemanticTree.OperationEffects
open SemanticTree.NodeWalks SemanticTree.NodeRuns Sessiond.SnapshotModels Sessiond.ModelSnapshots

/-!
Nodes hold what was checked when it was written.
-/

structure Wholesome (allowed : Option NodeId → Prop) (s : SemanticStore) (n : Node) : Prop where
  properties : ∀ (property : PropertyRef) (value : Value), n.properties[property]? = some value →
    validateProperty s property value = .ok ()
  parent : allowed n.parentId

def AllWholesome (allowed : Option NodeId → Prop) (s : SemanticStore) (nodes : NodeMap) : Prop :=
  ∀ (x : NodeId) (n : Node), nodes[x]? = some n → Wholesome allowed s n

def GivesParent (allowed : Option NodeId → Prop) : Operation → Prop
  | .createNode _ _ parentId _ _ => allowed parentId
  | .moveNode _ newParentId _ => allowed newParentId
  | _ => True

variable {allowed : Option NodeId → Prop} {s t : SemanticStore}

variable {properties : List (PropertyRef × Value)}

theorem validateProperties_mem
    (h : validateProperties s properties = .ok ()) {entry : PropertyRef × Value}
    (hentry : entry ∈ properties) : validateProperty s entry.1 entry.2 = .ok () := by
  induction properties with
  | nil => simp at hentry
  | cons first rest ih =>
    rw [validateProperties] at h
    cases hfirst : validateProperty s first.1 first.2 with
    | error e => simp [hfirst] at h
    | ok _ =>
      rw [hfirst] at h
      rcases List.mem_cons.mp hentry with rfl | hentry
      · exact hfirst
      · exact ih h hentry

variable {value : Value} {property : PropertyRef}

theorem insertProperties_source {map : PropertyMap}
    (h : (insertProperties map properties)[property]? = some value) :
    map[property]? = some value ∨ (property, value) ∈ properties := by
  induction properties generalizing map with
  | nil => exact .inl h
  | cons first rest ih =>
    rcases ih h with hmap | hrest
    · rw [getElem?_put] at hmap
      split at hmap
      · rename_i heq
        refine .inr (List.mem_cons.mpr (.inl ?_))
        rw [← heq, ← Option.some.inj hmap]
      · exact .inl hmap
    · exact .inr (List.mem_cons_of_mem first hrest)

theorem Wholesome.insertAll {n : Node} (h : Wholesome allowed s n)
    (hvalid : validateProperties s properties = .ok ()) :
    Wholesome allowed s { n with properties := insertProperties n.properties properties } := by
  refine ⟨?_, h.parent⟩
  intro property value hvalue
  rcases insertProperties_source hvalue with hold | hnew
  · exact h.properties property value hold
  · exact validateProperties_mem hvalid hnew

variable {nodes : NodeMap}

theorem AllWholesome.put (h : AllWholesome allowed s nodes) (id : NodeId) {node : Node}
    (hnode : Wholesome allowed s node) : AllWholesome allowed s (nodes.insert id node) := by
  intro x n hn
  rw [getElem?_put] at hn
  split at hn
  · exact Option.some.inj hn ▸ hnode
  · exact h x n hn

theorem AllWholesome.modify (h : AllWholesome allowed s nodes) (id : NodeId)
    {f : Node → Node} (hf : ∀ n, Wholesome allowed s n → Wholesome allowed s (f n)) :
    AllWholesome allowed s (nodes.modify id f) := by
  intro x n hn
  rw [getElem?_adjust] at hn
  split at hn
  · obtain ⟨m, hm, rfl⟩ := Option.map_eq_some_iff.mp hn
    exact hf m (h x m hm)
  · exact h x n hn

theorem AllWholesome.attached (h : AllWholesome allowed t s.nodes) (c : Option NodeId)
    (f : List NodeId → List NodeId) :
    AllWholesome allowed t (updateContainer s c f).nodes := by
  cases c with
  | none => exact h
  | some p => exact h.modify p fun n hn => ⟨hn.properties, hn.parent⟩

theorem AllWholesome.mutated (h : AllWholesome allowed s s.nodes) {op : Operation} {id : ModelId}
    {f : Model → Mutation Model} (hop : mutationOf s.limits op = some (id, f)) :
    AllWholesome allowed s (apply op s).1.nodes := by
  rw [(mutation_sameNodes hop).1]
  exact h

theorem apply_wholesome (h : AllWholesome allowed s s.nodes) {op : Operation}
    (hparent : GivesParent allowed op) :
    AllWholesome allowed s (apply op s).1.nodes := by
  cases op with
  | createNode id nodeType parentId childIndex properties =>
    refine commit_invariant (P := fun t => AllWholesome allowed s t.nodes) h ?_
    intro s' hok
    obtain ⟨-, -, -, hvalid, -, rfl⟩ := createNode_ok hok
    have hbare : Wholesome allowed s ⟨id, nodeType, parentId, [], ∅⟩ := by
      refine ⟨?_, hparent⟩
      intro property value hvalue
      simp at hvalue
    exact (h.attached parentId _).put id (hbare.insertAll hvalid)
  | deleteNode id =>
    refine commitFst_invariant (P := fun t => AllWholesome allowed s t.nodes) h ?_
    intro s' deleted hok
    obtain ⟨node, -, rfl⟩ := deleteNode_ok hok
    intro x n hn
    exact h.attached node.parentId (fun ids => ids.filter (· ≠ id)) x n
      ((deleteSubtreeRecursive_removed (Nat.lt_succ_self _)).kept x n hn)
  | setProperty id property value =>
    refine commitFst_invariant (P := fun t => AllWholesome allowed s t.nodes) h ?_
    intro s' old hok
    obtain ⟨hvalid, node, hnode, rfl⟩ := setProperty_ok hok
    have hone : validateProperties s [(property, value)] = .ok () := by
      rw [validateProperties, hvalid]
      rfl
    exact h.put id ((h id node hnode).insertAll hone)
  | clearProperty id property =>
    refine commitFst_invariant (P := fun t => AllWholesome allowed s t.nodes) h ?_
    intro s' old hok
    obtain ⟨node, hnode, rfl⟩ := clearProperty_ok hok
    refine h.put id ⟨?_, (h id node hnode).parent⟩
    intro other value hvalue
    rw [getElem?_drop] at hvalue
    split at hvalue
    · simp at hvalue
    · exact (h id node hnode).properties other value hvalue
  | moveNode id newParentId newChildIndex =>
    refine commit_invariant (P := fun t => AllWholesome allowed s t.nodes) h ?_
    intro s' hok
    obtain ⟨node, -, -, -, -, -, -, -, -, rfl⟩ := moveNode_ok hok
    refine ((h.attached node.parentId _).attached newParentId _).modify id ?_
    intro n hn
    exact ⟨hn.properties, hparent⟩
  | reorderChildren parentId newOrder =>
    refine commit_invariant (P := fun t => AllWholesome allowed s t.nodes) h ?_
    intro s' hok
    obtain ⟨node, -, -, -, rfl⟩ := reorderChildren_ok hok
    exact h.attached (some parentId) _
  | batchPropertySet id properties =>
    refine commit_invariant (P := fun t => AllWholesome allowed s t.nodes) h ?_
    intro s' hok
    obtain ⟨hvalid, node, hnode, rfl⟩ := batchPropertySet_ok hok
    exact h.put id ((h id node hnode).insertAll hvalid)
  | createModel id modelType itemCount =>
    refine commit_invariant (P := fun t => AllWholesome allowed s t.nodes) h ?_
    intro s' hok
    obtain ⟨-, -, rfl⟩ := createModel_ok hok
    exact h
  | modelInsert id index items | modelDelete id index count itemIds | modelUpdate id index items
  | modelResetRange id startIndex items totalCount => exact h.mutated rfl

theorem apply_contains (s : SemanticStore) (op : Operation) {id : ModelId}
    (h : s.models.contains id = true) : (apply op s).1.models.contains id = true := by
  rcases apply_modelEffect s op with ⟨hsame, -⟩ | ⟨other, f, e, -, heq⟩ |
    ⟨other, modelType, itemCount, -, -, -, heq⟩ | ⟨other, f, model, -, -, heq⟩
  · rw [hsame.models]
    exact h
  · rw [heq]
    exact h
  · rw [heq]
    simp [h]
  · rw [heq]
    simp [h]

theorem validateProperty_grows
    (hlimits : t.limits = s.limits)
    (hmodels : ∀ id, s.models.contains id = true → t.models.contains id = true)
    (h : validateProperty s property value = .ok ()) :
    validateProperty t property value = .ok () := by
  unfold validateProperty at h ⊢
  rw [hlimits]
  split at h
  · simp at h
  rename_i hvalue
  unfold validatePropertyReferences at h ⊢
  split at h
  · rename_i href
    rw [if_pos href]
    split at h
    · split at h
      · rename_i hlive
        simp [hmodels _ hlive]
      · simp at h
    · split at h
      · rename_i hsign
        split at h
        · rename_i hlive
          simp [hsign, hmodels _ hlive]
        · simp at h
      · simp at h
    · simp at h
  · rename_i hother
    rw [if_neg hother]

theorem apply_modelCount (h : s.models.size ≤ s.limits.maxModelCount) (op : Operation) :
    (apply op s).1.models.size ≤ s.limits.maxModelCount := by
  rcases apply_modelEffect s op with ⟨hsame, -⟩ | ⟨id, f, e, -, heq⟩ |
    ⟨id, modelType, itemCount, -, -, hsize, heq⟩ | ⟨id, f, model, -, hmodel, heq⟩
  · rw [hsame.models]
    exact h
  · rw [heq]
    exact h
  · rw [heq]
    exact Nat.le_trans ExtTreeMap.size_insert_le hsize
  · rw [heq]
    simp only [size_insert_of_present _ hmodel]
    exact h

/-!
Whole stores.
-/

/-- The value names a live model by a non-negative integer. -/
def NamesModel (s : SemanticStore) (value : Value) : Prop :=
  ∃ id : Nat, (value = .scalar (.unsignedInt id) ∨ value = .scalar (.signedInt id)) ∧
    s.models.contains id = true

/-- References name live models, and everything stored is within the limits. -/
structure Intact (s : SemanticStore) : Prop where
  references : ∀ (x : NodeId) (n : Node) (value : Value), s.nodes[x]? = some n →
    n.properties[PropertyRef.modelRef]? = some value → NamesModel s value
  properties : ∀ (x : NodeId) (n : Node) (property : PropertyRef) (value : Value),
    s.nodes[x]? = some n → n.properties[property]? = some value →
      validateValue s.limits value = .ok ()
  items : ∀ (id : ModelId) (m : Model) (i : Nat) (item : ModelItem), s.models[id]? = some m →
    m.items[i]? = some item → validateValue s.limits item.value = .ok () ∧
      ∀ (property : PropertyRef) (value : Value), item.properties[property]? = some value →
        validateValue s.limits value = .ok ()
  count : s.models.size ≤ s.limits.maxModelCount

structure Integral (s : SemanticStore) : Prop where
  nodes : AllWholesome (fun _ => True) s s.nodes
  models : ∀ (id : ModelId) (m : Model), s.models[id]? = some m → ItemsValid s.limits m
  count : s.models.size ≤ s.limits.maxModelCount

theorem validateProperty_ok
    (h : validateProperty s property value = .ok ()) : validateValue s.limits value = .ok () ∧
      (property = PropertyRef.modelRef → NamesModel s value) := by
  unfold validateProperty at h
  split at h
  · simp at h
  rename_i hvalue
  refine ⟨hvalue, ?_⟩
  rintro rfl
  unfold validatePropertyReferences at h
  rw [if_pos rfl] at h
  split at h
  · rename_i id
    split at h
    · rename_i hlive
      exact ⟨id, .inl rfl, hlive⟩
    · simp at h
  · rename_i i
    split at h
    · rename_i hsign
      split at h
      · rename_i hlive
        exact ⟨i.toNat, .inr (by rw [Int.toNat_of_nonneg hsign]), hlive⟩
      · simp at h
    · simp at h
  · simp at h

theorem validatePropertiesInner_mem {limits : StoreLimits}
    {depth : Nat} (h : validatePropertiesInner limits properties depth = .ok ())
    {entry : PropertyRef × Value} (hentry : entry ∈ properties) :
    validateValueInner limits entry.2 depth = .ok () := by
  induction properties with
  | nil => simp at hentry
  | cons first rest ih =>
    rw [validatePropertiesInner] at h
    split at h
    · simp at h
    · rename_i hfirst
      rcases List.mem_cons.mp hentry with rfl | hentry
      · exact hfirst
      · exact ih h hentry

theorem validateItem_ok {limits : StoreLimits} {item : ModelItem}
    (h : validateItem limits item = .ok ()) : validateValue limits item.value = .ok () ∧
      ∀ (property : PropertyRef) (value : Value), item.properties[property]? = some value →
        validateValue limits value = .ok () := by
  rw [validateItem_def] at h
  split at h
  · simp at h
  · rename_i hvalue
    refine ⟨hvalue, ?_⟩
    intro property value hproperty
    exact validatePropertiesInner_mem h (mem_toList.mpr hproperty)

theorem Integral.intact (h : Integral s) : Intact s where
  references := fun x n _ hn hvalue =>
    (validateProperty_ok ((h.nodes x n hn).properties _ _ hvalue)).2 rfl
  properties := fun x n _ _ hn hvalue =>
    (validateProperty_ok ((h.nodes x n hn).properties _ _ hvalue)).1
  items := fun id m i item hm hitem => validateItem_ok (h.models id m hm i item hitem)
  count := h.count

theorem AllWholesome.grows (h : AllWholesome allowed s nodes)
    (hlimits : t.limits = s.limits)
    (hmodels : ∀ id, s.models.contains id = true → t.models.contains id = true) :
    AllWholesome allowed t nodes := by
  intro x n hn
  refine ⟨?_, (h x n hn).parent⟩
  intro property value hvalue
  exact validateProperty_grows hlimits hmodels ((h x n hn).properties property value hvalue)

theorem apply_integral (h : Integral s) (op : Operation) : Integral (apply op s).1 := by
  have hlimits := apply_limits s op
  have hparents : GivesParent (fun _ => True) op := by
    cases op <;> trivial
  refine ⟨?_, ?_, ?_⟩
  · exact (apply_wholesome h.nodes hparents).grows hlimits fun id => apply_contains s op
  · rw [hlimits]
    exact apply_itemsValid h.models op
  · rw [hlimits]
    exact apply_modelCount h.count op

/-- In every store that operations lead to from an empty one, those that fail included,
references name live models and everything stored is within the limits. -/
theorem reachable_intact (limits : StoreLimits) (revision : Revision) (ops : List Operation) :
    EveryState applyStep Intact (SemanticStore.withLimitsAndRevision limits revision) ops := by
  have hempty : Integral (SemanticStore.withLimitsAndRevision limits revision) := by
    refine ⟨?_, ?_, Nat.zero_le _⟩
    · intro x n hn
      simp [SemanticStore.withLimitsAndRevision] at hn
    · intro id m hm
      simp [SemanticStore.withLimitsAndRevision] at hm
  have hany : EveryStep applyStep (fun _ _ => True)
      (SemanticStore.withLimitsAndRevision limits revision) ops :=
    everyStep_of_forall (fun _ _ => trivial) _ ops
  have hstep : ∀ s op, Integral s → True → Integral (applyStep s op) :=
    fun _ op h _ => apply_integral h op
  have hevery := hany.everyState hstep hempty
  exact hevery.mono fun _ h => h.intact

end Srui.Sessiond.StoreIntegrity

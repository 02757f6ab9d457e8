import Srui.Sessiond.SnapshotModels

/-!
Models over whole runs of successful operations: when their cached positions
stay in bounds, and that the export of a model in bounds can be applied again.
-/

namespace Srui.Sessiond.ModelSnapshots

open Std Basic.Machine Basic.FiniteMaps Basic.Runs SemanticTree.Values SemanticTree.Limits
open SemanticTree.Models SemanticTree.Stores SemanticTree.Operations SemanticTree.ModelIndex
open SemanticTree.ModelMutations SemanticTree.OperationEffects SemanticTree.ModelInvariants
open SemanticTree.ModelBounds SemanticTree.Transactions SemanticTree.Wire Sessiond.Snapshots
open Sessiond.SnapshotModels

def batchOf : Operation → List ModelItem
  | .modelInsert _ _ items => items
  | .modelUpdate _ _ items => items
  | .modelResetRange _ _ items _ => items
  | _ => []

/-- The lengths an operation announces are `u64` values. -/
def WordSized : Operation → Prop
  | .createModel _ _ itemCount => itemCount ≤ u64Max
  | .modelResetRange _ _ _ totalCount => totalCount.getD 0 ≤ u64Max
  | _ => True

instance : DecidablePred WordSized
  | .createModel _ _ itemCount => inferInstanceAs (Decidable (itemCount ≤ u64Max))
  | .modelResetRange _ _ _ totalCount => inferInstanceAs (Decidable (totalCount.getD 0 ≤ u64Max))
  | .createNode .. | .deleteNode _ | .setProperty .. | .clearProperty .. | .moveNode ..
  | .reorderChildren .. | .batchPropertySet .. | .modelInsert .. | .modelDelete ..
  | .modelUpdate .. => inferInstanceAs (Decidable True)

variable {items : List ModelItem} {item : ModelItem} {limits : StoreLimits}

theorem validateItems_mem
    (h : validateItems limits items = .ok ()) (hitem : item ∈ items) :
    validateItem limits item = .ok () := by
  induction items with
  | nil => simp at hitem
  | cons first rest ih =>
    rw [validateItems_cons] at h
    cases hfirst : validateItem limits first with
    | error e => simp [hfirst] at h
    | ok _ =>
      rw [hfirst] at h
      rcases List.mem_cons.mp hitem with rfl | hitem
      · exact hfirst
      · exact ih h hitem

theorem validateBatch_mem
    (h : validateBatch limits items = .ok ()) (hitem : item ∈ items) :
    validateItem limits item = .ok () := by
  rw [validateBatch_def] at h
  split at h
  · simp at h
  · exact validateItems_mem h hitem

theorem apply_batch_cases (s : SemanticStore) (op : Operation) :
    (∃ e, apply op s = (s, err e)) ∨
      ∀ item ∈ batchOf op, validateItem s.limits item = .ok () := by
  cases hcheck : validateBatch s.limits (batchOf op) with
  | ok _ => exact .inr fun item hitem => validateBatch_mem hcheck hitem
  | error e =>
    cases op with
    | modelInsert id index items =>
      rw [batchOf] at hcheck
      exact .inl ⟨e, by rw [apply, modelInsert, hcheck, modelInsertChecked]⟩
    | modelUpdate id index items =>
      rw [batchOf] at hcheck
      exact .inl ⟨e, by rw [apply, modelUpdate, hcheck, modelUpdateChecked]⟩
    | modelResetRange id startIndex items totalCount =>
      rw [batchOf] at hcheck
      exact .inl ⟨e, by rw [apply, modelResetRange, hcheck, modelResetRangeChecked]⟩
    | _ => exact .inr fun item hitem => by simp [batchOf] at hitem

/-!
One mutation of one model.
-/

/-- What a mutation leaves cached was cached before or is in its batch. -/
def Sourced (m m' : Model) (batch : List ModelItem) : Prop :=
  ∀ (i : Nat) (a : ModelItem), m'.items[i]? = some a →
    (∃ j : Nat, m.items[j]? = some a) ∨ a ∈ batch

variable {m m' m'' : Model} {batch : List ModelItem}

theorem Sourced.refl (m : Model) (batch : List ModelItem) : Sourced m m batch :=
  fun i _ ha => Or.inl ⟨i, ha⟩

section

variable (h : Sourced m m' batch)

include h

theorem Sourced.put (hitem : (∃ j : Nat, m.items[j]? = some item) ∨ item ∈ batch) {index : Nat}
    (hitems : m''.items = m'.items.insert index item) : Sourced m m'' batch := by
  intro i a ha
  rw [hitems, getElem?_put] at ha
  split at ha
  · exact Option.some.inj ha ▸ hitem
  · exact h i a ha

theorem Sourced.drop {index : Nat} (hitems : m''.items = m'.items.erase index) :
    Sourced m m'' batch := by
  intro i a ha
  rw [hitems, getElem?_drop] at ha
  split at ha
  · simp at ha
  · exact h i a ha

theorem Sourced.removed (index : Nat) :
    Sourced m (removeCached m' index) batch := h.drop (removeCached_items m' index)

theorem Sourced.removedAll (indices : List Nat) :
    Sourced m (indices.foldl removeCached m') batch := by
  induction indices generalizing m' with
  | nil => exact h
  | cons index rest ih => exact ih (h.removed index)

theorem Sourced.shiftedLoop (delta : Int) {entries : List (Nat × ModelItem)}
    (hentries : ∀ entry ∈ entries, (∃ j : Nat, m.items[j]? = some entry.2) ∨ entry.2 ∈ batch) :
    Sourced m (shiftLoop m' delta entries).1 batch := by
  induction entries generalizing m' with
  | nil => exact h
  | cons entry rest ih =>
    rw [shiftLoop]
    split
    · exact h
    · refine ih (h.put (hentries entry List.mem_cons_self) rfl) ?_
      exact fun other hother => hentries other (List.mem_cons_of_mem entry hother)

theorem Sourced.shifted (start : Nat) (delta : Int) :
    Sourced m (shiftCachedIndices m' start delta).1 batch := by
  rw [shiftCachedIndices]
  split
  · exact h
  · refine Sourced.shiftedLoop ?_ delta ?_
    · intro i a ha
      exact h i a ((getElem?_select m'.items _ i a).mp ha).1
    · rintro ⟨i, a⟩ hentry
      exact h i a ((getElem?_select m'.items _ i a).mp (mem_toList.mp hentry)).1

theorem Sourced.written (base offset : Nat) (hitems : ∀ item ∈ items, item ∈ batch) : Sourced m
    (writeItems m' base offset items).1 batch := by
  induction items generalizing m' offset with
  | nil => exact h
  | cons item rest ih =>
    rw [writeItems]
    split
    · exact h
    · refine ih (h.put (Or.inr (hitems item List.mem_cons_self)) rfl) _ ?_
      exact fun other hother => hitems other (List.mem_cons_of_mem item hother)

end

theorem insertItems_sourced (m : Model) (index : Nat) (items : List ModelItem) :
    Sourced m (insertItems m index items).1 items := by
  have hshift := (Sourced.refl m items).shifted index items.length
  unfold insertItems
  split
  · exact .refl m items
  split
  · exact .refl m items
  split
  · exact .refl m items
  split
  · rename_i hshifted
    rwa [hshifted] at hshift
  rename_i shifted hshifted
  rw [hshifted] at hshift
  have hwrite := hshift.written index 0 fun item hitem => hitem
  split
  · rename_i hwritten
    rwa [hwritten] at hwrite
  rename_i written hwritten
  rw [hwritten] at hwrite
  split
  · exact hwrite
  · exact hwrite

theorem Sourced.deletedIds (h : Sourced m m' batch) (ids : List ItemId) :
    Sourced m (deleteByIds m' ids).1 batch := by
  induction ids generalizing m' with
  | nil => exact h
  | cons k rest ih =>
    rw [deleteByIds]
    split
    · rename_i index _
      have hremoved : Sourced m { m' with idToIndex := m'.idToIndex.erase k,
                                          items := m'.items.erase index,
                                          itemCount := m'.itemCount - 1 } batch := h.drop rfl
      simp only
      split
      · exact hremoved
      rename_i start _
      have hshift := hremoved.shifted start (-1)
      split
      · rename_i hshifted
        rwa [hshifted] at hshift
      · rename_i hshifted
        rw [hshifted] at hshift
        exact ih hshift
    · exact ih h

theorem deleteByRange_sourced (m : Model) (index count : Nat) :
    Sourced m (deleteByRange m index count).1 batch := by
  unfold deleteByRange
  split
  · exact .refl m batch
  split
  · exact .refl m batch
  rename_i endIndex _
  have hshift := ((Sourced.refl m batch).removedAll (m.items.keys.filter fun k =>
    decide (index ≤ k ∧ k < endIndex))).shifted endIndex (negI64 (asI64 count))
  simp only
  split
  · rename_i hshifted
    rwa [hshifted] at hshift
  · rename_i hshifted
    rw [hshifted] at hshift
    exact hshift

theorem deleteItems_sourced (m : Model) (index count : Option Nat) (ids : List ItemId) :
    Sourced m (deleteItems m index count ids).1 batch := by
  unfold deleteItems
  split
  · exact .refl m batch
  split
  · exact (Sourced.refl m batch).deletedIds ids
  split
  · exact deleteByRange_sourced m _ _
  · exact .refl m batch

theorem Sourced.released (h : Sourced m m' batch) (k : ItemId) (target : Nat) :
    Sourced m (releaseOldPosition m' k target) batch := by
  unfold releaseOldPosition
  split
  · split
    · exact h.drop rfl
    · exact h
  · exact h

theorem Sourced.updatedAt (h : Sourced m m' batch) (base offset : Nat)
    (hitems : ∀ item ∈ items, item ∈ batch) : Sourced m
    (updateAt m' base offset items).1 batch := by
  induction items generalizing m' offset with
  | nil => exact h
  | cons item rest ih =>
    rw [updateAt]
    split
    · exact h
    rename_i target _
    split
    · exact h
    · have hreleased := (h.released item.itemId target).removed target
      refine ih (hreleased.put (Or.inr (hitems item List.mem_cons_self)) rfl) _ ?_
      exact fun other hother => hitems other (List.mem_cons_of_mem item hother)

theorem Sourced.updatedById (h : Sourced m m' batch)
    (hitems : ∀ item ∈ items, item ∈ batch) : Sourced m (updateById m' items).1 batch := by
  induction items generalizing m' with
  | nil => exact h
  | cons item rest ih =>
    rw [updateById]
    split
    · refine ih (h.put (Or.inr (hitems item List.mem_cons_self)) rfl) ?_
      exact fun other hother => hitems other (List.mem_cons_of_mem item hother)
    · exact h

theorem Sourced.reset (h : Sourced m m' batch) (start : Nat)
    (totalCount : Option Nat) (hitems : ∀ item ∈ items, item ∈ batch) :
    Sourced m (resetRange m' start items totalCount).1 batch := by
  unfold resetRange
  rw [announce_eq]
  simp only
  split
  · exact h
  split
  · exact h
  split
  · exact h
  split
  · exact h
  · refine Sourced.written (Sourced.removedAll ?_ _) start 0 hitems
    exact h

variable {op : Operation}

theorem mutationOf_sourced {id : ModelId}
    {f : Model → Mutation Model} (hop : mutationOf limits op = some (id, f)) (m : Model) :
    Sourced m (f m).1 (batchOf op) := by
  cases op with
  | modelInsert id' index items =>
    obtain ⟨rfl, rfl⟩ := Prod.mk.inj (Option.some.inj hop)
    dsimp only
    split
    · exact .refl m items
    · exact insertItems_sourced m index items
  | modelDelete id' index count itemIds =>
    obtain ⟨rfl, rfl⟩ := Prod.mk.inj (Option.some.inj hop)
    exact deleteItems_sourced m index count itemIds
  | modelUpdate id' index items =>
    obtain ⟨rfl, rfl⟩ := Prod.mk.inj (Option.some.inj hop)
    cases index with
    | none => exact (Sourced.refl m items).updatedById fun item hitem => hitem
    | some base => exact (Sourced.refl m items).updatedAt base 0 fun item hitem => hitem
  | modelResetRange id' startIndex items totalCount =>
    obtain ⟨rfl, rfl⟩ := Prod.mk.inj (Option.some.inj hop)
    dsimp only
    rw [resetCached_eq]
    have hroom : Sourced m (makeRoom limits m startIndex items.length) items := by
      intro i a ha
      exact Or.inl ⟨i, ((makeRoom_items limits m startIndex items.length i a).mp ha).1⟩
    split
    · exact hroom
    · exact hroom.reset startIndex totalCount fun item hitem => hitem
  | _ => simp [mutationOf] at hop

/-- What a mutation keeps of the model's header: its identity, and that its length is a
`u64`. -/
structure Resized (m m' : Model) : Prop where
  id : m'.id = m.id
  width : m.itemCount ≤ u64Max → m'.itemCount ≤ u64Max

theorem Resized.of_header (h : SameHeader m m') : Resized m m' :=
  ⟨h.id, fun hwidth => h.itemCount ▸ hwidth⟩

theorem Resized.trans (h : Resized m m') (h' : Resized m' m'') : Resized m m'' :=
  ⟨h'.id.trans h.id, fun hwidth => h'.width (h.width hwidth)⟩

theorem insertItems_resized (m : Model) (index : Nat) (items : List ModelItem) :
    Resized m (insertItems m index items).1 := by
  have hshift := Resized.of_header (shiftCachedIndices_header m index items.length)
  unfold insertItems
  split
  · exact .of_header (.refl m)
  split
  · exact .of_header (.refl m)
  split
  · exact .of_header (.refl m)
  split
  · rename_i hshifted
    rwa [hshifted] at hshift
  rename_i shifted hshifted
  rw [hshifted] at hshift
  have hwrite := hshift.trans (.of_header (writeItems_header shifted index 0 items))
  split
  · rename_i hwritten
    rwa [hwritten] at hwrite
  rename_i written hwritten
  rw [hwritten] at hwrite
  split
  · exact hwrite
  · rename_i itemCount hcount
    exact ⟨hwrite.id, fun _ => (checkedAdd_eq_some.mp hcount).2 ▸ (checkedAdd_eq_some.mp hcount).1⟩

theorem deleteByIds_resized (m : Model) (ids : List ItemId) : Resized m (deleteByIds m ids).1 := by
  induction ids generalizing m with
  | nil => exact .of_header (.refl m)
  | cons k rest ih =>
    rw [deleteByIds]
    split
    · rename_i index _
      have hremoved : Resized m { m with idToIndex := m.idToIndex.erase k,
                                         items := m.items.erase index,
                                         itemCount := m.itemCount - 1 } :=
        ⟨rfl, fun hwidth => Nat.le_trans (Nat.sub_le _ _) hwidth⟩
      simp only
      split
      · exact hremoved
      rename_i start _
      have hshift := hremoved.trans (.of_header (shiftCachedIndices_header _ start (-1)))
      split
      · rename_i hshifted
        rwa [hshifted] at hshift
      · rename_i hshifted
        rw [hshifted] at hshift
        exact hshift.trans (ih _)
    · have hshorter : Resized m { m with itemCount := m.itemCount - 1 } :=
        ⟨rfl, fun hwidth => Nat.le_trans (Nat.sub_le _ _) hwidth⟩
      exact hshorter.trans (ih _)

theorem deleteByRange_resized (m : Model) (index count : Nat) :
    Resized m (deleteByRange m index count).1 := by
  unfold deleteByRange
  split
  · exact .of_header (.refl m)
  split
  · exact .of_header (.refl m)
  rename_i endIndex _
  have hremoved := Resized.of_header (removeAll_header
    (m.items.keys.filter fun k => decide (index ≤ k ∧ k < endIndex)) m)
  have hshift := hremoved.trans
    (.of_header (shiftCachedIndices_header _ endIndex (negI64 (asI64 count))))
  simp only
  split
  · rename_i hshifted
    rwa [hshifted] at hshift
  · rename_i hshifted
    rw [hshifted] at hshift
    exact ⟨hshift.id, fun hwidth => Nat.le_trans (Nat.sub_le _ _) (hshift.width hwidth)⟩

theorem deleteItems_resized (m : Model) (index count : Option Nat) (ids : List ItemId) :
    Resized m (deleteItems m index count ids).1 := by
  unfold deleteItems
  split
  · exact .of_header (.refl m)
  split
  · exact deleteByIds_resized m ids
  split
  · exact deleteByRange_resized m _ _
  · exact .of_header (.refl m)

theorem updateAt_resized (m : Model) (base offset : Nat) (items : List ModelItem) :
    Resized m (updateAt m base offset items).1 := by
  induction items generalizing m offset with
  | nil => exact .of_header (.refl m)
  | cons item rest ih =>
    rw [updateAt]
    split
    · exact .of_header (.refl m)
    rename_i target _
    split
    · exact .of_header (.refl m)
    · have hreleased := (Resized.of_header
        (releaseOldPosition_header m item.itemId target)).trans (.of_header (removeCached_header _ target))
      have hcached : Resized m (cacheItem (removeCached (releaseOldPosition m item.itemId target)
          target) target item) := ⟨hreleased.id, hreleased.width⟩
      exact hcached.trans (ih _ _)

theorem updateById_resized (m : Model) (items : List ModelItem) :
    Resized m (updateById m items).1 := by
  induction items generalizing m with
  | nil => exact .of_header (.refl m)
  | cons item rest ih =>
    rw [updateById]
    split
    · rename_i index _
      have hput : Resized m { m with items := m.items.insert index item } := ⟨rfl, id⟩
      exact hput.trans (ih _)
    · exact .of_header (.refl m)

theorem resetRange_resized (m : Model) (start : Nat) (items : List ModelItem)
    {totalCount : Option Nat} (htotal : totalCount.getD 0 ≤ u64Max) :
    Resized m (resetRange m start items totalCount).1 := by
  have hannounced : Resized m (announce m totalCount) := by
    refine ⟨rfl, fun hwidth => ?_⟩
    rw [announce, announcedCount]
    split <;> assumption
  unfold resetRange
  rw [announce_eq]
  simp only
  split
  · exact hannounced
  split
  · exact hannounced
  split
  · exact hannounced
  split
  · exact hannounced
  · have hremoved := hannounced.trans (.of_header
      (removeAll_header (List.range' start items.length) (announce m totalCount)))
    exact hremoved.trans (.of_header (writeItems_header _ _ _ _))

theorem mutationOf_resized {id : ModelId}
    {f : Model → Mutation Model} (hop : mutationOf limits op = some (id, f)) (hwidth : WordSized op)
    (m : Model) : Resized m (f m).1 := by
  cases op with
  | modelInsert id' index items =>
    obtain ⟨rfl, rfl⟩ := Prod.mk.inj (Option.some.inj hop)
    dsimp only
    split
    · exact .of_header (.refl m)
    · exact insertItems_resized m index items
  | modelDelete id' index count itemIds =>
    obtain ⟨rfl, rfl⟩ := Prod.mk.inj (Option.some.inj hop)
    exact deleteItems_resized m index count itemIds
  | modelUpdate id' index items =>
    obtain ⟨rfl, rfl⟩ := Prod.mk.inj (Option.some.inj hop)
    cases index with
    | none => exact updateById_resized m items
    | some base => exact updateAt_resized m base 0 items
  | modelResetRange id' startIndex items totalCount =>
    obtain ⟨rfl, rfl⟩ := Prod.mk.inj (Option.some.inj hop)
    dsimp only
    rw [resetCached_eq]
    have hroom := Resized.of_header (makeRoom_header limits m startIndex items.length)
    split
    · exact hroom
    · exact hroom.trans (resetRange_resized _ startIndex items hwidth)
  | _ => simp [mutationOf] at hop

/-!
Whole runs.
-/

variable {s : SemanticStore}

theorem apply_itemsValid
    (h : ∀ (id : ModelId) (m : Model), s.models[id]? = some m → ItemsValid s.limits m)
    (op : Operation) :
    ∀ (id : ModelId) (m : Model), (apply op s).1.models[id]? = some m → ItemsValid s.limits m := by
  rcases apply_batch_cases s op with ⟨e, hrefused⟩ | hbatch
  · rw [hrefused]
    exact h
  rcases apply_modelEffect s op with ⟨hsame, -⟩ | ⟨id, f, e, -, heq⟩ |
    ⟨id, modelType, itemCount, -, -, -, heq⟩ | ⟨id, f, model, hop, hmodel, heq⟩
  · rw [hsame.models]
    exact h
  · rw [heq]
    exact h
  · rw [heq]
    intro other m hm
    rw [getElem?_put] at hm
    split at hm
    · intro i a ha
      rw [← Option.some.inj hm] at ha
      simp [Model.new] at ha
    · exact h other m hm
  · rw [heq]
    intro other m hm
    rw [getElem?_put] at hm
    split at hm
    · intro i a ha
      rw [← Option.some.inj hm] at ha
      rcases mutationOf_sourced hop model i a ha with ⟨j, hj⟩ | hmem
      · exact h id model hmodel j a hj
      · exact hbatch a hmem
    · exact h other m hm

/-- Every length stays a `u64` value. -/
theorem apply_width
    (h : ∀ (id : ModelId) (m : Model), s.models[id]? = some m → m.itemCount ≤ u64Max)
    (hwidth : WordSized op) :
    ∀ (id : ModelId) (m : Model), (apply op s).1.models[id]? = some m → m.itemCount ≤ u64Max := by
  rcases apply_modelEffect s op with ⟨hsame, -⟩ | ⟨id, f, e, -, heq⟩ |
    ⟨id, modelType, itemCount, rfl, -, -, heq⟩ | ⟨id, f, model, hop, hmodel, heq⟩
  · rw [hsame.models]
    exact h
  · rw [heq]
    exact h
  · rw [heq]
    intro other m hm
    rw [getElem?_put] at hm
    split at hm
    · rw [← Option.some.inj hm]
      exact hwidth
    · exact h other m hm
  · rw [heq]
    intro other m hm
    rw [getElem?_put] at hm
    split at hm
    · rw [← Option.some.inj hm]
      exact (mutationOf_resized hop hwidth model).width (h id model hmodel)
    · exact h other m hm

structure ModelsSound (s : SemanticStore) : Prop where
  indexed : ModelsIndexed s
  valid : ∀ (id : ModelId) (m : Model), s.models[id]? = some m → ItemsValid s.limits m
  width : ∀ (id : ModelId) (m : Model), s.models[id]? = some m → m.itemCount ≤ u64Max
  room : ∀ (id : ModelId) (m : Model), s.models[id]? = some m → 0 < s.limits.maxModelCount

theorem modelsSound_empty (limits : StoreLimits) (revision : Revision) :
    ModelsSound (SemanticStore.withLimitsAndRevision limits revision) := by
  refine ⟨modelsIndexed_empty limits revision, ?_, ?_, ?_⟩ <;>
  · intro id m hm
    simp [SemanticStore.withLimitsAndRevision] at hm

theorem apply_modelsSound (h : ModelsSound s)
    (hwidth : WordSized op) (hok : (apply op s).2 = .ok ()) : ModelsSound (applyStep s op) := by
  have hlimits : (applyStep s op).limits = s.limits := apply_limits s op
  refine ⟨?_, ?_, apply_width h.width hwidth, ?_⟩
  · exact apply_modelsIndexed h.indexed (by rw [NoOverflow, hok]; simp)
  · rw [hlimits]
    exact apply_itemsValid h.valid op
  · rw [hlimits]
    intro id m hm
    rcases apply_modelEffect s op with ⟨hsame, -⟩ | ⟨other, f, e, -, heq⟩ |
      ⟨other, modelType, itemCount, -, -, hsize, -⟩ | ⟨other, f, model, -, hmodel, -⟩
    · rw [applyStep, hsame.models] at hm
      exact h.room id m hm
    · rw [applyStep, heq] at hm
      exact h.room id m hm
    · exact Nat.lt_of_le_of_lt (Nat.zero_le _) hsize
    · exact h.room other model hmodel

/-- The export of every model of the store, decoded and applied to an empty
store with the same limits, succeeds and gives the model back. -/
def ModelsReapply (s : SemanticStore) : Prop :=
  ∀ (payloadLen : WireModelItem → Nat) (id : ModelId) (m : Model), s.models[id]? = some m →
    Rebuilds (exportModel payloadLen [] m) (SemanticStore.withLimitsAndRevision s.limits 0)
      (withModel (SemanticStore.withLimitsAndRevision s.limits 0) m.id m)

theorem ModelsSound.reapply (h : ModelsSound s) (hbounded : ModelsBounded s)
    (hbatch : defaultMaxItemsPerModelOperation ≤ s.limits.maxItemsPerModelOperation) :
    ModelsReapply s := by
  intro payloadLen id m hm
  have hfresh : m.id ∉ (SemanticStore.withLimitsAndRevision s.limits 0).usedModelIds := by
    exact Finset.notMem_empty m.id
  have hroom : (SemanticStore.withLimitsAndRevision s.limits 0).models.size <
      (SemanticStore.withLimitsAndRevision s.limits 0).limits.maxModelCount := h.room id m hm
  exact exportModel_rebuilds payloadLen (Rebuilds.refl _) (h.indexed id m hm) (hbounded id m hm)
    (h.width id m hm) (h.valid id m hm) hbatch hfresh hroom

theorem modelsBounded_empty (limits : StoreLimits) (revision : Revision) :
    ModelsBounded (SemanticStore.withLimitsAndRevision limits revision) := by
  intro id m hm
  simp [SemanticStore.withLimitsAndRevision] at hm

/-- A run of successful operations keeps every model in bounds exactly when
every step fits the model it is applied to, and in every such run every model
can be exported and applied again. -/
theorem models_bounded_iff_fits (limits : StoreLimits) (revision : Revision)
    (ops : List Operation) (hwidth : ∀ op ∈ ops, WordSized op)
    (hok : EveryStep applyStep (fun s op => (apply op s).2 = .ok ())
      (SemanticStore.withLimitsAndRevision limits revision) ops) :
    (EveryState applyStep ModelsBounded (SemanticStore.withLimitsAndRevision limits revision) ops ↔
      EveryStep applyStep FitsStore (SemanticStore.withLimitsAndRevision limits revision) ops) ∧
    (defaultMaxItemsPerModelOperation ≤ limits.maxItemsPerModelOperation →
      (EveryState applyStep (fun s => ModelsBounded s ∧ ModelsReapply s)
          (SemanticStore.withLimitsAndRevision limits revision) ops ↔
        EveryStep applyStep FitsStore (SemanticStore.withLimitsAndRevision limits revision)
          ops)) := by
  have hsizes : EveryStep applyStep (fun _ op => WordSized op)
      (SemanticStore.withLimitsAndRevision limits revision) ops := everyStep_of_mem hwidth _
  have hallowed := hsizes.and hok
  have hsound : ∀ s op, ModelsSound s → WordSized op ∧ (apply op s).2 = .ok () →
      ModelsSound (applyStep s op) := fun s op h hop => apply_modelsSound h hop.1 hop.2
  have hiff := everyState_iff_everyStep_of hsound
    (fun s op h hop hb => apply_modelsBounded_iff h.indexed hop.2 hb)
    (modelsSound_empty limits revision) (modelsBounded_empty limits revision) hallowed
  refine ⟨hiff, fun hbatch => ?_⟩
  rw [← hiff]
  have hlimits : EveryState applyStep (fun s => ModelsSound s ∧ s.limits = limits)
      (SemanticStore.withLimitsAndRevision limits revision) ops :=
    hallowed.everyState (fun s op h hop =>
      ⟨hsound s op h.1 hop, (apply_limits s op).trans h.2⟩) ⟨modelsSound_empty limits revision, rfl⟩
  constructor
  · intro h
    exact h.combine (fun s hs _ => hs.1) h
  · intro h
    refine h.combine (fun s hs hsound => ⟨hs, hsound.1.reapply hs ?_⟩) hlimits
    rw [hsound.2]
    exact hbatch

def scrollingRun : List Operation :=
  [.createModel 1 ⟨0, 1⟩ 6,
    .modelResetRange 1 0 [⟨10, .null, ∅⟩, ⟨11, .null, ∅⟩] none,
    .modelResetRange 1 4 [⟨14, .null, ∅⟩, ⟨15, .null, ∅⟩] (some 8),
    .modelUpdate 1 (some 5) [⟨16, .null, ∅⟩],
    .modelDelete 1 none none [10, 16],
    .modelDelete 1 (some 1) (some 2) []]

theorem scrollingRun_reapplies :
    EveryState applyStep (fun s => ModelsBounded s ∧ ModelsReapply s)
      (SemanticStore.withLimitsAndRevision StoreLimits.default 0) scrollingRun := by
  have hbounds := models_bounded_iff_fits StoreLimits.default 0 scrollingRun (by decide +kernel)
    (by decide +kernel)
  exact (hbounds.2 (Nat.le_refl _)).mpr (hbounds.1.mp (by decide +kernel))

def shrinkingRun : List Operation :=
  [.createModel 1 ⟨0, 1⟩ 3,
    .modelResetRange 1 2 [⟨10, .null, ∅⟩] none,
    .modelResetRange 1 0 [] (some 1)]

def uncachedRun : List Operation :=
  [.createModel 1 ⟨0, 1⟩ 2,
    .modelResetRange 1 1 [⟨10, .null, ∅⟩] none,
    .modelDelete 1 none none [11]]

/-- A positional update caches more items than the cache may hold. -/
def crowdingRun : List Operation :=
  [.createModel 1 ⟨0, 1⟩ 2,
    .modelUpdate 1 (some 0) [⟨10, .null, ∅⟩, ⟨11, .null, ∅⟩]]

def reapplies (wire : List WireOperation) (s : SemanticStore) : Bool :=
  match decodeOperations wire with
  | .error _ => false
  | .ok ops =>
    match stage apply s 0 ops with
    | .error _ => false
    | .ok _ => true

theorem Rebuilds.reapplies {wire : List WireOperation} {s' : SemanticStore}
    (h : Rebuilds wire s s') : reapplies wire s = true := by
  obtain ⟨ops, hdecode, happlies⟩ := h
  rw [ModelSnapshots.reapplies, hdecode]
  simp only
  rw [happlies.staged 0]

/-- Each of the runs succeeds and leaves a model out of bounds; what the first
one leaves is exported as operations that fail. -/
theorem shrinkingRun_not_bounded :
    (EveryStep applyStep (fun s op => (apply op s).2 = .ok ())
        (SemanticStore.withLimits StoreLimits.default) shrinkingRun ∧
      ¬ ModelsBounded (run applyStep (SemanticStore.withLimits StoreLimits.default)
        shrinkingRun) ∧
      ¬ ModelsReapply (run applyStep (SemanticStore.withLimits StoreLimits.default)
        shrinkingRun)) ∧
    (EveryStep applyStep (fun s op => (apply op s).2 = .ok ())
        (SemanticStore.withLimits StoreLimits.default) uncachedRun ∧
      ¬ ModelsBounded (run applyStep (SemanticStore.withLimits StoreLimits.default)
        uncachedRun)) ∧
    (EveryStep applyStep (fun s op => (apply op s).2 = .ok ())
        (SemanticStore.withLimits { StoreLimits.default with maxCachedItemsPerModel := 1 })
        crowdingRun ∧
      ¬ ModelsBounded (run applyStep
        (SemanticStore.withLimits { StoreLimits.default with maxCachedItemsPerModel := 1 })
        crowdingRun)) := by
  refine ⟨⟨by decide +kernel, by decide +kernel, ?_⟩, ⟨by decide +kernel, by decide +kernel⟩,
    by decide +kernel, by decide +kernel⟩
  intro h
  have hmodel : ((run applyStep (SemanticStore.withLimits StoreLimits.default)
      shrinkingRun).models[1]?).isSome = true := by decide +kernel
  obtain ⟨m, hm⟩ := Option.isSome_iff_exists.mp hmodel
  have hagain := Rebuilds.reapplies (h (fun _ => 0) 1 m hm)
  have hrefused : ∀ model ∈ (run applyStep (SemanticStore.withLimits StoreLimits.default)
      shrinkingRun).models[1]?, reapplies (exportModel (fun _ => 0) [] model)
        (SemanticStore.withLimitsAndRevision (run applyStep
          (SemanticStore.withLimits StoreLimits.default) shrinkingRun).limits 0) = false := by
    decide +kernel
  rw [hrefused m hm] at hagain
  simp at hagain

end Srui.Sessiond.ModelSnapshots

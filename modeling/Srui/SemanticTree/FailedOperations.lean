import Srui.SemanticTree.ModelBounds

/-!
What an operation that fails leaves behind. Ten of the twelve kinds check all
they need before they write anything; an update of items keeps those it wrote
before the one that failed, and a range reset the room it made and the length
it was told.
-/

namespace Srui.SemanticTree.FailedOperations

open Std Basic.Machine Basic.FiniteMaps SemanticTree.Values SemanticTree.Limits SemanticTree.Models
open SemanticTree.Stores SemanticTree.Operations SemanticTree.ModelMutations
open SemanticTree.ModelBounds

/-- The store with another model in the place of the one named `id`. -/
def withModel (s : SemanticStore) (id : ModelId) (model : Model) : SemanticStore :=
  { s with models := s.models.insert id model }

/-- What applying an operation leaves of `s` when it fails with `e`. -/
inductive Leaves (s : SemanticStore) (e : StoreError) : Operation → SemanticStore → Prop where
  | unchanged (op : Operation) : Leaves s e op s
  | partlyUpdated (id : ModelId) (index : Option Nat) (items : List ModelItem) (model : Model)
      (written : Nat) (hmodel : s.models[id]? = some model) (hwritten : written < items.length)
      (hdone : (updateItems model index (items.take written)).2 = .ok ())
      (hnext : (updateItems model index (items.take (written + 1))).2 = err e) :
      Leaves s e (.modelUpdate id index items)
        (withModel s id (updateItems model index (items.take written)).1)
  | roomMade (id : ModelId) (startIndex : Nat) (items : List ModelItem)
      (totalCount : Option Nat) (model : Model) (hmodel : s.models[id]? = some model) :
      Leaves s e (.modelResetRange id startIndex items totalCount)
        (withModel s id (makeRoom s.limits model startIndex items.length))
  | roomMadeAndCounted (id : ModelId) (startIndex : Nat) (items : List ModelItem)
      (totalCount : Option Nat) (model : Model) (hmodel : s.models[id]? = some model) :
      Leaves s e (.modelResetRange id startIndex items totalCount)
        (withModel s id
          (announce (makeRoom s.limits model startIndex items.length) totalCount))

variable {s : SemanticStore} {m : Model} {e : StoreError}

theorem withModel_self {id : ModelId} (hmodel : s.models[id]? = some m) : withModel s id m = s := by
  have hsame : s.models.insert id m = s.models := by
    apply ExtTreeMap.ext_getElem?
    intro id'
    rw [getElem?_put]
    split
    · rename_i heq
      rw [← heq, hmodel]
    · rfl
  rw [withModel, hsame]

/-! ### Insertions and deletions -/

theorem shiftCachedIndices_noError {fromIndex : Nat} {delta : Int} :
    (shiftCachedIndices m fromIndex delta).2 ≠ err e := by
  have hloop : ∀ (entries : List (Nat × ModelItem)) (m : Model),
      (shiftLoop m delta entries).2 ≠ err e := by
    intro entries
    induction entries with
    | nil =>
      intro m h
      cases h
    | cons entry rest ih =>
      intro m
      rw [shiftLoop]
      split
      · intro h
        cases h
      · exact ih _
  unfold shiftCachedIndices
  split
  · intro h
    cases h
  · exact hloop _ _

variable {items : List ModelItem}

theorem insertItems_failed {index : Nat} (h : (insertItems m index items).2 = err e) :
    (insertItems m index items).1 = m := by
  unfold insertItems at h ⊢
  split
  · rfl
  rename_i hindex
  rw [if_neg hindex] at h
  split
  · rfl
  rename_i hdup
  simp only [hdup] at h
  split
  · rfl
  rename_i hempty
  rw [if_neg hempty] at h
  have hshift := @shiftCachedIndices_noError m e index items.length
  rcases hmoved : shiftCachedIndices m index items.length with ⟨m₁, f | u⟩
  · rw [hmoved] at h hshift
    exact absurd h hshift
  rw [hmoved] at h
  have hwrite := @writeItems_noError m₁ items index 0 e
  simp only at h
  rcases hwritten : writeItems m₁ index 0 items with ⟨m₂, f | u⟩
  · rw [hwritten] at h hwrite
    exact absurd h hwrite
  rw [hwritten] at h
  simp only at h
  split at h
  · cases h
  · cases h

theorem deleteByIds_noError {ids : List ItemId} : (deleteByIds m ids).2 ≠ err e := by
  induction ids generalizing m with
  | nil =>
    intro h
    cases h
  | cons k rest ih =>
    rw [deleteByIds]
    split
    · simp only
      split
      · intro h
        cases h
      rename_i index _ _ fromIndex _
      have hshift := @shiftCachedIndices_noError
        { m with idToIndex := m.idToIndex.erase k, items := m.items.erase index,
                 itemCount := m.itemCount - 1 } e fromIndex (-1)
      split
      · rename_i hmoved
        rw [hmoved] at hshift
        exact hshift
      · exact ih
    · exact ih

theorem deleteItems_failed {index count : Option Nat} {itemIds : List ItemId}
    (h : (deleteItems m index count itemIds).2 = err e) :
    (deleteItems m index count itemIds).1 = m := by
  unfold deleteItems at h ⊢
  split
  · rfl
  rename_i hboth
  rw [if_neg hboth] at h
  split
  · rename_i hids
    rw [if_pos hids] at h
    exact absurd h deleteByIds_noError
  rename_i hids
  rw [if_neg hids] at h
  split
  · rename_i hcount
    rw [if_pos hcount] at h
    unfold deleteByRange at h ⊢
    split
    · rfl
    rename_i hrange
    rw [if_neg hrange] at h
    split at h
    · cases h
    rename_i endIndex hadd
    have hshift := @shiftCachedIndices_noError
      ((m.items.keys.filter fun k => decide (index.getD 0 ≤ k ∧ k < endIndex)).foldl
        removeCached m) e endIndex (negI64 (asI64 (count.getD 0)))
    simp only at h
    split at h
    · rename_i hmoved
      rw [hmoved] at hshift
      exact absurd h hshift
    · cases h
  · rfl

/-! ### Updates and resets -/

theorem updateAt_failed {base offset : Nat} (h : (updateAt m base offset items).2 = err e) :
    ∃ written < items.length,
      (updateAt m base offset items).1 = (updateAt m base offset (items.take written)).1 ∧
        (updateAt m base offset (items.take written)).2 = .ok () ∧
        (updateAt m base offset (items.take (written + 1))).2 = err e := by
  induction items generalizing m offset with
  | nil => cases h
  | cons item rest ih =>
    rw [updateAt] at h
    cases hadd : checkedAdd base offset with
    | none =>
      rw [hadd] at h
      cases h
    | some target =>
      rw [hadd] at h
      rcases Nat.lt_or_ge target m.itemCount with hlow | hhigh
      · simp only [if_neg (Nat.not_le.mpr hlow)] at h
        obtain ⟨written, hwritten, hkept, hdone, hnext⟩ := ih h
        refine ⟨written + 1, Nat.succ_lt_succ hwritten, ?_, ?_, ?_⟩
        all_goals rw [List.take_succ_cons, updateAt]
        · rw [updateAt]
          simp only [hadd, if_neg (Nat.not_le.mpr hlow)]
          exact hkept
        · simp only [hadd, if_neg (Nat.not_le.mpr hlow)]
          exact hdone
        · simp only [hadd, if_neg (Nat.not_le.mpr hlow)]
          exact hnext
      · simp only [if_pos hhigh] at h
        refine ⟨0, Nat.succ_pos _, ?_, rfl, ?_⟩
        · rw [updateAt]
          simp only [hadd, if_pos hhigh]
          rfl
        · rw [List.take_succ_cons, updateAt]
          simp only [hadd, if_pos hhigh]
          exact h

theorem updateById_failed (h : (updateById m items).2 = err e) :
    ∃ written < items.length,
      (updateById m items).1 = (updateById m (items.take written)).1 ∧
        (updateById m (items.take written)).2 = .ok () ∧
        (updateById m (items.take (written + 1))).2 = err e := by
  induction items generalizing m with
  | nil => cases h
  | cons item rest ih =>
    rw [updateById] at h
    cases hindex : m.idToIndex[item.itemId]? with
    | none =>
      rw [hindex] at h
      refine ⟨0, Nat.succ_pos _, ?_, rfl, ?_⟩
      · rw [updateById, hindex]
        rfl
      · rw [List.take_succ_cons, updateById, hindex]
        exact h
    | some index =>
      rw [hindex] at h
      obtain ⟨written, hwritten, hkept, hdone, hnext⟩ := ih h
      refine ⟨written + 1, Nat.succ_lt_succ hwritten, ?_, ?_, ?_⟩
      all_goals rw [List.take_succ_cons, updateById, hindex]
      · rw [updateById, hindex]
        exact hkept
      · exact hdone
      · exact hnext

theorem updateItems_failed {index : Option Nat} (h : (updateItems m index items).2 = err e) :
    ∃ written < items.length,
      (updateItems m index items).1 = (updateItems m index (items.take written)).1 ∧
        (updateItems m index (items.take written)).2 = .ok () ∧
        (updateItems m index (items.take (written + 1))).2 = err e := by
  cases index with
  | none => exact updateById_failed h
  | some base => exact updateAt_failed h

theorem resetRange_failed {startIndex : Nat} {totalCount : Option Nat}
    (h : (resetRange m startIndex items totalCount).2 = err e) :
    (resetRange m startIndex items totalCount).1 = announce m totalCount := by
  unfold resetRange at h ⊢
  rw [announce_eq] at h ⊢
  dsimp only at h ⊢
  split
  · rfl
  rename_i hstart
  rw [if_neg hstart] at h
  split
  · rfl
  rename_i endIndex hadd
  simp only [hadd] at h
  split
  · rfl
  rename_i hend
  rw [if_neg hend] at h
  split
  · rfl
  · rename_i hdup
    simp only [hdup] at h
    exact absurd h writeItems_noError

theorem resetCached_failed {limits : StoreLimits} {startIndex : Nat} {totalCount : Option Nat}
    (h : (resetCached limits m startIndex items totalCount).2 = err e) :
    (resetCached limits m startIndex items totalCount).1 =
        makeRoom limits m startIndex items.length ∨
      (resetCached limits m startIndex items totalCount).1 =
        announce (makeRoom limits m startIndex items.length) totalCount := by
  rw [resetCached_eq] at h ⊢
  split
  · exact .inl rfl
  · rename_i hfits
    rw [if_neg hfits] at h
    exact .inr (resetRange_failed h)

/-! ### Operations -/

theorem commit_failed {r : Outcome StoreError SemanticStore} (h : (commit s r).2 = err e) :
    (commit s r).1 = s := by
  cases r with
  | ok s' => cases h
  | error f => rfl

theorem commitFst_failed {α : Type} {r : Outcome StoreError (SemanticStore × α)}
    (h : (commitFst s r).2 = err e) : (commitFst s r).1 = s := by
  cases r with
  | ok result => cases h
  | error f => rfl

/-- An operation that fails leaves the store as it was in every field, but for the model an
update or a range reset names: there an update keeps the items before the one that failed, and a
reset the evictions that were to make room and the length it announced. -/
theorem failed_operation_leaves (s : SemanticStore) (op : Operation) (e : StoreError)
    (h : (apply op s).2 = err e) : Leaves s e op (apply op s).1 := by
  have hsame : (apply op s).1 = s → Leaves s e op (apply op s).1 := by
    intro heq
    rw [heq]
    exact .unchanged op
  cases op with
  | createNode id nodeType parentId childIndex properties
  | moveNode id newParentId newChildIndex | reorderChildren parentId newOrder
  | batchPropertySet id properties | createModel id modelType itemCount =>
    exact hsame (commit_failed h)
  | deleteNode id | setProperty id property value | clearProperty id property =>
    exact hsame (commitFst_failed h)
  | modelInsert id index items =>
    apply hsame
    change (modelInsert s id index items).2 = _ at h
    change (modelInsert s id index items).1 = s
    unfold modelInsert modelInsertChecked at h ⊢
    split
    · rfl
    rename_i hbatch
    simp only [hbatch] at h
    unfold onModel at h ⊢
    cases hmodel : s.models[id]? with
    | none => rfl
    | some model =>
      simp only [hmodel] at h
      refine Eq.trans ?_ (withModel_self hmodel)
      change withModel s id (if _ then _ else _ : Mutation Model).1 = withModel s id model
      congr 1
      split
      · rfl
      · rename_i hfits
        rw [if_neg hfits] at h
        exact insertItems_failed h
  | modelDelete id index count itemIds =>
    apply hsame
    change (modelDelete s id index count itemIds).2 = _ at h
    change (modelDelete s id index count itemIds).1 = s
    unfold modelDelete at h ⊢
    split
    · rfl
    rename_i hbatch
    simp only [hbatch] at h
    unfold onModel at h ⊢
    cases hmodel : s.models[id]? with
    | none => rfl
    | some model =>
      simp only [hmodel] at h
      refine Eq.trans ?_ (withModel_self hmodel)
      exact congrArg (withModel s id) (deleteItems_failed h)
  | modelUpdate id index items =>
    change (modelUpdate s id index items).2 = _ at h
    change Leaves s e _ (modelUpdate s id index items).1
    unfold modelUpdate modelUpdateChecked at h ⊢
    split
    · exact .unchanged _
    rename_i hbatch
    simp only [hbatch] at h
    unfold onModel at h ⊢
    cases hmodel : s.models[id]? with
    | none => exact .unchanged _
    | some model =>
      simp only [hmodel] at h
      obtain ⟨written, hwritten, hkept, hdone, hnext⟩ := updateItems_failed h
      change Leaves s e _ (withModel s id (updateItems model index items).1)
      rw [hkept]
      exact .partlyUpdated id index items model written hmodel hwritten hdone hnext
  | modelResetRange id startIndex items totalCount =>
    change (modelResetRange s id startIndex items totalCount).2 = _ at h
    change Leaves s e _ (modelResetRange s id startIndex items totalCount).1
    unfold modelResetRange modelResetRangeChecked at h ⊢
    split
    · exact .unchanged _
    rename_i hbatch
    simp only [hbatch] at h
    unfold onModel at h ⊢
    cases hmodel : s.models[id]? with
    | none => exact .unchanged _
    | some model =>
      simp only [hmodel] at h
      change Leaves s e _
        (withModel s id (resetCached s.limits model startIndex items totalCount).1)
      rcases resetCached_failed h with hroom | hroom
      · rw [hroom]
        exact .roomMade id startIndex items totalCount model hmodel
      · rw [hroom]
        exact .roomMadeAndCounted id startIndex items totalCount model hmodel

def counted : SemanticStore :=
  { SemanticStore.withLimits StoreLimits.default with
    models := (∅ : ExtTreeMap ModelId Model).insert 1 (Model.new 1 ⟨0, 1⟩ 3) }

theorem counted_leaves :
    Leaves counted (.itemNotFound 10) (.modelUpdate 1 none [⟨10, .null, ∅⟩])
      (apply (.modelUpdate 1 none [⟨10, .null, ∅⟩]) counted).1 :=
  failed_operation_leaves counted (.modelUpdate 1 none [⟨10, .null, ∅⟩]) (.itemNotFound 10)
    (by decide +kernel)

/-- A reset past the end of the collection it announces fails, and leaves the new length. -/
theorem failed_reset_shortens : ¬ ∀ (s : SemanticStore) (op : Operation) (e : StoreError),
    (apply op s).2 = err e → (apply op s).1 = s := by
  intro hall
  have hsame := hall counted (.modelResetRange 1 9 [] (some 5)) (.modelIndexOutOfBounds 9 5)
    (by decide +kernel)
  have hlength : (apply (.modelResetRange 1 9 [] (some 5)) counted).1.models[1]?.map
      Model.itemCount = some 5 := by decide +kernel
  rw [hsame] at hlength
  exact absurd hlength (by decide +kernel)

end Srui.SemanticTree.FailedOperations

import Srui.Basic.DenseLists
import Srui.SemanticTree.IndexArithmetic

/-!
A sparse model as a total list: one entry for each position of the collection,
holding the item cached there, if any. Every mutation that succeeds is a list
operation on this view.
-/

namespace Srui.SemanticTree.ListViews

open Std Basic.Machine Basic.DenseLists Basic.FiniteMaps Basic.InverseIndex SemanticTree.Values
open SemanticTree.Models SemanticTree.ModelIndex SemanticTree.ModelMutations
open SemanticTree.IndexArithmetic

def view (m : Model) : List (Option ModelItem) := dense m.itemCount fun i => m.items[i]?

/-- A list with every entry blanked whose item is one of `ids`. -/
def blank (ids : List ItemId) (l : List (Option ModelItem)) : List (Option ModelItem) :=
  l.map fun entry => entry.filter fun item => decide (item.itemId ∉ ids)

variable {m m' : Model}

theorem eq_of_some_iff {α : Type} {x y : Option α} (h : ∀ a, x = some a ↔ y = some a) :
    x = y := Option.ext h

/-! ### Insertion and deletion -/

variable {index count : Nat} {items : List ModelItem}

theorem Inserted.view (h : Inserted m m' index items) :
    view m' = splice index (items.map some) (view m) := by
  have hlength : (items.map some).length = items.length := List.length_map _
  unfold ListViews.view
  rw [h.itemCount, ← hlength]
  apply dense_splice h.bound
  · intro j hj
    apply eq_of_some_iff
    intro a
    rw [h.items]
    constructor
    · rintro (⟨-, ha⟩ | ⟨k, -, rfl⟩ | ⟨o, ho, -, rfl⟩)
      · exact ha
      · omega
      · omega
    · intro ha
      exact .inl ⟨hj, ha⟩
  · intro k x hx
    obtain ⟨item, hitem, rfl⟩ := Option.map_eq_some_iff.mp (List.getElem?_map ▸ hx)
    exact (h.items _ _).mpr (.inr (.inl ⟨k, hitem, rfl⟩))
  · intro o ho
    rw [hlength]
    apply eq_of_some_iff
    intro a
    rw [h.items]
    constructor
    · rintro (⟨hlow, -⟩ | ⟨k, hk, heq⟩ | ⟨o', -, ha, heq⟩)
      · omega
      · have hbatch : k < items.length := (List.getElem?_eq_some_iff.mp hk).1
        omega
      · have hsame : o' = o := by omega
        exact hsame ▸ ha
    · intro ha
      exact .inr (.inr ⟨o, ho, ha, rfl⟩)

theorem DeletedRange.view (h : DeletedRange m m' index count) :
    view m' = cutOut index count (view m) := by
  unfold ListViews.view
  rw [h.itemCount]
  apply dense_cutOut h.bound
  · intro j hj
    apply eq_of_some_iff
    intro a
    rw [h.items]
    constructor
    · rintro (⟨-, ha⟩ | ⟨o, ho, -, heq⟩)
      · exact ha
      · omega
    · intro ha
      exact .inl ⟨hj, ha⟩
  · intro j hj
    apply eq_of_some_iff
    intro a
    rw [h.items]
    constructor
    · rintro (⟨hlow, -⟩ | ⟨o, -, ha, heq⟩)
      · omega
      · exact heq ▸ ha
    · intro ha
      exact .inr ⟨j + count, by omega, ha, rfl⟩

theorem DeletedIds.view (hindexed : Indexed m) {k : ItemId}
    (h : DeletedIds m m' [k]) (hk : m.idToIndex[k]? = some index) (hindex : index < m.itemCount) :
    view m' = cutOut index 1 (view m) := by
  have hmoved : ∀ o, removedBelow m [k] o = if index < o then 1 else 0 := by
    intro o
    rw [removedBelow_single, cachedBelow_eq hk]
    simp
  obtain ⟨b, hb, rfl⟩ := (hindexed k index).mp hk
  have hothers : ∀ {o : Nat} {a : ModelItem}, m.items[o]? = some a →
      (a.itemId ∉ [b.itemId] ↔ o ≠ index) := by
    intro o a ha
    rw [List.mem_singleton]
    constructor
    · rintro hne rfl
      rw [hb] at ha
      exact hne (Option.some.inj ha ▸ rfl)
    · intro hne hid
      exact hne (Inverse.position_unique hindexed ha hb hid)
  unfold ListViews.view
  rw [h.itemCount, List.length_singleton]
  apply dense_cutOut (by omega)
  · intro j hj
    apply eq_of_some_iff
    intro a
    rw [h.items]
    constructor
    · rintro ⟨o, ha, hnot, hjo⟩
      have hne := (hothers ha).mp hnot
      rw [hmoved] at hjo
      split at hjo
      · omega
      · exact hjo ▸ ha
    · intro ha
      refine ⟨j, ha, (hothers ha).mpr (by omega), ?_⟩
      rw [hmoved, if_neg (by omega)]
      rfl
  · intro j hj
    apply eq_of_some_iff
    intro a
    rw [h.items]
    constructor
    · rintro ⟨o, ha, hnot, hjo⟩
      have hne := (hothers ha).mp hnot
      rw [hmoved] at hjo
      split at hjo
      · have hsame : o = j + 1 := by omega
        exact hsame ▸ ha
      · omega
    · intro ha
      refine ⟨j + 1, ha, (hothers ha).mpr (by omega), ?_⟩
      rw [hmoved, if_pos (by omega)]
      rfl

/-! ### Updates and resets -/

theorem UpdatedAt.view {start : Nat} (h : UpdatedAt m m' start items)
    (hids : (items.map ModelItem.itemId).Nodup) :
    view m' = overwrite start (items.map some) (blank (items.map ModelItem.itemId) (view m)) := by
  have hlength : (items.map some).length = items.length := List.length_map _
  cases items with
  | nil =>
    have hsame : ∀ i : Nat, m'.items[i]? = m.items[i]? := by
      intro i
      apply eq_of_some_iff
      intro a
      rw [h.items]
      simp
    have hblank : blank [] (ListViews.view m) = ListViews.view m := by
      apply List.map_id''
      intro entry
      cases entry <;> rfl
    have hcount := h.itemCount
    rw [List.map_nil, List.map_nil, hblank, overwrite, List.append_nil, List.length_nil,
      Nat.add_zero, List.take_append_drop]
    unfold ListViews.view
    rw [hcount]
    exact dense_congr fun i _ => hsame i
  | cons item rest =>
    have hbound := h.bound (List.cons_ne_nil item rest)
    generalize item :: rest = items at *
    have hblank : blank (items.map ModelItem.itemId) (ListViews.view m) =
        dense m.itemCount fun i => (m.items[i]?).filter fun a =>
          decide (a.itemId ∉ items.map ModelItem.itemId) := by
      rw [blank, ListViews.view, dense, List.map_map]
      rfl
    rw [hblank]
    unfold ListViews.view
    rw [h.itemCount]
    apply dense_overwrite (by rw [hlength]; exact hbound)
    · intro j _ hout
      rw [hlength] at hout
      apply eq_of_some_iff
      intro a
      rw [h.items, Option.filter_eq_some_iff, decide_eq_true_eq]
      constructor
      · rintro (⟨-, ha, hnot⟩ | ⟨k, hk, rfl, -⟩)
        · exact ⟨ha, hnot⟩
        · have hbatch : k < items.length := (List.getElem?_eq_some_iff.mp hk).1
          omega
      · rintro ⟨ha, hnot⟩
        exact .inl ⟨hout, ha, hnot⟩
    · intro k x hx
      obtain ⟨a, ha, rfl⟩ := Option.map_eq_some_iff.mp (List.getElem?_map ▸ hx)
      refine (h.items _ _).mpr (.inr ⟨k, ha, rfl, ?_⟩)
      -- distinct identities: the later part of the batch does not repeat this one
      intro hlater
      obtain ⟨hk, rfl⟩ := List.getElem?_eq_some_iff.mp ha
      have hsplit := List.take_append_drop (k + 1) (items.map ModelItem.itemId)
      rw [← hsplit, List.nodup_append] at hids
      refine hids.2.2 items[k].itemId ?_ items[k].itemId ?_ rfl
      · rw [← List.map_take, List.mem_map]
        refine ⟨items[k], ?_, rfl⟩
        refine List.mem_iff_getElem?.mpr ⟨k, ?_⟩
        rw [List.getElem?_take_of_lt (by omega)]
        exact ha
      · rw [← List.map_drop]
        exact hlater

theorem ResetTo.view {start : Nat}
    (h : ResetTo m m' start items none) :
    view m' = overwrite start (items.map some) (view m) := by
  have hlength : (items.map some).length = items.length := List.length_map _
  have hcount : announcedCount m none = m.itemCount := rfl
  unfold ListViews.view
  rw [h.itemCount, hcount]
  apply dense_overwrite (by rw [hlength]; exact hcount ▸ h.bound)
  · intro j _ hout
    rw [hlength] at hout
    apply eq_of_some_iff
    intro a
    rw [h.items]
    constructor
    · rintro (⟨-, ha⟩ | ⟨k, hk, rfl⟩)
      · exact ha
      · have hbatch : k < items.length := (List.getElem?_eq_some_iff.mp hk).1
        omega
    · intro ha
      exact .inl ⟨hout, ha⟩
  · intro k x hx
    obtain ⟨a, ha, rfl⟩ := Option.map_eq_some_iff.mp (List.getElem?_map ▸ hx)
    exact (h.items _ _).mpr (.inr ⟨k, ha, rfl⟩)

/-! ### A batch inserted and cut out again -/

theorem model_ext (h : Indexed m) (h' : Indexed m') (hheader : SameHeader m m')
    (hitems : ∀ (i : Nat) (a : ModelItem), m'.items[i]? = some a ↔ m.items[i]? = some a) :
    m' = m := by
  have hsame : m'.items = m.items := by
    apply ExtTreeMap.ext_getElem?
    intro i
    exact eq_of_some_iff (hitems i)
  have hindex : m'.idToIndex = m.idToIndex := by
    apply ExtTreeMap.ext_getElem?
    intro k
    apply eq_of_some_iff
    intro i
    rw [h k i, h' k i, hsame]
  obtain ⟨hid, hmodelType, hcount⟩ := hheader
  cases m
  cases m'
  simp only [Model.mk.injEq]
  exact ⟨hid, hmodelType, hcount, hsame, hindex⟩

theorem deleteItems_range (hcount : 0 < count) :
    deleteItems m (some index) (some count) [] = deleteByRange m index count := by
  rw [deleteItems, if_neg (by simp), if_neg (by simp)]
  exact if_pos hcount

theorem insertItems_identity (m : Model) (index : Nat) (items : List ModelItem) :
    (insertItems m index items).1.id = m.id ∧
      (insertItems m index items).1.modelType = m.modelType := by
  have hshift := shiftCachedIndices_header m index items.length
  unfold insertItems
  split
  · exact ⟨rfl, rfl⟩
  split
  · exact ⟨rfl, rfl⟩
  split
  · exact ⟨rfl, rfl⟩
  split
  · rename_i hshifted
    rw [hshifted] at hshift
    exact ⟨hshift.id, hshift.modelType⟩
  rename_i shifted hshifted
  rw [hshifted] at hshift
  have hwrite := hshift.trans (writeItems_header shifted index 0 items)
  split
  · rename_i hwritten
    rw [hwritten] at hwrite
    exact ⟨hwrite.id, hwrite.modelType⟩
  rename_i written hwritten
  rw [hwritten] at hwrite
  split
  · exact ⟨hwrite.id, hwrite.modelType⟩
  · exact ⟨hwrite.id, hwrite.modelType⟩

theorem deleteByRange_accepted (hstart : index ≤ m.itemCount)
    (hend : saturatingAdd index count ≤ m.itemCount)
    (hok : NoOverflow (deleteByRange m index count)) :
    (deleteByRange m index count).2 = .ok () ∧ (deleteByRange m index count).1.id = m.id ∧
      (deleteByRange m index count).1.modelType = m.modelType := by
  unfold deleteByRange at hok ⊢
  rw [if_neg (by omega)] at hok ⊢
  cases hadd : checkedAdd index count with
  | none => simp [hadd] at hok
  | some endIndex =>
    simp only [hadd] at hok ⊢
    have hcleared := removeAll_header
      (m.items.keys.filter fun k => decide (index ≤ k ∧ k < endIndex)) m
    generalize (m.items.keys.filter fun k =>
      decide (index ≤ k ∧ k < endIndex)).foldl removeCached m = m₀ at hcleared hok ⊢
    have hshift := hcleared.trans
      (shiftCachedIndices_header m₀ endIndex (negI64 (asI64 count)))
    rcases hmoved : shiftCachedIndices m₀ endIndex (negI64 (asI64 count)) with ⟨m₁, r₁⟩
    have hdone := @shift_ok m₀ endIndex (negI64 (asI64 count)) (by
      rw [hmoved]
      rintro rfl
      simp [hmoved] at hok)
    rw [hmoved] at hshift hdone
    cases hdone
    exact ⟨rfl, hshift.id, hshift.modelType⟩

theorem insert_then_delete (h : Indexed m)
    (hwidth : m'.itemCount ≤ u64Max) (hvector : items.length ≤ i64Max)
    (hok : insertItems m index items = (m', .ok ())) :
    deleteItems m' (some index) (some items.length) [] = (m, .ok ()) := by
  have hinsert := insertItems_spec h index items (by simp [hok])
  have hidentity := insertItems_identity m index items
  rw [hok] at hinsert hidentity
  obtain ⟨hindexed, hinserted⟩ := hinsert
  have hinserted := hinserted rfl
  have hbound := hinserted.bound
  have hcount : m'.itemCount = m.itemCount + items.length := hinserted.itemCount
  rcases Nat.eq_zero_or_pos items.length with hzero | hpos
  · have hsame : m' = m := by
      apply model_ext h hindexed ⟨hidentity.1, hidentity.2, hcount.trans (by omega)⟩
      intro i a
      rw [hinserted.items]
      have hnil : items = [] := List.length_eq_zero_iff.mp hzero
      subst hnil
      constructor
      · rintro (⟨-, ha⟩ | ⟨k, hk, -⟩ | ⟨o, -, ha, rfl⟩)
        · exact ha
        · simp at hk
        · exact ha
      · intro ha
        rcases Nat.lt_or_ge i index with hlow | hhigh
        · exact .inl ⟨hlow, ha⟩
        · exact .inr (.inr ⟨i, hhigh, ha, rfl⟩)
    rw [hsame, hzero]
    rfl
  rw [deleteItems_range hpos]
  have hstart : index ≤ m'.itemCount := by omega
  have hend : saturatingAdd index items.length ≤ m'.itemCount := by
    unfold saturatingAdd
    omega
  have hrange := ((deleteByRange_inRange hstart hend).mpr ⟨by omega, hvector⟩).1
  obtain ⟨hdone, hid, hmodelType⟩ := deleteByRange_accepted hstart hend hrange
  obtain ⟨hback, hdeleted⟩ := deleteByRange_spec hindexed hpos hrange
  have hdeleted := hdeleted hdone
  have hsame : (deleteByRange m' index items.length).1 = m := by
    apply model_ext h hback
    · refine ⟨hid.trans hidentity.1, hmodelType.trans hidentity.2, ?_⟩
      rw [hdeleted.itemCount, hcount]
      omega
    · intro i a
      rw [hdeleted.items]
      constructor
      · rintro (⟨hlow, ha⟩ | ⟨o, ho, ha, hio⟩)
        · rcases (hinserted.items i a).mp ha with ⟨-, ha⟩ | ⟨k, -, rfl⟩ | ⟨o, ho, -, rfl⟩
          · exact ha
          · omega
          · omega
        · rcases (hinserted.items o a).mp ha with ⟨hlow, -⟩ | ⟨k, hk, rfl⟩ | ⟨o', -, ha, heq⟩
          · omega
          · have hbatch : k < items.length := (List.getElem?_eq_some_iff.mp hk).1
            omega
          · have hsame : o' = i := by omega
            exact hsame ▸ ha
      · intro ha
        rcases Nat.lt_or_ge i index with hlow | hhigh
        · exact .inl ⟨hlow, (hinserted.items i a).mpr (.inl ⟨hlow, ha⟩)⟩
        · exact .inr ⟨i + items.length, by omega,
            (hinserted.items _ a).mpr (.inr (.inr ⟨i, hhigh, ha, rfl⟩)), rfl⟩
  exact Prod.ext hsame hdone

/-- Every mutation of a model that succeeds is an operation on its list: an insertion splices
its batch in, a range deletion cuts its range out, the deletion of a cached identity cuts its one
position out, a positional update of distinct identities blanks their old positions and writes
the batch, and a range reset overwrites its range. Cutting an inserted batch out again gives the
model back. -/
theorem model_refines_list (h : Indexed m)
    (hbelow : ∀ (i : Nat) (a : ModelItem), m.items[i]? = some a → i < m.itemCount) :
    (∀ (index : Nat) (items : List ModelItem) (m' : Model),
      insertItems m index items = (m', .ok ()) →
        view m' = splice index (items.map some) (view m)) ∧
    (∀ (index count : Nat) (m' : Model),
      deleteItems m (some index) (some count) [] = (m', .ok ()) →
        view m' = cutOut index count (view m)) ∧
    (∀ (k : ItemId) (position : Nat) (index count : Option Nat) (m' : Model),
      m.idToIndex[k]? = some position → deleteItems m index count [k] = (m', .ok ()) →
        view m' = cutOut position 1 (view m)) ∧
    (∀ (base : Nat) (items : List ModelItem) (m' : Model), (items.map ModelItem.itemId).Nodup →
      updateItems m (some base) items = (m', .ok ()) →
        view m' = overwrite base (items.map some)
          (blank (items.map ModelItem.itemId) (view m))) ∧
    (∀ (start : Nat) (items : List ModelItem) (m' : Model),
      resetRange m start items none = (m', .ok ()) →
        view m' = overwrite start (items.map some) (view m)) ∧
    ∀ (index : Nat) (items : List ModelItem) (m' : Model),
      m.itemCount + items.length ≤ u64Max → items.length ≤ i64Max →
        insertItems m index items = (m', .ok ()) →
          deleteItems m' (some index) (some items.length) [] = (m, .ok ()) := by
  refine ⟨?_, ?_, ?_, ?_, ?_, ?_⟩
  · intro index items m' hok
    have hspec := (insertItems_spec h index items (by simp [hok])).2
    rw [hok] at hspec
    exact Inserted.view (hspec rfl)
  · intro index count m' hok
    rcases Nat.eq_zero_or_pos count with hzero | hpos
    · subst hzero
      have hsame : m = m' := by simpa [deleteItems] using hok
      rw [← hsame, cutOut, Nat.add_zero, List.take_append_drop]
    · rw [deleteItems_range hpos] at hok
      have hrange : NoOverflow (deleteByRange m index count) := by simp [hok]
      have hspec := (deleteByRange_spec h hpos hrange).2
      rw [hok] at hspec
      exact DeletedRange.view (hspec rfl)
  · intro k position index count m' hk hok
    rw [deleteItems] at hok
    split at hok
    · cases hok
    · rw [if_pos (by simp)] at hok
      have hspec := (deleteByIds_spec [k] h (by simp [hok])).2.2
      rw [hok] at hspec
      obtain ⟨a, ha, -⟩ := (h k position).mp hk
      exact DeletedIds.view h hspec hk (hbelow position a ha)
  · intro base items m' hids hok
    change updateAt m base 0 items = (m', .ok ()) at hok
    have hspec := (updateAt_spec h base 0 items (by simp [hok])).2
    rw [hok] at hspec
    exact UpdatedAt.view (hspec rfl) hids
  · intro start items m' hok
    have hspec := (resetRange_spec h start items none (by simp [hok])).2
    rw [hok] at hspec
    exact ResetTo.view (hspec rfl)
  · intro index items m' hwidth hvector hok
    have hspec := (insertItems_spec h index items (by simp [hok])).2
    rw [hok] at hspec
    have hcount : m'.itemCount = m.itemCount + items.length := (hspec rfl).itemCount
    exact insert_then_delete h (by omega) hvector hok

def sparse : Model := cacheItem (cacheItem (Model.new 1 ⟨0, 1⟩ 3) 0 ⟨10, .null, ∅⟩) 2 ⟨12, .null, ∅⟩

theorem sparse_indexed : Indexed sparse := by
  refine cacheItem_indexed (cacheItem_indexed (indexed_new _ _ _) ?_ ?_) ?_ ?_ <;> decide +kernel

/-- An item is inserted between the two; the first is deleted; the two swap places; and the
middle position is filled. -/
theorem sparse_refines_list :
    view (insertItems sparse 1 [⟨11, .null, ∅⟩]).1 =
        splice 1 [some ⟨11, .null, ∅⟩] (view sparse) ∧
      view (deleteItems sparse (some 1) (some 1) []).1 = cutOut 1 1 (view sparse) ∧
      view (deleteItems sparse none none [10]).1 = cutOut 0 1 (view sparse) ∧
      view (updateItems sparse (some 1) [⟨12, .null, ∅⟩, ⟨10, .null, ∅⟩]).1 =
        overwrite 1 [some ⟨12, .null, ∅⟩, some ⟨10, .null, ∅⟩] (blank [12, 10] (view sparse)) ∧
      view (resetRange sparse 1 [⟨11, .null, ∅⟩] none).1 =
        overwrite 1 [some ⟨11, .null, ∅⟩] (view sparse) ∧
      deleteItems (insertItems sparse 1 [⟨11, .null, ∅⟩]).1 (some 1) (some 1) [] =
        (sparse, .ok ()) := by
  have hbelow : ∀ (i : Nat) (a : ModelItem), sparse.items[i]? = some a →
      i < sparse.itemCount :=
    forall_of_toList (P := fun i _ => i < sparse.itemCount) (by decide +kernel)
  obtain ⟨hinsert, hrange, hid, hupdate, hreset, hback⟩ :=
    model_refines_list sparse_indexed hbelow
  refine ⟨?_, ?_, ?_, ?_, ?_, ?_⟩
  · exact hinsert 1 [⟨11, .null, ∅⟩] _ (Prod.ext rfl (by decide +kernel))
  · exact hrange 1 1 _ (Prod.ext rfl (by decide +kernel))
  · exact hid 10 0 none none _ (by decide +kernel) (Prod.ext rfl (by decide +kernel))
  · exact hupdate 1 [⟨12, .null, ∅⟩, ⟨10, .null, ∅⟩] _ (by decide)
      (Prod.ext rfl (by decide +kernel))
  · exact hreset 1 [⟨11, .null, ∅⟩] _ (Prod.ext rfl (by decide +kernel))
  · exact hback 1 [⟨11, .null, ∅⟩] _ (by decide +kernel) (by decide)
      (Prod.ext rfl (by decide +kernel))

end Srui.SemanticTree.ListViews

import Srui.SemanticTree.ModelMutations

/-!
The index arithmetic of the calls that move or write cached items: exactly when
every position, end index, shift and length they compute fits its machine type.
-/

namespace Srui.SemanticTree.IndexArithmetic

open Std Basic.Machine Basic.FiniteMaps SemanticTree.Values SemanticTree.Models
open SemanticTree.ModelIndex SemanticTree.ModelMutations

/-- Largest signed 64-bit value, which also bounds the length of a vector. -/
def i64Max : Nat := 9223372036854775807

inductive IndexCall where
  | insert (index : Nat) (items : List ModelItem)
  | delete (index count : Option Nat) (itemIds : List ItemId)
  | update (index : Nat) (items : List ModelItem)
  | resetRange (startIndex : Nat) (items : List ModelItem) (totalCount : Option Nat)

namespace IndexCall

def mutate (m : Model) : IndexCall → Mutation Model
  | .insert index items => insertItems m index items
  | .delete index count itemIds => deleteItems m index count itemIds
  | .update index items => updateItems m (some index) items
  | .resetRange startIndex items totalCount => Models.resetRange m startIndex items totalCount

/-- Arguments of their machine types: `u64` positions and counts, and vectors. -/
def Typed : IndexCall → Prop
  | .insert index items => index ≤ u64Max ∧ items.length ≤ i64Max
  | .delete index count _ => index.getD 0 ≤ u64Max ∧ count.getD 0 ≤ u64Max
  | .update index items => index ≤ u64Max ∧ items.length ≤ i64Max
  | .resetRange startIndex items totalCount =>
    startIndex ≤ u64Max ∧ items.length ≤ i64Max ∧ totalCount.getD 0 ≤ u64Max

/-- Whether `delete_items` gets past its checks with a range selector. -/
def RangeAccepted (m : Model) (index count : Option Nat) (itemIds : List ItemId) : Prop :=
  itemIds = [] ∧ 0 < count.getD 0 ∧ index.getD 0 ≤ m.itemCount ∧
    saturatingAdd (index.getD 0) (count.getD 0) ≤ m.itemCount

instance (m : Model) (index count : Option Nat) (itemIds : List ItemId) :
    Decidable (RangeAccepted m index count itemIds) :=
  inferInstanceAs (Decidable (_ ∧ _ ∧ _ ∧ _))

/-- The number a call casts to an `i64` to shift by, zero when it does not get
as far as a shift by anything but minus one. -/
def shiftCount (m : Model) : IndexCall → Nat
  | .insert _ items => items.length
  | .delete index count itemIds =>
    if RangeAccepted m index count itemIds then count.getD 0 else 0
  | .update _ _ => 0
  | .resetRange _ _ _ => 0

/-- Every `u64` sum and difference of the call fits, and so does its cast to an
`i64`, which can then be negated. -/
def InRange (m : Model) (call : IndexCall) : Prop :=
  NoOverflow (call.mutate m) ∧ call.shiftCount m ≤ i64Max

/-- What keeps a call in range, by its arguments and the model's length. -/
def Fits (m : Model) : IndexCall → Prop
  | .insert index items =>
    index ≤ m.itemCount → duplicateItem (fun id => m.idToIndex.contains id) [] items = none →
      m.itemCount + items.length ≤ u64Max
  | .delete index count itemIds =>
    RangeAccepted m index count itemIds →
      index.getD 0 + count.getD 0 ≤ u64Max ∧ count.getD 0 ≤ i64Max
  | .update _ _ => True
  | .resetRange startIndex items totalCount =>
    startIndex ≤ announcedCount m totalCount → startIndex + items.length ≤ u64Max

end IndexCall

open IndexCall (RangeAccepted shiftCount InRange Fits)

/-! ### Bounds of both maps -/

/-- Both maps of the model name positions below `bound` only. -/
structure Below (bound : Nat) (m : Model) : Prop where
  items : ∀ (i : Nat) (a : ModelItem), m.items[i]? = some a → i < bound
  ids : ∀ (k : ItemId) (i : Nat), m.idToIndex[k]? = some i → i < bound

variable {m : Model} {bound : Nat}

theorem Below.cacheItem (h : Below bound m) {index : Nat} (hindex : index < bound)
    (item : ModelItem) : Below bound (cacheItem m index item) where
  items := by
    intro i a hi
    change (m.items.insert index item)[i]? = some a at hi
    rw [getElem?_put] at hi
    split at hi
    · rename_i heq
      exact heq ▸ hindex
    · exact h.items i a hi
  ids := by
    intro k i hi
    change (m.idToIndex.insert item.itemId index)[k]? = some i at hi
    rw [getElem?_put] at hi
    split at hi
    · exact Option.some.inj hi ▸ hindex
    · exact h.ids k i hi

theorem Below.cacheAll {entries : List (Nat × ModelItem)} (h : Below bound m)
    (hentries : ∀ entry ∈ entries, entry.1 < bound) : Below bound (cacheAll m entries) := by
  induction entries generalizing m with
  | nil => exact h
  | cons entry rest ih =>
    apply ih (h.cacheItem (hentries entry (by simp)) entry.2)
    intro other hother
    exact hentries other (List.mem_cons_of_mem _ hother)

theorem Below.splitBase (h : Below bound m) (fromIndex : Nat) :
    Below bound (splitBase m fromIndex) where
  items := by
    intro i a hi
    exact h.items i a (splitBase_items.mp hi).1
  ids := h.ids

theorem Below.dropItem (h : Below bound m) (k : ItemId) (index : Nat) :
    Below bound (ModelMutations.dropItem m k index) := by
  refine ⟨?_, ?_⟩
  · intro i a hi
    change (m.items.erase index)[i]? = some a at hi
    rw [getElem?_drop] at hi
    split at hi
    · cases hi
    · exact h.items i a hi
  · intro k' i hi
    change (m.idToIndex.erase k)[k']? = some i at hi
    rw [getElem?_drop] at hi
    split at hi
    · cases hi
    · exact h.ids k' i hi

/-! ### Shifts -/

theorem shiftLoop_noOverflow {delta : Int} {entries : List (Nat × ModelItem)}
    (hall : ∀ entry ∈ entries, ∃ i, shiftedIndex entry.1 delta = some i) :
    NoOverflow (shiftLoop m delta entries) := by
  induction entries generalizing m with
  | nil => simp [shiftLoop]
  | cons entry rest ih =>
    obtain ⟨o, item⟩ := entry
    obtain ⟨i, hi⟩ := hall (o, item) (by simp)
    rw [shiftLoop]
    simp only [hi]
    exact ih fun other hother => hall other (List.mem_cons_of_mem _ hother)

theorem shift_noOverflow {fromIndex : Nat} {delta : Int}
    (hall : ∀ (o : Nat) (a : ModelItem), m.items[o]? = some a → fromIndex ≤ o →
      ∃ i, shiftedIndex o delta = some i) :
    NoOverflow (shiftCachedIndices m fromIndex delta) := by
  unfold shiftCachedIndices
  split
  · simp
  · apply shiftLoop_noOverflow
    rintro ⟨o, a⟩ hentry
    obtain ⟨ho, hhigh⟩ := mem_splitOff.mp hentry
    exact hall o a ho hhigh

theorem shiftedIndex_down {o count : Nat} (hcount : count ≤ i64Max) (ho : count ≤ o) :
    shiftedIndex o (-(count : Int)) = some (o - count) := by
  have hback : asU64 (negI64 (-(count : Int))) = count := by
    unfold i64Max at hcount
    rw [negI64, if_neg (by omega), asU64, if_pos (by omega)]
    omega
  rw [shiftedIndex, if_neg (by omega), hback, if_pos ho]

theorem shiftedIndex_up {o count : Nat} (hcount : 0 < count) (ho : o + count ≤ u64Max) :
    shiftedIndex o (count : Int) = some (o + count) := by
  have hcast : asU64 (count : Int) = count := by simp [asU64]
  rw [shiftedIndex, if_pos (by omega), hcast]
  exact checkedAdd_eq_some.mpr ⟨ho, rfl⟩

theorem negated_count {count : Nat} (h : count ≤ i64Max) :
    negI64 (asI64 count) = -(count : Int) := by
  unfold i64Max at h
  rw [asI64, if_pos h, negI64, if_neg (by omega)]

theorem Below.shiftDown (h : Below bound m) {fromIndex : Nat}
    (hok : NoOverflow (shiftCachedIndices m fromIndex (-1))) :
    (shiftCachedIndices m fromIndex (-1)).2 = .ok () ∧
      Below bound (shiftCachedIndices m fromIndex (-1)).1 := by
  unfold shiftCachedIndices at hok ⊢
  rw [if_neg (by decide)] at hok ⊢
  change NoOverflow (shiftLoop (ModelIndex.splitBase m fromIndex) (-1) (splitOff m fromIndex))
    at hok
  change (shiftLoop (ModelIndex.splitBase m fromIndex) (-1) (splitOff m fromIndex)).2 = _ ∧
    Below bound (shiftLoop (ModelIndex.splitBase m fromIndex) (-1) (splitOff m fromIndex)).1
  rw [(shiftLoop_eq _ _ _ hok).2]
  refine ⟨rfl, (h.splitBase fromIndex).cacheAll ?_⟩
  rintro ⟨i, item⟩ hentry
  obtain ⟨o, ho, hoi⟩ := mem_shiftEntries.mp hentry
  have hlow := h.items o item (mem_splitOff.mp ho).1
  have hpred := shiftedIndex_pred hoi
  change i < bound
  omega

/-! ### Each call -/

variable {items : List ModelItem}

theorem writeItems_noOverflow {base offset : Nat} (hfits : base + offset + items.length ≤ u64Max) :
    NoOverflow (writeItems m base offset items) := by
  induction items generalizing m offset with
  | nil => simp [writeItems]
  | cons item rest ih =>
    rw [List.length_cons] at hfits
    have hadd : checkedAdd base offset = some (base + offset) :=
      checkedAdd_eq_some.mpr ⟨by omega, rfl⟩
    rw [writeItems]
    simp only [hadd]
    exact ih (by omega)

theorem shift_ok {fromIndex : Nat} {delta : Int}
    (hok : NoOverflow (shiftCachedIndices m fromIndex delta)) :
    (shiftCachedIndices m fromIndex delta).2 = .ok () := by
  unfold shiftCachedIndices at hok ⊢
  split
  · rfl
  · rename_i hnonzero
    rw [if_neg hnonzero] at hok
    rw [(shiftLoop_eq _ _ _ hok).2]

theorem writeItems_ok {base offset : Nat} (hok : NoOverflow (writeItems m base offset items)) :
    (writeItems m base offset items).2 = .ok () := by
  rw [writeItems_eq m base offset items hok]

theorem insertItems_inRange (h : Below m.itemCount m) {index : Nat}
    (hcount : m.itemCount ≤ u64Max) :
    NoOverflow (insertItems m index items) ↔ Fits m (.insert index items) := by
  unfold insertItems Fits
  rcases Nat.lt_or_ge m.itemCount index with hout | hin
  · rw [if_pos hout]
    refine iff_of_true (by simp [err]) ?_
    intro hindex
    omega
  rw [if_neg (Nat.not_lt.mpr hin)]
  cases hdup : duplicateItem (fun id => m.idToIndex.contains id) [] items with
  | some itemId =>
    refine iff_of_true (by simp [err]) ?_
    intro _ hnone
    cases hnone.symm.trans hdup
  | none =>
    dsimp only
    split
    · rename_i hempty
      exact iff_of_true (by simp) fun _ _ => by omega
    rename_i hlength
    have hn : 0 < items.length := Nat.pos_of_ne_zero hlength
    have hshiftHeader := shiftCachedIndices_header m index items.length
    constructor
    · intro hok _ _
      rcases hshift : shiftCachedIndices m index items.length with ⟨m₁, e | u⟩
      · have hmoved : NoOverflow (shiftCachedIndices m index items.length) := by
          rw [hshift] at hok ⊢
          exact hok
        have hdone := shift_ok hmoved
        rw [hshift] at hdone
        cases hdone
      · rw [hshift] at hok hshiftHeader
        have hwriteHeader := writeItems_header m₁ index 0 items
        rcases hwrite : writeItems m₁ index 0 items with ⟨m₂, e | u⟩
        · have hwritten : NoOverflow (writeItems m₁ index 0 items) := by
            rw [hwrite]
            simp only [hwrite] at hok
            exact hok
          have hdone := writeItems_ok hwritten
          rw [hwrite] at hdone
          cases hdone
        · rw [hwrite] at hwriteHeader
          have hsame : m₂.itemCount = m.itemCount :=
            hwriteHeader.itemCount.trans hshiftHeader.itemCount
          cases hadd : checkedAdd m₂.itemCount items.length with
          | none => simp [hwrite, hadd] at hok
          | some itemCount =>
            rw [← hsame]
            exact (checkedAdd_eq_some.mp hadd).1
    · intro hfits
      have hfits := hfits hin hdup
      have hmoved : NoOverflow (shiftCachedIndices m index items.length) := by
        apply shift_noOverflow
        intro o a ho _
        have hlow := h.items o a ho
        exact ⟨o + items.length, shiftedIndex_up hn (by omega)⟩
      have hdone := shift_ok hmoved
      rcases hshift : shiftCachedIndices m index items.length with ⟨m₁, r₁⟩
      rw [hshift] at hdone hshiftHeader
      cases hdone
      have hwritten : NoOverflow (writeItems m₁ index 0 items) :=
        writeItems_noOverflow (by omega)
      have hdone := writeItems_ok hwritten
      have hwriteHeader := writeItems_header m₁ index 0 items
      simp only
      rcases hwrite : writeItems m₁ index 0 items with ⟨m₂, r₂⟩
      rw [hwrite] at hdone hwriteHeader
      cases hdone
      have hadd : checkedAdd m₂.itemCount items.length =
          some (m₂.itemCount + items.length) := by
        refine checkedAdd_eq_some.mpr ⟨?_, rfl⟩
        rw [hwriteHeader.itemCount, hshiftHeader.itemCount]
        exact hfits
      simp [hadd]

theorem deleteByIds_inRange {bound : Nat} (hbound : bound ≤ u64Max) (h : Below bound m)
    (ids : List ItemId) : NoOverflow (deleteByIds m ids) := by
  induction ids generalizing m with
  | nil => simp [deleteByIds]
  | cons k rest ih =>
    rw [deleteByIds]
    cases hk : m.idToIndex[k]? with
    | none => exact ih ⟨h.items, h.ids⟩
    | some index =>
      have hlow := h.ids k index hk
      have hadd : checkedAdd index 1 = some (index + 1) :=
        checkedAdd_eq_some.mpr ⟨by omega, rfl⟩
      simp only [hadd]
      have hmoved : NoOverflow (shiftCachedIndices (dropItem m k index) (index + 1) (-1)) := by
        apply shift_noOverflow
        intro o a _ hhigh
        exact ⟨o - 1, @shiftedIndex_down o 1 (by decide) (by omega)⟩
      obtain ⟨hdone, hbelow⟩ := (h.dropItem k index).shiftDown hmoved
      rcases hshift : shiftCachedIndices (dropItem m k index) (index + 1) (-1) with ⟨m₁, r₁⟩
      rw [hshift] at hdone hbelow
      unfold dropItem at hshift
      rw [hshift]
      cases hdone
      exact ih hbelow

theorem deleteByRange_inRange {index count : Nat} (haccepted : index ≤ m.itemCount)
    (hend : saturatingAdd index count ≤ m.itemCount) :
    (NoOverflow (deleteByRange m index count) ∧ count ≤ i64Max) ↔
      index + count ≤ u64Max ∧ count ≤ i64Max := by
  refine and_congr_left fun hcount => ?_
  unfold deleteByRange
  rw [if_neg (by omega)]
  cases hadd : checkedAdd index count with
  | none =>
    have hover := checkedAdd_eq_none.mp hadd
    refine iff_of_false (by simp) (by omega)
  | some endIndex =>
    obtain ⟨hfits, rfl⟩ := checkedAdd_eq_some.mp hadd
    refine iff_of_true ?_ hfits
    simp only
    rw [negated_count hcount]
    generalize (m.items.keys.filter fun k =>
      decide (index ≤ k ∧ k < index + count)).foldl removeCached m = m₀
    have hmoved : NoOverflow (shiftCachedIndices m₀ (index + count) (-(count : Int))) := by
      apply shift_noOverflow
      intro o a _ hhigh
      exact ⟨o - count, shiftedIndex_down hcount (by omega)⟩
    have hdone := shift_ok hmoved
    rcases hshift : shiftCachedIndices m₀ (index + count) (-(count : Int)) with ⟨m₁, r₁⟩
    rw [hshift] at hdone
    cases hdone
    simp

theorem updateAt_inRange {base offset : Nat} (hcount : m.itemCount ≤ u64Max)
    (hbase : base + offset ≤ u64Max) :
    NoOverflow (updateAt m base offset items) := by
  induction items generalizing m offset with
  | nil => simp [updateAt]
  | cons item rest ih =>
    have hadd : checkedAdd base offset = some (base + offset) :=
      checkedAdd_eq_some.mpr ⟨hbase, rfl⟩
    rw [updateAt]
    simp only [hadd]
    split
    · simp [err]
    · rename_i hlow
      have hheader : SameHeader m (placeItem m (base + offset) item) :=
        placeItem_header m (base + offset) item
      -- the next position is at most the length, where the loop would stop
      apply ih
      · exact hheader.itemCount ▸ hcount
      · omega

theorem updateById_inRange (m : Model) (items : List ModelItem) :
    NoOverflow (updateById m items) := by
  induction items generalizing m with
  | nil => simp [updateById]
  | cons item rest ih =>
    rw [updateById]
    rcases m.idToIndex[item.itemId]? with - | index
    · simp [err]
    · exact ih _

theorem resetRange_inRange {startIndex : Nat} {totalCount : Option Nat} :
    NoOverflow (resetRange m startIndex items totalCount) ↔
      Fits m (.resetRange startIndex items totalCount) := by
  unfold resetRange Fits
  rw [announce_eq]
  dsimp only
  change NoOverflow (if startIndex > announcedCount m totalCount then _ else _) ↔ _
  rcases Nat.lt_or_ge (announcedCount m totalCount) startIndex with hout | hin
  · rw [if_pos hout]
    refine iff_of_true (by simp [err]) ?_
    intro hstart
    omega
  rw [if_neg (Nat.not_lt.mpr hin)]
  cases hadd : checkedAdd startIndex items.length with
  | none =>
    have hover := checkedAdd_eq_none.mp hadd
    refine iff_of_false (by simp) ?_
    intro hfits
    have := hfits hin
    omega
  | some endIndex =>
    obtain ⟨hfits, rfl⟩ := checkedAdd_eq_some.mp hadd
    refine iff_of_true ?_ fun _ => hfits
    simp only
    split
    · simp [err]
    split
    · simp [err]
    · exact writeItems_noOverflow (by omega)

/-- Every call stays in range exactly when its arguments fit the length of the model: whatever
an accepted insertion adds to it, where an accepted range deletion or a range reset ends, and the
`i64` a range deletion shifts by. -/
theorem index_arithmetic_in_range (hcount : m.itemCount ≤ u64Max)
    (hitems : ∀ (i : Nat) (a : ModelItem), m.items[i]? = some a → i < m.itemCount)
    (hids : ∀ (k : ItemId) (i : Nat), m.idToIndex[k]? = some i → i < m.itemCount)
    (call : IndexCall) (htyped : call.Typed) : call.InRange m ↔ call.Fits m := by
  have hbelow : Below m.itemCount m := ⟨hitems, hids⟩
  cases call with
  | insert index items =>
    refine Iff.trans ?_ (insertItems_inRange hbelow hcount)
    exact and_iff_left htyped.2
  | delete index count itemIds =>
    change NoOverflow (deleteItems m index count itemIds) ∧
      (if RangeAccepted m index count itemIds then count.getD 0 else 0) ≤ i64Max ↔
        (RangeAccepted m index count itemIds →
          index.getD 0 + count.getD 0 ≤ u64Max ∧ count.getD 0 ≤ i64Max)
    rcases Classical.em (RangeAccepted m index count itemIds) with haccepted | hrefused
    · obtain ⟨hnil, hpos, hstart, hend⟩ := haccepted
      have hdelete : deleteItems m index count itemIds =
          deleteByRange m (index.getD 0) (count.getD 0) := by
        rw [deleteItems, if_neg (by simp [hnil]), if_neg (by simp [hnil]), if_pos hpos]
      rw [if_pos ⟨hnil, hpos, hstart, hend⟩, hdelete, deleteByRange_inRange hstart hend]
      exact ⟨fun h _ => h, fun h => h ⟨hnil, hpos, hstart, hend⟩⟩
    · rw [if_neg hrefused]
      refine iff_of_true ⟨?_, Nat.zero_le _⟩ fun haccepted => absurd haccepted hrefused
      unfold deleteItems
      split
      · simp [err]
      split
      · exact deleteByIds_inRange hcount hbelow itemIds
      split
      · rename_i hnil hpos
        unfold deleteByRange
        rw [if_pos]
        · simp [err]
        · by_contra hin
          rw [not_or, Nat.not_lt, Nat.not_lt] at hin
          exact hrefused ⟨not_not.mp hnil, hpos, hin.1, hin.2⟩
      · simp
  | update index items =>
    refine iff_of_true ⟨?_, Nat.zero_le _⟩ trivial
    exact updateAt_inRange hcount htyped.1
  | resetRange startIndex items totalCount =>
    refine Iff.trans ?_ resetRange_inRange
    exact and_iff_left (Nat.zero_le _)

/-- An item inserted at the front of a collection one short of the greatest length. -/
theorem last_insertion_in_range :
    (IndexCall.insert 0 [⟨10, .null, ∅⟩]).InRange (Model.new 1 ⟨0, 1⟩ 18446744073709551614) := by
  have htyped : (IndexCall.insert 0 [⟨10, .null, ∅⟩]).Typed := ⟨by decide, by decide⟩
  refine (index_arithmetic_in_range (by decide) ?_ ?_ _ htyped).mpr ?_
  · intro i a hi
    simp [Model.new] at hi
  · intro k i hi
    simp [Model.new] at hi
  · intro _ _
    decide

/-- A collection of the greatest length takes one more item, and its length overflows. -/
theorem full_collection_overflows : ¬ ∀ (m : Model), m.itemCount ≤ u64Max →
    (∀ (i : Nat) (a : ModelItem), m.items[i]? = some a → i < m.itemCount) →
    (∀ (k : ItemId) (i : Nat), m.idToIndex[k]? = some i → i < m.itemCount) →
    ∀ call : IndexCall, call.Typed → call.InRange m := by
  intro hall
  have hinsert := hall (Model.new 1 ⟨0, 1⟩ u64Max) (Nat.le_refl _)
    (fun i a hi => by simp [Model.new] at hi) (fun k i hi => by simp [Model.new] at hi)
    (.insert 0 [⟨10, .null, ∅⟩]) ⟨by decide, by decide⟩
  exact absurd hinsert.1 (by decide +kernel)

end Srui.SemanticTree.IndexArithmetic

import Srui.SemanticTree.ModelIndex

/-!
One specification for each mutation of a collection model. A mutation that
does not overflow keeps the reverse lookup, also when it fails midway; one that
succeeds has the positions stated here.
-/

namespace Srui.SemanticTree.ModelMutations

open Std Basic.Machine Basic.FiniteMaps Basic.InverseIndex SemanticTree.Values SemanticTree.Limits
open SemanticTree.Models SemanticTree.ModelIndex

variable {m : Model}

abbrev NoOverflow {σ : Type} (r : Mutation σ) : Prop := r.2 ≠ .error .panicked

theorem shiftLoop_header (m : Model) (delta : Int) (entries : List (Nat × ModelItem)) :
    SameHeader m (shiftLoop m delta entries).1 := by
  induction entries generalizing m with
  | nil => exact .refl m
  | cons entry rest ih =>
    rw [shiftLoop]
    split
    · exact .refl m
    · rename_i newIndex _
      have hrest := ih (cacheItem m newIndex entry.2)
      exact ⟨hrest.id, hrest.modelType, hrest.itemCount⟩

theorem shiftCachedIndices_header (m : Model) (start : Nat) (delta : Int) :
    SameHeader m (shiftCachedIndices m start delta).1 := by
  unfold shiftCachedIndices
  split
  · exact .refl m
  · have hshift := shiftLoop_header
      { m with items := m.items.filter fun index _ => decide (index < start) } delta
      (m.items.filter fun index _ => decide (start ≤ index)).toList
    exact ⟨hshift.id, hshift.modelType, hshift.itemCount⟩

theorem writeItems_header (m : Model) (base offset : Nat) (items : List ModelItem) :
    SameHeader m (writeItems m base offset items).1 := by
  induction items generalizing m offset with
  | nil => exact .refl m
  | cons item rest ih =>
    rw [writeItems]
    split
    · exact .refl m
    · rename_i index _
      have hrest := ih (cacheItem m index item) (offset + 1)
      exact ⟨hrest.id, hrest.modelType, hrest.itemCount⟩

variable {items : List ModelItem}

theorem writeItems_noError {base offset : Nat} {e : StoreError} :
    (writeItems m base offset items).2 ≠ err e := by
  induction items generalizing m offset with
  | nil =>
    intro h
    cases h
  | cons item rest ih =>
    rw [writeItems]
    split
    · intro h
      cases h
    · exact ih

/-- Positions after a batch has been inserted at `index`. -/
structure Inserted (m m' : Model) (index : Nat) (items : List ModelItem) : Prop where
  bound : index ≤ m.itemCount
  itemCount : m'.itemCount = m.itemCount + items.length
  items : ∀ (i : Nat) (a : ModelItem), m'.items[i]? = some a ↔
    (i < index ∧ m.items[i]? = some a) ∨ (∃ k, items[k]? = some a ∧ i = index + k) ∨
      ∃ o : Nat, index ≤ o ∧ m.items[o]? = some a ∧ i = o + items.length

theorem shiftFits_add (m : Model) (index n : Nat) (hn : 0 < n) : ShiftFits m index (n : Int) := by
  intro o i ho hi hlow
  have := shiftedIndex_add hn hi
  omega

variable {i index o start : Nat}

theorem shiftTarget_add {n : Nat} (hn : 0 < n)
    (h : shiftTarget index (n : Int) o = some i) : i = if o < index then o else o + n := by
  unfold shiftTarget at h
  split at h
  · rename_i hlow
    rw [if_pos hlow]
    exact (Option.some.inj h).symm
  · rename_i hhigh
    rw [if_neg hhigh]
    exact shiftedIndex_add hn h

theorem writeItems_spec (h : Indexed m) (base : Nat)
    (hids : (items.map ModelItem.itemId).Nodup)
    (hfree : ∀ i : Nat, base ≤ i → i < base + items.length → m.items[i]? = none)
    (hfresh : ∀ item ∈ items, m.idToIndex[item.itemId]? = none)
    (hok : NoOverflow (writeItems m base 0 items)) :
    (writeItems m base 0 items).2 = .ok () ∧ SameHeader m (writeItems m base 0 items).1 ∧
      Indexed (writeItems m base 0 items).1 ∧
      ∀ (i : Nat) (a : ModelItem), (writeItems m base 0 items).1.items[i]? = some a ↔
        m.items[i]? = some a ∨ ∃ k, items[k]? = some a ∧ i = base + k := by
  rw [writeItems_eq m base 0 items hok]
  have hpositions : ((batchEntries base 0 items).map Prod.fst).Nodup := by
    rw [batchEntries_fst]
    exact List.nodup_range'
  have hrange : ∀ entry ∈ batchEntries base 0 items,
      base ≤ entry.1 ∧ entry.1 < base + items.length := by
    intro entry hentry
    have hmem : entry.1 ∈ (batchEntries base 0 items).map Prod.fst := List.mem_map_of_mem hentry
    rw [batchEntries_fst, List.mem_range'_1] at hmem
    omega
  refine ⟨rfl, cacheAll_header _ _, ?_, ?_⟩
  · apply cacheAll_indexed h hpositions
    · rw [batchEntries_itemId]
      exact hids
    · intro entry hentry
      exact hfree entry.1 (hrange entry hentry).1 (hrange entry hentry).2
    · rintro ⟨i, item⟩ hentry
      obtain ⟨k, hk, -⟩ := mem_batchEntries.mp hentry
      exact hfresh item (List.mem_of_getElem? hk)
  · intro i a
    rw [cacheAll_items]
    by_cases hi : i ∈ (batchEntries base 0 items).map Prod.fst
    · obtain ⟨⟨j, b⟩, hb, rfl⟩ := List.mem_map.mp hi
      rw [insertAll_lookup_of_mem hpositions hb]
      obtain ⟨k, hk, hjk⟩ := mem_batchEntries.mp hb
      have hnone : m.items[j]? = none := hfree j (hrange _ hb).1 (hrange _ hb).2
      constructor
      · intro heq
        rw [← Option.some.inj heq]
        exact Or.inr ⟨k, hk, by simpa using hjk⟩
      · rintro (hsome | ⟨k', hk', hj'⟩)
        · rw [hnone] at hsome
          simp at hsome
        · have hkk : k = k' := by omega
          rw [← hk', ← hkk, hk]
    · rw [insertAll_lookup_of_not_mem hi]
      constructor
      · exact Or.inl
      · rintro (hsome | ⟨k, hk, rfl⟩)
        · exact hsome
        · have hmem : (base + k, a) ∈ batchEntries base 0 items :=
            mem_batchEntries.mpr ⟨k, hk, by omega⟩
          exact absurd (List.mem_map_of_mem hmem) hi

variable {k : ItemId}

theorem contains_false_iff :
    m.idToIndex.contains k = false ↔ m.idToIndex[k]? = none := by
  rw [ExtTreeMap.contains_eq_isSome_getElem?, Option.isSome_eq_false_iff, Option.isNone_iff_eq_none]

theorem insertItems_spec (h : Indexed m) (index : Nat) (items : List ModelItem)
    (hok : NoOverflow (insertItems m index items)) :
    Indexed (insertItems m index items).1 ∧
      ((insertItems m index items).2 = .ok () →
        Inserted m (insertItems m index items).1 index items) := by
  unfold insertItems at hok ⊢
  split
  · exact ⟨h, fun hok => by simp [err] at hok⟩
  rename_i hindex
  rw [if_neg hindex] at hok
  split
  · exact ⟨h, fun hok => by simp [err] at hok⟩
  rename_i hdup
  simp only [hdup] at hok
  obtain ⟨hids, hblocked⟩ := duplicateItem_none hdup
  split
  · rename_i hempty
    have hnil : items = [] := List.length_eq_zero_iff.mp hempty
    subst hnil
    refine ⟨h, fun _ => ⟨by omega, rfl, ?_⟩⟩
    intro i a
    simp only [List.getElem?_nil, List.length_nil]
    constructor
    · intro ha
      by_cases hlow : i < index
      · exact Or.inl ⟨hlow, ha⟩
      · exact Or.inr (Or.inr ⟨i, by omega, ha, rfl⟩)
    · rintro (⟨-, ha⟩ | ⟨k, hk, -⟩ | ⟨o, -, ha, rfl⟩)
      · exact ha
      · simp at hk
      · exact ha
  rename_i hlength
  rw [if_neg hlength] at hok
  have hn : 0 < items.length := by omega
  rcases hshift : shiftCachedIndices m index items.length with ⟨m₁, r₁⟩
  simp only [hshift] at hok ⊢
  have hspec := shift_spec h (shiftFits_add m index items.length hn) (by
    rw [hshift]
    rintro rfl
    exact hok rfl)
  rw [hshift] at hspec
  obtain ⟨rfl, hshifted⟩ := hspec
  dsimp only at hok ⊢
  rcases hwrite : writeItems m₁ index 0 items with ⟨m₂, r₂⟩
  simp only [hwrite] at hok ⊢
  have hwritten := writeItems_spec hshifted.indexed index hids ?_ ?_ (by
    rw [hwrite]
    rintro rfl
    exact hok rfl)
  · rw [hwrite] at hwritten
    obtain ⟨rfl, hheader, hindexed, hitems⟩ := hwritten
    dsimp only at hok ⊢ hheader hindexed hitems
    have hcount : m₂.itemCount = m.itemCount :=
      hheader.itemCount.trans hshifted.header.itemCount
    cases hadd : checkedAdd m₂.itemCount items.length with
    | none => simp [hadd] at hok
    | some itemCount =>
      refine ⟨hindexed, fun _ => ⟨by omega, ?_, ?_⟩⟩
      · rw [← hcount]
        exact (checkedAdd_eq_some.mp hadd).2
      · intro i a
        change m₂.items[i]? = some a ↔ _
        rw [hitems, hshifted.items]
        constructor
        · rintro (⟨o, ho, htarget⟩ | hbatch)
          · have hi := shiftTarget_add hn htarget
            split at hi
            · rename_i hlow
              exact Or.inl ⟨by omega, hi ▸ ho⟩
            · rename_i hhigh
              exact Or.inr (Or.inr ⟨o, by omega, ho, hi⟩)
          · exact Or.inr (Or.inl hbatch)
        · rintro (⟨hlow, ha⟩ | hbatch | ⟨o, hhigh, ho, rfl⟩)
          · refine Or.inl ⟨i, ha, ?_⟩
            rw [shiftTarget, if_pos hlow]
          · exact Or.inr hbatch
          · refine Or.inl ⟨o, ho, ?_⟩
            obtain ⟨j, hj⟩ := hshifted.total o a ho
            have hjo := shiftTarget_add hn hj
            rw [if_neg (by omega)] at hjo
            rw [hj, hjo]
  · intro i hlow hhigh
    by_contra hne
    obtain ⟨a, ha⟩ := Option.ne_none_iff_exists'.mp hne
    obtain ⟨o, -, htarget⟩ := (hshifted.items i a).mp ha
    have hi := shiftTarget_add hn htarget
    split at hi <;> omega
  · intro item hitem
    by_contra hne
    obtain ⟨i, hi⟩ := Option.ne_none_iff_exists'.mp hne
    obtain ⟨o, ho, -⟩ := (hshifted.ids item.itemId i).mp hi
    rw [contains_false_iff.mp (hblocked item hitem).1] at ho
    simp at ho

/-- Whether the identity `k` is cached below position `o`. -/
def cachedBelow (m : Model) (o : Nat) (k : ItemId) : Bool :=
  match m.idToIndex[k]? with
  | some j => decide (j < o)
  | none => false

/-- How far a deletion of `ids` moves the item cached at `o` down: once for
each distinct identity cached below it. -/
def removedBelow (m : Model) (ids : List ItemId) (o : Nat) : Nat :=
  (ids.toFinset.filter fun k => cachedBelow m o k).card

structure DeletedIds (m m' : Model) (ids : List ItemId) : Prop where
  itemCount : m'.itemCount = m.itemCount - ids.length
  items : ∀ (i : Nat) (a : ModelItem), m'.items[i]? = some a ↔
    ∃ o : Nat, m.items[o]? = some a ∧ a.itemId ∉ ids ∧ i = o - removedBelow m ids o
  lookup : ∀ (k : ItemId) (i : Nat), m'.idToIndex[k]? = some i ↔
    ∃ o : Nat, m.idToIndex[k]? = some o ∧ k ∉ ids ∧ i = o - removedBelow m ids o

theorem cachedBelow_eq {j : Nat} (hk : m.idToIndex[k]? = some j) (o : Nat) :
    cachedBelow m o k = decide (j < o) := by
  simp [cachedBelow, hk]

theorem cachedBelow_none (hk : m.idToIndex[k]? = none) (o : Nat) :
    cachedBelow m o k = false := by
  simp [cachedBelow, hk]

theorem removedBelow_single (m : Model) (k : ItemId) (o : Nat) :
    removedBelow m [k] o = if cachedBelow m o k then 1 else 0 := by
  by_cases hk : cachedBelow m o k = true
  all_goals simp [removedBelow, Finset.filter_singleton, hk]

theorem removedBelow_cons (m : Model) (k : ItemId) (rest : List ItemId) (o : Nat) :
    removedBelow m (k :: rest) o = removedBelow m [k] o +
      (rest.toFinset.filter fun k' => k' ≠ k ∧ cachedBelow m o k' = true).card := by
  have hrest : (rest.toFinset.filter fun k' => k' ≠ k ∧ cachedBelow m o k' = true) =
      (rest.toFinset.filter fun k' => cachedBelow m o k' = true).erase k := by
    ext k'
    simp only [Finset.mem_filter, Finset.mem_erase]
    tauto
  rw [removedBelow_single, hrest, removedBelow, List.toFinset_cons, Finset.filter_insert]
  by_cases hk : cachedBelow m o k = true
  · rw [if_pos hk, if_pos hk]
    by_cases hmem : k ∈ rest.toFinset.filter fun k' => cachedBelow m o k' = true
    · rw [Finset.insert_eq_of_mem hmem, Finset.card_erase_of_mem hmem]
      have := Finset.card_pos.mpr ⟨k, hmem⟩
      omega
    · rw [Finset.card_insert_of_notMem hmem, Finset.erase_eq_of_notMem hmem]
      omega
  · rw [if_neg hk, if_neg hk, Finset.erase_eq_of_notMem]
    · omega
    · simp [hk]

theorem cachedBelow_after {m m' : Model} (h : Indexed m)
    (hdel : DeletedIds m m' [k]) {a : ModelItem} (ho : m.items[o]? = some a)
    (ha : a.itemId ≠ k) (k' : ItemId) :
    cachedBelow m' (o - removedBelow m [k] o) k' = true ↔
      k' ≠ k ∧ cachedBelow m o k' = true := by
  have hindex : m.idToIndex[a.itemId]? = some o := Inverse.index_eq h ho
  have hdistinct : ∀ {k₁ k₂ : ItemId} {j : Nat}, m.idToIndex[k₁]? = some j →
      m.idToIndex[k₂]? = some j → k₁ = k₂ := by
    intro k₁ k₂ j h₁ h₂
    obtain ⟨b, hb, rfl⟩ := (h k₁ j).mp h₁
    obtain ⟨c, hc, rfl⟩ := (h k₂ j).mp h₂
    rw [Option.some.inj (hb.symm.trans hc)]
  constructor
  · intro hbelow
    cases hk' : m'.idToIndex[k']? with
    | none =>
      rw [cachedBelow_none hk'] at hbelow
      simp at hbelow
    | some j' =>
      obtain ⟨j, hj, hnot, rfl⟩ := (hdel.lookup k' j').mp hk'
      have hne : k' ≠ k := by simpa using hnot
      refine ⟨hne, ?_⟩
      rw [cachedBelow_eq hk', decide_eq_true_eq] at hbelow
      rw [cachedBelow_eq hj, decide_eq_true_eq]
      rw [removedBelow_single, removedBelow_single] at hbelow
      cases hpos : m.idToIndex[k]? with
      | none =>
        simp only [cachedBelow_none hpos] at hbelow
        simpa using hbelow
      | some p =>
        have hjp : j ≠ p := fun heq => hne (hdistinct hj (heq ▸ hpos))
        have hop : o ≠ p := fun heq => ha (hdistinct hindex (heq ▸ hpos))
        simp only [cachedBelow_eq hpos, decide_eq_true_eq] at hbelow
        split at hbelow <;> split at hbelow <;> omega
  · rintro ⟨hne, hbelow⟩
    cases hj : m.idToIndex[k']? with
    | none =>
      rw [cachedBelow_none hj] at hbelow
      simp at hbelow
    | some j =>
      have hk' := (hdel.lookup k' _).mpr ⟨j, hj, by simpa using hne, rfl⟩
      rw [cachedBelow_eq hj, decide_eq_true_eq] at hbelow
      rw [cachedBelow_eq hk', decide_eq_true_eq]
      rw [removedBelow_single, removedBelow_single]
      cases hpos : m.idToIndex[k]? with
      | none =>
        simp only [cachedBelow_none hpos]
        simpa using hbelow
      | some p =>
        have hjp : j ≠ p := fun heq => hne (hdistinct hj (heq ▸ hpos))
        have hop : o ≠ p := fun heq => ha (hdistinct hindex (heq ▸ hpos))
        simp only [cachedBelow_eq hpos, decide_eq_true_eq]
        split <;> split <;> omega

theorem DeletedIds.trans {m m₁ m₂ : Model} (h : Indexed m) {rest : List ItemId}
    (hfirst : DeletedIds m m₁ [k]) (hrest : DeletedIds m₁ m₂ rest) :
    DeletedIds m m₂ (k :: rest) := by
  have hsum : ∀ {o : Nat} {a : ModelItem}, m.items[o]? = some a → a.itemId ≠ k →
      o - removedBelow m [k] o - removedBelow m₁ rest (o - removedBelow m [k] o) =
        o - removedBelow m (k :: rest) o := by
    intro o a ho ha
    have hcongr : removedBelow m₁ rest (o - removedBelow m [k] o) =
        (rest.toFinset.filter fun k' => k' ≠ k ∧ cachedBelow m o k' = true).card := by
      unfold removedBelow
      congr 1
      apply Finset.filter_congr
      intro k' _
      exact cachedBelow_after h hfirst ho ha k'
    rw [hcongr, removedBelow_cons m k rest, Nat.sub_sub]
  refine ⟨?_, ?_, ?_⟩
  · have hone : ([k] : List ItemId).length = 1 := rfl
    rw [hrest.itemCount, hfirst.itemCount, hone, List.length_cons]
    omega
  · intro i a
    rw [hrest.items]
    constructor
    · rintro ⟨o₁, ho₁, hnot, rfl⟩
      obtain ⟨o, ho, hne, rfl⟩ := (hfirst.items o₁ a).mp ho₁
      have hne' : a.itemId ≠ k := by simpa using hne
      exact ⟨o, ho, by simp [hne', hnot], hsum ho hne'⟩
    · rintro ⟨o, ho, hnot, rfl⟩
      simp only [List.mem_cons, not_or] at hnot
      refine ⟨_, (hfirst.items _ a).mpr ⟨o, ho, by simpa using hnot.1, rfl⟩, hnot.2, ?_⟩
      exact (hsum ho hnot.1).symm
  · intro k' i
    rw [hrest.lookup]
    constructor
    · rintro ⟨o₁, ho₁, hnot, rfl⟩
      obtain ⟨o, ho, hne, rfl⟩ := (hfirst.lookup k' o₁).mp ho₁
      have hne' : k' ≠ k := by simpa using hne
      obtain ⟨a, ha, rfl⟩ := (h k' o).mp ho
      exact ⟨o, ho, by simp [hne', hnot], hsum ha hne'⟩
    · rintro ⟨o, ho, hnot, rfl⟩
      simp only [List.mem_cons, not_or] at hnot
      obtain ⟨a, ha, rfl⟩ := (h k' o).mp ho
      refine ⟨_, (hfirst.lookup _ _).mpr ⟨o, ho, by simpa using hnot.1, rfl⟩, hnot.2, ?_⟩
      exact (hsum ha hnot.1).symm

theorem deletedIds_uncached (hk : m.idToIndex[k]? = none) (h : Indexed m) :
    DeletedIds m { m with itemCount := m.itemCount - 1 } [k] := by
  have hzero : ∀ o, removedBelow m [k] o = 0 := by
    intro o
    rw [removedBelow_single, cachedBelow_none hk]
    rfl
  have hnever : ∀ {o : Nat} {a : ModelItem}, m.items[o]? = some a → a.itemId ∉ [k] := by
    intro o a ho hmem
    have hindex := Inverse.index_eq h ho
    rw [List.mem_singleton.mp hmem, hk] at hindex
    simp at hindex
  refine ⟨rfl, ?_, ?_⟩
  · intro i a
    simp only [hzero, Nat.sub_zero]
    constructor
    · intro ha
      exact ⟨i, ha, hnever ha, rfl⟩
    · rintro ⟨o, ho, -, rfl⟩
      exact ho
  · intro k' i
    simp only [hzero, Nat.sub_zero]
    constructor
    · intro hi
      obtain ⟨a, ha, rfl⟩ := (h k' i).mp hi
      exact ⟨i, hi, hnever ha, rfl⟩
    · rintro ⟨o, ho, -, rfl⟩
      exact ho

/-- The model right after a cached item and its identity are dropped, before
the items above it move. -/
def dropItem (m : Model) (k : ItemId) (index : Nat) : Model :=
  { m with idToIndex := m.idToIndex.erase k, items := m.items.erase index,
           itemCount := m.itemCount - 1 }

theorem shiftTarget_pred (h : shiftTarget (index + 1) (-1) o = some i) :
    i = if index < o then o - 1 else o := by
  unfold shiftTarget at h
  split at h
  · rename_i hlow
    rw [if_neg (by omega)]
    exact (Option.some.inj h).symm
  · rename_i hhigh
    rw [if_pos (by omega)]
    have := shiftedIndex_pred h
    omega

theorem deletedIds_cached {m m' : Model} (h : Indexed m)
    (hk : m.idToIndex[k]? = some index)
    (hshift : Shifted (dropItem m k index) m' (index + 1) (-1)) : DeletedIds m m' [k] := by
  obtain ⟨b, hb, hbk⟩ := (h k index).mp hk
  have hmove : ∀ o, removedBelow m [k] o = if index < o then 1 else 0 := by
    intro o
    rw [removedBelow_single, cachedBelow_eq hk]
    simp
  have htarget : ∀ {o i : Nat}, shiftTarget (index + 1) (-1) o = some i →
      i = o - removedBelow m [k] o := by
    intro o i ho
    rw [hmove]
    have := shiftTarget_pred ho
    split at this <;> rename_i hlt <;> simp [hlt, this]
  have hitem : ∀ (o : Nat) (a : ModelItem), (dropItem m k index).items[o]? = some a ↔
      m.items[o]? = some a ∧ a.itemId ≠ k := by
    intro o a
    change (m.items.erase index)[o]? = some a ↔ _
    rw [getElem?_drop]
    constructor
    · intro ho
      split at ho
      · simp at ho
      · rename_i hne
        refine ⟨ho, fun hak => hne ?_⟩
        exact Inverse.position_unique h hb ho (hbk.trans hak.symm)
    · rintro ⟨ho, hak⟩
      rw [if_neg]
      · exact ho
      · rintro rfl
        rw [hb] at ho
        exact hak (Option.some.inj ho ▸ hbk)
  have hlookup : ∀ (k' : ItemId) (o : Nat), (dropItem m k index).idToIndex[k']? = some o ↔
      m.idToIndex[k']? = some o ∧ k' ≠ k := by
    intro k' o
    change (m.idToIndex.erase k)[k']? = some o ↔ _
    rw [getElem?_drop]
    by_cases hkk : k = k'
    · simp [hkk]
    · simp [hkk, Ne.symm hkk]
  refine ⟨?_, ?_, ?_⟩
  · exact hshift.header.itemCount
  · intro i a
    rw [hshift.items]
    constructor
    · rintro ⟨o, ho, hto⟩
      obtain ⟨ho, hne⟩ := (hitem o a).mp ho
      exact ⟨o, ho, by simpa using hne, htarget hto⟩
    · rintro ⟨o, ho, hne, rfl⟩
      have ho' := (hitem o a).mpr ⟨ho, by simpa using hne⟩
      obtain ⟨i, hi⟩ := hshift.total o a ho'
      exact ⟨o, ho', htarget hi ▸ hi⟩
  · intro k' i
    rw [hshift.ids]
    constructor
    · rintro ⟨o, ho, hto⟩
      obtain ⟨ho, hne⟩ := (hlookup k' o).mp ho
      exact ⟨o, ho, by simpa using hne, htarget hto⟩
    · rintro ⟨o, ho, hne, rfl⟩
      have ho' := (hlookup k' o).mpr ⟨ho, by simpa using hne⟩
      obtain ⟨a, ha, rfl⟩ := (h k' o).mp ho
      obtain ⟨i, hi⟩ := hshift.total o a ((hitem o a).mpr ⟨ha, by simpa using hne⟩)
      exact ⟨o, ho', htarget hi ▸ hi⟩

theorem dropItem_indexed (h : Indexed m)
    (hk : m.idToIndex[k]? = some index) : Indexed (dropItem m k index) := by
  obtain ⟨b, hb, rfl⟩ := (h k index).mp hk
  exact Inverse.erase h hb

theorem shiftFits_dropItem (m : Model) (k : ItemId) (index : Nat) :
    ShiftFits (dropItem m k index) (index + 1) (-1) := by
  intro o i ho hi hlow
  have hpred := shiftedIndex_pred hi
  have hindex : index = i := by omega
  change (m.items.erase index)[i]? = none
  rw [getElem?_drop, if_pos hindex]

theorem deleteByIds_cached {rest : List ItemId}
    (hk : m.idToIndex[k]? = some index) (hadd : checkedAdd index 1 = some (index + 1)) :
    deleteByIds m (k :: rest) =
      match shiftCachedIndices (dropItem m k index) (index + 1) (-1) with
      | (m, .error f) => (m, .error f)
      | (m, .ok ()) => deleteByIds m rest := by
  rw [deleteByIds]
  simp only [hk, hadd]
  rfl

theorem deleteByIds_spec (ids : List ItemId) (h : Indexed m)
    (hok : NoOverflow (deleteByIds m ids)) :
    (deleteByIds m ids).2 = .ok () ∧ Indexed (deleteByIds m ids).1 ∧
      DeletedIds m (deleteByIds m ids).1 ids := by
  induction ids generalizing m with
  | nil =>
    refine ⟨rfl, h, rfl, ?_, ?_⟩
    · intro i a
      simp [deleteByIds, removedBelow]
    · intro k i
      simp [deleteByIds, removedBelow]
  | cons k rest ih =>
    cases hk : m.idToIndex[k]? with
    | none =>
      rw [deleteByIds] at hok ⊢
      simp only [hk] at hok ⊢
      have hfirst := deletedIds_uncached hk h
      obtain ⟨hresult, hindexed, hrest⟩ := ih (m := { m with itemCount := m.itemCount - 1 })
        h hok
      exact ⟨hresult, hindexed, hfirst.trans h hrest⟩
    | some index =>
      cases hadd : checkedAdd index 1 with
      | none => simp [deleteByIds, hk, hadd] at hok
      | some fromIndex =>
        have hfrom : fromIndex = index + 1 := (checkedAdd_eq_some.mp hadd).2
        subst hfrom
        rw [deleteByIds_cached hk hadd] at hok ⊢
        rcases hshift : shiftCachedIndices (dropItem m k index) (index + 1) (-1) with ⟨m₁, r₁⟩
        have hspec := shift_spec (dropItem_indexed h hk) (shiftFits_dropItem m k index) (by
          rw [hshift] at hok ⊢
          rintro rfl
          exact hok rfl)
        rw [hshift] at hspec hok
        obtain ⟨rfl, hshifted⟩ := hspec
        obtain ⟨hresult, hindexed, hrest⟩ := ih hshifted.indexed hok
        exact ⟨hresult, hindexed, (deletedIds_cached h hk hshifted).trans h hrest⟩

/-- Positions after the deletion of `index .. index + count`. -/
structure DeletedRange (m m' : Model) (index count : Nat) : Prop where
  bound : index + count ≤ m.itemCount
  itemCount : m'.itemCount = m.itemCount - count
  items : ∀ (i : Nat) (a : ModelItem), m'.items[i]? = some a ↔
    (i < index ∧ m.items[i]? = some a) ∨
      ∃ o : Nat, index + count ≤ o ∧ m.items[o]? = some a ∧ i + count = o

theorem removeWindow_items (m : Model) (low high i : Nat) (a : ModelItem) :
    ((m.items.keys.filter fun k => decide (low ≤ k ∧ k < high)).foldl
        removeCached m).items[i]? = some a ↔
      m.items[i]? = some a ∧ ¬(low ≤ i ∧ i < high) := by
  rw [removeAll_items]
  have hkey : i ∈ (m.items.keys.filter fun k => decide (low ≤ k ∧ k < high)) ↔
      (∃ b, m.items[i]? = some b) ∧ low ≤ i ∧ i < high := by
    rw [List.mem_filter, ExtTreeMap.mem_keys, ExtTreeMap.mem_iff_isSome_getElem?,
      Option.isSome_iff_exists]
    simp
  constructor
  · intro hi
    split at hi
    · simp at hi
    · rename_i hnot
      exact ⟨hi, fun hwindow => hnot (hkey.mpr ⟨⟨a, hi⟩, hwindow⟩)⟩
  · rintro ⟨hi, hnot⟩
    rw [if_neg]
    · exact hi
    · intro hmem
      exact hnot (hkey.mp hmem).2

theorem shiftTarget_sub {count : Nat} (hcount : 0 < count) (hbound : count ≤ u64Max)
    (h : shiftTarget (index + count) (negI64 (asI64 count)) o = some i) :
    i = if o < index + count then o else o - count := by
  unfold shiftTarget at h
  split at h
  · rename_i hlow
    rw [if_pos hlow]
    exact (Option.some.inj h).symm
  · rename_i hhigh
    rw [if_neg hhigh]
    have := shiftedIndex_sub hcount hbound (by omega) h
    omega

theorem deleteByRange_spec (h : Indexed m) {count : Nat} (hcount : 0 < count)
    (hok : NoOverflow (deleteByRange m index count)) :
    Indexed (deleteByRange m index count).1 ∧
      ((deleteByRange m index count).2 = .ok () →
        DeletedRange m (deleteByRange m index count).1 index count) := by
  unfold deleteByRange at hok ⊢
  split
  · exact ⟨h, fun hok => by simp [err] at hok⟩
  rename_i hrange
  rw [if_neg hrange] at hok
  cases hadd : checkedAdd index count with
  | none => simp [hadd] at hok
  | some endIndex =>
    obtain ⟨hfits, rfl⟩ := checkedAdd_eq_some.mp hadd
    simp only [hadd] at hok ⊢
    have hbound : index + count ≤ m.itemCount := by
      rw [not_or, saturatingAdd, Nat.min_eq_left hfits] at hrange
      omega
    have hcount64 : count ≤ u64Max := by omega
    generalize hcleared : (m.items.keys.filter fun k =>
      decide (index ≤ k ∧ k < index + count)).foldl removeCached m = m₀ at hok ⊢
    have hm₀ : Indexed m₀ := hcleared ▸ removeAll_indexed _ h
    have hitems₀ : ∀ (i : Nat) (a : ModelItem), m₀.items[i]? = some a ↔
        m.items[i]? = some a ∧ ¬(index ≤ i ∧ i < index + count) := by
      intro i a
      rw [← hcleared]
      exact removeWindow_items m index (index + count) i a
    have hheader₀ : SameHeader m m₀ := hcleared ▸ removeAll_header _ m
    have hgap : ShiftFits m₀ (index + count) (negI64 (asI64 count)) := by
      intro o i ho hi hlow
      have hsub := shiftedIndex_sub hcount hcount64 (by omega) hi
      by_contra hne
      obtain ⟨a, ha⟩ := Option.ne_none_iff_exists'.mp hne
      have := ((hitems₀ i a).mp ha).2
      omega
    rcases hshift : shiftCachedIndices m₀ (index + count) (negI64 (asI64 count)) with ⟨m₁, r₁⟩
    have hspec := shift_spec hm₀ hgap (by
      rw [hshift] at hok ⊢
      rintro rfl
      exact hok rfl)
    rw [hshift] at hspec
    obtain ⟨rfl, hshifted⟩ := hspec
    refine ⟨hshifted.indexed, fun _ => ⟨hbound, ?_, ?_⟩⟩
    · change m₁.itemCount - count = _
      rw [hshifted.header.itemCount, hheader₀.itemCount]
    · intro i a
      change m₁.items[i]? = some a ↔ _
      rw [hshifted.items]
      constructor
      · rintro ⟨o, ho, htarget⟩
        obtain ⟨ho, hout⟩ := (hitems₀ o a).mp ho
        have hi := shiftTarget_sub hcount hcount64 htarget
        split at hi
        · subst hi
          exact Or.inl ⟨by omega, ho⟩
        · exact Or.inr ⟨o, by omega, ho, by omega⟩
      · rintro (⟨hlow, hi⟩ | ⟨o, hhigh, ho, hio⟩)
        · refine ⟨i, (hitems₀ i a).mpr ⟨hi, by omega⟩, ?_⟩
          rw [shiftTarget, if_pos (by omega)]
        · have ho₀ := (hitems₀ o a).mpr ⟨ho, by omega⟩
          obtain ⟨j, hj⟩ := hshifted.total o a ho₀
          have hjo := shiftTarget_sub hcount hcount64 hj
          rw [if_neg (by omega)] at hjo
          have hij : j = i := by omega
          exact ⟨o, ho₀, hij ▸ hj⟩

theorem deleteItems_indexed (h : Indexed m) (index count : Option Nat) (itemIds : List ItemId)
    (hok : NoOverflow (deleteItems m index count itemIds)) :
    Indexed (deleteItems m index count itemIds).1 := by
  unfold deleteItems at hok ⊢
  split
  · exact h
  rename_i hboth
  rw [if_neg hboth] at hok
  split
  · rename_i hids
    rw [if_pos hids] at hok
    exact (deleteByIds_spec itemIds h hok).2.1
  rename_i hids
  rw [if_neg hids] at hok
  split
  · rename_i hcount
    rw [if_pos hcount] at hok
    exact (deleteByRange_spec h hcount hok).1
  · exact h

/-- One write of a positional update: `item` leaves any position it was cached
at and takes the place of whatever was cached at `target`. -/
def placeItem (m : Model) (target : Nat) (item : ModelItem) : Model :=
  cacheItem (removeCached (releaseOldPosition m item.itemId target) target) target item

theorem releaseOldPosition_header (m : Model) (k : ItemId) (target : Nat) :
    SameHeader m (releaseOldPosition m k target) := by
  unfold releaseOldPosition
  split
  · split <;> exact ⟨rfl, rfl, rfl⟩
  · exact .refl m

theorem placeItem_header (m : Model) (target : Nat) (item : ModelItem) :
    SameHeader m (placeItem m target item) := by
  have hcleared := (releaseOldPosition_header m item.itemId target).trans
    (removeCached_header _ target)
  exact ⟨hcleared.id, hcleared.modelType, hcleared.itemCount⟩

theorem clearFor_spec (h : Indexed m) (target : Nat) (itemId : ItemId) :
    SameHeader m (removeCached (releaseOldPosition m itemId target) target) ∧
      Indexed (removeCached (releaseOldPosition m itemId target) target) ∧
      ∀ (i : Nat) (a : ModelItem),
        (removeCached (releaseOldPosition m itemId target) target).items[i]? = some a ↔
          m.items[i]? = some a ∧ i ≠ target ∧ a.itemId ≠ itemId := by
  unfold releaseOldPosition
  cases hold : m.idToIndex[itemId]? with
  | none =>
    refine ⟨removeCached_header m target, removeCached_indexed h target, ?_⟩
    intro i a
    rw [removeCached_items, getElem?_drop]
    constructor
    · intro hi
      split at hi
      · simp at hi
      · rename_i hne
        refine ⟨hi, Ne.symm hne, ?_⟩
        rintro rfl
        rw [Inverse.index_eq h hi] at hold
        simp at hold
    · rintro ⟨hi, hne, -⟩
      rw [if_neg (Ne.symm hne)]
      exact hi
  | some old =>
    obtain ⟨b, hb, rfl⟩ := (h itemId old).mp hold
    dsimp only
    split
    · rename_i hne
      have herased : Indexed { m with idToIndex := m.idToIndex.erase b.itemId,
                                      items := m.items.erase old } := Inverse.erase h hb
      refine ⟨?_, removeCached_indexed herased target, ?_⟩
      · have hheader := removeCached_header { m with idToIndex := m.idToIndex.erase b.itemId,
                                                     items := m.items.erase old } target
        exact ⟨hheader.id, hheader.modelType, hheader.itemCount⟩
      · intro i a
        rw [removeCached_items, getElem?_drop, getElem?_drop]
        constructor
        · intro hi
          split at hi
          · simp at hi
          · rename_i htarget
            split at hi
            · simp at hi
            · rename_i hold'
              refine ⟨hi, Ne.symm htarget, ?_⟩
              intro hid
              exact hold' (Inverse.position_unique h hb hi hid.symm)
        · rintro ⟨hi, htarget, hid⟩
          rw [if_neg (Ne.symm htarget), if_neg]
          · exact hi
          · rintro rfl
            exact hid (congrArg _ (Option.some.inj (hi.symm.trans hb)))
    · rename_i heq
      have heq : old = target := by simpa using heq
      subst heq
      -- the identity already sits at the target: dropping it twice is dropping it once
      have hsame : removeCached { m with idToIndex := m.idToIndex.erase b.itemId } old =
          removeCached m old := by
        unfold removeCached
        simp only [hb]
        congr 1
        apply ExtTreeMap.ext_getElem?
        intro k
        rw [getElem?_drop, getElem?_drop]
        split <;> rfl
      rw [hsame]
      refine ⟨removeCached_header m old, removeCached_indexed h old, ?_⟩
      intro i a
      rw [removeCached_items, getElem?_drop]
      constructor
      · intro hi
        split at hi
        · simp at hi
        · rename_i hne
          refine ⟨hi, Ne.symm hne, ?_⟩
          intro hid
          exact hne (Inverse.position_unique h hb hi hid.symm)
      · rintro ⟨hi, hne, -⟩
        rw [if_neg (Ne.symm hne)]
        exact hi

theorem placeItem_spec (h : Indexed m) (target : Nat) (item : ModelItem) :
    SameHeader m (placeItem m target item) ∧ Indexed (placeItem m target item) ∧
      ∀ (i : Nat) (a : ModelItem), (placeItem m target item).items[i]? = some a ↔
        (i = target ∧ a = item) ∨
          (i ≠ target ∧ m.items[i]? = some a ∧ a.itemId ≠ item.itemId) := by
  obtain ⟨hheader, hindexed, hitems⟩ := clearFor_spec h target item.itemId
  unfold placeItem
  generalize removeCached (releaseOldPosition m item.itemId target) target = m₀ at *
  have hfree : m₀.items[target]? = none := by
    by_contra hne
    obtain ⟨a, ha⟩ := Option.ne_none_iff_exists'.mp hne
    exact ((hitems target a).mp ha).2.1 rfl
  have hfresh : m₀.idToIndex[item.itemId]? = none := by
    by_contra hne
    obtain ⟨i, hi⟩ := Option.ne_none_iff_exists'.mp hne
    obtain ⟨a, ha, hid⟩ := (hindexed _ i).mp hi
    exact ((hitems i a).mp ha).2.2 hid
  refine ⟨hheader.trans ⟨rfl, rfl, rfl⟩, cacheItem_indexed hindexed hfree hfresh, ?_⟩
  intro i a
  change (m₀.items.insert target item)[i]? = some a ↔ _
  rw [getElem?_put]
  constructor
  · intro hi
    split at hi
    · rename_i heq
      exact Or.inl ⟨heq.symm, (Option.some.inj hi).symm⟩
    · obtain ⟨ha, hne, hid⟩ := (hitems i a).mp hi
      exact Or.inr ⟨hne, ha, hid⟩
  · rintro (⟨rfl, rfl⟩ | ⟨hne, ha, hid⟩)
    · rw [if_pos rfl]
    · rw [if_neg (Ne.symm hne)]
      exact (hitems i a).mpr ⟨ha, hne, hid⟩

/-- Positions after a positional update from `start`. An identity that occurs
several times in the batch stays at its last occurrence only. -/
structure UpdatedAt (m m' : Model) (start : Nat) (items : List ModelItem) : Prop where
  bound : items ≠ [] → start + items.length ≤ m.itemCount
  itemCount : m'.itemCount = m.itemCount
  items : ∀ (i : Nat) (a : ModelItem), m'.items[i]? = some a ↔
    (¬(start ≤ i ∧ i < start + items.length) ∧ m.items[i]? = some a ∧
      a.itemId ∉ items.map ModelItem.itemId) ∨
    ∃ k, items[k]? = some a ∧ i = start + k ∧
      a.itemId ∉ (items.drop (k + 1)).map ModelItem.itemId

theorem UpdatedAt.cons {m m₁ m₂ : Model} {item : ModelItem} {rest : List ModelItem}
    (hbound : start < m.itemCount) (hcount : m₁.itemCount = m.itemCount)
    (hplaced : ∀ (i : Nat) (a : ModelItem), m₁.items[i]? = some a ↔ (i = start ∧ a = item) ∨
      (i ≠ start ∧ m.items[i]? = some a ∧ a.itemId ≠ item.itemId))
    (hrest : UpdatedAt m₁ m₂ (start + 1) rest) : UpdatedAt m m₂ start (item :: rest) := by
  refine ⟨?_, hrest.itemCount.trans hcount, ?_⟩
  · intro _
    cases rest with
    | nil => simpa using hbound
    | cons next more =>
      have := hrest.bound (by simp)
      simp only [List.length_cons] at this ⊢
      omega
  · intro i a
    rw [hrest.items, hplaced]
    simp only [List.length_cons, List.map_cons, List.mem_cons, not_or]
    constructor
    · rintro (⟨hout, (⟨rfl, rfl⟩ | ⟨hne, ha, hid⟩), hnot⟩ | ⟨k, hk, rfl, hlast⟩)
      · exact Or.inr ⟨0, by simp, by omega, by simpa using hnot⟩
      · exact Or.inl ⟨by omega, ha, hid, hnot⟩
      · exact Or.inr ⟨k + 1, by simpa using hk, by omega, by simpa using hlast⟩
    · rintro (⟨hout, ha, hid, hnot⟩ | ⟨k, hk, rfl, hlast⟩)
      · exact Or.inl ⟨by omega, Or.inr ⟨by omega, ha, hid⟩, hnot⟩
      · cases k with
        | zero =>
          have hitem : item = a := by simpa using hk
          subst hitem
          exact Or.inl ⟨by omega, Or.inl ⟨by omega, rfl⟩, by simpa using hlast⟩
        | succ k => exact Or.inr ⟨k, by simpa using hk, by omega, by simpa using hlast⟩

theorem updateAt_spec (h : Indexed m) (base offset : Nat) (items : List ModelItem)
    (hok : NoOverflow (updateAt m base offset items)) :
    Indexed (updateAt m base offset items).1 ∧
      ((updateAt m base offset items).2 = .ok () →
        UpdatedAt m (updateAt m base offset items).1 (base + offset) items) := by
  induction items generalizing m offset with
  | nil =>
    refine ⟨h, fun _ => ⟨by simp, rfl, ?_⟩⟩
    intro i a
    simp [updateAt]
  | cons item rest ih =>
    rw [updateAt] at hok ⊢
    cases hadd : checkedAdd base offset with
    | none => simp [hadd] at hok
    | some target =>
      have htarget : target = base + offset := (checkedAdd_eq_some.mp hadd).2
      subst htarget
      simp only [hadd] at hok ⊢
      split
      · exact ⟨h, fun hok => by simp [err] at hok⟩
      · rename_i hbound
        rw [if_neg hbound] at hok
        obtain ⟨hheader, hindexed, hplaced⟩ := placeItem_spec h (base + offset) item
        obtain ⟨hresult, hupdated⟩ := ih hindexed (offset + 1) hok
        refine ⟨hresult, fun hdone => ?_⟩
        exact UpdatedAt.cons (by omega) hheader.itemCount hplaced (hupdated hdone)

theorem updateById_spec (h : Indexed m) (items : List ModelItem) :
    Indexed (updateById m items).1 ∧ SameHeader m (updateById m items).1 ∧
      (updateById m items).1.idToIndex = m.idToIndex := by
  induction items generalizing m with
  | nil => exact ⟨h, SameHeader.refl m, rfl⟩
  | cons item rest ih =>
    rw [updateById]
    cases hindex : m.idToIndex[item.itemId]? with
    | none => exact ⟨h, SameHeader.refl m, rfl⟩
    | some index =>
      obtain ⟨b, hb, hid⟩ := (h item.itemId index).mp hindex
      have hreplaced : Indexed { m with items := m.items.insert index item } :=
        Inverse.replace h hb hid.symm
      obtain ⟨hresult, hheader, hsame⟩ := ih hreplaced
      exact ⟨hresult, ⟨hheader.id, hheader.modelType, hheader.itemCount⟩, hsame⟩

theorem updateItems_indexed (h : Indexed m) (index : Option Nat) (items : List ModelItem)
    (hok : NoOverflow (updateItems m index items)) : Indexed (updateItems m index items).1 := by
  cases index with
  | none => exact (updateById_spec h items).1
  | some base => exact (updateAt_spec h base 0 items hok).1

theorem evictFarthestOutside_header (m : Model) (keepStart keepEnd count : Nat) :
    SameHeader m (evictFarthestOutside m keepStart keepEnd count) := removeAll_header _ m

theorem evictFarthestOutside_indexed (h : Indexed m) (keepStart keepEnd count : Nat) :
    Indexed (evictFarthestOutside m keepStart keepEnd count) := removeAll_indexed _ h

/-- Length of the collection after a reset that announces `totalCount`. -/
def announcedCount (m : Model) (totalCount : Option Nat) : Nat :=
  if 0 < totalCount.getD 0 then totalCount.getD 0 else m.itemCount

def announce (m : Model) (totalCount : Option Nat) : Model :=
  { m with itemCount := announcedCount m totalCount }

theorem announce_eq (m : Model) (totalCount : Option Nat) :
    (if 0 < totalCount.getD 0 then { m with itemCount := totalCount.getD 0 } else m) =
      announce m totalCount := by
  unfold announce announcedCount
  split <;> rfl

/-- Positions after the range from `start` has been replaced by a batch. -/
structure ResetTo (m m' : Model) (start : Nat) (items : List ModelItem)
    (totalCount : Option Nat) : Prop where
  bound : start + items.length ≤ announcedCount m totalCount
  itemCount : m'.itemCount = announcedCount m totalCount
  id : m'.id = m.id
  modelType : m'.modelType = m.modelType
  items : ∀ (i : Nat) (a : ModelItem), m'.items[i]? = some a ↔
    (¬(start ≤ i ∧ i < start + items.length) ∧ m.items[i]? = some a) ∨
      ∃ k, items[k]? = some a ∧ i = start + k

theorem clearRange_items (m : Model) (start n i : Nat) (a : ModelItem) :
    ((List.range' start n).foldl removeCached m).items[i]? = some a ↔
      ¬(start ≤ i ∧ i < start + n) ∧ m.items[i]? = some a := by
  rw [removeAll_items]
  split
  · rename_i hin
    simp [List.mem_range'_1.mp hin]
  · rename_i hout
    rw [List.mem_range'_1] at hout
    simp [hout]

theorem clearRange_fresh (h : Indexed m) {n : Nat} {item : ModelItem}
    (hitem : cachedOutside m start (start + n) item.itemId = false) :
    ((List.range' start n).foldl removeCached m).idToIndex[item.itemId]? = none := by
  by_contra hne
  obtain ⟨i, hi⟩ := Option.ne_none_iff_exists'.mp hne
  obtain ⟨a, ha, hid⟩ := ((removeAll_indexed (List.range' start n) h) _ i).mp hi
  obtain ⟨hout, ha⟩ := (clearRange_items m start n i a).mp ha
  have hindex : m.idToIndex[item.itemId]? = some i := hid ▸ Inverse.index_eq h ha
  simp only [cachedOutside, hindex, decide_eq_false_iff_not] at hitem
  omega

theorem resetRange_fits {totalCount : Option Nat}
    (hok : (resetRange m start items totalCount).2 = .ok ()) :
    start + items.length ≤ u64Max := by
  unfold resetRange at hok
  rw [announce_eq] at hok
  dsimp only at hok
  split at hok
  · simp [err] at hok
  · cases hadd : checkedAdd start items.length with
    | none => simp [hadd] at hok
    | some endIndex => exact (checkedAdd_eq_some.mp hadd).1

theorem resetRange_spec (h : Indexed m) (start : Nat) (items : List ModelItem)
    (totalCount : Option Nat) (hok : NoOverflow (resetRange m start items totalCount)) :
    Indexed (resetRange m start items totalCount).1 ∧
      ((resetRange m start items totalCount).2 = .ok () →
        ResetTo m (resetRange m start items totalCount).1 start items totalCount) := by
  have hannounced : Indexed (announce m totalCount) := h
  unfold resetRange at hok ⊢
  rw [announce_eq] at hok ⊢
  dsimp only at hok ⊢
  split
  · exact ⟨hannounced, fun hok => by simp [err] at hok⟩
  rename_i hstart
  rw [if_neg hstart] at hok
  cases hadd : checkedAdd start items.length with
  | none => simp [hadd] at hok
  | some endIndex =>
    have hend : endIndex = start + items.length := (checkedAdd_eq_some.mp hadd).2
    subst hend
    simp only [hadd] at hok ⊢
    split
    · exact ⟨hannounced, fun hok => by simp [err] at hok⟩
    rename_i hbound
    rw [if_neg hbound] at hok
    split
    · exact ⟨hannounced, fun hok => by simp [err] at hok⟩
    rename_i hdup
    simp only [hdup] at hok
    obtain ⟨hids, hblocked⟩ := duplicateItem_none hdup
    have hwritten := writeItems_spec (removeAll_indexed (List.range' start items.length)
      hannounced) start hids ?_ ?_ hok
    · obtain ⟨-, hheader, hindexed, hitems⟩ := hwritten
      have hheader := (removeAll_header (List.range' start items.length)
        (announce m totalCount)).trans hheader
      refine ⟨hindexed, fun _ => ⟨Nat.le_of_not_lt hbound, hheader.itemCount, hheader.id,
        hheader.modelType, ?_⟩⟩
      intro i a
      rw [hitems, clearRange_items]
      exact Iff.rfl
    · intro i hlow hhigh
      by_contra hne
      obtain ⟨a, ha⟩ := Option.ne_none_iff_exists'.mp hne
      exact ((clearRange_items _ _ _ i a).mp ha).1 ⟨hlow, hhigh⟩
    · intro item hitem
      exact clearRange_fresh hannounced (hblocked item hitem).1

end Srui.SemanticTree.ModelMutations

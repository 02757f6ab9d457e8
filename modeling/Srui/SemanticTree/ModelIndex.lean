import Srui.Basic.InverseIndex
import Srui.SemanticTree.Models

/-!
What the mutations of a collection model do to the cached positions, and that
they keep the reverse lookup the inverse of the cache.

Every mutation is described by the positions it removes and the entries it
caches, so that the bounds of the cache can be read off the same lemmas.
-/

namespace Srui.SemanticTree.ModelIndex

open Std Basic.Machine Basic.FiniteMaps Basic.InverseIndex SemanticTree.Values SemanticTree.Models

def Indexed (m : Model) : Prop := Inverse ModelItem.itemId m.items m.idToIndex

/-- Everything a mutation of the cache alone leaves in place. -/
structure SameHeader (m m' : Model) : Prop where
  id : m'.id = m.id
  modelType : m'.modelType = m.modelType
  itemCount : m'.itemCount = m.itemCount

theorem SameHeader.refl (m : Model) : SameHeader m m := ⟨rfl, rfl, rfl⟩

theorem SameHeader.trans {a b c : Model} (h : SameHeader a b) (h' : SameHeader b c) :
    SameHeader a c :=
  ⟨h'.id.trans h.id, h'.modelType.trans h.modelType, h'.itemCount.trans h.itemCount⟩

theorem indexed_new (id : ModelId) (modelType : TypeRef) (itemCount : Nat) :
    Indexed (Model.new id modelType itemCount) := inverse_empty

theorem removeCached_header (m : Model) (index : Nat) : SameHeader m (removeCached m index) := by
  unfold removeCached
  split <;> exact ⟨rfl, rfl, rfl⟩

theorem removeCached_items (m : Model) (index : Nat) :
    (removeCached m index).items = m.items.erase index := by
  unfold removeCached
  split
  · rfl
  · rename_i hnone
    apply ExtTreeMap.ext_getElem?
    intro k
    rw [getElem?_drop]
    split
    · rename_i hk
      rw [← hk, hnone]
    · rfl

theorem removeCached_indexed {m : Model} (h : Indexed m) (index : Nat) :
    Indexed (removeCached m index) := by
  unfold removeCached
  split
  · rename_i item hitem
    exact Inverse.erase h hitem
  · exact h

theorem removeAll_header (indices : List Nat) (m : Model) :
    SameHeader m (indices.foldl removeCached m) := by
  induction indices generalizing m with
  | nil => exact SameHeader.refl m
  | cons index indices ih => exact (removeCached_header m index).trans (ih _)

theorem removeAll_indexed (indices : List Nat) {m : Model} (h : Indexed m) :
    Indexed (indices.foldl removeCached m) := by
  induction indices generalizing m with
  | nil => exact h
  | cons index indices ih => exact ih (removeCached_indexed h index)

theorem removeAll_items (indices : List Nat) (m : Model) (i : Nat) :
    (indices.foldl removeCached m).items[i]? = if i ∈ indices then none else m.items[i]? := by
  induction indices generalizing m with
  | nil => simp
  | cons index indices ih =>
    rw [List.foldl_cons, ih, removeCached_items, getElem?_drop]
    by_cases hi : i ∈ indices
    · simp [hi]
    · by_cases hindex : index = i
      · simp [hindex]
      · simp [hi, hindex, Ne.symm hindex]

def cacheAll (m : Model) (entries : List (Nat × ModelItem)) : Model :=
  entries.foldl (fun m entry => cacheItem m entry.1 entry.2) m

theorem cacheAll_header (entries : List (Nat × ModelItem)) (m : Model) :
    SameHeader m (cacheAll m entries) := by
  induction entries generalizing m with
  | nil => exact SameHeader.refl m
  | cons entry entries ih =>
    have hfirst : SameHeader m (cacheItem m entry.1 entry.2) := ⟨rfl, rfl, rfl⟩
    exact hfirst.trans (ih _)

theorem cacheAll_items (entries : List (Nat × ModelItem)) (m : Model) :
    (cacheAll m entries).items = insertAll m.items entries := by
  induction entries generalizing m with
  | nil => rfl
  | cons entry entries ih => exact ih (cacheItem m entry.1 entry.2)

theorem cacheAll_idToIndex (entries : List (Nat × ModelItem)) (m : Model) :
    (cacheAll m entries).idToIndex =
      insertAll m.idToIndex (entries.map fun entry => (entry.2.itemId, entry.1)) := by
  induction entries generalizing m with
  | nil => rfl
  | cons entry entries ih => exact ih (cacheItem m entry.1 entry.2)

variable {item : ModelItem}

theorem cacheItem_indexed {m : Model} (h : Indexed m) {index : Nat}
    (hindex : m.items[index]? = none) (hitem : m.idToIndex[item.itemId]? = none) :
    Indexed (cacheItem m index item) := Inverse.insert h hindex hitem

theorem cacheAll_indexed {entries : List (Nat × ModelItem)} {m : Model} (h : Indexed m)
    (hpositions : (entries.map Prod.fst).Nodup)
    (hids : (entries.map fun entry => entry.2.itemId).Nodup)
    (hfree : ∀ entry ∈ entries, m.items[entry.1]? = none)
    (hfresh : ∀ entry ∈ entries, m.idToIndex[entry.2.itemId]? = none) :
    Indexed (cacheAll m entries) := by
  induction entries generalizing m with
  | nil => exact h
  | cons entry entries ih =>
    simp only [List.map_cons, List.nodup_cons] at hpositions hids
    apply ih (m := cacheItem m entry.1 entry.2)
    · exact cacheItem_indexed h (hfree entry (by simp)) (hfresh entry (by simp))
    · exact hpositions.2
    · exact hids.2
    · intro other hother
      have hne : entry.1 ≠ other.1 := by
        intro heq
        exact hpositions.1 (heq ▸ List.mem_map_of_mem hother)
      change (m.items.insert entry.1 entry.2)[other.1]? = none
      rw [getElem?_put, if_neg hne]
      exact hfree other (by simp [hother])
    · intro other hother
      have hne : entry.2.itemId ≠ other.2.itemId := by
        intro heq
        exact hids.1 (List.mem_map.mpr ⟨other, hother, heq.symm⟩)
      change (m.idToIndex.insert entry.2.itemId entry.1)[other.2.itemId]? = none
      rw [getElem?_put, if_neg hne]
      exact hfresh other (by simp [hother])

/-- Entries a batch occupies when written from `base + offset`. -/
def batchEntries (base : Nat) : Nat → List ModelItem → List (Nat × ModelItem)
  | _, [] => []
  | offset, item :: rest => (base + offset, item) :: batchEntries base (offset + 1) rest

variable {i o : Nat}

theorem mem_batchEntries {base offset : Nat} {items : List ModelItem} :
    (i, item) ∈ batchEntries base offset items ↔
      ∃ k, items[k]? = some item ∧ i = base + offset + k := by
  induction items generalizing offset with
  | nil => simp [batchEntries]
  | cons head rest ih =>
    rw [batchEntries, List.mem_cons, ih]
    constructor
    · rintro (heq | ⟨k, hk, rfl⟩)
      · rw [Prod.mk.injEq] at heq
        exact ⟨0, by simp [heq.2], by omega⟩
      · exact ⟨k + 1, by simpa using hk, by omega⟩
    · rintro ⟨k, hk, rfl⟩
      cases k with
      | zero =>
        left
        have hhead : head = item := by simpa using hk
        simp [hhead]
      | succ k => exact Or.inr ⟨k, by simpa using hk, by omega⟩

theorem batchEntries_fst (base offset : Nat) (items : List ModelItem) :
    (batchEntries base offset items).map Prod.fst = List.range' (base + offset) items.length := by
  induction items generalizing offset with
  | nil => rfl
  | cons item rest ih =>
    rw [batchEntries, List.map_cons, ih, List.length_cons, List.range'_succ, Nat.add_assoc]

theorem batchEntries_itemId (base offset : Nat) (items : List ModelItem) :
    (batchEntries base offset items).map (fun entry => entry.2.itemId) =
      items.map ModelItem.itemId := by
  induction items generalizing offset with
  | nil => rfl
  | cons item rest ih => rw [batchEntries, List.map_cons, ih, List.map_cons]

theorem writeItems_eq (m : Model) (base offset : Nat) (items : List ModelItem) :
    (writeItems m base offset items).2 ≠ .error .panicked →
      writeItems m base offset items = (cacheAll m (batchEntries base offset items), .ok ()) := by
  induction items generalizing m offset with
  | nil =>
    intro _
    rfl
  | cons item rest ih =>
    intro hok
    rw [writeItems] at hok ⊢
    cases hadd : checkedAdd base offset with
    | none => simp [hadd] at hok
    | some index =>
      rw [hadd] at hok
      rw [(checkedAdd_eq_some.mp hadd).2] at hok ⊢
      exact ih _ _ hok

theorem duplicateItem_none {blocked : ItemId → Bool} {incoming : List ItemId}
    {items : List ModelItem} (h : duplicateItem blocked incoming items = none) :
    (items.map ModelItem.itemId).Nodup ∧
      ∀ item ∈ items, blocked item.itemId = false ∧ item.itemId ∉ incoming := by
  induction items generalizing incoming with
  | nil => simp
  | cons item rest ih =>
    rw [duplicateItem] at h
    split at h
    · simp at h
    · rename_i hnot
      simp only [Bool.or_eq_true, not_or, Bool.not_eq_true, List.contains_iff_mem] at hnot
      obtain ⟨hnodup, hrest⟩ := ih h
      refine ⟨?_, ?_⟩
      · rw [List.map_cons, List.nodup_cons]
        refine ⟨?_, hnodup⟩
        intro hmem
        obtain ⟨other, hother, heq⟩ := List.mem_map.mp hmem
        exact (hrest other hother).2 (by simp [heq])
      · intro other hother
        rcases List.mem_cons.mp hother with rfl | hother
        · exact ⟨hnot.1, hnot.2⟩
        · have hblocked := hrest other hother
          exact ⟨hblocked.1, fun hmem => hblocked.2 (List.mem_cons_of_mem _ hmem)⟩

theorem shiftedIndex_add {n : Nat} (hn : 0 < n) (h : shiftedIndex o (n : Int) = some i) :
    i = o + n := by
  have hpos : (n : Int) > 0 := by omega
  have hcast : asU64 (n : Int) = n := by simp [asU64]
  rw [shiftedIndex, if_pos hpos, hcast] at h
  exact (checkedAdd_eq_some.mp h).2

theorem shiftedIndex_pred (h : shiftedIndex o (-1) = some i) : i + 1 = o := by
  have hone : asU64 (negI64 (-1)) = 1 := by decide
  rw [shiftedIndex, if_neg (by decide), hone] at h
  split at h
  · have := Option.some.inj h
    omega
  · simp at h

/-- A count that does not fit an `i64` reads back as a positive shift, which
overflows at every position a range deletion can move. -/
theorem shiftedIndex_sub {count : Nat} (hcount : 0 < count) (hbound : count ≤ u64Max)
    (ho : count ≤ o) (h : shiftedIndex o (negI64 (asI64 count)) = some i) : i + count = o := by
  unfold u64Max at hbound
  by_cases hpos : negI64 (asI64 count) > 0
  · rw [shiftedIndex, if_pos hpos] at h
    have hfits := (checkedAdd_eq_some.mp h).1
    unfold u64Max at hfits
    unfold asU64 negI64 asI64 at hfits
    unfold negI64 asI64 at hpos
    split at hpos <;> split at hpos <;> omega
  · rw [shiftedIndex, if_neg hpos] at h
    have hback : asU64 (negI64 (negI64 (asI64 count))) = count := by
      unfold negI64 asI64 at hpos
      unfold asU64 negI64 asI64
      split at hpos <;> split at hpos <;> omega
    rw [hback, if_pos ho] at h
    have := Option.some.inj h
    omega

theorem shiftedIndex_injective {o' : Nat} {delta : Int} (h : shiftedIndex o delta = some i)
    (h' : shiftedIndex o' delta = some i) : o = o' := by
  unfold shiftedIndex at h h'
  split at h
  · rename_i hpos
    rw [if_pos hpos] at h'
    have hi := (checkedAdd_eq_some.mp h).2
    have hi' := (checkedAdd_eq_some.mp h').2
    omega
  · rename_i hneg
    rw [if_neg hneg] at h'
    split at h <;> split at h' <;> simp_all
    omega

/-- Where a shift from `fromIndex` puts the item cached at `o`. -/
def shiftTarget (fromIndex : Nat) (delta : Int) (o : Nat) : Option Nat :=
  if o < fromIndex then some o else shiftedIndex o delta

def shiftEntries (delta : Int) (entries : List (Nat × ModelItem)) : List (Nat × ModelItem) :=
  entries.filterMap fun entry => (shiftedIndex entry.1 delta).map fun i => (i, entry.2)

theorem mem_shiftEntries {delta : Int} {entries : List (Nat × ModelItem)} :
    (i, item) ∈ shiftEntries delta entries ↔
      ∃ o, (o, item) ∈ entries ∧ shiftedIndex o delta = some i := by
  simp only [shiftEntries, List.mem_filterMap, Option.map_eq_some_iff, Prod.mk.injEq, Prod.exists]
  constructor
  · rintro ⟨o, a, hmem, j, hj, rfl, rfl⟩
    exact ⟨o, hmem, hj⟩
  · rintro ⟨o, hmem, hi⟩
    exact ⟨o, item, hmem, i, hi, rfl, rfl⟩

theorem shiftLoop_eq (m : Model) (delta : Int) (entries : List (Nat × ModelItem))
    (hok : (shiftLoop m delta entries).2 ≠ .error .panicked) :
    (∀ entry ∈ entries, ∃ i, shiftedIndex entry.1 delta = some i) ∧
      shiftLoop m delta entries = (cacheAll m (shiftEntries delta entries), .ok ()) := by
  induction entries generalizing m with
  | nil => exact ⟨by simp, rfl⟩
  | cons entry rest ih =>
    obtain ⟨o, item⟩ := entry
    rw [shiftLoop] at hok ⊢
    cases hi : shiftedIndex o delta with
    | none => simp [hi] at hok
    | some i =>
      simp only [hi] at hok ⊢
      obtain ⟨hall, heq⟩ := ih _ hok
      refine ⟨?_, ?_⟩
      · intro entry hentry
        rcases List.mem_cons.mp hentry with rfl | hentry
        · exact ⟨i, hi⟩
        · exact hall entry hentry
      · rw [heq]
        simp [shiftEntries, hi, cacheAll]

structure Shifted (m m' : Model) (fromIndex : Nat) (delta : Int) : Prop where
  header : SameHeader m m'
  indexed : Indexed m'
  total : ∀ (o : Nat) (a : ModelItem), m.items[o]? = some a →
    ∃ i, shiftTarget fromIndex delta o = some i
  items : ∀ (i : Nat) (a : ModelItem), m'.items[i]? = some a ↔
    ∃ o : Nat, m.items[o]? = some a ∧ shiftTarget fromIndex delta o = some i
  ids : ∀ (k : ItemId) (i : Nat), m'.idToIndex[k]? = some i ↔
    ∃ o : Nat, m.idToIndex[k]? = some o ∧ shiftTarget fromIndex delta o = some i

theorem shiftTarget_zero (fromIndex o : Nat) : shiftTarget fromIndex 0 o = some o := by
  have hzero : asU64 (negI64 0) = 0 := by decide
  unfold shiftTarget shiftedIndex
  simp [hzero]

section Shift

variable {m : Model} {fromIndex : Nat} {delta : Int}

def splitOff (m : Model) (fromIndex : Nat) : List (Nat × ModelItem) :=
  (m.items.filter fun index _ => decide (fromIndex ≤ index)).toList

/-- The model without the entries a shift splits off; its reverse lookup still
names them. -/
def splitBase (m : Model) (fromIndex : Nat) : Model :=
  { m with items := m.items.filter fun index _ => decide (index < fromIndex) }

theorem mem_splitOff {o : Nat} {a : ModelItem} :
    (o, a) ∈ splitOff m fromIndex ↔ m.items[o]? = some a ∧ fromIndex ≤ o := by
  rw [splitOff, mem_toList, getElem?_select]
  simp

theorem splitBase_items {i : Nat} {a : ModelItem} :
    (splitBase m fromIndex).items[i]? = some a ↔ m.items[i]? = some a ∧ i < fromIndex := by
  change (m.items.filter fun index _ => decide (index < fromIndex))[i]? = some a ↔ _
  rw [getElem?_select]
  simp

theorem shiftEntries_positions_nodup :
    ((shiftEntries delta (splitOff m fromIndex)).map Prod.fst).Nodup := by
  have hkeys : ((splitOff m fromIndex).map Prod.fst).Nodup := nodup_toList_keys _
  generalize splitOff m fromIndex = entries at hkeys
  induction entries with
  | nil => simp [shiftEntries]
  | cons entry rest ih =>
    simp only [List.map_cons, List.nodup_cons] at hkeys
    cases hi : shiftedIndex entry.1 delta with
    | none => simpa [shiftEntries, hi] using ih hkeys.2
    | some i =>
      have hhead : shiftEntries delta (entry :: rest) =
          (i, entry.2) :: shiftEntries delta rest := by simp [shiftEntries, hi]
      rw [hhead, List.map_cons, List.nodup_cons]
      refine ⟨?_, ih hkeys.2⟩
      intro hmem
      obtain ⟨⟨j, a⟩, hj, rfl⟩ := List.mem_map.mp hmem
      obtain ⟨o, ho, hoj⟩ := mem_shiftEntries.mp hj
      have hsame : entry.1 = o := shiftedIndex_injective hi hoj
      exact hkeys.1 (hsame ▸ List.mem_map_of_mem ho)

theorem shiftEntries_ids_nodup (h : Indexed m) :
    (((shiftEntries delta (splitOff m fromIndex)).map
      fun entry => (entry.2.itemId, entry.1)).map Prod.fst).Nodup := by
  have hpositions : ((shiftEntries delta (splitOff m fromIndex)).map Prod.fst).Nodup :=
    shiftEntries_positions_nodup
  have hentries : (shiftEntries delta (splitOff m fromIndex)).Nodup := hpositions.of_map _
  rw [List.map_map]
  refine List.Nodup.map_on ?_ hentries
  rintro ⟨i, a⟩ ha ⟨j, b⟩ hb hkey
  obtain ⟨o, ho, hoi⟩ := mem_shiftEntries.mp ha
  obtain ⟨o', ho', hoj⟩ := mem_shiftEntries.mp hb
  have hpos : o = o' :=
    Inverse.position_unique h (mem_splitOff.mp ho).1 (mem_splitOff.mp ho').1 hkey
  subst hpos
  have hij : i = j := Option.some.inj (hoi.symm.trans hoj)
  have hab : a = b :=
    Option.some.inj ((mem_splitOff.mp ho).1.symm.trans (mem_splitOff.mp ho').1)
  rw [hij, hab]

/-- Positions below `fromIndex` that a shift writes to are free: this is where
a deletion has just made room. -/
def ShiftFits (m : Model) (fromIndex : Nat) (delta : Int) : Prop :=
  ∀ o i, fromIndex ≤ o → shiftedIndex o delta = some i → i < fromIndex → m.items[i]? = none

theorem shifted_items (hgap : ShiftFits m fromIndex delta) (i : Nat) (a : ModelItem) :
    (cacheAll (splitBase m fromIndex) (shiftEntries delta (splitOff m fromIndex))).items[i]? =
        some a ↔
      ∃ o : Nat, m.items[o]? = some a ∧ shiftTarget fromIndex delta o = some i := by
  rw [cacheAll_items]
  by_cases hi : i ∈ (shiftEntries delta (splitOff m fromIndex)).map Prod.fst
  · obtain ⟨⟨j, b⟩, hb, rfl⟩ := List.mem_map.mp hi
    rw [insertAll_lookup_of_mem shiftEntries_positions_nodup hb]
    obtain ⟨o, ho, hoj⟩ := mem_shiftEntries.mp hb
    obtain ⟨hob, hfrom⟩ := mem_splitOff.mp ho
    constructor
    · intro hba
      rw [← Option.some.inj hba]
      refine ⟨o, hob, ?_⟩
      rw [shiftTarget, if_neg (by omega)]
      exact hoj
    · rintro ⟨o', ho', htarget⟩
      unfold shiftTarget at htarget
      split at htarget
      · rename_i hlow
        have hjo : o' = j := Option.some.inj htarget
        subst hjo
        rw [hgap o o' hfrom hoj hlow] at ho'
        simp at ho'
      · have hsame : o = o' := shiftedIndex_injective hoj htarget
        rw [← hsame, hob] at ho'
        exact ho'
  · rw [insertAll_lookup_of_not_mem hi, splitBase_items]
    constructor
    · rintro ⟨ha, hlow⟩
      refine ⟨i, ha, ?_⟩
      rw [shiftTarget, if_pos hlow]
    · rintro ⟨o, ho, htarget⟩
      unfold shiftTarget at htarget
      split at htarget
      · rename_i hlow
        have hio : o = i := Option.some.inj htarget
        subst hio
        exact ⟨ho, hlow⟩
      · rename_i hhigh
        have hmem : (i, a) ∈ shiftEntries delta (splitOff m fromIndex) :=
          mem_shiftEntries.mpr ⟨o, mem_splitOff.mpr ⟨ho, by omega⟩, htarget⟩
        exact absurd (List.mem_map_of_mem hmem) hi

theorem shifted_ids (h : Indexed m)
    (hall : ∀ entry ∈ splitOff m fromIndex, ∃ i, shiftedIndex entry.1 delta = some i)
    (k : ItemId) (i : Nat) :
    (cacheAll (splitBase m fromIndex)
        (shiftEntries delta (splitOff m fromIndex))).idToIndex[k]? = some i ↔
      ∃ o : Nat, m.idToIndex[k]? = some o ∧ shiftTarget fromIndex delta o = some i := by
  rw [cacheAll_idToIndex]
  by_cases hk : k ∈ ((shiftEntries delta (splitOff m fromIndex)).map
      fun entry => (entry.2.itemId, entry.1)).map Prod.fst
  · obtain ⟨⟨k', j⟩, hj, rfl⟩ := List.mem_map.mp hk
    rw [insertAll_lookup_of_mem (shiftEntries_ids_nodup h) hj]
    obtain ⟨⟨j', b⟩, hb, hbeq⟩ := List.mem_map.mp hj
    rw [Prod.mk.injEq] at hbeq
    obtain ⟨rfl, rfl⟩ := hbeq
    obtain ⟨o, ho, hoj⟩ := mem_shiftEntries.mp hb
    obtain ⟨hob, hfrom⟩ := mem_splitOff.mp ho
    have hindex : m.idToIndex[b.itemId]? = some o := Inverse.index_eq h hob
    have htarget : shiftTarget fromIndex delta o = some j' := by
      rw [shiftTarget, if_neg (by omega)]
      exact hoj
    change some j' = some i ↔ _
    simp [hindex, htarget]
  · rw [insertAll_lookup_of_not_mem hk]
    change m.idToIndex[k]? = some i ↔ _
    cases hindex : m.idToIndex[k]? with
    | none => simp
    | some o =>
      obtain ⟨a, ha, rfl⟩ := (h k o).mp hindex
      have hlow : o < fromIndex := by
        by_contra hhigh
        have hentry := mem_splitOff.mpr ⟨ha, Nat.le_of_not_lt hhigh⟩
        obtain ⟨j, hj⟩ := hall (o, a) hentry
        have hmem : (j, a) ∈ shiftEntries delta (splitOff m fromIndex) :=
          mem_shiftEntries.mpr ⟨o, hentry, hj⟩
        apply hk
        rw [List.map_map]
        exact List.mem_map.mpr ⟨(j, a), hmem, rfl⟩
      have htarget : shiftTarget fromIndex delta o = some o := by
        rw [shiftTarget, if_pos hlow]
      simp [htarget]

theorem shift_spec (h : Indexed m) (hgap : ShiftFits m fromIndex delta)
    (hok : (shiftCachedIndices m fromIndex delta).2 ≠ .error .panicked) :
    (shiftCachedIndices m fromIndex delta).2 = .ok () ∧
      Shifted m (shiftCachedIndices m fromIndex delta).1 fromIndex delta := by
  unfold shiftCachedIndices at hok ⊢
  split
  · rename_i hzero
    subst hzero
    refine ⟨rfl, SameHeader.refl m, h, ?_, ?_, ?_⟩
    · intro o a _
      exact ⟨o, shiftTarget_zero fromIndex o⟩
    · intro i a
      simp [shiftTarget_zero]
    · intro k i
      simp [shiftTarget_zero]
  · rename_i hnonzero
    rw [if_neg hnonzero] at hok
    change (shiftLoop (splitBase m fromIndex) delta (splitOff m fromIndex)).2 ≠ _ at hok
    change (shiftLoop (splitBase m fromIndex) delta (splitOff m fromIndex)).2 = _ ∧
      Shifted m (shiftLoop (splitBase m fromIndex) delta (splitOff m fromIndex)).1 fromIndex delta
    obtain ⟨hall, heq⟩ := shiftLoop_eq _ _ _ hok
    have hids := shifted_ids h hall
    have hitems := shifted_items hgap
    have hbase : SameHeader m (splitBase m fromIndex) := ⟨rfl, rfl, rfl⟩
    rw [heq]
    refine ⟨rfl, hbase.trans (cacheAll_header _ _), Inverse.relocate h _ hitems hids, ?_,
      hitems, hids⟩
    intro o a ho
    unfold shiftTarget
    split
    · exact ⟨o, rfl⟩
    · rename_i hhigh
      exact hall (o, a) (mem_splitOff.mpr ⟨ho, Nat.le_of_not_lt hhigh⟩)

end Shift

end Srui.SemanticTree.ModelIndex

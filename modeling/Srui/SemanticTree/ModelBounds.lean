import Srui.Basic.Ranks
import Srui.SemanticTree.ModelInvariants

/-!
Bounds of a model's cache: every cached position below the length of the
collection, and no more cached items than the store allows. For each mutation,
the exact condition on the model before it under which the bounds survive.
-/

namespace Srui.SemanticTree.ModelBounds

open Std Basic.Machine Basic.FiniteMaps Basic.InverseIndex Basic.Ranks SemanticTree.Values
open SemanticTree.Limits SemanticTree.Models SemanticTree.Stores SemanticTree.Operations
open SemanticTree.ModelIndex SemanticTree.ModelMutations SemanticTree.OperationEffects
open SemanticTree.ModelInvariants

/-- Cached positions lie below the length and the cache fits its limit. -/
structure Bounded (limits : StoreLimits) (m : Model) : Prop where
  index : ∀ (i : Nat) (a : ModelItem), m.items[i]? = some a → i < m.itemCount
  cache : cachedItemCount m ≤ limits.maxCachedItemsPerModel

variable {limits : StoreLimits} {m m' : Model}

theorem bounded_new (limits : StoreLimits) (id : ModelId) (modelType : TypeRef)
    (itemCount : Nat) : Bounded limits (Model.new id modelType itemCount) := by
  refine ⟨?_, ?_⟩
  · intro i a ha
    simp [Model.new] at ha
  · simp [Model.new, cachedItemCount]

variable {index start : Nat} {items : List ModelItem}

theorem Inserted.size_le (h : Indexed m) (h' : Indexed m')
    (hins : Inserted m m' index items) : m'.items.size ≤ m.items.size + items.length := by
  rw [Inverse.size_eq h, Inverse.size_eq h', ← card_keySet, ← card_keySet]
  have hsub : keySet m'.idToIndex ⊆
      keySet m.idToIndex ∪ (items.map ModelItem.itemId).toFinset := by
    intro k hk
    obtain ⟨i, a, ha, rfl⟩ := (Inverse.mem_keySet_index h').mp hk
    rw [Finset.mem_union]
    rcases (hins.items i a).mp ha with ⟨-, ha⟩ | ⟨j, hj, -⟩ | ⟨o, -, ho, -⟩
    · exact Or.inl ((Inverse.mem_keySet_index h).mpr ⟨i, a, ha, rfl⟩)
    · right
      rw [List.mem_toFinset]
      exact List.mem_map_of_mem (List.mem_of_getElem? hj)
    · exact Or.inl ((Inverse.mem_keySet_index h).mpr ⟨o, a, ho, rfl⟩)
  calc (keySet m'.idToIndex).card
      ≤ (keySet m.idToIndex ∪ (items.map ModelItem.itemId).toFinset).card :=
        Finset.card_le_card hsub
    _ ≤ (keySet m.idToIndex).card + (items.map ModelItem.itemId).toFinset.card :=
        Finset.card_union_le _ _
    _ ≤ (keySet m.idToIndex).card + items.length := by
        have hlist := List.toFinset_card_le (items.map ModelItem.itemId)
        rw [List.length_map] at hlist
        omega

theorem Inserted.bounded (h : Indexed m) (h' : Indexed m')
    (hins : Inserted m m' index items) (hb : Bounded limits m)
    (hfits : cachedItemCount m + items.length ≤ limits.maxCachedItemsPerModel) :
    Bounded limits m' := by
  refine ⟨?_, ?_⟩
  · intro i a ha
    rw [hins.itemCount]
    rcases (hins.items i a).mp ha with ⟨hlow, -⟩ | ⟨j, hj, rfl⟩ | ⟨o, -, ho, rfl⟩
    · have := hins.bound
      omega
    · have hlength : j < items.length := (List.getElem?_eq_some_iff.mp hj).1
      have := hins.bound
      omega
    · have := hb.index o a ho
      omega
  · have hsize := Inserted.size_le h h' hins
    unfold cachedItemCount at hfits ⊢
    omega

theorem DeletedRange.bounded (h : Indexed m) (h' : Indexed m') {count : Nat}
    (hdel : DeletedRange m m' index count) (hb : Bounded limits m) : Bounded limits m' := by
  refine ⟨?_, ?_⟩
  · intro i a ha
    rw [hdel.itemCount]
    have hbound := hdel.bound
    rcases (hdel.items i a).mp ha with ⟨hlow, ha⟩ | ⟨o, hhigh, ho, hio⟩
    · omega
    · have := hb.index o a ho
      omega
  · refine Nat.le_trans (Inverse.size_le h h' ?_) hb.cache
    intro i a ha
    rcases (hdel.items i a).mp ha with ⟨-, ha⟩ | ⟨o, -, ho, -⟩
    · exact ⟨i, ha⟩
    · exact ⟨o, ho⟩

/-- Every item a deletion by identity keeps lands below the shortened length. -/
def DeleteFits (m : Model) (ids : List ItemId) : Prop :=
  ∀ (o : Nat) (a : ModelItem), m.items[o]? = some a → a.itemId ∉ ids →
    o - removedBelow m ids o < m.itemCount - ids.length

theorem DeletedIds.bounded_iff (h : Indexed m) (h' : Indexed m') {ids : List ItemId}
    (hdel : DeletedIds m m' ids) (hb : Bounded limits m) :
    Bounded limits m' ↔ DeleteFits m ids := by
  constructor
  · intro hb' o a ho hnot
    rw [← hdel.itemCount]
    exact hb'.index _ a ((hdel.items _ a).mpr ⟨o, ho, hnot, rfl⟩)
  · intro hfits
    refine ⟨?_, ?_⟩
    · intro i a ha
      obtain ⟨o, ho, hnot, rfl⟩ := (hdel.items i a).mp ha
      rw [hdel.itemCount]
      exact hfits o a ho hnot
    · refine Nat.le_trans (Inverse.size_le h h' ?_) hb.cache
      intro i a ha
      obtain ⟨o, ho, -, -⟩ := (hdel.items i a).mp ha
      exact ⟨o, ho⟩

/-- Identities a positional update of `items` from `start` leaves where they are. -/
def survivors (m : Model) (start : Nat) (items : List ModelItem) : Finset ItemId :=
  (keySet m.idToIndex).filter fun k =>
    k ∉ items.map ModelItem.itemId ∧ cachedOutside m start (start + items.length) k = true

/-- The untouched identities and the distinct incoming ones fit the cache. -/
def UpdateFits (limits : StoreLimits) (m : Model) (start : Nat) (items : List ModelItem) : Prop :=
  (survivors m start items).card + (items.map ModelItem.itemId).toFinset.card ≤
    limits.maxCachedItemsPerModel

theorem exists_last_occurrence {k : ItemId}
    (hk : k ∈ items.map ModelItem.itemId) :
    ∃ j a, items[j]? = some a ∧ a.itemId = k ∧
      a.itemId ∉ (items.drop (j + 1)).map ModelItem.itemId := by
  induction items with
  | nil => simp at hk
  | cons item rest ih =>
    by_cases hrest : k ∈ rest.map ModelItem.itemId
    · obtain ⟨j, a, hj, hid, hlast⟩ := ih hrest
      exact ⟨j + 1, a, by simpa using hj, hid, by simpa using hlast⟩
    · rw [List.map_cons, List.mem_cons] at hk
      have hid : item.itemId = k := (hk.resolve_right hrest).symm
      exact ⟨0, item, by simp, hid, by simpa [hid] using hrest⟩

theorem cachedOutside_iff {stop : Nat} {k : ItemId} {i : Nat}
    (hk : m.idToIndex[k]? = some i) :
    cachedOutside m start stop k = true ↔ ¬(start ≤ i ∧ i < stop) := by
  simp only [cachedOutside, hk, decide_eq_true_eq]
  omega

theorem UpdatedAt.keySet_eq (h : Indexed m) (h' : Indexed m') (hupd : UpdatedAt m m' start items) :
    keySet m'.idToIndex = survivors m start items ∪ (items.map ModelItem.itemId).toFinset := by
  ext k
  rw [Inverse.mem_keySet_index h', Finset.mem_union, survivors, Finset.mem_filter,
    Inverse.mem_keySet_index h, List.mem_toFinset]
  constructor
  · rintro ⟨i, a, ha, rfl⟩
    rcases (hupd.items i a).mp ha with ⟨hout, ha, hnot⟩ | ⟨j, hj, -, -⟩
    · exact Or.inl ⟨⟨i, a, ha, rfl⟩, hnot, (cachedOutside_iff (Inverse.index_eq h ha)).mpr hout⟩
    · exact Or.inr (List.mem_map_of_mem (List.mem_of_getElem? hj))
  · rintro (⟨⟨i, a, ha, rfl⟩, hnot, hout⟩ | hmem)
    · have hout := (cachedOutside_iff (Inverse.index_eq h ha)).mp hout
      exact ⟨i, a, (hupd.items i a).mpr (Or.inl ⟨hout, ha, hnot⟩), rfl⟩
    · obtain ⟨j, a, hj, hid, hlast⟩ := exists_last_occurrence hmem
      exact ⟨start + j, a, (hupd.items _ a).mpr (Or.inr ⟨j, hj, rfl, hlast⟩), hid⟩

theorem UpdatedAt.bounded_iff (h : Indexed m) (h' : Indexed m') (hupd : UpdatedAt m m' start items)
    (hb : Bounded limits m) :
    Bounded limits m' ↔ UpdateFits limits m start items := by
  have hsize : cachedItemCount m' =
      (survivors m start items).card + (items.map ModelItem.itemId).toFinset.card := by
    rw [cachedItemCount, Inverse.size_eq h', ← card_keySet, UpdatedAt.keySet_eq h h' hupd]
    apply Finset.card_union_of_disjoint
    rw [Finset.disjoint_left]
    intro k hk hmem
    exact (Finset.mem_filter.mp hk).2.1 (List.mem_toFinset.mp hmem)
  constructor
  · intro hb'
    rw [UpdateFits, ← hsize]
    exact hb'.cache
  · intro hfits
    refine ⟨?_, by rw [hsize]; exact hfits⟩
    intro i a ha
    rw [hupd.itemCount]
    rcases (hupd.items i a).mp ha with ⟨-, ha, -⟩ | ⟨j, hj, rfl, -⟩
    · exact hb.index i a ha
    · have hlength : j < items.length := (List.getElem?_eq_some_iff.mp hj).1
      have hbound := hupd.bound (by rintro rfl; simp at hj)
      omega

theorem updateById_bounded (h : Indexed m) (items : List ModelItem) (hb : Bounded limits m) :
    Bounded limits (updateById m items).1 := by
  obtain ⟨h', hheader, hsame⟩ := updateById_spec h items
  refine ⟨?_, ?_⟩
  · intro i a ha
    have hindex := Inverse.index_eq h' ha
    rw [hsame] at hindex
    obtain ⟨b, hb', -⟩ := (h a.itemId i).mp hindex
    rw [hheader.itemCount]
    exact hb.index i b hb'
  · have hsize : (updateById m items).1.items.size = m.items.size := by
      rw [Inverse.size_eq h', hsame, Inverse.size_eq h]
    rw [cachedItemCount, hsize]
    exact hb.cache

theorem evictsBefore_antisymm (mid a b : Nat) (h : EvictsBefore mid a b)
    (h' : EvictsBefore mid b a) : a = b := by
  unfold EvictsBefore at h h'
  omega

theorem evictsBefore_total (mid a b : Nat) : EvictsBefore mid a b ∨ EvictsBefore mid b a := by
  unfold EvictsBefore
  omega

theorem evictsBefore_trans (mid a b c : Nat) (h : EvictsBefore mid a b)
    (h' : EvictsBefore mid b c) : EvictsBefore mid a c := by
  unfold EvictsBefore at h h' ⊢
  omega

instance (mid : Nat) : Std.Total (EvictsBefore mid) := ⟨evictsBefore_total mid⟩

instance (mid : Nat) : IsTrans Nat (EvictsBefore mid) := ⟨evictsBefore_trans mid⟩

/-- Cached positions outside the window `start .. stop`. -/
def outsideKeys (m : Model) (start stop : Nat) : List Nat :=
  m.items.keys.filter fun index => decide (index < start ∨ max stop start ≤ index)

/-- How many cached positions outside the window an eviction drops before `i`. -/
def evictionRank (m : Model) (start stop i : Nat) : Nat :=
  rank (EvictsBefore (keepMidpoint start stop)) (outsideKeys m start stop) i

theorem mem_outsideKeys {stop i : Nat} :
    i ∈ outsideKeys m start stop ↔
      (∃ a, m.items[i]? = some a) ∧ (i < start ∨ max stop start ≤ i) := by
  rw [outsideKeys, List.mem_filter, ExtTreeMap.mem_keys, ExtTreeMap.mem_iff_isSome_getElem?,
    Option.isSome_iff_exists, decide_eq_true_eq]

theorem evictFarthestOutside_items (m : Model) (start stop count i : Nat) (a : ModelItem) :
    (evictFarthestOutside m start stop count).items[i]? = some a ↔
      m.items[i]? = some a ∧
        ¬((i < start ∨ max stop start ≤ i) ∧ evictionRank m start stop i < count) := by
  have hkeys : (outsideKeys m start stop).Nodup := m.items.nodup_keys.filter _
  have hperm := List.perm_insertionSort (EvictsBefore (keepMidpoint start stop))
    (outsideKeys m start stop)
  have hmem : (∃ b, m.items[i]? = some b) →
      (i ∈ (evictionCandidates m start stop).take count ↔
        (i < start ∨ max stop start ≤ i) ∧ evictionRank m start stop i < count) := by
    intro hcached
    constructor
    · intro hi
      have hin : i ∈ evictionCandidates m start stop := List.mem_of_mem_take hi
      refine ⟨(mem_outsideKeys.mp (hperm.mem_iff.mp hin)).2, ?_⟩
      have hrank := (mem_take_iff_rank_lt (evictsBefore_antisymm _)
        (List.pairwise_insertionSort _ _) (hperm.nodup_iff.mpr hkeys) count hin).mp hi
      rw [rank_perm hperm] at hrank
      exact hrank
    · rintro ⟨hout, hrank⟩
      have hin : i ∈ evictionCandidates m start stop :=
        hperm.mem_iff.mpr (mem_outsideKeys.mpr ⟨hcached, hout⟩)
      refine (mem_take_iff_rank_lt (evictsBefore_antisymm _) (List.pairwise_insertionSort _ _)
        (hperm.nodup_iff.mpr hkeys) count hin).mpr ?_
      rw [rank_perm hperm]
      exact hrank
  rw [evictFarthestOutside, removeAll_items]
  constructor
  · intro hi
    split at hi
    · simp at hi
    · rename_i hnot
      exact ⟨hi, fun hevicted => hnot ((hmem ⟨a, hi⟩).mpr hevicted)⟩
  · rintro ⟨hi, hnot⟩
    rw [if_neg]
    · exact hi
    · intro hevicted
      exact hnot ((hmem ⟨a, hi⟩).mp hevicted)

def makeRoom (limits : StoreLimits) (m : Model) (start count : Nat) : Model :=
  if projectedCached m start (saturatingAdd start count) count > limits.maxCachedItemsPerModel then
    evictFarthestOutside m start (saturatingAdd start count)
      (projectedCached m start (saturatingAdd start count) count - limits.maxCachedItemsPerModel)
  else m

theorem makeRoom_indexed (h : Indexed m) (limits : StoreLimits) (start count : Nat) :
    Indexed (makeRoom limits m start count) := by
  unfold makeRoom
  split
  · exact evictFarthestOutside_indexed h _ _ _
  · exact h

theorem makeRoom_header (limits : StoreLimits) (m : Model) (start count : Nat) :
    SameHeader m (makeRoom limits m start count) := by
  unfold makeRoom
  split
  · exact evictFarthestOutside_header m _ _ _
  · exact SameHeader.refl m

def evictionNeed (limits : StoreLimits) (m : Model) (start count : Nat) : Nat :=
  projectedCached m start (saturatingAdd start count) count - limits.maxCachedItemsPerModel

theorem makeRoom_items (limits : StoreLimits) (m : Model) (start count i : Nat) (a : ModelItem) :
    (makeRoom limits m start count).items[i]? = some a ↔
      m.items[i]? = some a ∧
        ¬((i < start ∨ max (saturatingAdd start count) start ≤ i) ∧
          evictionRank m start (saturatingAdd start count) i <
            evictionNeed limits m start count) := by
  unfold makeRoom
  split
  · exact evictFarthestOutside_items m start _ _ i a
  · rename_i hfits
    have hzero : evictionNeed limits m start count = 0 := by
      unfold evictionNeed
      omega
    simp [hzero]

theorem resetCached_eq (limits : StoreLimits) (m : Model) (start : Nat) (items : List ModelItem)
    (totalCount : Option Nat) :
    resetCached limits m start items totalCount =
      if projectedCached (makeRoom limits m start items.length) start
          (saturatingAdd start items.length) items.length > limits.maxCachedItemsPerModel then
        (makeRoom limits m start items.length,
          err (.maxCachedItemsPerModelExceeded limits.maxCachedItemsPerModel
            (cachedItemCount (makeRoom limits m start items.length))
            (projectedCached (makeRoom limits m start items.length) start
              (saturatingAdd start items.length) items.length)))
      else resetRange (makeRoom limits m start items.length) start items totalCount := rfl

theorem ResetTo.size_eq {totalCount : Option Nat}
    (hreset : ResetTo m m' start items totalCount) :
    m'.items.size = projectedCached m start (start + items.length) items.length := by
  have hinside : (m.items.keys.filter fun k =>
      decide (start ≤ k ∧ k < start + items.length)).length =
        ((keySet m.items).filter fun k => start ≤ k ∧ k < start + items.length).card := by
    rw [← List.toFinset_card_of_nodup (m.items.nodup_keys.filter _), List.toFinset_filter]
    simp [keySet]
  have hkeys : keySet m'.items =
      ((keySet m.items).filter fun k => ¬(start ≤ k ∧ k < start + items.length)) ∪
        Finset.Ico start (start + items.length) := by
    ext i
    rw [mem_keySet, Finset.mem_union, Finset.mem_filter, mem_keySet, Finset.mem_Ico]
    constructor
    · rintro ⟨a, ha⟩
      rcases (hreset.items i a).mp ha with ⟨hout, ha⟩ | ⟨j, hj, rfl⟩
      · exact Or.inl ⟨⟨a, ha⟩, hout⟩
      · have hlength : j < items.length := (List.getElem?_eq_some_iff.mp hj).1
        exact Or.inr ⟨by omega, by omega⟩
    · rintro (⟨⟨a, ha⟩, hout⟩ | ⟨hlow, hhigh⟩)
      · exact ⟨a, (hreset.items i a).mpr (Or.inl ⟨hout, ha⟩)⟩
      · have hlength : i - start < items.length := by omega
        exact ⟨items.get ⟨i - start, hlength⟩, (hreset.items i _).mpr
          (Or.inr ⟨i - start, by simp, by omega⟩)⟩
  have hdisjoint : Disjoint
      ((keySet m.items).filter fun k => ¬(start ≤ k ∧ k < start + items.length))
      (Finset.Ico start (start + items.length)) := by
    rw [Finset.disjoint_left]
    intro i hi hmem
    exact (Finset.mem_filter.mp hi).2 (Finset.mem_Ico.mp hmem)
  have hsplit := Finset.card_filter_add_card_filter_not (s := keySet m.items)
    fun k => start ≤ k ∧ k < start + items.length
  rw [card_keySet] at hsplit
  rw [← card_keySet, hkeys, Finset.card_union_of_disjoint hdisjoint, Nat.card_Ico,
    projectedCached, cachedItemCount, hinside]
  omega

/-- Every cached position a reset keeps, neither replaced nor evicted, lies
below the length it announces. -/
def ResetFits (limits : StoreLimits) (m : Model) (start : Nat) (items : List ModelItem)
    (totalCount : Option Nat) : Prop :=
  ∀ (i : Nat) (a : ModelItem), m.items[i]? = some a →
    ¬(start ≤ i ∧ i < start + items.length) →
    evictionNeed limits m start items.length ≤
      evictionRank m start (saturatingAdd start items.length) i →
    i < announcedCount m totalCount

theorem resetCached_bounded_iff (h : Indexed m)
    {totalCount : Option Nat}
    (hok : (resetCached limits m start items totalCount).2 = .ok ()) :
    Bounded limits (resetCached limits m start items totalCount).1 ↔
      ResetFits limits m start items totalCount := by
  rw [resetCached_eq] at hok ⊢
  split at hok
  · simp [err] at hok
  rename_i hfits
  rw [if_neg hfits]
  have hroom := makeRoom_indexed h limits start items.length
  have hno : NoOverflow (resetRange (makeRoom limits m start items.length) start items
      totalCount) := by
    rw [NoOverflow, hok]
    simp
  have hreset := (resetRange_spec hroom start items totalCount hno).2 hok
  have hcount : announcedCount (makeRoom limits m start items.length) totalCount =
      announcedCount m totalCount := by
    unfold announcedCount
    rw [(makeRoom_header limits m start items.length).itemCount]
  generalize (resetRange (makeRoom limits m start items.length) start items totalCount).1 = m'
    at hreset ⊢
  have hsat : saturatingAdd start items.length = start + items.length := by
    have := resetRange_fits hok
    rw [saturatingAdd, Nat.min_eq_left this]
  constructor
  · intro hb i a ha hout hrank
    rw [← hcount, ← hreset.itemCount]
    refine hb.index i a ((hreset.items i a).mpr (Or.inl ⟨hout, ?_⟩))
    refine (makeRoom_items limits m start items.length i a).mpr ⟨ha, ?_⟩
    rintro ⟨-, hevicted⟩
    omega
  · intro hkeep
    refine ⟨?_, ?_⟩
    · intro i a ha
      have hbound := hreset.bound
      rw [hreset.itemCount]
      rcases (hreset.items i a).mp ha with ⟨hout, ha⟩ | ⟨j, hj, rfl⟩
      · obtain ⟨ha, hkept⟩ := (makeRoom_items limits m start items.length i a).mp ha
        rw [hcount]
        refine hkeep i a ha hout ?_
        by_contra hrank
        refine hkept ⟨?_, by omega⟩
        rw [hsat]
        omega
      · have hlength : j < items.length := (List.getElem?_eq_some_iff.mp hj).1
        omega
    · rw [cachedItemCount, ResetTo.size_eq hreset, ← hsat]
      omega

def FitsModel (limits : StoreLimits) (m : Model) : Operation → Prop
  | .modelDelete _ _ _ itemIds => DeleteFits m itemIds
  | .modelUpdate _ (some base) items => UpdateFits limits m base items
  | .modelResetRange _ startIndex items totalCount =>
    ResetFits limits m startIndex items totalCount
  | _ => True

theorem deleteItems_bounded_iff (h : Indexed m) (hb : Bounded limits m) {index count : Option Nat}
    {itemIds : List ItemId} (hok : (deleteItems m index count itemIds).2 = .ok ()) :
    Bounded limits (deleteItems m index count itemIds).1 ↔ DeleteFits m itemIds := by
  have hempty : itemIds = [] → DeleteFits m itemIds := by
    rintro rfl o a ho -
    simpa [removedBelow] using hb.index o a ho
  unfold deleteItems at hok ⊢
  split at hok
  · simp [err] at hok
  rename_i hboth
  rw [if_neg hboth]
  split at hok
  · rename_i hids
    rw [if_pos hids]
    obtain ⟨-, h', hdel⟩ := deleteByIds_spec itemIds h (by rw [NoOverflow, hok]; simp)
    exact DeletedIds.bounded_iff h h' hdel hb
  rename_i hids
  rw [if_neg hids]
  have hfits := hempty (not_not.mp hids)
  split at hok
  · rename_i hcount
    rw [if_pos hcount]
    obtain ⟨h', hdel⟩ := deleteByRange_spec h hcount (by rw [NoOverflow, hok]; simp)
    exact iff_of_true (DeletedRange.bounded h h' (hdel hok) hb) hfits
  · rename_i hcount
    rw [if_neg hcount]
    exact iff_of_true hb hfits

theorem mutationOf_bounded_iff {op : Operation} {id : ModelId} {f : Model → Mutation Model}
    (hop : mutationOf limits op = some (id, f)) (h : Indexed m) (hb : Bounded limits m)
    (hok : (f m).2 = .ok ()) : Bounded limits (f m).1 ↔ FitsModel limits m op := by
  cases op with
  | modelInsert id' index items =>
    obtain ⟨rfl, rfl⟩ := Prod.mk.inj (Option.some.inj hop)
    dsimp only at hok ⊢
    split at hok
    · simp [err] at hok
    rename_i hfits
    rw [if_neg hfits]
    obtain ⟨h', hins⟩ := insertItems_spec h index items (by rw [NoOverflow, hok]; simp)
    exact iff_of_true (Inserted.bounded h h' (hins hok) hb (by omega)) trivial
  | modelDelete id' index count itemIds =>
    obtain ⟨rfl, rfl⟩ := Prod.mk.inj (Option.some.inj hop)
    exact deleteItems_bounded_iff h hb hok
  | modelUpdate id' index items =>
    obtain ⟨rfl, rfl⟩ := Prod.mk.inj (Option.some.inj hop)
    cases index with
    | none => exact iff_of_true (updateById_bounded h items hb) trivial
    | some base =>
      obtain ⟨h', hupd⟩ := updateAt_spec h base 0 items (by
        change (updateAt m base 0 items).2 = .ok () at hok
        rw [NoOverflow, hok]
        simp)
      exact UpdatedAt.bounded_iff h h' (hupd hok) hb
  | modelResetRange id' startIndex items totalCount =>
    obtain ⟨rfl, rfl⟩ := Prod.mk.inj (Option.some.inj hop)
    exact resetCached_bounded_iff h hok
  | _ => simp [mutationOf] at hop

def ModelsBounded (s : SemanticStore) : Prop :=
  ∀ (id : ModelId) (m : Model), s.models[id]? = some m → Bounded s.limits m

theorem modelsBounded_iff_entries (s : SemanticStore) :
    ModelsBounded s ↔ ∀ entry ∈ s.models.toList,
      cachedItemCount entry.2 ≤ s.limits.maxCachedItemsPerModel ∧
        ∀ cached ∈ entry.2.items.toList, cached.1 < entry.2.itemCount := by
  constructor
  · intro h entry hentry
    have hb := h entry.1 entry.2 (mem_toList.mp hentry)
    exact ⟨hb.cache, fun cached hcached => hb.index cached.1 cached.2 (mem_toList.mp hcached)⟩
  · intro h
    exact forall_of_toList fun entry hentry =>
      ⟨forall_of_toList (h entry hentry).2, (h entry hentry).1⟩

instance (s : SemanticStore) : Decidable (ModelsBounded s) :=
  decidable_of_iff _ (modelsBounded_iff_entries s).symm

def FitsStore (s : SemanticStore) (op : Operation) : Prop :=
  ∀ (id : ModelId) (f : Model → Mutation Model) (m : Model),
    mutationOf s.limits op = some (id, f) → s.models[id]? = some m → FitsModel s.limits m op

theorem apply_modelsBounded_iff {s : SemanticStore} {op : Operation} (h : ModelsIndexed s)
    (hok : (apply op s).2 = .ok ()) (hb : ModelsBounded s) :
    ModelsBounded (applyStep s op) ↔ FitsStore s op := by
  have hlimits : (applyStep s op).limits = s.limits := apply_limits s op
  unfold ModelsBounded
  rw [hlimits]
  unfold applyStep
  rcases apply_modelEffect s op with ⟨hsame, hnone⟩ | ⟨id, f, e, -, heq⟩ |
    ⟨id, modelType, itemCount, rfl, -, -, heq⟩ | ⟨id, f, model, hop, hmodel, heq⟩
  · refine iff_of_true ?_ ?_
    · intro id m hm
      rw [hsame.models] at hm
      exact hb id m hm
    · intro id f m hop
      rw [hnone] at hop
      simp at hop
  · rw [heq] at hok
    simp [err] at hok
  · refine iff_of_true ?_ ?_
    · rw [heq]
      intro id' m hm
      change (s.models.insert id (Model.new id modelType itemCount))[id']? = some m at hm
      rw [getElem?_put] at hm
      split at hm
      · rw [← Option.some.inj hm]
        exact bounded_new s.limits id modelType itemCount
      · exact hb id' m hm
    · intro id' f m hop
      simp [mutationOf] at hop
  · rw [heq] at hok ⊢
    have hexact := mutationOf_bounded_iff hop (h id model hmodel) (hb id model hmodel) hok
    constructor
    · intro hb' id' f' m hop' hm
      obtain ⟨rfl, rfl⟩ := Prod.mk.inj (Option.some.inj (hop.symm.trans hop'))
      rw [hmodel] at hm
      rw [← Option.some.inj hm]
      refine hexact.mp (hb' id (f model).1 ?_)
      change (s.models.insert id (f model).1)[id]? = _
      rw [getElem?_put, if_pos rfl]
    · intro hfits id' m hm
      change (s.models.insert id (f model).1)[id']? = some m at hm
      rw [getElem?_put] at hm
      split at hm
      · rw [← Option.some.inj hm]
        exact hexact.mpr (hfits id f model hop hmodel)
      · exact hb id' m hm

end Srui.SemanticTree.ModelBounds

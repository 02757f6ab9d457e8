import Srui.SemanticTree.ModelBounds

/-!
A range reset under the limit on cached items: which items it evicts, what the
cache holds afterwards, and when it gives up.
-/

namespace Srui.SemanticTree.RangeEvictions

open Std Basic.Machine Basic.FiniteMaps SemanticTree.Values SemanticTree.Limits SemanticTree.Models
open SemanticTree.Stores SemanticTree.ModelIndex SemanticTree.ModelMutations
open SemanticTree.ModelBounds

/-- The positions cached outside the window `start .. stop`. -/
def CachedOutside (m : Model) (start stop i : Nat) : Prop :=
  (∃ a, m.items[i]? = some a) ∧ (i < start ∨ stop ≤ i)

/-- `i` is dropped in preference to `j` around `mid`: it is farther away, or as far and lower. -/
def Farther (mid i j : Nat) : Prop :=
  absDiff j mid < absDiff i mid ∨ (absDiff j mid = absDiff i mid ∧ i < j)

/-- `evicted` are the `need` positions outside the window that lie farthest from its middle. -/
structure Evicts (m : Model) (start stop need : Nat) (evicted : Finset Nat) : Prop where
  outside : ∀ i ∈ evicted, CachedOutside m start stop i
  count : evicted.card = need
  farthest : ∀ i ∈ evicted, ∀ j ∉ evicted, CachedOutside m start stop j →
    Farther (start + (stop - start) / 2) i j

variable {limits : StoreLimits} {m m' : Model} {start stop count : Nat}

/-! ### Who is evicted -/

/-- The positions an eviction of `count` items drops. -/
def evictedKeys (m : Model) (start stop count : Nat) : Finset Nat :=
  ((evictionCandidates m start stop).take count).toFinset

theorem candidates_perm (m : Model) (start stop : Nat) :
    (evictionCandidates m start stop).Perm (outsideKeys m start stop) :=
  List.perm_insertionSort _ _

theorem outsideKeys_nodup (m : Model) (start stop : Nat) : (outsideKeys m start stop).Nodup :=
  m.items.nodup_keys.filter _

theorem candidates_nodup (m : Model) (start stop : Nat) :
    (evictionCandidates m start stop).Nodup :=
  (candidates_perm m start stop).nodup_iff.mpr (outsideKeys_nodup m start stop)

theorem mem_candidates (hwindow : start ≤ stop) {i : Nat} :
    i ∈ evictionCandidates m start stop ↔ CachedOutside m start stop i := by
  rw [(candidates_perm m start stop).mem_iff, mem_outsideKeys, Nat.max_eq_left hwindow]
  rfl

theorem keepMidpoint_eq (hwindow : start ≤ stop) (hstop : stop ≤ u64Max) :
    keepMidpoint start stop = start + (stop - start) / 2 := by
  rw [keepMidpoint, saturatingAdd, Nat.max_eq_left hwindow]
  omega

theorem evictedKeys_evicts (hwindow : start ≤ stop) (hstop : stop ≤ u64Max)
    (hcount : count ≤ (outsideKeys m start stop).length) :
    Evicts m start stop count (evictedKeys m start stop count) where
  outside := by
    intro i hi
    exact (mem_candidates hwindow).mp (List.mem_of_mem_take (List.mem_toFinset.mp hi))
  count := by
    rw [evictedKeys, List.toFinset_card_of_nodup ((candidates_nodup m start stop).take),
      List.length_take, (candidates_perm m start stop).length_eq, Nat.min_eq_left hcount]
  farthest := by
    intro i hi j hj houtside
    have hi := List.mem_toFinset.mp hi
    have hsorted : (evictionCandidates m start stop).Pairwise
        (EvictsBefore (keepMidpoint start stop)) := List.pairwise_insertionSort _ _
    have hsplit := List.take_append_drop count (evictionCandidates m start stop)
    have hlater : j ∈ (evictionCandidates m start stop).drop count := by
      have hmem := (mem_candidates hwindow).mpr houtside
      rw [← hsplit, List.mem_append] at hmem
      exact hmem.resolve_left fun htake => hj (List.mem_toFinset.mpr htake)
    rw [← hsplit, List.pairwise_append] at hsorted
    have hbefore := hsorted.2.2 i hi j hlater
    have hne : i ≠ j := by
      rintro rfl
      exact hj (List.mem_toFinset.mpr hi)
    rw [keepMidpoint_eq hwindow hstop] at hbefore
    rcases hbefore with hfar | ⟨hsame, hle⟩
    · exact .inl hfar
    · exact .inr ⟨hsame.symm, by omega⟩

theorem evicted_items (m : Model) (start stop count i : Nat) (a : ModelItem) :
    (evictFarthestOutside m start stop count).items[i]? = some a ↔
      m.items[i]? = some a ∧ i ∉ evictedKeys m start stop count := by
  rw [evictFarthestOutside, removeAll_items, evictedKeys, List.mem_toFinset]
  split
  · rename_i hmem
    simp [hmem]
  · rename_i hmem
    simp [hmem]

/-! ### The projection -/

theorem projectedCached_eq (hwindow : start ≤ stop) :
    projectedCached m start stop count = (outsideKeys m start stop).length + count := by
  have hsplit := List.length_eq_length_filter_add (l := m.items.keys)
    fun k => decide (start ≤ k ∧ k < stop)
  have houtside : (m.items.keys.filter fun k => !decide (start ≤ k ∧ k < stop)) =
      outsideKeys m start stop := by
    apply List.filter_congr
    intro k _
    rw [Nat.max_eq_left hwindow, ← decide_not]
    apply decide_eq_decide.mpr
    omega
  rw [houtside, ExtTreeMap.length_keys] at hsplit
  rw [projectedCached, cachedItemCount]
  omega

theorem outside_evicted (hwindow : start ≤ stop) :
    (outsideKeys (evictFarthestOutside m start stop count) start stop).length =
      (outsideKeys m start stop).length - count := by
  have hkept : (outsideKeys (evictFarthestOutside m start stop count) start stop).Perm
      ((evictionCandidates m start stop).drop count) := by
    rw [List.perm_ext_iff_of_nodup (outsideKeys_nodup _ _ _) (candidates_nodup m start stop).drop]
    intro i
    have hsplit := List.take_append_drop count (evictionCandidates m start stop)
    have hnodup := candidates_nodup m start stop
    rw [← hsplit, List.nodup_append] at hnodup
    rw [mem_outsideKeys, Nat.max_eq_left hwindow]
    constructor
    · rintro ⟨⟨a, ha⟩, houtside⟩
      obtain ⟨ha, hkept⟩ := (evicted_items m start stop count i a).mp ha
      have hmem := (mem_candidates hwindow).mpr ⟨⟨a, ha⟩, houtside⟩
      rw [← hsplit, List.mem_append] at hmem
      exact hmem.resolve_left fun htake => hkept (List.mem_toFinset.mpr htake)
    · intro hdrop
      obtain ⟨⟨a, ha⟩, houtside⟩ := (mem_candidates hwindow).mp (List.mem_of_mem_drop hdrop)
      refine ⟨⟨a, (evicted_items m start stop count i a).mpr ⟨ha, ?_⟩⟩, houtside⟩
      intro hevicted
      exact hnodup.2.2 i (List.mem_toFinset.mp hevicted) i hdrop rfl
  rw [hkept.length_eq, List.length_drop, (candidates_perm m start stop).length_eq]

theorem makeRoom_projected (limits : StoreLimits) (m : Model) (start count : Nat)
    (hstart : start ≤ u64Max)
    (hover : projectedCached (makeRoom limits m start count) start (saturatingAdd start count)
      count > limits.maxCachedItemsPerModel) : limits.maxCachedItemsPerModel < count := by
  have hwindow : start ≤ saturatingAdd start count := by
    unfold saturatingAdd
    omega
  rw [projectedCached_eq hwindow] at hover
  unfold makeRoom at hover
  rw [projectedCached_eq hwindow] at hover
  split at hover
  · rw [outside_evicted hwindow] at hover
    omega
  · omega

/-! ### No other check gives the error of a full cache -/

def IsCacheFull : StoreError → Prop
  | .maxCachedItemsPerModelExceeded _ _ _ => True
  | _ => False

mutual

theorem validateValueInner_notFull : (value : Value) → (depth : Nat) → (e : StoreError) →
    validateValueInner limits value depth = .error e → ¬IsCacheFull e
  | .scalar s, depth, e => by
    intro h
    rw [validateValueInner] at h
    split at h
    · cases h
      exact id
    · unfold validateScalar at h
      split at h
      · split at h
        · cases h
          exact id
        · cases h
      · cases h
  | .list items, depth, e => by
    intro h
    rw [validateValueInner] at h
    split at h
    · cases h
      exact id
    split at h
    · cases h
      exact id
    · exact validateItemsInner_notFull items (depth + 1) e h
  | .record _ properties, depth, e => by
    intro h
    rw [validateValueInner] at h
    split at h
    · cases h
      exact id
    split at h
    · cases h
      exact id
    · exact validatePropertiesInner_notFull properties (depth + 1) e h

theorem validateItemsInner_notFull : (items : List Value) → (depth : Nat) → (e : StoreError) →
    validateItemsInner limits items depth = .error e → ¬IsCacheFull e
  | [], _, _ => by
    intro h
    cases h
  | item :: rest, depth, e => by
    intro h
    rw [validateItemsInner] at h
    split at h
    · rename_i hitem
      cases h
      exact validateValueInner_notFull item depth e hitem
    · exact validateItemsInner_notFull rest depth e h

theorem validatePropertiesInner_notFull : (properties : List (PropertyRef × Value)) →
    (depth : Nat) → (e : StoreError) →
    validatePropertiesInner limits properties depth = .error e → ¬IsCacheFull e
  | [], _, _ => by
    intro h
    cases h
  | (_, value) :: rest, depth, e => by
    intro h
    rw [validatePropertiesInner] at h
    split at h
    · rename_i hvalue
      cases h
      exact validateValueInner_notFull value depth e hvalue
    · exact validatePropertiesInner_notFull rest depth e h

end

variable {items : List ModelItem}

theorem validateBatch_notFull {e : StoreError}
    (h : validateBatch limits items = .error e) : ¬IsCacheFull e := by
  have hitems : ∀ (items : List ModelItem), validateItems limits items = .error e →
      ¬IsCacheFull e := by
    intro items h
    induction items with
    | nil => cases h
    | cons item rest ih =>
      rw [validateItems_cons] at h
      split at h
      · rename_i hitem
        cases h
        rw [validateItem_def] at hitem
        split at hitem
        · rename_i hvalue
          cases hitem
          exact validateValueInner_notFull _ _ _ hvalue
        · exact validatePropertiesInner_notFull _ _ _ hitem
      · exact ih h
  rw [validateBatch_def] at h
  split at h
  · rename_i hbatch
    cases h
    unfold validateModelItemsBatch at hbatch
    split at hbatch
    · cases hbatch
      exact id
    · cases hbatch
  · exact hitems items h

theorem resetRange_notFull {totalCount : Option Nat} {e : StoreError}
    (h : (resetRange m start items totalCount).2 = err e) : ¬IsCacheFull e := by
  unfold resetRange at h
  rw [announce_eq] at h
  dsimp only at h
  split at h
  · cases h
    exact id
  split at h
  · cases h
  split at h
  · cases h
    exact id
  split at h
  · cases h
    exact id
  · exact absurd h writeItems_noError

/-! ### The reset -/

theorem resetCached_kept {totalCount : Option Nat} (h : Indexed m)
    (hok : (resetCached limits m start items totalCount).2 = .ok ()) :
    let need := projectedCached m start (start + items.length) items.length -
      limits.maxCachedItemsPerModel
    Evicts m start (start + items.length) need
        (evictedKeys m start (start + items.length) need) ∧
      (∀ (i : Nat) (a : ModelItem),
        (resetCached limits m start items totalCount).1.items[i]? = some a ↔
          (∃ k, items[k]? = some a ∧ i = start + k) ∨
            (¬(start ≤ i ∧ i < start + items.length) ∧
              i ∉ evictedKeys m start (start + items.length) need ∧ m.items[i]? = some a)) ∧
      cachedItemCount (resetCached limits m start items totalCount).1 ≤
        limits.maxCachedItemsPerModel := by
  intro need
  rw [resetCached_eq] at hok ⊢
  split at hok
  · cases hok
  rename_i hfits
  rw [if_neg hfits]
  have hroom := makeRoom_indexed h limits start items.length
  have hreset := (resetRange_spec hroom start items totalCount (by
    rw [NoOverflow, hok]
    simp)).2 hok
  have hwidth : start + items.length ≤ u64Max := resetRange_fits hok
  have hsat : saturatingAdd start items.length = start + items.length := by
    rw [saturatingAdd, Nat.min_eq_left hwidth]
  have hwindow : start ≤ start + items.length := Nat.le_add_right _ _
  rw [hsat] at hfits
  have hroomEq : makeRoom limits m start items.length =
      evictFarthestOutside m start (start + items.length) need := by
    unfold makeRoom
    rw [hsat]
    split
    · rfl
    · rename_i hroomy
      have hzero : need = 0 := by omega
      rw [hzero]
      rfl
  rw [hroomEq] at hfits hreset ⊢
  generalize (resetRange (evictFarthestOutside m start (start + items.length) need) start items
    totalCount).1 = m' at hreset ⊢
  have hsize := ResetTo.size_eq hreset
  have houtside : need ≤ (outsideKeys m start (start + items.length)).length := by
    have hbefore : need = projectedCached m start (start + items.length) items.length -
        limits.maxCachedItemsPerModel := rfl
    rw [projectedCached_eq hwindow] at hfits hbefore
    omega
  refine ⟨evictedKeys_evicts hwindow hwidth houtside, ?_, ?_⟩
  · intro i a
    rw [hreset.items, evicted_items, or_comm]
    refine or_congr Iff.rfl ?_
    tauto
  · rw [cachedItemCount, hsize]
    omega

/-- A range reset that succeeds leaves its items in their range and, outside it, every item
cached before except as many as the projected cache exceeds the limit by: those farthest from the
middle of the range, the lower of two as far. The cache then fits its limit, and nothing is
evicted unless the projection exceeds it. A reset refused for a full cache brings more items than
the limit by itself. -/
theorem range_reset_evicts_farthest {s : SemanticStore} {id : ModelId}
    (hmodel : s.models[id]? = some m) (h : Indexed m) (hstart : start ≤ u64Max)
    (items : List ModelItem) (totalCount : Option Nat) :
    (∀ s' : SemanticStore, modelResetRange s id start items totalCount = (s', .ok ()) →
      ∃ (m' : Model) (evicted : Finset Nat), s'.models[id]? = some m' ∧
        Evicts m start (start + items.length)
          (projectedCached m start (start + items.length) items.length -
            s.limits.maxCachedItemsPerModel) evicted ∧
        (∀ (i : Nat) (a : ModelItem), m'.items[i]? = some a ↔
          (∃ k, items[k]? = some a ∧ i = start + k) ∨
            (¬(start ≤ i ∧ i < start + items.length) ∧ i ∉ evicted ∧ m.items[i]? = some a)) ∧
        cachedItemCount m' ≤ s.limits.maxCachedItemsPerModel ∧
        (evicted.Nonempty → s.limits.maxCachedItemsPerModel <
          projectedCached m start (start + items.length) items.length)) ∧
    ∀ (s' : SemanticStore) (limit current attempted : Nat),
      modelResetRange s id start items totalCount =
          (s', err (.maxCachedItemsPerModelExceeded limit current attempted)) →
        s.limits.maxCachedItemsPerModel < items.length := by
  constructor
  · intro s' hok
    unfold modelResetRange modelResetRangeChecked at hok
    split at hok
    · cases hok
    unfold onModel at hok
    rw [hmodel] at hok
    obtain ⟨hstore, hdone⟩ := Prod.mk.inj hok
    obtain ⟨hevicts, hitems, hsize⟩ := resetCached_kept h hdone
    refine ⟨_, _, ?_, hevicts, hitems, hsize, ?_⟩
    · rw [← hstore]
      change (s.models.insert id _)[id]? = _
      rw [getElem?_put, if_pos rfl]
    · intro hsome
      have hpos := Finset.card_pos.mpr hsome
      rw [hevicts.count] at hpos
      omega
  · intro s' limit current attempted hfull
    have herror := congrArg Prod.snd hfull
    unfold modelResetRange modelResetRangeChecked at herror
    split at herror
    · rename_i e hbatch
      cases herror
      exact absurd trivial (validateBatch_notFull hbatch)
    unfold onModel at herror
    rw [hmodel] at herror
    change (resetCached s.limits m start items totalCount).2 = _ at herror
    rw [resetCached_eq] at herror
    split at herror
    · rename_i hover
      exact makeRoom_projected s.limits m start items.length hstart hover
    · exact absurd trivial (resetRange_notFull herror)

def crowded : Model :=
  cacheItem (cacheItem (cacheItem (Model.new 1 ⟨0, 1⟩ 9) 0 ⟨10, .null, ∅⟩) 4 ⟨14, .null, ∅⟩)
    6 ⟨16, .null, ∅⟩

theorem crowded_indexed : Indexed crowded := by
  refine cacheItem_indexed (cacheItem_indexed (cacheItem_indexed (indexed_new _ _ _)
    ?_ ?_) ?_ ?_) ?_ ?_ <;> decide +kernel

def crowdedStore : SemanticStore :=
  { SemanticStore.withLimits { StoreLimits.default with maxCachedItemsPerModel := 3 } with
    models := (∅ : ExtTreeMap ModelId Model).insert 1 crowded }

/-- Two items at positions 3 and 4 replace one and push out the item at 0, which is farther from
position 4 than the one at 6. -/
theorem crowded_evicts :
    ∃ (m' : Model) (evicted : Finset Nat),
      (modelResetRange crowdedStore 1 3 [⟨13, .null, ∅⟩, ⟨24, .null, ∅⟩] none).1.models[1]? =
          some m' ∧
        Evicts crowded 3 5 1 evicted ∧ cachedItemCount m' ≤ 3 := by
  have hmodel : crowdedStore.models[1]? = some crowded := by decide +kernel
  have hstart : 3 ≤ u64Max := by decide
  have hneed : projectedCached crowded 3 5 2 - 3 = 1 := by decide +kernel
  obtain ⟨m', evicted, hm', hevicts, -, hsize, -⟩ :=
    (range_reset_evicts_farthest hmodel crowded_indexed hstart
      [⟨13, .null, ∅⟩, ⟨24, .null, ∅⟩] none).1 _ (Prod.ext rfl (by decide +kernel))
  refine ⟨m', evicted, hm', ?_, hsize⟩
  rw [← hneed]
  exact hevicts

end Srui.SemanticTree.RangeEvictions

import Mathlib

/-!
Finite maps with a lawful key order: the set of keys, and folds of insertions.
-/

set_option linter.unusedSectionVars false

namespace Srui.Basic.FiniteMaps

open Std

variable {κ β : Type} [DecidableEq κ] {cmp : κ → κ → Ordering} [TransCmp cmp] [LawfulEqCmp cmp]

def keySet (t : ExtTreeMap κ β cmp) : Finset κ := t.keys.toFinset

variable {t : ExtTreeMap κ β cmp} {k : κ}

theorem mem_keySet : k ∈ keySet t ↔ ∃ v, t[k]? = some v := by
  rw [keySet, List.mem_toFinset, ExtTreeMap.mem_keys, ExtTreeMap.mem_iff_isSome_getElem?,
    Option.isSome_iff_exists]

theorem not_mem_keySet : k ∉ keySet t ↔ t[k]? = none := by
  rw [mem_keySet, ← Option.isSome_iff_exists]
  simp

theorem card_keySet (t : ExtTreeMap κ β cmp) : (keySet t).card = t.size := by
  rw [keySet, List.toFinset_card_of_nodup t.nodup_keys, ExtTreeMap.length_keys]

theorem getElem?_put (t : ExtTreeMap κ β cmp) (k a : κ) (v : β) :
    (t.insert k v)[a]? = if k = a then some v else t[a]? := by
  rw [ExtTreeMap.getElem?_insert]
  simp only [LawfulEqCmp.compare_eq_iff_eq]

theorem getElem?_drop (t : ExtTreeMap κ β cmp) (k a : κ) :
    (t.erase k)[a]? = if k = a then none else t[a]? := by
  rw [ExtTreeMap.getElem?_erase]
  simp only [LawfulEqCmp.compare_eq_iff_eq]

theorem getElem?_adjust (t : ExtTreeMap κ β cmp) (k a : κ) (f : β → β) :
    (t.modify k f)[a]? = if k = a then t[a]?.map f else t[a]? := by
  rw [ExtTreeMap.getElem?_modify]
  simp only [LawfulEqCmp.compare_eq_iff_eq]
  split
  · rename_i heq
    rw [heq]
  · rfl

theorem keySet_insert (t : ExtTreeMap κ β cmp) (k : κ) (v : β) :
    keySet (t.insert k v) = insert k (keySet t) := by
  ext a
  rw [Finset.mem_insert, mem_keySet, mem_keySet, getElem?_put]
  by_cases h : k = a
  · simp [h]
  · simp [h, Ne.symm h]

theorem keySet_erase (t : ExtTreeMap κ β cmp) (k : κ) :
    keySet (t.erase k) = (keySet t).erase k := by
  ext a
  rw [Finset.mem_erase, mem_keySet, mem_keySet, getElem?_drop]
  by_cases h : k = a
  · simp [h]
  · simp [h, Ne.symm h]

theorem size_adjust (t : ExtTreeMap κ β cmp) (k : κ) (f : β → β) :
    (t.modify k f).size = t.size := by
  rw [← card_keySet, ← card_keySet]
  congr 1
  ext a
  rw [mem_keySet, mem_keySet, getElem?_adjust]
  split
  · simp [Option.map_eq_some_iff]
  · rfl

theorem size_insert_of_fresh (v : β) (h : t[k]? = none) :
    (t.insert k v).size = t.size + 1 := by
  rw [← card_keySet, keySet_insert, Finset.card_insert_of_notMem (not_mem_keySet.mpr h),
    card_keySet]

theorem size_insert_of_present {w : β} (v : β)
    (h : t[k]? = some w) : (t.insert k v).size = t.size := by
  rw [← card_keySet, keySet_insert, Finset.insert_eq_of_mem (mem_keySet.mpr ⟨w, h⟩),
    card_keySet]

theorem size_erase_of_present {w : β}
    (h : t[k]? = some w) : (t.erase k).size + 1 = t.size := by
  rw [← card_keySet, keySet_erase, Finset.card_erase_add_one (mem_keySet.mpr ⟨w, h⟩),
    card_keySet]

theorem getElem?_select (t : ExtTreeMap κ β cmp) (p : κ → β → Bool) (k : κ) (v : β) :
    (t.filter p)[k]? = some v ↔ t[k]? = some v ∧ p k v = true := by
  rw [ExtTreeMap.getElem?_filter']
  simp only [Option.filter_eq_some_iff]

theorem mem_toList {v : β} :
    (k, v) ∈ t.toList ↔ t[k]? = some v := ExtTreeMap.mem_toList_iff_getElem?_eq_some

theorem forall_of_toList {P : κ → β → Prop}
    (h : ∀ entry ∈ t.toList, P entry.1 entry.2) (k : κ) (v : β) (hk : t[k]? = some v) : P k v :=
  h (k, v) (mem_toList.mpr hk)

theorem nodup_toList_keys (t : ExtTreeMap κ β cmp) : (t.toList.map Prod.fst).Nodup := by
  rw [ExtTreeMap.map_fst_toList_eq_keys]
  exact t.nodup_keys

def insertAll (t : ExtTreeMap κ β cmp) (entries : List (κ × β)) : ExtTreeMap κ β cmp :=
  entries.foldl (fun acc entry => acc.insert entry.1 entry.2) t

variable {entries : List (κ × β)}

theorem insertAll_lookup_of_not_mem
    (h : k ∉ entries.map Prod.fst) : (insertAll t entries)[k]? = t[k]? := by
  induction entries generalizing t with
  | nil => rfl
  | cons entry entries ih =>
    simp only [List.map_cons, List.mem_cons, not_or] at h
    change (insertAll (t.insert entry.1 entry.2) entries)[k]? = _
    rw [ih h.2, getElem?_put, if_neg (Ne.symm h.1)]

theorem insertAll_lookup_of_mem {v : β}
    (hdistinct : (entries.map Prod.fst).Nodup) (h : (k, v) ∈ entries) :
    (insertAll t entries)[k]? = some v := by
  induction entries generalizing t with
  | nil => simp at h
  | cons entry entries ih =>
    simp only [List.map_cons, List.nodup_cons] at hdistinct
    change (insertAll (t.insert entry.1 entry.2) entries)[k]? = _
    rcases List.mem_cons.mp h with rfl | h
    · rw [insertAll_lookup_of_not_mem hdistinct.1, getElem?_put, if_pos rfl]
    · exact ih hdistinct.2 h

theorem insertAll_perm {entries' : List (κ × β)}
    (hdistinct : (entries.map Prod.fst).Nodup) (hperm : entries'.Perm entries) :
    insertAll t entries' = insertAll t entries := by
  have hdistinct' : (entries'.map Prod.fst).Nodup := (hperm.map Prod.fst).nodup_iff.mpr hdistinct
  apply ExtTreeMap.ext_getElem?
  intro k
  rcases Classical.em (k ∈ entries.map Prod.fst) with hmem | hmem
  · obtain ⟨entry, hentry, rfl⟩ := List.mem_map.mp hmem
    rw [insertAll_lookup_of_mem hdistinct hentry,
      insertAll_lookup_of_mem hdistinct' (hperm.mem_iff.mpr hentry)]
  · have hmem' : k ∉ entries'.map Prod.fst := by
      rwa [(hperm.map Prod.fst).mem_iff]
    rw [insertAll_lookup_of_not_mem hmem, insertAll_lookup_of_not_mem hmem']

theorem insertAll_toList (t : ExtTreeMap κ β cmp) : insertAll ∅ t.toList = t := by
  apply ExtTreeMap.ext_getElem?
  intro k
  cases h : t[k]? with
  | some v =>
    exact insertAll_lookup_of_mem (nodup_toList_keys t) (mem_toList.mpr h)
  | none =>
    have hnot : k ∉ t.toList.map Prod.fst := by
      rw [ExtTreeMap.map_fst_toList_eq_keys, ExtTreeMap.mem_keys,
        ExtTreeMap.mem_iff_isSome_getElem?, h]
      simp
    rw [insertAll_lookup_of_not_mem hnot]
    simp

theorem insertAll_size_le (entries : List (κ × β)) (t : ExtTreeMap κ β cmp) :
    (insertAll t entries).size ≤ t.size + entries.length := by
  induction entries generalizing t with
  | nil => exact Nat.le_refl _
  | cons entry rest ih =>
    have hrest := ih (t.insert entry.1 entry.2)
    have hinsert : (t.insert entry.1 entry.2).size ≤ t.size + 1 := ExtTreeMap.size_insert_le
    rw [List.length_cons]
    change (insertAll (t.insert entry.1 entry.2) rest).size ≤ _
    omega

theorem insertAll_lookup_congr {t' : ExtTreeMap κ β cmp}
    (h : k ∈ entries.map Prod.fst ∨ t[k]? = t'[k]?) :
    (insertAll t entries)[k]? = (insertAll t' entries)[k]? := by
  induction entries generalizing t t' with
  | nil => exact h.resolve_left (by simp)
  | cons entry entries ih =>
    change (insertAll (t.insert entry.1 entry.2) entries)[k]? =
      (insertAll (t'.insert entry.1 entry.2) entries)[k]?
    apply ih
    rw [getElem?_put, getElem?_put]
    rcases h with hmem | hsame
    · rcases List.mem_cons.mp hmem with rfl | hmem
      · exact Or.inr (by simp)
      · exact Or.inl hmem
    · exact Or.inr (by rw [hsame])

def eraseAll (t : ExtTreeMap κ β cmp) (keys : List κ) : ExtTreeMap κ β cmp :=
  keys.foldl (fun acc key => acc.erase key) t

theorem getElem?_eraseAll (keys : List κ) (t : ExtTreeMap κ β cmp) (k : κ) :
    (eraseAll t keys)[k]? = if k ∈ keys then none else t[k]? := by
  induction keys generalizing t with
  | nil => rfl
  | cons key keys ih =>
    change (eraseAll (t.erase key) keys)[k]? = _
    rw [ih, getElem?_drop]
    rcases Classical.em (key = k) with rfl | hne
    · simp
    · simp [hne, Ne.symm hne]

theorem eraseAll_perm {keys keys' : List κ} (t : ExtTreeMap κ β cmp) (h : keys.Perm keys') :
    eraseAll t keys = eraseAll t keys' := by
  apply ExtTreeMap.ext_getElem?
  intro k
  rw [getElem?_eraseAll, getElem?_eraseAll]
  simp only [h.mem_iff]

theorem insertAll_eraseAll {keys : List κ}
    (h : keys ⊆ entries.map Prod.fst) :
    insertAll (eraseAll t keys) entries = insertAll t entries := by
  apply ExtTreeMap.ext_getElem?
  intro k
  apply insertAll_lookup_congr
  rw [getElem?_eraseAll]
  rcases Classical.em (k ∈ keys) with hmem | hnot
  · exact Or.inl (h hmem)
  · exact Or.inr (if_neg hnot)

end Srui.Basic.FiniteMaps

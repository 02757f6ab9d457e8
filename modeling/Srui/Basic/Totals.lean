import Srui.Basic.FiniteMaps

/-!
Totals of a measure over the values of a finite map.
-/

set_option linter.unusedSectionVars false

namespace Srui.Basic.Totals

open Std Basic.FiniteMaps

variable {κ β : Type} [DecidableEq κ] {cmp : κ → κ → Ordering} [TransCmp cmp] [LawfulEqCmp cmp]

def weight (f : β → Nat) (v : Option β) : Nat := (v.map f).getD 0

def total (f : β → Nat) (t : ExtTreeMap κ β cmp) : Nat := (t.toList.map fun entry => f entry.2).sum

@[simp] theorem weight_none (f : β → Nat) : weight f none = 0 := rfl

@[simp] theorem weight_some (f : β → Nat) (v : β) : weight f (some v) = f v := rfl

theorem sum_toList (g : κ → β → Nat) (t : ExtTreeMap κ β cmp) :
    (t.toList.map fun entry => g entry.1 entry.2).sum = ∑ k ∈ keySet t, weight (g k) t[k]? := by
  have hsum : ∑ k ∈ keySet t, weight (g k) t[k]? =
      (t.keys.map fun k => weight (g k) t[k]?).sum :=
    List.sum_toFinset _ t.nodup_keys
  rw [hsum, ← ExtTreeMap.map_fst_toList_eq_keys, List.map_map]
  congr 1
  refine List.map_congr_left fun entry hentry => ?_
  rw [Function.comp_apply, mem_toList.mp hentry, weight_some]

theorem total_eq_sum (f : β → Nat) (t : ExtTreeMap κ β cmp) :
    total f t = ∑ k ∈ keySet t, weight f t[k]? := sum_toList (fun _ => f) t

theorem total_eq_sum_of_subset (f : β → Nat) {t : ExtTreeMap κ β cmp} {s : Finset κ}
    (h : keySet t ⊆ s) : total f t = ∑ k ∈ s, weight f t[k]? := by
  rw [total_eq_sum]
  refine Finset.sum_subset h fun k _ hk => ?_
  rw [not_mem_keySet.mp hk, weight_none]

theorem total_change (f : β → Nat) {t t' : ExtTreeMap κ β cmp} (k : κ)
    (h : ∀ j, j ≠ k → t'[j]? = t[j]?) :
    total f t' + weight f t[k]? = total f t + weight f t'[k]? := by
  have hsubset : keySet t ⊆ insert k (keySet t ∪ keySet t') := fun j hj => by simp [hj]
  have hsubset' : keySet t' ⊆ insert k (keySet t ∪ keySet t') := fun j hj => by simp [hj]
  have hk : k ∈ insert k (keySet t ∪ keySet t') := Finset.mem_insert_self _ _
  rw [total_eq_sum_of_subset f hsubset, total_eq_sum_of_subset f hsubset',
    ← Finset.sum_erase_add _ _ hk, ← Finset.sum_erase_add _ _ hk]
  have hothers : ∑ j ∈ (insert k (keySet t ∪ keySet t')).erase k, weight f t'[j]? =
      ∑ j ∈ (insert k (keySet t ∪ keySet t')).erase k, weight f t[j]? :=
    Finset.sum_congr rfl fun j hj => by rw [h j (Finset.ne_of_mem_erase hj)]
  rw [hothers]
  omega

theorem total_filterMap (f : β → Nat) (t : ExtTreeMap κ β cmp) {g : κ → β → Option β}
    (h : ∀ k v, weight f (g k v) ≤ f v) :
    total f (t.filterMap g) +
      (t.toList.map fun entry => f entry.2 - weight f (g entry.1 entry.2)).sum = total f t := by
  have hsubset : keySet (t.filterMap g) ⊆ keySet t := by
    intro k hk
    rw [mem_keySet] at hk ⊢
    obtain ⟨v, hv⟩ := hk
    rw [ExtTreeMap.getElem?_filterMap', Option.bind_eq_some_iff] at hv
    obtain ⟨w, hw, -⟩ := hv
    exact ⟨w, hw⟩
  rw [sum_toList (fun k v => f v - weight f (g k v)), total_eq_sum_of_subset f hsubset,
    total_eq_sum, ← Finset.sum_add_distrib]
  refine Finset.sum_congr rfl fun k hk => ?_
  obtain ⟨v, hv⟩ := mem_keySet.mp hk
  rw [ExtTreeMap.getElem?_filterMap', hv, Option.bind_some, weight_some, weight_some]
  have hle := h k v
  omega

end Srui.Basic.Totals

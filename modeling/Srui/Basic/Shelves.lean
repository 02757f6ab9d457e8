import Srui.Basic.Listings
import Srui.Basic.Totals

/-!
A shelf: a finite map with the order in which its keys would be given up and a
running total of what its values weigh.

An insertion that needs room first plans which keys to give up, counting down the
size and the total, and then removes them.
-/

set_option linter.unusedSectionVars false

namespace Srui.Basic.Shelves

open Std Basic.FiniteMaps Basic.Listings Basic.Totals

variable {κ β : Type} [DecidableEq κ] {cmp : κ → κ → Ordering} [TransCmp cmp] [LawfulEqCmp cmp]

structure Shelf (κ β : Type) (cmp : κ → κ → Ordering) where
  order : List κ
  entries : ExtTreeMap κ β cmp
  total : Nat

variable (f : β → Nat)

def Shelf.remove (s : Shelf κ β cmp) (k : κ) : Shelf κ β cmp :=
  ⟨s.order.erase k, s.entries.erase k, s.total - weight f s.entries[k]?⟩

def Shelf.removeAll (s : Shelf κ β cmp) (keys : List κ) : Shelf κ β cmp :=
  keys.foldl (Shelf.remove f) s

def Shelf.push (s : Shelf κ β cmp) (k : κ) (v : β) : Shelf κ β cmp :=
  ⟨s.order ++ [k], s.entries.insert k v, s.total + f v⟩

/-- The order lists every key once, and the total is that of the values. -/
structure Tallied (s : Shelf κ β cmp) : Prop where
  listing : Listing s.order s.entries
  total_eq : s.total = Totals.total f s.entries

/-- A plan to give up `evicted` that would leave `count` values of `bytes` in all. -/
structure Planned (s : Shelf κ β cmp) (evicted : List κ) (count bytes : Nat) : Prop where
  count_eq : count = (s.removeAll f evicted).entries.size
  bytes_eq : bytes = (s.removeAll f evicted).total

variable {f} {s : Shelf κ β cmp}

theorem Tallied.empty : Tallied f (⟨[], ∅, 0⟩ : Shelf κ β cmp) where
  listing := Listing.empty
  total_eq := by
    rw [total_eq_sum]
    have hkeys : keySet (∅ : ExtTreeMap κ β cmp) = ∅ := by
      ext k
      rw [mem_keySet]
      simp
    rw [hkeys, Finset.sum_empty]

theorem Tallied.remove (h : Tallied f s) (k : κ) : Tallied f (s.remove f k) where
  listing := by
    have horder : s.order.erase k = s.order.filter (· ≠ k) := by
      rw [h.listing.nodup.erase_eq_filter]
      refine List.filter_congr fun a _ => ?_
      rw [decide_not]
      rfl
    show Listing (s.order.erase k) (s.entries.erase k)
    rw [horder]
    exact h.listing.drop k
  total_eq := by
    have hothers : ∀ j, j ≠ k → (s.entries.erase k)[j]? = s.entries[j]? := fun j hj => by
      rw [getElem?_drop, if_neg (Ne.symm hj)]
    have hchange := total_change f k hothers
    rw [getElem?_drop, if_pos rfl, weight_none] at hchange
    have htotal := h.total_eq
    show s.total - weight f s.entries[k]? = Totals.total f (s.entries.erase k)
    omega

theorem Tallied.removeAll (h : Tallied f s) (keys : List κ) : Tallied f (s.removeAll f keys) := by
  induction keys generalizing s with
  | nil => exact h
  | cons k rest ih => exact ih (h.remove k)

variable {k : κ}

theorem Tallied.push (h : Tallied f s) (hk : s.entries[k]? = none) (v : β) :
    Tallied f (s.push f k v) where
  listing := h.listing.push hk v
  total_eq := by
    have hothers : ∀ j, j ≠ k → (s.entries.insert k v)[j]? = s.entries[j]? := fun j hj => by
      rw [getElem?_put, if_neg (Ne.symm hj)]
    have hchange := total_change f k hothers
    rw [getElem?_put, if_pos rfl, hk, weight_none, weight_some] at hchange
    have htotal := h.total_eq
    show s.total + f v = Totals.total f (s.entries.insert k v)
    omega

theorem Tallied.reorder (h : Tallied f s) {order : List κ} (hperm : order.Perm s.order) :
    Tallied f { s with order := order } where
  listing := h.listing.reorder hperm
  total_eq := h.total_eq

variable {keys : List κ}

theorem lookup_removeAll (hk : k ∉ keys) :
    (s.removeAll f keys).entries[k]? = s.entries[k]? := by
  induction keys generalizing s with
  | nil => rfl
  | cons a rest ih =>
    rw [List.mem_cons, not_or] at hk
    rw [Shelf.removeAll, List.foldl_cons, ← Shelf.removeAll, ih hk.2, Shelf.remove, getElem?_drop,
      if_neg (Ne.symm hk.1)]

theorem lookup_of_removeAll {v : β}
    (h : (s.removeAll f keys).entries[k]? = some v) : s.entries[k]? = some v := by
  induction keys generalizing s with
  | nil => exact h
  | cons a rest ih =>
    have hrest := ih (s := s.remove f a) h
    rw [Shelf.remove, getElem?_drop] at hrest
    split at hrest
    · exact absurd hrest (by simp)
    · exact hrest

theorem lookup_removeAll_of_mem (hk : k ∈ keys) :
    (s.removeAll f keys).entries[k]? = none := by
  induction keys generalizing s with
  | nil => cases hk
  | cons a rest ih =>
    rw [Shelf.removeAll, List.foldl_cons, ← Shelf.removeAll]
    by_cases hrest : k ∈ rest
    · exact ih hrest
    · rw [lookup_removeAll hrest, Shelf.remove, getElem?_drop,
        if_pos ((List.mem_cons.mp hk).resolve_right hrest).symm]

theorem order_removeAll (hnodup : s.order.Nodup) (keys : List κ) :
    (s.removeAll f keys).order = s.order.filter (· ∉ keys) := by
  have hdiff : (s.removeAll f keys).order = s.order.diff keys := by
    rw [List.diff_eq_foldl, Shelf.removeAll]
    induction keys generalizing s with
    | nil => rfl
    | cons a rest ih => exact ih (hnodup.erase a)
  rw [hdiff, hnodup.sdiff_eq_filter]

theorem Planned.start (s : Shelf κ β cmp) : Planned f s [] s.entries.size s.total := ⟨rfl, rfl⟩

theorem Planned.next {evicted : List κ} {count bytes : Nat} (h : Planned f s evicted count bytes)
    {v : β} (hk : s.entries[k]? = some v) (hnew : k ∉ evicted) :
    Planned f s (evicted ++ [k]) (count - 1) (bytes - f v) := by
  have hpresent : (s.removeAll f evicted).entries[k]? = some v := by
    rw [lookup_removeAll hnew, hk]
  have hlast : s.removeAll f (evicted ++ [k]) = (s.removeAll f evicted).remove f k := by
    rw [Shelf.removeAll, List.foldl_append]
    rfl
  constructor
  · rw [hlast, h.count_eq]
    show _ = ((s.removeAll f evicted).entries.erase k).size
    rw [← card_keySet, ← card_keySet, keySet_erase,
      Finset.card_erase_of_mem (mem_keySet.mpr ⟨v, hpresent⟩)]
  · rw [hlast, h.bytes_eq, Shelf.remove, hpresent, weight_some]

end Srui.Basic.Shelves

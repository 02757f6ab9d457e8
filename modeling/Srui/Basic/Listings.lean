import Srui.Basic.FiniteMaps

/-!
A list that holds every key of a finite map exactly once: the shape of a map
kept together with a queue of its keys.
-/

set_option linter.unusedSectionVars false

namespace Srui.Basic.Listings

open Std Basic.FiniteMaps

variable {κ β : Type} [DecidableEq κ] {cmp : κ → κ → Ordering} [TransCmp cmp] [LawfulEqCmp cmp]

structure Listing (order : List κ) (t : ExtTreeMap κ β cmp) : Prop where
  nodup : order.Nodup
  mem_iff : ∀ k, k ∈ order ↔ ∃ v, t[k]? = some v

variable {order : List κ} {t : ExtTreeMap κ β cmp} {k : κ}

theorem Listing.empty : Listing [] (∅ : ExtTreeMap κ β cmp) where
  nodup := List.nodup_nil
  mem_iff := by simp

section

variable (h : Listing order t)

include h

theorem Listing.mem_of_lookup {v : β} (hk : t[k]? = some v) : k ∈ order :=
  (h.mem_iff k).mpr ⟨v, hk⟩

theorem Listing.not_mem_of_fresh (hk : t[k]? = none) : k ∉ order := by
  rw [h.mem_iff, hk]
  simp

theorem Listing.length_eq_size : order.length = t.size := by
  have hkeys : order.toFinset = keySet t := by
    ext k
    rw [List.mem_toFinset, h.mem_iff, mem_keySet]
  rw [← List.toFinset_card_of_nodup h.nodup, hkeys, card_keySet]

theorem Listing.push (hk : t[k]? = none) (v : β) :
    Listing (order ++ [k]) (t.insert k v) where
  nodup := by
    rw [List.nodup_append_comm, List.singleton_append, List.nodup_cons]
    exact ⟨h.not_mem_of_fresh hk, h.nodup⟩
  mem_iff := by
    intro a
    rw [List.mem_append, h.mem_iff, List.mem_singleton, getElem?_put]
    by_cases ha : k = a
    · simp [ha]
    · simp [ha, Ne.symm ha]

theorem Listing.put {w : β} (hk : t[k]? = some w) (v : β) :
    Listing order (t.insert k v) where
  nodup := h.nodup
  mem_iff := by
    intro a
    rw [h.mem_iff, getElem?_put]
    by_cases ha : k = a
    · subst ha
      simp [hk]
    · simp [ha]

theorem Listing.drop (k : κ) :
    Listing (order.filter (· ≠ k)) (t.erase k) where
  nodup := h.nodup.filter _
  mem_iff := by
    intro a
    rw [List.mem_filter, h.mem_iff, getElem?_drop]
    by_cases ha : k = a
    · simp [ha]
    · simp [ha, Ne.symm ha]

theorem Listing.reorder {order' : List κ} (hperm : order'.Perm order) :
    Listing order' t where
  nodup := hperm.nodup_iff.mpr h.nodup
  mem_iff := by
    intro a
    rw [hperm.mem_iff, h.mem_iff]

end

theorem eraseP_eq_filter {p : κ → Bool} {k : κ} (hnodup : order.Nodup)
    (hfind : order.find? p = some k) : order.eraseP p = order.filter (· ≠ k) := by
  induction order with
  | nil => simp at hfind
  | cons a rest ih =>
    rw [List.nodup_cons] at hnodup
    by_cases ha : p a = true
    · rw [List.find?_cons_of_pos ha, Option.some.injEq] at hfind
      subst hfind
      rw [List.eraseP_cons_of_pos ha]
      symm
      rw [List.filter_cons_of_neg (by simp), List.filter_eq_self]
      intro b hb
      simpa using ne_of_mem_of_not_mem hb hnodup.1
    · rw [List.find?_cons_of_neg ha] at hfind
      have hne : a ≠ k := ne_of_mem_of_not_mem (List.mem_of_find?_eq_some hfind) hnodup.1 |>.symm
      rw [List.eraseP_cons_of_neg ha, ih hnodup.2 hfind, List.filter_cons_of_pos (by simpa using hne)]

end Srui.Basic.Listings

import Srui.Basic.FiniteMaps

/-!
How many entries of a finite map have a property, and what an insertion and an erasure add to it.
-/

set_option linter.unusedSectionVars false

namespace Srui.Basic.MapCounts

open Std Basic.FiniteMaps

variable {κ β : Type} [DecidableEq κ] {cmp : κ → κ → Ordering} [TransCmp cmp] [LawfulEqCmp cmp]

def select (t : ExtTreeMap κ β cmp) (p : β → Bool) : ExtTreeMap κ β cmp := t.filter fun _ v => p v

def countOf (t : ExtTreeMap κ β cmp) (p : β → Bool) : Nat := (select t p).size

theorem getElem?_selected (t : ExtTreeMap κ β cmp) (p : β → Bool) (k : κ) :
    (select t p)[k]? = t[k]?.filter p := by
  rw [select, ExtTreeMap.getElem?_filter']

variable {k : κ} {v : β}

theorem select_insert (t : ExtTreeMap κ β cmp) (p : β → Bool) (hv : p v = true) :
    select (t.insert k v) p = (select t p).insert k v := by
  apply ExtTreeMap.ext_getElem?
  intro a
  rw [getElem?_selected, getElem?_put, getElem?_put, getElem?_selected]
  split
  · simp [hv]
  · rfl

theorem select_insert_not (t : ExtTreeMap κ β cmp) (p : β → Bool)
    (hv : p v = false) : select (t.insert k v) p = (select t p).erase k := by
  apply ExtTreeMap.ext_getElem?
  intro a
  rw [getElem?_selected, getElem?_put, getElem?_drop, getElem?_selected]
  split
  · simp [hv]
  · rfl

theorem select_erase (t : ExtTreeMap κ β cmp) (p : β → Bool) (k : κ) :
    select (t.erase k) p = (select t p).erase k := by
  apply ExtTreeMap.ext_getElem?
  intro a
  rw [getElem?_selected, getElem?_drop, getElem?_drop, getElem?_selected]
  split
  · rfl
  · rfl

theorem countOf_empty (p : β → Bool) : countOf (∅ : ExtTreeMap κ β cmp) p = 0 := by
  have hempty : select (∅ : ExtTreeMap κ β cmp) p = ∅ := by
    apply ExtTreeMap.ext_getElem?
    intro a
    rw [getElem?_selected, ExtTreeMap.getElem?_empty]
    rfl
  rw [countOf, hempty]
  exact ExtTreeMap.size_empty

variable {t : ExtTreeMap κ β cmp}

theorem erase_of_absent (h : t[k]? = none) : t.erase k = t := by
  apply ExtTreeMap.ext_getElem?
  intro a
  rw [getElem?_drop]
  split
  · rename_i heq
    rw [← heq, h]
  · rfl

theorem insert_insert (t : ExtTreeMap κ β cmp) (k : κ) (v w : β) :
    (t.insert k v).insert k w = t.insert k w := by
  apply ExtTreeMap.ext_getElem?
  intro a
  rw [getElem?_put, getElem?_put, getElem?_put]
  split
  · rfl
  · rfl

theorem countOf_insert_of_fresh (v : β) (h : t[k]? = none)
    (p : β → Bool) : countOf (t.insert k v) p = countOf t p + (p v).toNat := by
  have habsent : (select t p)[k]? = none := by
    rw [getElem?_selected, h]
    rfl
  unfold countOf
  cases hv : p v with
  | true => rw [select_insert t p hv, size_insert_of_fresh v habsent, Bool.toNat_true]
  | false =>
    rw [select_insert_not t p hv, erase_of_absent habsent]
    rfl

theorem countOf_erase_of_present (h : t[k]? = some v)
    (p : β → Bool) : countOf (t.erase k) p + (p v).toNat = countOf t p := by
  have hselected : (select t p)[k]? = (some v).filter p := by rw [getElem?_selected, h]
  unfold countOf
  rw [select_erase]
  cases hv : p v with
  | true =>
    rw [Option.filter_some, if_pos hv] at hselected
    exact size_erase_of_present hselected
  | false =>
    rw [Option.filter_some, if_neg (by rw [hv]; exact nofun)] at hselected
    rw [erase_of_absent hselected]
    rfl

theorem countOf_insert_of_present {w : β} (v : β)
    (h : t[k]? = some w) (p : β → Bool) :
    countOf (t.insert k v) p + (p w).toNat = countOf t p + (p v).toNat := by
  have hinsert : t.insert k v = (t.erase k).insert k v := by
    apply ExtTreeMap.ext_getElem?
    intro a
    rw [getElem?_put, getElem?_put, getElem?_drop]
    split
    · rfl
    · rfl
  have hgone : (t.erase k)[k]? = none := (getElem?_drop t k k).trans (if_pos rfl)
  have herase := countOf_erase_of_present h p
  rw [hinsert, countOf_insert_of_fresh v hgone]
  omega

end Srui.Basic.MapCounts

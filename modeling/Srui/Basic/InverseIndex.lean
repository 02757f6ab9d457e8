import Srui.Basic.FiniteMaps

/-!
A table of entries by position together with a reverse index from an entry's
key to its position. The two agree when each lookup is the inverse of the
other; the lemmas say how the operations of such a table keep them in step.
-/

set_option linter.unusedSectionVars false

namespace Srui.Basic.InverseIndex

open Std Basic.FiniteMaps

variable {ι κ α : Type} [DecidableEq ι] [DecidableEq κ]
variable {icmp : ι → ι → Ordering} [TransCmp icmp] [LawfulEqCmp icmp]
variable {kcmp : κ → κ → Ordering} [TransCmp kcmp] [LawfulEqCmp kcmp]

/-- The reverse index sends a key to a position exactly when an entry with that
key is stored there. -/
def Inverse (key : α → κ) (items : ExtTreeMap ι α icmp) (index : ExtTreeMap κ ι kcmp) : Prop :=
  ∀ k i, index[k]? = some i ↔ ∃ a, items[i]? = some a ∧ key a = k

variable {key : α → κ} {items : ExtTreeMap ι α icmp} {index : ExtTreeMap κ ι kcmp}

theorem inverse_empty : Inverse key (∅ : ExtTreeMap ι α icmp) (∅ : ExtTreeMap κ ι kcmp) := by
  intro k i
  simp

variable {i : ι} {a : α}

variable (h : Inverse key items index)

include h

theorem Inverse.index_eq (hi : items[i]? = some a) :
    index[key a]? = some i := (h (key a) i).mpr ⟨a, hi, rfl⟩

theorem Inverse.position_unique {j : ι} {b : α} (hi : items[i]? = some a) (hj : items[j]? = some b)
    (hkey : key a = key b) : i = j := by
  have hindex := h.index_eq hi
  rw [hkey, h.index_eq hj] at hindex
  exact (Option.some.inj hindex).symm

theorem Inverse.erase (hi : items[i]? = some a) :
    Inverse key (items.erase i) (index.erase (key a)) := by
  intro k j
  rw [getElem?_drop]
  constructor
  · intro hk
    split at hk
    · simp at hk
    · rename_i hne
      obtain ⟨b, hb, rfl⟩ := (h k j).mp hk
      refine ⟨b, ?_, rfl⟩
      rw [getElem?_drop, if_neg]
      · exact hb
      · rintro rfl
        rw [hi] at hb
        exact hne (congrArg key (Option.some.inj hb))
  · rintro ⟨b, hb, rfl⟩
    rw [getElem?_drop] at hb
    split at hb
    · simp at hb
    · rename_i hne
      rw [if_neg]
      · exact h.index_eq hb
      · intro hkey
        exact hne (h.position_unique hi hb hkey)

theorem Inverse.insert (hi : items[i]? = none) (hk : index[key a]? = none) :
    Inverse key (items.insert i a) (index.insert (key a) i) := by
  intro k j
  rw [getElem?_put]
  constructor
  · intro hlookup
    split at hlookup
    · rename_i hkey
      have hij : i = j := Option.some.inj hlookup
      exact ⟨a, by rw [getElem?_put, if_pos hij], hkey⟩
    · obtain ⟨b, hb, rfl⟩ := (h k j).mp hlookup
      refine ⟨b, ?_, rfl⟩
      rw [getElem?_put, if_neg]
      · exact hb
      · rintro rfl
        simp [hi] at hb
  · rintro ⟨b, hb, rfl⟩
    rw [getElem?_put] at hb
    split at hb
    · rename_i hij
      rw [← Option.some.inj hb, if_pos rfl, hij]
    · have hindex := h.index_eq hb
      rw [if_neg, hindex]
      intro hkey
      rw [← hkey, hk] at hindex
      simp at hindex

theorem Inverse.replace {b : α} (hi : items[i]? = some a) (hkey : key b = key a) :
    Inverse key (items.insert i b) index := by
  intro k j
  rw [h k j]
  by_cases hij : i = j
  · subst hij
    simp [hi, hkey]
  · simp [getElem?_put, hij]

theorem Inverse.relocate (move : ι → Option ι) {items' : ExtTreeMap ι α icmp}
    {index' : ExtTreeMap κ ι kcmp}
    (hitems : ∀ (i : ι) (a : α), items'[i]? = some a ↔ ∃ o, items[o]? = some a ∧ move o = some i)
    (hindex : ∀ (k : κ) (i : ι), index'[k]? = some i ↔ ∃ o, index[k]? = some o ∧ move o = some i) :
    Inverse key items' index' := by
  intro k i
  rw [hindex]
  constructor
  · rintro ⟨o, ho, hmove⟩
    obtain ⟨a, ha, rfl⟩ := (h k o).mp ho
    exact ⟨a, (hitems i a).mpr ⟨o, ha, hmove⟩, rfl⟩
  · rintro ⟨a, ha, rfl⟩
    obtain ⟨o, ho, hmove⟩ := (hitems i a).mp ha
    exact ⟨o, h.index_eq ho, hmove⟩

theorem Inverse.lookup_through (hi : items[i]? = some a) :
    (index[key a]?.bind fun j => items[j]?) = some a := by
  rw [h.index_eq hi]
  exact hi

theorem Inverse.mem_keySet_index {k : κ} :
    k ∈ keySet index ↔ ∃ (i : ι) (a : α), items[i]? = some a ∧ key a = k := by
  rw [mem_keySet]
  constructor
  · rintro ⟨i, hi⟩
    obtain ⟨a, ha, hkey⟩ := (h k i).mp hi
    exact ⟨i, a, ha, hkey⟩
  · rintro ⟨i, a, ha, rfl⟩
    exact ⟨i, h.index_eq ha⟩

theorem Inverse.size_eq : items.size = index.size := by
  rw [← card_keySet, ← card_keySet]
  have hsome : ∀ i ∈ keySet items, (items[i]?).isSome := by
    intro i hi
    rw [Option.isSome_iff_exists]
    exact mem_keySet.mp hi
  refine Finset.card_bij (fun i hi => key ((items[i]?).get (hsome i hi))) ?_ ?_ ?_
  · intro i hi
    exact h.mem_keySet_index.mpr ⟨i, _, (Option.some_get (hsome i hi)).symm, rfl⟩
  · intro i hi j hj heq
    exact h.position_unique (Option.some_get (hsome i hi)).symm
      (Option.some_get (hsome j hj)).symm heq
  · intro k hk
    obtain ⟨i, a, ha, hkey⟩ := h.mem_keySet_index.mp hk
    refine ⟨i, mem_keySet.mpr ⟨a, ha⟩, ?_⟩
    simp [ha, hkey]

theorem Inverse.size_le {items' : ExtTreeMap ι α icmp} {index' : ExtTreeMap κ ι kcmp}
    (h' : Inverse key items' index')
    (hsub : ∀ (i : ι) (a : α), items'[i]? = some a → ∃ o : ι, items[o]? = some a) :
    items'.size ≤ items.size := by
  rw [h.size_eq, h'.size_eq, ← card_keySet, ← card_keySet]
  apply Finset.card_le_card
  intro k hk
  obtain ⟨i, a, ha, hkey⟩ := h'.mem_keySet_index.mp hk
  obtain ⟨o, ho⟩ := hsub i a ha
  exact h.mem_keySet_index.mpr ⟨o, a, ho, hkey⟩

end Srui.Basic.InverseIndex

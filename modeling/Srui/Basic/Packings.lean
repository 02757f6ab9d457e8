import Mathlib

/-!
Packing a list of weights, in order, into consecutive groups.

A group fits when its total weight does, and whatever weighs less than something that fits, fits.
Filling each group as far as it goes uses the fewest groups.
-/

namespace Srui.Basic.Packings

variable {fits : Nat → Prop} [DecidablePred fits]

/-- How often filling groups as far as they go closes one, when the open group weighs `spent`. -/
def closings (fits : Nat → Prop) [DecidablePred fits] : Nat → List Nat → Nat
  | _, [] => 0
  | spent, weight :: rest =>
    if fits (spent + weight) then closings fits (spent + weight) rest
    else 1 + closings fits weight rest

def Lowers (fits : Nat → Prop) : Prop := ∀ m n, m ≤ n → fits n → fits m

theorem closings_exchange (hlowers : Lowers fits) (weights : List Nat) (m n : Nat) :
    (m ≤ n → closings fits m weights ≤ closings fits n weights) ∧
      closings fits m weights ≤ 1 + closings fits n weights := by
  induction weights generalizing m n with
  | nil => exact ⟨fun _ => Nat.le_refl 0, Nat.zero_le _⟩
  | cons weight rest ih =>
    have hgain : ∀ m n, closings fits m rest ≤ 1 + closings fits n rest :=
      fun m n => (ih m n).2
    have hless : closings fits weight rest ≤ closings fits (n + weight) rest :=
      (ih weight (n + weight)).1 (Nat.le_add_left _ _)
    simp only [closings]
    constructor
    · intro hle
      by_cases hn : fits (n + weight)
      · have hm : fits (m + weight) := hlowers _ _ (Nat.add_le_add_right hle _) hn
        rw [if_pos hn, if_pos hm]
        exact (ih _ _).1 (Nat.add_le_add_right hle _)
      · rw [if_neg hn]
        split
        · exact hgain _ _
        · exact Nat.le_refl _
    · have hfrom := hgain (m + weight) (n + weight)
      have hfresh := hgain (m + weight) weight
      split_ifs
      · exact hfrom
      · omega
      · omega
      · omega

theorem closings_append (hlowers : Lowers fits) {group : List Nat} {spent : Nat}
    (hfits : fits (spent + group.sum)) (rest : List Nat) :
    closings fits spent (group ++ rest) = closings fits (spent + group.sum) rest := by
  induction group generalizing spent with
  | nil => rw [List.nil_append, List.sum_nil, Nat.add_zero]
  | cons weight others ih =>
    rw [List.sum_cons, ← Nat.add_assoc] at hfits ⊢
    rw [List.cons_append, closings, if_pos (hlowers _ _ (Nat.le_add_right _ _) hfits), ih hfits]

theorem closings_lt_length (hlowers : Lowers fits) {groups : List (List Nat)}
    (hsome : groups ≠ []) (hfits : ∀ group ∈ groups, fits group.sum) :
    closings fits 0 groups.flatten < groups.length := by
  induction groups with
  | nil => exact absurd rfl hsome
  | cons group others ih =>
    have hfirst := hfits group List.mem_cons_self
    rw [← Nat.zero_add group.sum] at hfirst
    rw [List.flatten_cons, closings_append hlowers hfirst, List.length_cons]
    rcases Classical.em (others = []) with rfl | hmore
    · exact Nat.one_pos
    · have hothers := ih hmore fun other hother => hfits other (List.mem_cons_of_mem _ hother)
      have hgain := (closings_exchange hlowers others.flatten (0 + group.sum) 0).2
      omega

end Srui.Basic.Packings

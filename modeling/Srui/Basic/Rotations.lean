import Mathlib

/-!
Rotation by batches: of a list with the elements that wait in front, a batch takes as many of them
as it has room for.
-/

namespace Srui.Basic.Rotations

variable {α : Type} {waits : α → Bool}

def InFront (waits : α → Bool) (l : List α) : Prop := l.Pairwise fun a b => waits b → waits a

theorem inFront_of_sorted {le : α → α → Bool} {l : List α} (hsorted : l.Pairwise fun a b => le a b)
    (hstrict : ∀ a ∈ l, ∀ b ∈ l, waits b → ¬waits a → le a b = false) : InFront waits l := by
  refine hsorted.imp_of_mem ?_
  intro a b ha hb hle hwaits
  by_contra hserved
  rw [hstrict a ha b hb hwaits hserved] at hle
  cases hle

theorem countP_take {l : List α} (h : InFront waits l) (room : Nat) :
    (l.take room).countP waits = min room (l.countP waits) := by
  induction l generalizing room with
  | nil => simp
  | cons head tail ih =>
    obtain ⟨hhead, htail⟩ := List.pairwise_cons.mp h
    cases room with
    | zero => simp
    | succ room =>
      rw [List.take_succ_cons, List.countP_cons, List.countP_cons, ih htail]
      split_ifs with hwaits
      · omega
      · -- Behind an element that does not wait nothing waits.
        have hnone : tail.countP waits = 0 := by
          rw [List.countP_eq_zero]
          exact fun b hb hb' => hwaits (hhead b hb hb')
        omega

theorem countP_drop {l : List α} (h : InFront waits l) (room : Nat) :
    (l.drop room).countP waits = l.countP waits - room := by
  have hwhole : (l.take room).countP waits + (l.drop room).countP waits = l.countP waits := by
    rw [← List.countP_append, List.take_append_drop]
  rw [countP_take h] at hwhole
  omega

theorem le_mul_of_ceil_le {count room rounds : Nat} (hroom : 0 < room)
    (h : (count + room - 1) / room ≤ rounds) : count ≤ rounds * room := by
  have hceil : count + room - 1 < ((count + room - 1) / room + 1) * room := by
    rw [Nat.mul_comm]
    exact Nat.lt_mul_div_succ _ hroom
  have hrounds : ((count + room - 1) / room + 1) * room ≤ (rounds + 1) * room :=
    Nat.mul_le_mul_right room (Nat.succ_le_succ h)
  rw [Nat.add_one_mul rounds] at hrounds
  omega

end Srui.Basic.Rotations

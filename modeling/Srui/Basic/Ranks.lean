import Mathlib

/-!
Position of an element in a sorted list, counted by the elements before it.
-/

namespace Srui.Basic.Ranks

variable {α : Type} [DecidableEq α] (r : α → α → Prop) [DecidableRel r]

/-- Number of other elements of `l` that come before `x`. -/
def rank (l : List α) (x : α) : Nat := l.countP fun y => decide (y ≠ x ∧ r y x)

variable {r}

theorem rank_perm {l l' : List α} (h : l.Perm l') (x : α) : rank r l x = rank r l' x :=
  h.countP_eq _

/-- The first `n` elements of a sorted list are those with fewer than `n`
elements before them. -/
theorem mem_take_iff_rank_lt (hantisymm : ∀ a b, r a b → r b a → a = b) {l : List α}
    (hsorted : l.Pairwise r) (hnodup : l.Nodup) (n : Nat) {x : α} (hx : x ∈ l) :
    x ∈ l.take n ↔ rank r l x < n := by
  induction l generalizing n with
  | nil => simp at hx
  | cons head tail ih =>
    rw [List.pairwise_cons] at hsorted
    rw [List.nodup_cons] at hnodup
    cases n with
    | zero => simp
    | succ n =>
      rw [List.take_succ_cons, List.mem_cons]
      by_cases heq : x = head
      · subst heq
        have hzero : rank r (x :: tail) x = 0 := by
          rw [rank, List.countP_eq_zero]
          intro y hy
          rw [decide_eq_true_eq]
          rintro ⟨hne, hbefore⟩
          rcases List.mem_cons.mp hy with rfl | hy
          · exact hne rfl
          · exact hne (hantisymm y x hbefore (hsorted.1 y hy))
        simp [hzero]
      · have htail : x ∈ tail := (List.mem_cons.mp hx).resolve_left heq
        have hsucc : rank r (head :: tail) x = rank r tail x + 1 := by
          rw [rank, rank, List.countP_cons_of_pos]
          rw [decide_eq_true_eq]
          exact ⟨Ne.symm heq, hsorted.1 x htail⟩
        rw [hsucc, ih hsorted.2 hnodup.2 n htail]
        simp only [heq, false_or]
        omega

end Srui.Basic.Ranks

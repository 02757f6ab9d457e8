import Srui.Basic.FiniteMaps

/-!
A ledger files entries under keys and lists the keys in the order of a rank;
a frontier moves over the numbers that are settled directly ahead of it.
-/

set_option linter.unusedSectionVars false

namespace Srui.Basic.Ledgers

open Std Basic.FiniteMaps

section Listed

variable {κ β : Type} [DecidableEq κ] {cmp : κ → κ → Ordering} [TransCmp cmp] [LawfulEqCmp cmp]

structure Listed (key : β → κ) (rank : β → Nat) (entries : ExtTreeMap κ β cmp)
    (order : List κ) : Prop where
  keyed : ∀ k e, entries[k]? = some e → key e = k
  mem_iff : ∀ k, k ∈ order ↔ ∃ e, entries[k]? = some e
  nodup : order.Nodup
  increasing : order.Pairwise fun a b =>
    ∀ e f, entries[a]? = some e → entries[b]? = some f → rank e < rank f

variable {key : β → κ} {rank : β → Nat} {entries entries' : ExtTreeMap κ β cmp} {order : List κ}

theorem listed_empty : Listed key rank (∅ : ExtTreeMap κ β cmp) [] where
  keyed := by simp
  mem_iff := by simp
  nodup := List.nodup_nil
  increasing := List.Pairwise.nil

variable (h : Listed key rank entries order)

include h

theorem Listed.push {e : β} (hfresh : entries[key e]? = none)
    (hlast : ∀ (k : κ) f, entries[k]? = some f → rank f < rank e) :
    Listed key rank (entries.insert (key e) e) (order ++ [key e]) := by
  have hnotin : key e ∉ order := by
    intro hmem
    obtain ⟨f, hf⟩ := (h.mem_iff _).mp hmem
    simp [hfresh] at hf
  refine ⟨?_, ?_, ?_, ?_⟩
  · intro k f hf
    rw [getElem?_put] at hf
    split at hf
    · rename_i hk
      rw [← hk, Option.some.inj hf]
    · exact h.keyed k f hf
  · intro k
    rw [List.mem_append, List.mem_singleton, h.mem_iff, getElem?_put]
    rcases Classical.em (key e = k) with hk | hk
    · simp [hk]
    · simp [hk, Ne.symm hk]
  · refine List.nodup_append.mpr ⟨h.nodup, List.nodup_singleton _, ?_⟩
    rintro a ha b hb rfl
    rw [List.mem_singleton] at hb
    exact hnotin (hb ▸ ha)
  · refine List.pairwise_append.mpr ⟨?_, List.pairwise_singleton _ _, ?_⟩
    · refine h.increasing.imp_of_mem ?_
      intro a b ha hb hlt f g hf hg
      have hane : key e ≠ a := fun heq => hnotin (heq ▸ ha)
      have hbne : key e ≠ b := fun heq => hnotin (heq ▸ hb)
      rw [getElem?_put, if_neg hane] at hf
      rw [getElem?_put, if_neg hbne] at hg
      exact hlt f g hf hg
    · intro a ha b hb f g hf hg
      rw [List.mem_singleton] at hb
      have hane : key e ≠ a := fun heq => hnotin (heq ▸ ha)
      rw [getElem?_put, if_neg hane] at hf
      rw [hb, getElem?_put, if_pos rfl] at hg
      rw [← Option.some.inj hg]
      exact hlast a f hf

theorem Listed.restrict {keep : κ → Bool}
    (hkeep : ∀ k, entries'[k]? = if keep k then entries[k]? else none) :
    Listed key rank entries' (order.filter keep) := by
  have hsub : ∀ k e, entries'[k]? = some e → keep k = true ∧ entries[k]? = some e := by
    intro k e he
    rw [hkeep] at he
    split at he
    · rename_i hk
      exact ⟨hk, he⟩
    · cases he
  refine ⟨?_, ?_, h.nodup.filter _, ?_⟩
  · intro k e he
    exact h.keyed k e (hsub k e he).2
  · intro k
    rw [List.mem_filter, h.mem_iff, hkeep]
    rcases Classical.em (keep k = true) with hk | hk <;> simp [hk]
  · refine (h.increasing.filter _).imp ?_
    intro a b hlt e f he hf
    exact hlt e f (hsub a e he).2 (hsub b f hf).2

theorem Listed.eq_of_rank {a b : κ} {e f : β} (he : entries[a]? = some e)
    (hf : entries[b]? = some f) (hrank : rank e = rank f) : a = b := by
  obtain ⟨i, hi, hia⟩ := List.mem_iff_getElem.mp ((h.mem_iff a).mpr ⟨e, he⟩)
  obtain ⟨j, hj, hjb⟩ := List.mem_iff_getElem.mp ((h.mem_iff b).mpr ⟨f, hf⟩)
  have hapart := List.pairwise_iff_getElem.mp h.increasing
  rcases Nat.lt_trichotomy i j with hlt | heq | hlt
  · have hrankLt := hapart i j hi hj hlt e f (by rw [hia]; exact he) (by rw [hjb]; exact hf)
    omega
  · subst heq
    exact hia.symm.trans hjb
  · have hrankLt := hapart j i hj hi hlt f e (by rw [hjb]; exact hf) (by rw [hia]; exact he)
    omega

theorem Listed.dropLast_eq_filter {last : κ} (hlast : order.getLast? = some last) :
    order.dropLast = order.filter (fun k => decide (k ≠ last)) := by
  obtain ⟨front, rfl⟩ := List.getLast?_eq_some_iff.mp hlast
  have hnotin : last ∉ front := by
    intro hmem
    exact (List.nodup_append.mp h.nodup).2.2 last hmem last (List.mem_singleton_self _) rfl
  rw [List.dropLast_concat, List.filter_append, List.filter_eq_self.mpr]
  · simp
  · intro k hk
    simpa using fun heq : k = last => hnotin (heq ▸ hk)

end Listed

section Frontier

/-- Moves a frontier over the numbers settled directly ahead of it, taking each
of them off, for so many rounds. -/
def advance : Nat → Nat → Finset Nat → Nat × Finset Nat
  | 0, frontier, ahead => (frontier, ahead)
  | rounds + 1, frontier, ahead =>
    if frontier + 1 ∈ ahead then advance rounds (frontier + 1) (ahead.erase (frontier + 1))
    else (frontier, ahead)

theorem le_advance (rounds frontier : Nat) (ahead : Finset Nat) :
    frontier ≤ (advance rounds frontier ahead).1 := by
  induction rounds generalizing frontier ahead with
  | zero => exact Nat.le_refl _
  | succ rounds ih =>
    rw [advance]
    split
    · exact Nat.le_of_succ_le (ih _ _)
    · exact Nat.le_refl _

theorem advance_le (rounds frontier : Nat) (ahead : Finset Nat) :
    (advance rounds frontier ahead).1 ≤ frontier + rounds := by
  induction rounds generalizing frontier ahead with
  | zero => exact Nat.le_refl _
  | succ rounds ih =>
    rw [advance]
    split
    · have hle := ih (frontier + 1) (ahead.erase (frontier + 1))
      omega
    · exact Nat.le_add_right _ _

variable {ahead : Finset Nat} {frontier : Nat}

theorem mem_of_advance {rounds : Nat} {n : Nat}
    (hlow : frontier < n) (hhigh : n ≤ (advance rounds frontier ahead).1) : n ∈ ahead := by
  induction rounds generalizing frontier ahead with
  | zero => exact absurd (Nat.lt_of_lt_of_le hlow hhigh) (Nat.lt_irrefl _)
  | succ rounds ih =>
    rw [advance] at hhigh
    split at hhigh
    · rename_i hnext
      rcases Classical.em (n = frontier + 1) with heq | hne
      · exact heq ▸ hnext
      · exact Finset.mem_of_mem_erase (ih (by omega) hhigh)
    · exact absurd (Nat.lt_of_lt_of_le hlow hhigh) (Nat.lt_irrefl _)

theorem mem_advance (rounds : Nat)
    (hahead : ∀ n ∈ ahead, frontier < n) (n : Nat) :
    n ∈ (advance rounds frontier ahead).2 ↔
      n ∈ ahead ∧ (advance rounds frontier ahead).1 < n := by
  induction rounds generalizing frontier ahead with
  | zero => exact ⟨fun h => ⟨h, hahead n h⟩, And.left⟩
  | succ rounds ih =>
    rw [advance]
    split
    · rw [ih, Finset.mem_erase]
      · have hle := le_advance rounds (frontier + 1) (ahead.erase (frontier + 1))
        constructor
        · rintro ⟨⟨-, hmem⟩, hlt⟩
          exact ⟨hmem, hlt⟩
        · rintro ⟨hmem, hlt⟩
          exact ⟨⟨by omega, hmem⟩, hlt⟩
      · intro m hm
        have hlt := hahead m (Finset.mem_of_mem_erase hm)
        have hne := Finset.ne_of_mem_erase hm
        omega
    · exact ⟨fun h => ⟨h, hahead n h⟩, And.left⟩

theorem next_not_mem_advance {rounds : Nat}
    (hbound : ∀ n ∈ ahead, n ≤ frontier + rounds) :
    (advance rounds frontier ahead).1 + 1 ∉ (advance rounds frontier ahead).2 := by
  induction rounds generalizing frontier ahead with
  | zero =>
    intro hmem
    have hle := hbound _ hmem
    simp [advance] at hle
  | succ rounds ih =>
    rw [advance]
    split
    · apply ih
      intro n hn
      have hle := hbound n (Finset.mem_of_mem_erase hn)
      omega
    · assumption

end Frontier

end Srui.Basic.Ledgers

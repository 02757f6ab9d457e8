import Mathlib

/-!
Lists of spans that abut: each starts where the one before it ends.
-/

namespace Srui.Basic.Spans

variable {α : Type} (lo hi : α → Nat)

/-- The first span starts at `r`, and each next one where the last one ended. -/
def Abutting : Nat → List α → Prop
  | _, [] => True
  | r, a :: rest => lo a = r ∧ Abutting (hi a) rest

/-- Where a list of spans that starts at `r` ends. -/
def reach : Nat → List α → Nat
  | r, [] => r
  | _, a :: rest => reach (hi a) rest

variable {lo hi}

theorem reach_append (r : Nat) (xs ys : List α) :
    reach hi r (xs ++ ys) = reach hi (reach hi r xs) ys := by
  induction xs generalizing r with
  | nil => rfl
  | cons a rest ih => exact ih (hi a)

variable {xs : List α} {r : Nat}

theorem abutting_append {ys : List α} :
    Abutting lo hi r (xs ++ ys) ↔ Abutting lo hi r xs ∧ Abutting lo hi (reach hi r xs) ys := by
  induction xs generalizing r with
  | nil => simp [Abutting, reach]
  | cons a rest ih => simp only [List.cons_append, Abutting, reach, ih, and_assoc]

theorem abutting_map {β : Type} {f : β → α} {xs : List β} :
    Abutting lo hi r (xs.map f) ↔ Abutting (lo ∘ f) (hi ∘ f) r xs := by
  induction xs generalizing r with
  | nil => exact Iff.rfl
  | cons b rest ih => exact and_congr_right fun _ => ih

theorem reach_map {β : Type} (f : β → α) (r : Nat) (xs : List β) :
    reach hi r (xs.map f) = reach (hi ∘ f) r xs := by
  induction xs generalizing r with
  | nil => rfl
  | cons b rest ih => exact ih (hi (f b))

theorem le_reach (hforward : ∀ a ∈ xs, lo a ≤ hi a)
    (h : Abutting lo hi r xs) : r ≤ reach hi r xs := by
  induction xs generalizing r with
  | nil => exact Nat.le_refl _
  | cons a rest ih =>
    obtain ⟨rfl, hrest⟩ := h
    have hlast := ih (fun b hb => hforward b (List.mem_cons_of_mem a hb)) hrest
    exact Nat.le_trans (hforward a List.mem_cons_self) hlast

theorem within_reach (hforward : ∀ a ∈ xs, lo a ≤ hi a)
    (h : Abutting lo hi r xs) : ∀ a ∈ xs, r ≤ lo a ∧ hi a ≤ reach hi r xs := by
  induction xs generalizing r with
  | nil => simp
  | cons a rest ih =>
    obtain ⟨rfl, hrest⟩ := h
    have hforwards : ∀ b ∈ rest, lo b ≤ hi b := fun b hb => hforward b (List.mem_cons_of_mem a hb)
    have hfirst := hforward a List.mem_cons_self
    intro b hb
    rcases List.mem_cons.mp hb with rfl | hmem
    · exact ⟨Nat.le_refl _, le_reach hforwards hrest⟩
    · obtain ⟨hstart, hend⟩ := ih hforwards hrest b hmem
      exact ⟨hfirst.trans hstart, hend⟩

theorem Abutting.pairwise (hforward : ∀ a ∈ xs, lo a ≤ hi a)
    (h : Abutting lo hi r xs) : xs.Pairwise fun a b => hi a ≤ lo b := by
  induction xs generalizing r with
  | nil => exact .nil
  | cons a rest ih =>
    have hforwards : ∀ b ∈ rest, lo b ≤ hi b := fun b hb => hforward b (List.mem_cons_of_mem a hb)
    exact .cons (fun b hb => (within_reach hforwards h.2 b hb).1) (ih hforwards h.2)

theorem reach_getLast {last : α} (h : xs.getLast? = some last) :
    reach hi r xs = hi last := by
  obtain ⟨before, rfl⟩ := List.getLast?_eq_some_iff.mp h
  exact reach_append r before [last]

theorem reach_le (hstep : ∀ a ∈ xs, hi a ≤ lo a + 1)
    (h : Abutting lo hi r xs) : reach hi r xs ≤ r + xs.length := by
  induction xs generalizing r with
  | nil => exact Nat.le_refl _
  | cons a rest ih =>
    obtain ⟨rfl, hrest⟩ := h
    have hlast := ih (fun b hb => hstep b (List.mem_cons_of_mem a hb)) hrest
    have hfirst := hstep a List.mem_cons_self
    rw [List.length_cons]
    exact Nat.le_trans hlast (by omega)

theorem reach_eq (hunit : ∀ a ∈ xs, hi a = lo a + 1)
    (h : Abutting lo hi r xs) : reach hi r xs = r + xs.length := by
  induction xs generalizing r with
  | nil => rfl
  | cons a rest ih =>
    obtain ⟨rfl, hrest⟩ := h
    have hlast := ih (fun b hb => hunit b (List.mem_cons_of_mem a hb)) hrest
    have hfirst := hunit a List.mem_cons_self
    rw [List.length_cons]
    exact hlast.trans (by omega)

theorem unit_of_reach (hstep : ∀ a ∈ xs, hi a ≤ lo a + 1)
    (h : Abutting lo hi r xs) (hreach : reach hi r xs = r + xs.length) :
    ∀ a ∈ xs, hi a = lo a + 1 := by
  induction xs generalizing r with
  | nil => simp
  | cons a rest ih =>
    obtain ⟨rfl, hrest⟩ := h
    have hsteps : ∀ b ∈ rest, hi b ≤ lo b + 1 := fun b hb => hstep b (List.mem_cons_of_mem a hb)
    have hlast := reach_le hsteps hrest
    have hfirst := hstep a List.mem_cons_self
    change reach hi (hi a) rest = lo a + (rest.length + 1) at hreach
    have hunit : hi a = lo a + 1 := by omega
    intro b hb
    rcases List.mem_cons.mp hb with rfl | hmem
    · exact hunit
    · exact ih hsteps hrest (by omega) b hmem

theorem lo_lt_reach (hunit : ∀ a ∈ xs, hi a = lo a + 1)
    (h : Abutting lo hi r xs) : ∀ a ∈ xs, r ≤ lo a ∧ lo a < r + xs.length := by
  induction xs generalizing r with
  | nil => simp
  | cons a rest ih =>
    obtain ⟨rfl, hrest⟩ := h
    have hfirst := hunit a List.mem_cons_self
    intro b hb
    rw [List.length_cons]
    rcases List.mem_cons.mp hb with rfl | hmem
    · omega
    · have hbounds := ih (fun c hc => hunit c (List.mem_cons_of_mem a hc)) hrest b hmem
      omega

theorem filter_eq_drop (hunit : ∀ a ∈ xs, hi a = lo a + 1)
    (h : Abutting lo hi r xs) (k : Nat) :
    xs.filter (fun a => r + k ≤ lo a) = xs.drop k := by
  induction xs generalizing r k with
  | nil => simp
  | cons a rest ih =>
    have hall := lo_lt_reach hunit h
    obtain ⟨rfl, hrest⟩ := h
    have hunits : ∀ b ∈ rest, hi b = lo b + 1 := fun b hb => hunit b (List.mem_cons_of_mem a hb)
    have hfirst := hunit a List.mem_cons_self
    cases k with
    | zero =>
      rw [List.drop_zero, List.filter_eq_self]
      intro b hb
      simpa using (hall b hb).1
    | succ k =>
      rw [List.drop_succ_cons, ← ih hunits hrest k, hfirst, List.filter_cons_of_neg (by simp)]
      refine List.filter_congr fun b _ => ?_
      simp only [decide_eq_decide]
      omega

end Srui.Basic.Spans

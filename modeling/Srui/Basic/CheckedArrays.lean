import Srui.Basic.Machine

/-!
Programs that trap, and arrays whose operations check their positions.

A program is an `Option`; none is a trap. Positions and counts are signed.
-/

namespace Srui.Basic.CheckedArrays

open Basic.Machine

def checkedMul (a b : Nat) : Option Nat := if a * b ≤ u64Max then some (a * b) else none

def checkedSub (a b : Nat) : Option Nat := if b ≤ a then some (a - b) else none

theorem checkedMul_of_le {a b : Nat} (h : a * b ≤ u64Max) : checkedMul a b = some (a * b) :=
  if_pos h

theorem checkedSub_of_le {a b : Nat} (h : b ≤ a) : checkedSub a b = some (a - b) := if_pos h

variable {α β σ : Type}

/-- The program does not trap, and its result is as stated. -/
def Yields (program : Option α) (post : α → Prop) : Prop := ∃ a, program = some a ∧ post a

variable {program : Option α} {post post' : α → Prop}

theorem Yields.pure {a : α} (h : post a) : Yields (some a) post := ⟨a, rfl, h⟩

theorem Yields.bind {f : α → Option β} {goal : β → Prop} (h : Yields program post)
    (hf : ∀ a, post a → Yields (f a) goal) : Yields (program >>= f) goal := by
  obtain ⟨a, rfl, ha⟩ := h
  exact hf a ha

theorem Yields.mono (h : Yields program post) (himp : ∀ a, post a → post' a) :
    Yields program post' := by
  obtain ⟨a, ha, hpost⟩ := h
  exact ⟨a, ha, himp a hpost⟩

theorem Yields.ite {c : Prop} [Decidable c] {other : Option α} (hthen : c → Yields program post)
    (helse : ¬c → Yields other post) : Yields (if c then program else other) post := by
  rcases Classical.em c with hc | hc
  · rw [if_pos hc]
    exact hthen hc
  · rw [if_neg hc]
    exact helse hc

theorem Yields.foldlM {body : σ → α → Option σ} {inv : σ → Prop} {xs : List α}
    (hbody : ∀ s, ∀ x ∈ xs, inv s → Yields (body s x) inv) {s : σ} (hs : inv s) :
    Yields (xs.foldlM body s) inv := by
  induction xs generalizing s with
  | nil => exact .pure hs
  | cons x rest ih =>
    rw [List.foldlM_cons]
    refine (hbody s x List.mem_cons_self hs).bind ?_
    intro t ht
    exact ih (fun t y hy => hbody t y (List.mem_cons_of_mem x hy)) ht

theorem Yields.mapM {f : α → Option β} {goal : β → Prop} {xs : List α}
    (hf : ∀ x ∈ xs, Yields (f x) goal) :
    Yields (xs.mapM f) fun ys => ys.length = xs.length ∧ ∀ y ∈ ys, goal y := by
  induction xs with
  | nil => exact .pure ⟨rfl, fun y hy => absurd hy List.not_mem_nil⟩
  | cons x rest ih =>
    rw [List.mapM_cons]
    refine (hf x List.mem_cons_self).bind ?_
    intro y hy
    refine (ih fun z hz => hf z (List.mem_cons_of_mem x hz)).bind ?_
    intro ys hys
    refine .pure ⟨?_, ?_⟩
    · rw [List.length_cons, List.length_cons, hys.1]
    · intro z hz
      rcases List.mem_cons.mp hz with rfl | hz
      · exact hy
      · exact hys.2 z hz

/-! ### Operations -/

/-- `xs[i]`. -/
def read (xs : List α) (i : Int) : Option α := if 0 ≤ i then xs[i.toNat]? else none

/-- `xs[i] = x`. -/
def write (xs : List α) (i : Int) (x : α) : Option (List α) :=
  if 0 ≤ i ∧ i < xs.length then some (xs.set i.toNat x) else none

def removeAt (xs : List α) (i : Int) : Option (α × List α) := do
  let x ← read xs i
  some (x, xs.eraseIdx i.toNat)

def insertAt (xs ys : List α) (i : Int) : Option (List α) :=
  if 0 ≤ i ∧ i ≤ xs.length then some (xs.take i.toNat ++ ys ++ xs.drop i.toNat) else none

/-- The elements from `lo` on and before `hi` go. -/
def removeSubrange (xs : List α) (lo hi : Int) : Option (List α) :=
  if 0 ≤ lo ∧ lo ≤ hi ∧ hi ≤ xs.length then some (xs.take lo.toNat ++ xs.drop hi.toNat) else none

def removeLast (xs : List α) (count : Int) : Option (List α) :=
  if 0 ≤ count ∧ count ≤ xs.length then some (xs.take (xs.length - count.toNat)) else none

def removeFirst (xs : List α) (count : Int) : Option (List α) :=
  if 0 ≤ count ∧ count ≤ xs.length then some (xs.drop count.toNat) else none

def repeating (x : α) (count : Int) : Option (List α) :=
  if 0 ≤ count then some (List.replicate count.toNat x) else none

/-- `lo..<hi`. -/
def range (lo hi : Int) : Option (List Int) :=
  if lo ≤ hi then some ((List.range (hi - lo).toNat).map fun (k : Nat) => lo + k) else none

/-! ### What they need, and what they keep -/

variable {xs ys : List α} {x : α} {i lo hi count : Int}

theorem read_yields (hlo : 0 ≤ i) (hhi : i < xs.length) : Yields (read xs i) (· ∈ xs) := by
  have hbound : i.toNat < xs.length := by omega
  rw [read, if_pos hlo, List.getElem?_eq_getElem hbound]
  exact .pure (List.getElem_mem hbound)

theorem write_yields (hlo : 0 ≤ i) (hhi : i < xs.length) :
    Yields (write xs i x) fun ys => ys.length = xs.length ∧ ∀ y ∈ ys, y ∈ xs ∨ y = x := by
  rw [write, if_pos ⟨hlo, hhi⟩]
  exact .pure ⟨List.length_set, fun y hy => List.mem_or_eq_of_mem_set hy⟩

theorem removeAt_yields (hlo : 0 ≤ i) (hhi : i < xs.length) :
    Yields (removeAt xs i) fun removed =>
      (removed.2.length : Int) + 1 = xs.length ∧ removed.1 ∈ xs ∧
        ∀ y ∈ removed.2, y ∈ xs := by
  refine (read_yields hlo hhi).bind ?_
  intro x hx
  refine .pure ⟨?_, hx, fun y hy => List.mem_of_mem_eraseIdx hy⟩
  have hbound : i.toNat < xs.length := by omega
  show ((xs.eraseIdx i.toNat).length : Int) + 1 = xs.length
  rw [List.length_eraseIdx_of_lt hbound]
  omega

theorem insertAt_yields (hlo : 0 ≤ i) (hhi : i ≤ xs.length) :
    Yields (insertAt xs ys i) fun zs =>
      zs.length = xs.length + ys.length ∧ ∀ z ∈ zs, z ∈ xs ∨ z ∈ ys := by
  rw [insertAt, if_pos ⟨hlo, hhi⟩]
  refine .pure ⟨?_, ?_⟩
  · simp only [List.length_append, List.length_take, List.length_drop]
    omega
  · intro z hz
    rcases List.mem_append.mp hz with hz | hz
    · rcases List.mem_append.mp hz with hz | hz
      · exact Or.inl (List.mem_of_mem_take hz)
      · exact Or.inr hz
    · exact Or.inl (List.mem_of_mem_drop hz)

theorem removeSubrange_yields (hlo : 0 ≤ lo) (hle : lo ≤ hi) (hhi : hi ≤ xs.length) :
    Yields (removeSubrange xs lo hi) fun ys => (ys.length : Int) + (hi - lo) = xs.length := by
  rw [removeSubrange, if_pos ⟨hlo, hle, hhi⟩]
  refine .pure ?_
  simp only [List.length_append, List.length_take, List.length_drop]
  omega

theorem removeLast_yields (hlo : 0 ≤ count) (hhi : count ≤ xs.length) :
    Yields (removeLast xs count) fun ys => (ys.length : Int) + count = xs.length := by
  rw [removeLast, if_pos ⟨hlo, hhi⟩]
  refine .pure ?_
  rw [List.length_take]
  omega

theorem removeFirst_yields (hlo : 0 ≤ count) (hhi : count ≤ xs.length) :
    Yields (removeFirst xs count) fun ys => (ys.length : Int) + count = xs.length := by
  rw [removeFirst, if_pos ⟨hlo, hhi⟩]
  refine .pure ?_
  rw [List.length_drop]
  omega

theorem repeating_yields (h : 0 ≤ count) :
    Yields (repeating x count) fun ys => (ys.length : Int) = count ∧ ∀ y ∈ ys, y = x := by
  rw [repeating, if_pos h]
  refine .pure ⟨?_, fun y hy => List.eq_of_mem_replicate hy⟩
  rw [List.length_replicate]
  omega

theorem range_yields (h : lo ≤ hi) :
    Yields (range lo hi) fun is =>
      (is.length : Int) = hi - lo ∧ ∀ i ∈ is, lo ≤ i ∧ i < hi := by
  rw [range, if_pos h]
  refine .pure ⟨?_, ?_⟩
  · rw [List.length_map, List.length_range]
    omega
  · intro i hi
    obtain ⟨k, hk, rfl⟩ := List.mem_map.mp hi
    have hk := List.mem_range.mp hk
    omega

end Srui.Basic.CheckedArrays

import Mathlib

/-!
Total lists as the dense reading of a partial function on positions: inserting,
cutting out and overwriting a run of positions, and when a second function reads
as the result.
-/

namespace Srui.Basic.DenseLists

variable {α : Type}

/-- The first `n` values of `f`. -/
def dense (n : Nat) (f : Nat → α) : List α := (List.range n).map f

/-- `xs` put in at position `i`. -/
def splice (i : Nat) (xs l : List α) : List α := l.take i ++ xs ++ l.drop i

/-- The `n` entries from position `i` taken out. -/
def cutOut (i n : Nat) (l : List α) : List α := l.take i ++ l.drop (i + n)

/-- `xs` in the place of the entries from position `i`. -/
def overwrite (i : Nat) (xs l : List α) : List α := l.take i ++ xs ++ l.drop (i + xs.length)

@[simp] theorem length_dense (n : Nat) (f : Nat → α) : (dense n f).length = n := by
  simp [dense]

variable {i : Nat}

theorem getElem?_dense {n : Nat} {f : Nat → α} :
    (dense n f)[i]? = if i < n then some (f i) else none := by
  rw [dense, List.getElem?_map]
  split
  · rename_i hlow
    rw [List.getElem?_range hlow]
    rfl
  · rename_i hhigh
    rw [List.getElem?_eq_none (by simpa using hhigh)]
    rfl

theorem dense_congr {n : Nat} {f g : Nat → α} (h : ∀ i < n, g i = f i) :
    dense n g = dense n f := by
  apply List.map_congr_left
  intro i hi
  exact h i (List.mem_range.mp hi)

variable {n : Nat} {f g : Nat → α}

/-- Values put in the place of the `c` ones from position `i`. -/
theorem dense_replace {xs : List α} {c m : Nat} (hi : i + c ≤ n) (hm : m + c = n + xs.length)
    (hlow : ∀ j < i, g j = f j) (hnew : ∀ (k : Nat) (x : α), xs[k]? = some x → g (i + k) = x)
    (hhigh : ∀ o, i + c ≤ o → o < n → g (o - c + xs.length) = f o) :
    dense m g = (dense n f).take i ++ xs ++ (dense n f).drop (i + c) := by
  apply List.ext_getElem?
  intro j
  have htake : ((dense n f).take i).length = i := by
    simp
    omega
  rw [List.append_assoc, getElem?_dense]
  rcases Nat.lt_or_ge j i with hj | hj
  · rw [List.getElem?_append_left (by omega), List.getElem?_take_of_lt hj, getElem?_dense,
      if_pos (by omega), if_pos (by omega), hlow j hj]
  rw [List.getElem?_append_right (by omega), htake]
  rcases Nat.lt_or_ge (j - i) xs.length with hk | hk
  · rw [List.getElem?_append_left hk, if_pos (by omega), List.getElem?_eq_getElem hk]
    have hvalue := hnew (j - i) xs[j - i] (List.getElem?_eq_getElem hk)
    rw [Nat.add_sub_cancel' hj] at hvalue
    rw [hvalue]
  · rw [List.getElem?_append_right hk, List.getElem?_drop, getElem?_dense]
    have hback : i + c + (j - i - xs.length) = j - xs.length + c := by omega
    rw [hback]
    split
    · rename_i hin
      have hvalue := hhigh (j - xs.length + c) (by omega) (by omega)
      rw [Nat.add_sub_cancel, Nat.sub_add_cancel (by omega)] at hvalue
      rw [if_pos (by omega), hvalue]
    · rw [if_neg (by omega)]

theorem dense_splice {xs : List α} (hi : i ≤ n) (hlow : ∀ j < i, g j = f j)
    (hnew : ∀ (k : Nat) (x : α), xs[k]? = some x → g (i + k) = x)
    (hhigh : ∀ o, i ≤ o → g (o + xs.length) = f o) :
    dense (n + xs.length) g = splice i xs (dense n f) :=
  dense_replace (c := 0) hi rfl hlow hnew fun o ho _ => hhigh o ho

theorem dense_cutOut {c : Nat} (hi : i + c ≤ n) (hlow : ∀ j < i, g j = f j)
    (hhigh : ∀ j, i ≤ j → g j = f (j + c)) :
    dense (n - c) g = cutOut i c (dense n f) := by
  have hnothing (k : Nat) (x : α) (hx : ([] : List α)[k]? = some x) : g (i + k) = x := by
    simp at hx
  have hm : n - c + c = n + ([] : List α).length := Nat.sub_add_cancel (by omega)
  rw [dense_replace hi hm hlow hnothing, List.append_nil, cutOut]
  intro o ho _
  have hvalue := hhigh (o - c) (by omega)
  rwa [Nat.sub_add_cancel (by omega)] at hvalue

theorem dense_overwrite {xs : List α} (hi : i + xs.length ≤ n)
    (hout : ∀ j < n, ¬(i ≤ j ∧ j < i + xs.length) → g j = f j)
    (hnew : ∀ (k : Nat) (x : α), xs[k]? = some x → g (i + k) = x) :
    dense n g = overwrite i xs (dense n f) := by
  refine dense_replace hi rfl (fun j hj => hout j (by omega) (by omega)) hnew ?_
  intro o ho hin
  rw [Nat.sub_add_cancel (by omega)]
  exact hout o hin (by omega)

end Srui.Basic.DenseLists

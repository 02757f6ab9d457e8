import Srui.Basic.Spans

/-!
Slices of a list between two positions, and lists of pieces laid end to end.
-/

namespace Srui.Basic.Slices

open Basic.Spans

variable {α β : Type}

/-- The elements at the positions from `lo` on and before `hi`. -/
def slice (xs : List α) (lo hi : Nat) : List α := (xs.drop lo).take (hi - lo)

@[simp] theorem slice_self (xs : List α) (lo : Nat) : slice xs lo lo = [] := by simp [slice]

variable {xs : List α}

theorem length_slice {lo hi : Nat} (h : hi ≤ xs.length) :
    (slice xs lo hi).length = hi - lo := by
  rw [slice, List.length_take, List.length_drop]
  omega

theorem slice_eq_nil {lo hi : Nat} (h : hi ≤ lo) : slice xs lo hi = [] := by
  rw [slice, Nat.sub_eq_zero_of_le h, List.take_zero]

theorem slice_append_slice (xs : List α) {lo mid hi : Nat} (hlo : lo ≤ mid) (hhi : mid ≤ hi) :
    slice xs lo mid ++ slice xs mid hi = slice xs lo hi := by
  obtain ⟨a, rfl⟩ := Nat.exists_eq_add_of_le hlo
  obtain ⟨b, rfl⟩ := Nat.exists_eq_add_of_le hhi
  rw [slice, slice, slice, ← List.drop_drop, Nat.add_sub_cancel_left, Nat.add_sub_cancel_left,
    Nat.add_assoc, Nat.add_sub_cancel_left, List.take_add]

theorem slice_append (xs ys : List α) {lo hi : Nat} (h : hi ≤ xs.length) :
    slice (xs ++ ys) lo hi = slice xs lo hi := by
  rcases Nat.le_total hi lo with hle | hle
  · rw [slice_eq_nil hle, slice_eq_nil hle]
  · rw [slice, slice, List.drop_append_of_le_length (hle.trans h), List.take_append_of_le_length]
    rw [List.length_drop]
    omega

/-- A slice of what follows position `r`, in positions counted from there. -/
theorem slice_drop (xs : List α) (r lo hi : Nat) :
    slice (xs.drop r) lo hi = slice xs (r + lo) (r + hi) := by
  rw [slice, slice, List.drop_drop, Nat.add_sub_add_left]

/-- A chunk at `cursor` ends within the list, and what follows it begins where it ends. -/
theorem chunk_ends {chunk rest : List α} {cursor : Nat}
    (hchunk : chunk ++ rest = xs.drop cursor) (hcursor : cursor ≤ xs.length) :
    cursor + chunk.length ≤ xs.length ∧ rest = xs.drop (cursor + chunk.length) := by
  constructor
  · have htotal := congrArg List.length hchunk
    rw [List.length_append, List.length_drop] at htotal
    omega
  · rw [← List.drop_drop, ← hchunk, List.drop_left]

/-- A range is taken chunk by chunk: a chunk at `cursor` adds what it holds of the range. -/
theorem slice_append_chunk {chunk rest : List α} {cursor lo hi : Nat}
    (hchunk : chunk ++ rest = xs.drop cursor) (hhi : cursor < hi) :
    slice xs lo (min cursor hi) ++
        slice chunk (lo - cursor) (min hi (cursor + chunk.length) - cursor) =
      slice xs lo (min (cursor + chunk.length) hi) := by
  have hpiece : slice chunk (lo - cursor) (min hi (cursor + chunk.length) - cursor) =
      slice xs (max lo cursor) (min hi (cursor + chunk.length)) := by
    rw [← slice_append chunk rest (by omega), hchunk, slice_drop]
    congr 1 <;> omega
  rw [hpiece, Nat.min_eq_left hhi.le, Nat.min_comm hi]
  rcases Nat.le_total lo cursor with hbefore | hafter
  · rw [Nat.max_eq_right hbefore, slice_append_slice _ hbefore (by omega)]
  · rw [slice_eq_nil hafter, Nat.max_eq_left hafter, List.nil_append]

variable {lo hi : β → Nat} {piece : β → List α}

theorem reach_eq_length {r : Nat} {parts : List β}
    (hlength : ∀ b ∈ parts, hi b = lo b + (piece b).length) (h : Abutting lo hi r parts) :
    reach hi r parts = r + (parts.flatMap piece).length := by
  induction parts generalizing r with
  | nil => rfl
  | cons b rest ih =>
    obtain ⟨rfl, hrest⟩ := h
    have hlast := ih (fun c hc => hlength c (List.mem_cons_of_mem b hc)) hrest
    have hfirst := hlength b List.mem_cons_self
    rw [List.flatMap_cons, List.length_append]
    exact hlast.trans (by omega)

theorem pieces_of_abutting {r : Nat} {parts : List β}
    (hlength : ∀ b ∈ parts, hi b = lo b + (piece b).length) (h : Abutting lo hi r parts)
    (hend : reach hi r parts ≤ xs.length)
    (hbytes : parts.flatMap piece = slice xs r (reach hi r parts)) :
    ∀ b ∈ parts, piece b = slice xs (lo b) (hi b) := by
  induction parts generalizing r with
  | nil => simp
  | cons b rest ih =>
    obtain ⟨rfl, hrest⟩ := h
    have hfirst : hi b = lo b + (piece b).length := hlength b List.mem_cons_self
    have hlengths : ∀ c ∈ rest, hi c = lo c + (piece c).length :=
      fun c hc => hlength c (List.mem_cons_of_mem b hc)
    have hforward : hi b ≤ reach hi (hi b) rest :=
      le_reach (fun c hc => by have := hlengths c hc; omega) hrest
    change piece b ++ rest.flatMap piece = slice xs (lo b) (reach hi (hi b) rest) at hbytes
    rw [← slice_append_slice xs (show lo b ≤ hi b by omega) hforward] at hbytes
    have hsize : (piece b).length = (slice xs (lo b) (hi b)).length := by
      rw [length_slice (hforward.trans hend)]
      omega
    obtain ⟨hpiece, hothers⟩ := List.append_inj hbytes hsize
    intro c hc
    rcases List.mem_cons.mp hc with rfl | hmem
    · exact hpiece
    · exact ih hlengths hrest hend hothers c hmem

end Srui.Basic.Slices

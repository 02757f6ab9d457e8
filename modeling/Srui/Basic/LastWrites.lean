import Mathlib

/-!
Lists of keyed writes: the last write to each key, and merging one list into
another in place through an index of the last positions.
-/

namespace Srui.Basic.LastWrites

variable {κ α : Type} [DecidableEq κ]

def lastWrite : List (κ × α) → κ → Option α
  | [], _ => none
  | (key, value) :: rest, k => (lastWrite rest k).or (if key = k then some value else none)

theorem lastWrite_append (xs ys : List (κ × α)) (k : κ) :
    lastWrite (xs ++ ys) k = (lastWrite ys k).or (lastWrite xs k) := by
  induction xs with
  | nil => simp [lastWrite]
  | cons x xs ih =>
    rw [List.cons_append, lastWrite, lastWrite, ih, Option.or_assoc]

variable {writes : List (κ × α)} {k : κ}

theorem lastWrite_eq_none :
    lastWrite writes k = none ↔ k ∉ writes.map Prod.fst := by
  induction writes with
  | nil => simp [lastWrite]
  | cons x rest ih =>
    rw [lastWrite, Option.or_eq_none_iff, ih, List.map_cons, List.mem_cons, not_or]
    constructor
    · rintro ⟨hrest, hx⟩
      exact ⟨fun heq => by simp [heq] at hx, hrest⟩
    · rintro ⟨hne, hrest⟩
      exact ⟨hrest, if_neg (Ne.symm hne)⟩

/-- Position `i` of a list of keys is the last one that holds `k`. -/
def LastAt (keys : List κ) (k : κ) (i : Nat) : Prop :=
  keys[i]? = some k ∧ k ∉ keys.drop (i + 1)

theorem LastAt.lastWrite_set {i : Nat}
    (h : LastAt (writes.map Prod.fst) k i) (value : α) (k' : κ) :
    lastWrite (writes.set i (k, value)) k' = lastWrite (writes ++ [(k, value)]) k' := by
  obtain ⟨hi, hlast⟩ := h
  rw [List.getElem?_map] at hi
  obtain ⟨⟨key, old⟩, hentry, rfl⟩ := Option.map_eq_some_iff.mp hi
  obtain ⟨hlength, hget⟩ := List.getElem?_eq_some_iff.mp hentry
  rw [← List.map_drop] at hlast
  have hsplit : writes = writes.take i ++ (key, old) :: writes.drop (i + 1) := by
    rw [← hget, List.cons_getElem_drop_succ, List.take_append_drop]
  have hset : writes.set i (key, value) = writes.take i ++ (key, value) :: writes.drop (i + 1) :=
    List.set_eq_take_append_cons_drop.trans (if_pos hlength)
  have hnone := lastWrite_eq_none.mpr hlast
  rw [hset]
  nth_rewrite 3 [hsplit]
  rw [lastWrite_append, lastWrite_append, lastWrite_append, lastWrite, lastWrite, lastWrite]
  split
  · rename_i heq
    subst heq
    simp [hnone, lastWrite]
  · rename_i hne
    simp [lastWrite, hne]

/-- An index that knows the last position of every key there is. -/
def Indexes (keys : List κ) (index : κ → Option Nat) : Prop :=
  ∀ k, (∀ i, index k = some i → LastAt keys k i) ∧ (index k = none → k ∉ keys)

omit [DecidableEq κ] in
theorem indexes_nil : Indexes ([] : List κ) fun _ => none := by
  intro k
  simp

theorem Indexes.push {keys : List κ} {index : κ → Option Nat} (h : Indexes keys index) (key : κ) :
    Indexes (keys ++ [key]) (Function.update index key (some keys.length)) := by
  intro k
  by_cases hk : k = key
  · subst hk
    rw [Function.update_self]
    refine ⟨?_, by simp⟩
    rintro i hi
    rw [← Option.some.inj hi]
    simp [LastAt]
  · rw [Function.update_of_ne hk]
    refine ⟨?_, ?_⟩
    · intro i hi
      obtain ⟨hget, hlast⟩ := (h k).1 i hi
      have hlength : i < keys.length := (List.getElem?_eq_some_iff.mp hget).1
      refine ⟨?_, ?_⟩
      · rw [List.getElem?_append_left hlength, hget]
      · rw [List.drop_append_of_le_length hlength, List.mem_append]
        simp [hlast, hk]
    · intro hnone
      rw [List.mem_append]
      simp [(h k).2 hnone, hk]

theorem Indexes.extend {done : List κ} {index : κ → Option Nat} (h : Indexes done index)
    (rest : List κ) :
    Indexes (done ++ rest) ((rest.zipIdx done.length).foldl
      (fun index entry => Function.update index entry.1 (some entry.2)) index) := by
  induction rest generalizing done index with
  | nil => simpa using h
  | cons key rest ih =>
    have hnext := ih (h.push key)
    rw [List.append_assoc, List.singleton_append, List.length_append,
      List.length_singleton] at hnext
    exact hnext

def absorbWrite (state : List (κ × α) × (κ → Option Nat)) (write : κ × α) :
    List (κ × α) × (κ → Option Nat) :=
  match state.2 write.1 with
  | some i => (state.1.set i write, state.2)
  | none => (state.1 ++ [write], Function.update state.2 write.1 (some state.1.length))

omit [DecidableEq κ] in
theorem LastAt.set_keys {i : Nat}
    (h : LastAt (writes.map Prod.fst) k i) (value : α) :
    (writes.set i (k, value)).map Prod.fst = writes.map Prod.fst := by
  obtain ⟨hlength, hget⟩ := List.getElem?_eq_some_iff.mp h.1
  rw [List.map_set]
  nth_rewrite 2 [← List.set_getElem_self hlength]
  rw [hget]

variable {state : List (κ × α) × (κ → Option Nat)}

theorem absorbWrite_spec
    (h : Indexes (state.1.map Prod.fst) state.2) (write : κ × α) :
    Indexes ((absorbWrite state write).1.map Prod.fst) (absorbWrite state write).2 ∧
      ∀ k, lastWrite (absorbWrite state write).1 k = lastWrite (state.1 ++ [write]) k := by
  obtain ⟨key, value⟩ := write
  rw [absorbWrite]
  cases hindex : state.2 key with
  | some i =>
    have hlast := (h key).1 i hindex
    refine ⟨?_, hlast.lastWrite_set value⟩
    simp only
    rw [hlast.set_keys]
    exact h
  | none =>
    refine ⟨?_, fun _ => rfl⟩
    have hpushed := h.push key
    rw [List.length_map] at hpushed
    simpa using hpushed

theorem absorbAll_spec
    (h : Indexes (state.1.map Prod.fst) state.2) (incoming : List (κ × α)) (k : κ) :
    lastWrite (incoming.foldl absorbWrite state).1 k = lastWrite (state.1 ++ incoming) k := by
  induction incoming generalizing state with
  | nil => simp
  | cons write rest ih =>
    obtain ⟨hindexes, hlast⟩ := absorbWrite_spec h write
    rw [List.foldl_cons, ih hindexes, lastWrite_append, hlast, ← lastWrite_append,
      List.append_assoc, List.singleton_append]

theorem absorbAll_mem {incoming : List (κ × α)}
    {write : κ × α} (h : write ∈ (incoming.foldl absorbWrite state).1) :
    write ∈ state.1 ∨ write ∈ incoming := by
  induction incoming generalizing state with
  | nil => exact Or.inl h
  | cons first rest ih =>
    rcases ih h with hstate | hrest
    · rw [absorbWrite] at hstate
      split at hstate
      · rcases List.mem_or_eq_of_mem_set hstate with hold | rfl
        · exact Or.inl hold
        · exact Or.inr List.mem_cons_self
      · rcases List.mem_append.mp hstate with hold | hnew
        · exact Or.inl hold
        · rw [List.mem_singleton.mp hnew]
          exact Or.inr List.mem_cons_self
    · exact Or.inr (List.mem_cons_of_mem first hrest)

theorem absorbAll_length_le (state : List (κ × α) × (κ → Option Nat)) (incoming : List (κ × α)) :
    (incoming.foldl absorbWrite state).1.length ≤
      state.1.length + (incoming.filter fun write => (state.2 write.1).isNone).length := by
  induction incoming generalizing state with
  | nil => simp
  | cons first rest ih =>
    rw [List.foldl_cons]
    refine Nat.le_trans (ih _) ?_
    cases hindex : state.2 first.1 with
    | some i =>
      simp only [absorbWrite, hindex, List.length_set, List.filter_cons, Option.isNone_some]
      exact Nat.le_refl _
    | none =>
      have hfewer : (rest.filter fun write =>
          (Function.update state.2 first.1 (some state.1.length) write.1).isNone).length ≤
          (rest.filter fun write => (state.2 write.1).isNone).length := by
        refine List.Sublist.length_le (List.monotone_filter_right rest ?_)
        intro write hwrite
        by_cases hkey : write.1 = first.1
        · rw [hkey, Function.update_self] at hwrite
          simp at hwrite
        · rwa [Function.update_of_ne hkey] at hwrite
      simp only [absorbWrite, hindex, List.length_append, List.filter_cons,
        Option.isNone_none, if_true, List.length_cons, List.length_nil]
      omega

theorem absorbAll_ne_nil (h : state.1 ≠ [])
    (incoming : List (κ × α)) : (incoming.foldl absorbWrite state).1 ≠ [] := by
  induction incoming generalizing state with
  | nil => exact h
  | cons first rest ih =>
    refine ih ?_
    rw [absorbWrite]
    split
    · simpa using h
    · simp

end Srui.Basic.LastWrites

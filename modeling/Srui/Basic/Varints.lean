import Mathlib

/-!
Base-128 varints of unsigned 64-bit values: seven bits a byte, lowest first,
every byte but the last with its high bit set.
-/

namespace Srui.Basic.Varints

abbrev Bytes := List UInt8

def encodeVarint (n : Nat) : Bytes :=
  if n < 128 then [UInt8.ofNat n] else UInt8.ofNat (n % 128 + 128) :: encodeVarint (n / 128)
termination_by n
decreasing_by omega

def encodedLenVarint (n : Nat) : Nat := (encodeVarint n).length

/-- The value at the start of the bytes and the bytes after it, when `count` bytes
of it have been read. There are at most ten bytes, and the tenth holds one bit. -/
def decodeVarintFrom (count : Nat) : Bytes → Option (Nat × Bytes)
  | [] => none
  | b :: rest =>
    if count ≥ 10 then none
    else if b.toNat < 128 then
      if count = 9 ∧ b.toNat ≥ 2 then none else some (b.toNat, rest)
    else
      match decodeVarintFrom (count + 1) rest with
      | some (high, rest) => some (b.toNat - 128 + 128 * high, rest)
      | none => none

def decodeVarint (bytes : Bytes) : Option (Nat × Bytes) := decodeVarintFrom 0 bytes

variable {bytes : Bytes} {count n : Nat}

theorem decodeVarintFrom_append {rest : Bytes}
    (h : decodeVarintFrom count bytes = some (n, rest)) (more : Bytes) :
    decodeVarintFrom count (bytes ++ more) = some (n, rest ++ more) := by
  induction bytes generalizing count n with
  | nil => simp [decodeVarintFrom] at h
  | cons b tail ih =>
    rw [decodeVarintFrom] at h
    rw [List.cons_append, decodeVarintFrom]
    split at h
    · simp at h
    rename_i hcount
    rw [if_neg hcount]
    split at h
    · rename_i hlast
      rw [if_pos hlast]
      split at h
      · simp at h
      · rename_i hfits
        rw [if_neg hfits]
        obtain ⟨rfl, rfl⟩ := Prod.mk.inj (Option.some.inj h)
        rfl
    · rename_i hmore
      rw [if_neg hmore]
      split at h
      · rename_i high rest' htail
        obtain ⟨rfl, rfl⟩ := Prod.mk.inj (Option.some.inj h)
        rw [ih htail]
      · simp at h

theorem decodeVarintFrom_none_append
    (h : decodeVarintFrom count bytes = none) (hlength : 10 ≤ count + bytes.length)
    (more : Bytes) : decodeVarintFrom count (bytes ++ more) = none := by
  induction bytes generalizing count with
  | nil =>
    cases more with
    | nil => rfl
    | cons b tail =>
      have hcount : count ≥ 10 := hlength
      rw [List.nil_append, decodeVarintFrom, if_pos hcount]
  | cons b tail ih =>
    rw [decodeVarintFrom] at h
    rw [List.cons_append, decodeVarintFrom]
    split at h
    · rename_i hcount
      rw [if_pos hcount]
    rename_i hcount
    rw [if_neg hcount]
    split at h
    · rename_i hlast
      rw [if_pos hlast]
      split at h
      · rename_i hwide
        rw [if_pos hwide]
      · simp at h
    · rename_i hmore
      rw [if_neg hmore]
      split at h
      · simp at h
      · rename_i htail
        rw [List.length_cons] at hlength
        rw [ih htail (by omega)]

theorem decodeVarintFrom_suffix {rest : Bytes}
    (h : decodeVarintFrom count bytes = some (n, rest)) :
    ∃ header, header ≠ [] ∧ bytes = header ++ rest := by
  induction bytes generalizing count n with
  | nil => simp [decodeVarintFrom] at h
  | cons b tail ih =>
    rw [decodeVarintFrom] at h
    split at h
    · simp at h
    split at h
    · split at h
      · simp at h
      · obtain ⟨-, rfl⟩ := Prod.mk.inj (Option.some.inj h)
        exact ⟨[b], by simp, rfl⟩
    · split at h
      · rename_i high rest' htail
        obtain ⟨-, rfl⟩ := Prod.mk.inj (Option.some.inj h)
        obtain ⟨header, -, rfl⟩ := ih htail
        exact ⟨b :: header, by simp, rfl⟩
      · simp at h

theorem toNat_ofNat_of_lt (h : n < 256) : (UInt8.ofNat n).toNat = n := by
  rw [UInt8.toNat_ofNat']
  exact Nat.mod_eq_of_lt h

theorem length_encodeVarint_le (n : Nat) : (encodeVarint n).length ≤ n + 1 := by
  induction n using Nat.strongRecOn with
  | ind n ih =>
    rw [encodeVarint]
    split
    · simp
    · have hhigh := ih (n / 128) (by omega)
      rw [List.length_cons]
      omega

theorem encodedLenVarint_eq (n : Nat) :
    encodedLenVarint n = if n < 128 then 1 else encodedLenVarint (n / 128) + 1 := by
  rw [encodedLenVarint, encodeVarint]
  split <;> rfl

theorem encodedLenVarint_mono {m : Nat} (h : m ≤ n) :
    encodedLenVarint m ≤ encodedLenVarint n := by
  induction n using Nat.strongRecOn generalizing m with
  | ind n ih =>
    rw [encodedLenVarint_eq m, encodedLenVarint_eq n]
    split_ifs with hm hn
    · exact Nat.le_refl 1
    · exact Nat.le_add_left 1 _
    · omega
    · exact Nat.succ_le_succ (ih (n / 128) (by omega) (Nat.div_le_div_right h))

theorem length_encodeVarint_lt_pow {k : Nat} (hk : 0 < k) (h : n < 128 ^ k) :
    (encodeVarint n).length ≤ k := by
  induction k generalizing n with
  | zero => exact absurd hk (Nat.lt_irrefl 0)
  | succ k ih =>
    rw [encodeVarint]
    split
    · exact Nat.succ_le_succ (Nat.zero_le k)
    · rename_i hlarge
      have hmore : 0 < k := by
        rcases Nat.eq_zero_or_pos k with rfl | hpos
        · exact absurd h (by simpa using hlarge)
        · exact hpos
      have hhigh : n / 128 < 128 ^ k := by
        rw [Nat.pow_succ] at h
        exact Nat.div_lt_of_lt_mul (by rw [Nat.mul_comm]; exact h)
      rw [List.length_cons]
      exact Nat.succ_le_succ (ih hmore hhigh)

theorem decodeVarintFrom_encodeVarint (hcount : count < 10)
    (hfits : n < 2 ^ (64 - 7 * count)) (rest : Bytes) :
    decodeVarintFrom count (encodeVarint n ++ rest) = some (n, rest) := by
  induction n using Nat.strongRecOn generalizing count with
  | ind n ih =>
    rw [encodeVarint]
    split
    · rename_i hsmall
      rw [List.singleton_append, decodeVarintFrom, toNat_ofNat_of_lt (by omega),
        if_neg (by omega), if_pos hsmall, if_neg]
      rintro ⟨rfl, hwide⟩
      simp at hfits
      omega
    · rename_i hlarge
      have hnine : count < 9 := by
        by_contra hlast
        obtain rfl : count = 9 := by omega
        simp at hfits
        omega
      have hhigh : n / 128 < 2 ^ (64 - 7 * (count + 1)) := by
        have hpow : 2 ^ (64 - 7 * count) = 2 ^ (64 - 7 * (count + 1)) * 128 := by
          rw [show 64 - 7 * count = 64 - 7 * (count + 1) + 7 by omega, Nat.pow_add]
        rw [Nat.div_lt_iff_lt_mul (by decide), ← hpow]
        exact hfits
      rw [List.cons_append, decodeVarintFrom, toNat_ofNat_of_lt (by omega),
        if_neg (by omega), if_neg (by omega), ih (n / 128) (by omega) (by omega) hhigh]
      simp only [Nat.add_sub_cancel, Nat.mod_add_div]

theorem decodeVarint_encodeVarint (h : n < 2 ^ 64) (rest : Bytes) :
    decodeVarint (encodeVarint n ++ rest) = some (n, rest) :=
  decodeVarintFrom_encodeVarint (by decide) h rest

end Srui.Basic.Varints

import Srui.Basic.ScalarEncodings

/-!
The reading of arbitrary bytes as UTF-8.

A sequence ends at the first byte that cannot continue it, and that byte is read again as a first
one: an ill-formed sequence is a maximal start of a well-formed one, or a byte that starts none.
-/

namespace Srui.Basic.LenientReadings

open Basic.ScalarEncodings
open String (utf8EncodeChar)

abbrev Bytes := List UInt8

/-- A sequence under way: how many bytes follow the next one, the value so far, and the bounds of
the next byte. -/
structure Pending where
  need : Nat
  value : Nat
  low : Nat
  high : Nat

def start (byte : UInt8) : List (Option Char) × Option Pending :=
  let n := byte.toNat
  if n ≤ 0x7F then ([some (Char.ofNat n)], none)
  else if 0xC2 ≤ n ∧ n ≤ 0xDF then ([], some ⟨0, n % 32, 0x80, 0xBF⟩)
  else if 0xE0 ≤ n ∧ n ≤ 0xEF then
    -- neither an overlong form nor a surrogate
    ([], some ⟨1, n % 16, if n = 0xE0 then 0xA0 else 0x80, if n = 0xED then 0x9F else 0xBF⟩)
  else if 0xF0 ≤ n ∧ n ≤ 0xF4 then
    ([], some ⟨2, n % 8, if n = 0xF0 then 0x90 else 0x80, if n = 0xF4 then 0x8F else 0xBF⟩)
  else ([none], none)

def readings : Option Pending → Bytes → List (Option Char)
  | none, [] => []
  | some _, [] => [none]
  | none, byte :: rest => (start byte).1 ++ readings (start byte).2 rest
  | some pending, byte :: rest =>
    if pending.low ≤ byte.toNat ∧ byte.toNat ≤ pending.high then
      let value := pending.value * 64 + byte.toNat % 64
      match pending.need with
      | 0 => some (Char.ofNat value) :: readings none rest
      | need + 1 => readings (some ⟨need, value, 0x80, 0xBF⟩) rest
    else none :: ((start byte).1 ++ readings (start byte).2 rest)

/-- `str::from_utf8`, without its error. -/
def fromUtf8 (bytes : Bytes) : Option (List Char) := (readings none bytes).mapM id

/-- `String::from_utf8_lossy`. -/
def fromUtf8Lossy (bytes : Bytes) : List Char :=
  (readings none bytes).map fun reading => reading.getD '\ufffd'

theorem readings_last {value low high : Nat} {byte : UInt8} {c : Char} (rest : Bytes)
    (hlow : low ≤ byte.toNat) (hhigh : byte.toNat ≤ high)
    (hvalue : value * 64 + byte.toNat % 64 = c.toNat) :
    readings (some ⟨0, value, low, high⟩) (byte :: rest) = some c :: readings none rest := by
  rw [readings, if_pos ⟨hlow, hhigh⟩]
  simp only [hvalue, Char.ofNat_toNat]

theorem readings_middle {need value low high : Nat} {byte : UInt8} (rest : Bytes)
    (hlow : low ≤ byte.toNat) (hhigh : byte.toNat ≤ high) :
    readings (some ⟨need + 1, value, low, high⟩) (byte :: rest) =
      readings (some ⟨need, value * 64 + byte.toNat % 64, 0x80, 0xBF⟩) rest := by
  rw [readings, if_pos ⟨hlow, hhigh⟩]

theorem readings_scalar (c : Char) (rest : Bytes) :
    readings none (utf8EncodeChar c ++ rest) = some c :: readings none rest := by
  have hlt := toNat_lt c
  have hsurrogate : c.toNat < 0xD800 ∨ 0xDFFF < c.toNat := c.valid.imp_right And.left
  have hbyte : ∀ n < 256, (UInt8.ofNat n).toNat = n := fun n hn => by
    rw [UInt8.toNat_ofNat', Nat.mod_eq_of_lt hn]
  rw [utf8EncodeChar_eq]
  split_ifs with hone htwo hthree
  · rw [List.singleton_append, readings, start, hbyte _ (by omega)]
    simp only [if_pos hone, Char.ofNat_toNat, List.singleton_append]
  · rw [List.cons_append, readings, start, hbyte _ (by omega)]
    rw [if_neg (by omega), if_pos (by omega), List.nil_append]
    refine readings_last rest ?_ ?_ ?_ <;> rw [hbyte _ (by omega)] <;> omega
  · rw [List.cons_append, readings, start, hbyte _ (by omega)]
    rw [if_neg (by omega), if_neg (by omega), if_pos (by omega), List.nil_append, List.cons_append,
      readings_middle, hbyte _ (by omega)]
    · refine readings_last rest ?_ ?_ ?_ <;> rw [hbyte _ (by omega)] <;> omega
    · rw [hbyte _ (by omega)]
      split_ifs <;> omega
    · rw [hbyte _ (by omega)]
      split_ifs <;> omega
  · rw [List.cons_append, readings, start, hbyte _ (by omega)]
    rw [if_neg (by omega), if_neg (by omega), if_neg (by omega), if_pos (by omega),
      List.nil_append, List.cons_append, readings_middle, hbyte _ (by omega), List.cons_append,
      readings_middle, hbyte _ (by omega)]
    · refine readings_last rest ?_ ?_ ?_ <;> rw [hbyte _ (by omega)] <;> omega
    · rw [hbyte _ (by omega)]
      omega
    · rw [hbyte _ (by omega)]
      omega
    all_goals
      rw [hbyte _ (by omega)]
      split_ifs <;> omega

theorem readings_encoded (text : List Char) : readings none (encoded text) = text.map some := by
  induction text with
  | nil => rfl
  | cons c rest ih => rw [encoded_cons, readings_scalar, ih, List.map_cons]

theorem fromUtf8_encoded (text : List Char) : fromUtf8 (encoded text) = some text := by
  rw [fromUtf8, readings_encoded]
  induction text with
  | nil => rfl
  | cons c rest ih => rw [List.map_cons, List.mapM_cons, ih]; rfl

theorem fromUtf8Lossy_encoded (text : List Char) : fromUtf8Lossy (encoded text) = text := by
  rw [fromUtf8Lossy, readings_encoded, List.map_map]
  exact List.map_id text

end Srui.Basic.LenientReadings

import Mathlib

/-!
Texts as lists of scalars, and their UTF-8 encodings.

The encoding of one scalar is that of the prelude. A continuation byte stands inside the encoding
of a scalar, every other byte starts one.
-/

namespace Srui.Basic.ScalarEncodings

open String (utf8EncodeChar)

def encoded (text : List Char) : List UInt8 := text.flatMap utf8EncodeChar

def WellFormed (bytes : List UInt8) : Prop := ∃ text, encoded text = bytes

def IsContinuation (byte : UInt8) : Prop := byte &&& 0xC0 = 0x80

instance (byte : UInt8) : Decidable (IsContinuation byte) := inferInstanceAs (Decidable (_ = _))

theorem encoded_cons (c : Char) (text : List Char) :
    encoded (c :: text) = utf8EncodeChar c ++ encoded text := List.flatMap_cons

theorem length_encoded_cons (c : Char) (text : List Char) :
    (encoded (c :: text)).length = c.utf8Size + (encoded text).length := by
  rw [encoded_cons, List.length_append, String.length_utf8EncodeChar]

theorem encoded_append (s t : List Char) : encoded (s ++ t) = encoded s ++ encoded t :=
  List.flatMap_append

theorem toNat_lt (c : Char) : c.toNat < 0x110000 := by
  rcases c.valid with h | h
  · exact h.trans (by decide)
  · exact h.2

theorem isContinuation_iff_bounds (byte : UInt8) :
    IsContinuation byte ↔ 0x80 ≤ byte.toNat ∧ byte.toNat < 0xC0 := by
  have hall : ∀ n : Fin 256, IsContinuation (UInt8.ofNat n) ↔ 0x80 ≤ n.val ∧ n.val < 0xC0 := by
    decide +kernel
  have hbyte := hall ⟨byte.toNat, byte.toNat_lt⟩
  rwa [UInt8.ofNat_toNat] at hbyte

theorem utf8EncodeChar_eq (c : Char) : utf8EncodeChar c =
    if c.toNat ≤ 0x7F then [UInt8.ofNat c.toNat]
    else if c.toNat ≤ 0x7FF then
      [UInt8.ofNat (c.toNat / 64 % 32 + 0xC0), UInt8.ofNat (c.toNat % 64 + 0x80)]
    else if c.toNat ≤ 0xFFFF then
      [UInt8.ofNat (c.toNat / 4096 % 16 + 0xE0), UInt8.ofNat (c.toNat / 64 % 64 + 0x80),
        UInt8.ofNat (c.toNat % 64 + 0x80)]
    else
      [UInt8.ofNat (c.toNat / 262144 % 8 + 0xF0), UInt8.ofNat (c.toNat / 4096 % 64 + 0x80),
        UInt8.ofNat (c.toNat / 64 % 64 + 0x80), UInt8.ofNat (c.toNat % 64 + 0x80)] := rfl

variable {c : Char} {byte : UInt8}

theorem isContinuation_iff {i : Nat}
    (h : (utf8EncodeChar c)[i]? = some byte) : IsContinuation byte ↔ i ≠ 0 := by
  have hlt := toNat_lt c
  rw [isContinuation_iff_bounds]
  rw [utf8EncodeChar_eq] at h
  rcases i with - | - | - | - | i <;> split_ifs at h <;> simp at h <;> subst h <;> simp <;> omega

theorem utf8EncodeChar_ascii (h : c.toNat < 0x80) :
    utf8EncodeChar c = [UInt8.ofNat c.toNat] := by
  rw [utf8EncodeChar_eq, if_pos (Nat.le_of_lt_succ h)]

variable {rest : List UInt8}

theorem utf8EncodeChar_append_inj {d : Char} {rest' : List UInt8}
    (h : utf8EncodeChar c ++ rest = utf8EncodeChar d ++ rest') : c = d ∧ rest = rest' := by
  have hdecoded := congrArg (fun bytes => bytes.toByteArray.utf8DecodeChar? 0) h
  simp only [List.toByteArray_append, ByteArray.utf8DecodeChar?_utf8EncodeChar_append,
    Option.some.injEq] at hdecoded
  subst hdecoded
  exact ⟨rfl, List.append_cancel_left h⟩

theorem encoded_eq_append {s t : List Char}
    (h : encoded t = encoded s ++ rest) : ∃ u, t = s ++ u ∧ encoded u = rest := by
  induction s generalizing t with
  | nil => exact ⟨t, rfl, h⟩
  | cons c s ih =>
    rw [encoded_cons, List.append_assoc] at h
    cases t with
    | nil => exact absurd (List.append_eq_nil_iff.mp h.symm).1 String.utf8EncodeChar_ne_nil
    | cons d t =>
      rw [encoded_cons] at h
      obtain ⟨rfl, hrest⟩ := utf8EncodeChar_append_inj h
      obtain ⟨u, rfl, hu⟩ := ih hrest
      exact ⟨u, rfl, hu⟩

theorem encoded_eq_split {text : List Char} {before : List UInt8}
    (h : encoded text = before ++ byte :: rest) (hbyte : ¬IsContinuation byte) :
    ∃ s t, text = s ++ t ∧ encoded s = before ∧ encoded t = byte :: rest := by
  induction text generalizing before with
  | nil => simp [encoded] at h
  | cons c text ih =>
    rcases before with - | ⟨first, before⟩
    · exact ⟨[], c :: text, rfl, rfl, h⟩
    rw [encoded_cons] at h
    rcases Nat.lt_or_ge (first :: before).length (utf8EncodeChar c).length with hlt | hle
    · have hget := congrArg (·[(first :: before).length]?) h
      simp only [List.getElem?_append_left hlt, List.getElem?_append_right (Nat.le_refl _),
        Nat.sub_self, List.getElem?_cons_zero] at hget
      exact absurd ((isContinuation_iff hget).mpr (Nat.succ_ne_zero _)) hbyte
    · obtain ⟨before', hbefore⟩ := List.prefix_of_prefix_length_le
        (List.prefix_append (utf8EncodeChar c) (encoded text)) (h ▸ List.prefix_append _ _) hle
      rw [← hbefore, List.append_assoc] at h
      obtain ⟨s, t, rfl, hs, ht⟩ := ih (List.append_cancel_left h)
      exact ⟨c :: s, t, rfl, by rw [encoded_cons, hs, hbefore], ht⟩

theorem encoded_infix_iff {rest text : List Char} :
    encoded (c :: rest) <:+: encoded text ↔ c :: rest <:+: text := by
  constructor
  · rintro ⟨before, after, h⟩
    obtain ⟨byte, bytes, hbytes⟩ := List.exists_cons_of_ne_nil
      (String.utf8EncodeChar_ne_nil (c := c))
    have hfirst : ¬IsContinuation byte := fun hcontinues =>
      (isContinuation_iff (c := c) (i := 0) (by rw [hbytes]; rfl)).mp hcontinues rfl
    rw [List.append_assoc, encoded_cons, hbytes, List.append_assoc, List.cons_append] at h
    obtain ⟨s, t, rfl, -, ht⟩ := encoded_eq_split h.symm hfirst
    have hstarts : encoded t = encoded (c :: rest) ++ after := by
      rw [ht, encoded_cons, hbytes, List.append_assoc, List.cons_append]
    obtain ⟨u, rfl, -⟩ := encoded_eq_append hstarts
    exact ⟨s, u, List.append_assoc ..⟩
  · rintro ⟨before, after, rfl⟩
    rw [encoded_append, encoded_append]
    exact List.infix_append _ _ _

theorem not_wellFormed_cut {s : List Char} {k : Nat} (hk : 0 < k)
    (hsize : k < c.utf8Size) : ¬WellFormed (encoded s ++ (utf8EncodeChar c).take k) := by
  rintro ⟨t, ht⟩
  obtain ⟨u, -, hu⟩ := encoded_eq_append ht
  have hlength : ((utf8EncodeChar c).take k).length = k := by
    rw [List.length_take, String.length_utf8EncodeChar]
    exact Nat.min_eq_left hsize.le
  cases u with
  | nil =>
    rw [← hu] at hlength
    exact absurd hlength hk.ne
  | cons d u =>
    rw [encoded_cons] at hu
    have hsplit : utf8EncodeChar c ++ [] =
        utf8EncodeChar d ++ (encoded u ++ (utf8EncodeChar c).drop k) := by
      rw [← List.append_assoc, hu, List.take_append_drop, List.append_nil]
    obtain ⟨rfl, -⟩ := utf8EncodeChar_append_inj hsplit
    rw [← hu, List.length_append, String.length_utf8EncodeChar] at hlength
    omega

end Srui.Basic.ScalarEncodings

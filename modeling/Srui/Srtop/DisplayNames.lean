import Srui.Basic.LenientReadings
import Srui.Sessiond.Capabilities
import Srui.Srtop.Sources

/-!
The names of processes, as the table shows them.

A name is bytes that its process chose. It is sanitized once: what controls or hides text is
replaced, every space is a plain one, and the name is bounded and never empty.
-/

namespace Srui.Srtop.DisplayNames

open Basic.LenientReadings Basic.ScalarEncodings Basic.Texts Sources
open Sessiond.Capabilities (whiteSpace)

/-! ### Kinds of characters -/

abbrev Ranges := List (Nat × Nat)

def Ranges.holds (ranges : Ranges) (c : Char) : Bool :=
  ranges.any fun range => range.1 ≤ c.toNat && c.toNat ≤ range.2

variable {c : Char}

theorem Ranges.holds_gap {ranges : Ranges} {low high : Nat}
    (hgap : ∀ range ∈ ranges, range.2 < low ∨ high < range.1) (hlow : low ≤ c.toNat)
    (hhigh : c.toNat ≤ high) : ranges.holds c = false := by
  rw [Ranges.holds, List.any_eq_false]
  intro range hrange
  rw [Bool.and_eq_true, decide_eq_true_eq, decide_eq_true_eq]
  have hside := hgap range hrange
  omega

theorem Ranges.outside {ranges : Ranges} (h : ranges.holds c = false) {low high : Nat}
    (hmem : (low, high) ∈ ranges) : ¬(low ≤ c.toNat ∧ c.toNat ≤ high) := by
  have hrange := List.any_eq_false.mp h _ hmem
  rwa [Bool.and_eq_true, decide_eq_true_eq, decide_eq_true_eq] at hrange

/-- `char::is_control`. -/
def controlRanges : Ranges := [(0x00, 0x1F), (0x7F, 0x9F)]

def unsafeRanges : Ranges :=
  [(0x00AD, 0x00AD), (0x0600, 0x0605), (0x061C, 0x061C), (0x06DD, 0x06DD), (0x070F, 0x070F),
    (0x0890, 0x0891), (0x08E2, 0x08E2), (0x200B, 0x200F), (0x202A, 0x202E), (0x2060, 0x206F),
    (0xFEFF, 0xFEFF), (0xFFF0, 0xFFFB), (0x110BD, 0x110BD), (0x110CD, 0x110CD),
    (0x13430, 0x1345F), (0x1BCA0, 0x1BCA3), (0x1D173, 0x1D17A), (0x1D159, 0x1D159),
    (0xE0000, 0xE0FFF), (0x2028, 0x2029), (0x034F, 0x034F), (0x115F, 0x1160), (0x17B4, 0x17B5),
    (0x180B, 0x180F), (0x2800, 0x2800), (0x3164, 0x3164), (0xFE00, 0xFE0F), (0xFFA0, 0xFFA0),
    (0xFFFC, 0xFFFC), (0x1107F, 0x1107F), (0x16FE4, 0x16FE4)]

def spaceRanges : Ranges :=
  [(0x00A0, 0x00A0), (0x1680, 0x1680), (0x2000, 0x200A), (0x202F, 0x202F), (0x205F, 0x205F),
    (0x3000, 0x3000)]

def isControl (c : Char) : Bool := controlRanges.holds c

/-- `DisplayName::is_unsafe`. -/
def isUnsafe (c : Char) : Bool := isControl c || unsafeRanges.holds c

/-- `DisplayName::is_space_separator`. -/
def isSpaceSeparator (c : Char) : Bool := spaceRanges.holds c

def Legible (c : Char) : Prop := isSpaceSeparator c = false ∧ isUnsafe c = false

instance (c : Char) : Decidable (Legible c) := inferInstanceAs (Decidable (_ ∧ _))

theorem Legible.whiteSpace_iff (h : Legible c) : whiteSpace c = true ↔ c = ' ' := by
  obtain ⟨hspace, hunsafe⟩ := h
  rw [isUnsafe, Bool.or_eq_false_iff] at hunsafe
  constructor
  · intro hwhite
    have hcontrol := Ranges.outside hunsafe.1 (by decide : (0x00, 0x1F) ∈ controlRanges)
    have hnextLine := Ranges.outside hunsafe.1 (by decide : (0x7F, 0x9F) ∈ controlRanges)
    have hlines := Ranges.outside hunsafe.2 (by decide : (0x2028, 0x2029) ∈ unsafeRanges)
    simp only [isSpaceSeparator, Ranges.holds, spaceRanges, List.any_cons, List.any_nil,
      Bool.or_eq_false_iff, Bool.and_eq_false_iff, decide_eq_false_iff_not] at hspace
    simp only [whiteSpace, decide_eq_true_eq] at hwhite
    clear hunsafe
    refine Char.toNat_inj.mp ?_
    show c.toNat = 32
    omega
  · rintro rfl
    rfl

theorem legible_printable (hlow : 0x20 ≤ c.toNat) (hhigh : c.toNat ≤ 0x7E) :
    Legible c := by
  have hcontrol : isControl c = false := Ranges.holds_gap (by decide) hlow hhigh
  have hunsafe : unsafeRanges.holds c = false := Ranges.holds_gap (by decide) hlow hhigh
  refine ⟨Ranges.holds_gap (by decide) hlow hhigh, ?_⟩
  rw [isUnsafe, hcontrol, hunsafe, Bool.or_false]

/-! ### Sanitized names -/

def maxDisplayNameChars : Nat := 128

def unnamedProcess : String := "(unnamed)"

theorem toList_unnamedProcess :
    unnamedProcess.toList = ['(', 'u', 'n', 'n', 'a', 'm', 'e', 'd', ')'] := rfl

def replacement : Char := '\ufffd'

def legible (c : Char) : Char :=
  if isSpaceSeparator c then ' ' else if isUnsafe c then replacement else c

def bounded (decoded : List Char) : List Char :=
  (decoded.take maxDisplayNameChars).map legible ++
    if maxDisplayNameChars < decoded.length then ['…'] else []

/-- `DisplayName::sanitize`. -/
def sanitize (raw : Bytes) : DisplayName :=
  let trimmed := trim whiteSpace (bounded (fromUtf8Lossy raw))
  { name := if trimmed = [] then unnamedProcess else String.ofList trimmed
    command := none }

theorem legible_legible (c : Char) : Legible (legible c) := by
  unfold legible
  split_ifs with hspace hunsafe
  · decide
  · decide
  · exact ⟨Bool.eq_false_iff.mpr hspace, Bool.eq_false_iff.mpr hunsafe⟩

theorem bounded_legible {decoded : List Char} (h : c ∈ bounded decoded) :
    Legible c := by
  rcases List.mem_append.mp h with h | h
  · obtain ⟨d, -, rfl⟩ := List.mem_map.mp h
    exact legible_legible d
  · split_ifs at h
    · obtain rfl := List.mem_singleton.mp h
      decide
    · exact absurd h List.not_mem_nil

theorem length_bounded (decoded : List Char) :
    (bounded decoded).length ≤ maxDisplayNameChars + 1 := by
  rw [bounded, List.length_append, List.length_map, List.length_take]
  split_ifs
  · exact Nat.add_le_add_right (Nat.min_le_left _ _) 1
  · exact Nat.le_succ_of_le (Nat.min_le_left _ _)

theorem sanitize_legible (raw : Bytes) (h : c ∈ (sanitize raw).name.toList) :
    Legible c := by
  rw [sanitize] at h
  dsimp only at h
  split_ifs at h
  · have hprintable : ∀ c ∈ ['(', 'u', 'n', 'n', 'a', 'm', 'e', 'd', ')'],
        0x20 ≤ c.toNat ∧ c.toNat ≤ 0x7E := by simp
    rw [toList_unnamedProcess] at h
    exact legible_printable (hprintable c h).1 (hprintable c h).2
  · rw [String.toList_ofList] at h
    exact bounded_legible ((trim_isInfix _).subset h)

theorem legible_eq (h : Legible c) : legible c = c := by
  rw [legible, if_neg (Bool.eq_false_iff.mp h.1), if_neg (Bool.eq_false_iff.mp h.2)]

theorem sanitize_encoded {text : List Char} (hne : text ≠ []) (hlegible : ∀ c ∈ text, Legible c)
    (hlen : text.length ≤ maxDisplayNameChars) (htrim : trim whiteSpace text = text) :
    (sanitize (encoded text)).name.toList = text := by
  have hmap : (text.take maxDisplayNameChars).map legible = text := by
    rw [List.take_of_length_le hlen]
    exact (List.map_congr_left fun c hc => legible_eq (hlegible c hc)).trans (List.map_id text)
  have hbounded : bounded text = text := by
    rw [bounded, hmap, if_neg (Nat.not_lt.mpr hlen), List.append_nil]
  simp only [sanitize, fromUtf8Lossy_encoded, hbounded, htrim, if_neg hne, String.toList_ofList]

theorem length_sanitize (raw : Bytes) :
    (sanitize raw).name.toList.length ≤ maxDisplayNameChars + 1 := by
  rw [sanitize]
  dsimp only
  split_ifs
  · decide
  · rw [String.toList_ofList]
    exact (trim_isInfix _).length_le.trans (length_bounded _)

end Srui.Srtop.DisplayNames

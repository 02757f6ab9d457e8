import Srui.Basic.Erasures
import Srui.Basic.ScalarEncodings

/-!
The encoding of pasted text for a terminal, between the markers of a bracketed paste.

A text is a list of scalars. What replaces the end marker in it is one pass from the left over
the occurrences, none of which overlap.
-/

namespace Srui.Client.BracketedPastes

open Basic.Erasures Basic.ScalarEncodings

abbrev Bytes := List UInt8

def endMarker : List Char := ['\x1b', '[', '2', '0', '1', '~']

def beginBytes : Bytes := [0x1B, 0x5B, 0x32, 0x30, 0x30, 0x7E]

def endBytes : Bytes := [0x1B, 0x5B, 0x32, 0x30, 0x31, 0x7E]

def encodePaste (text : List Char) (bracketed : Bool) : Bytes :=
  if text = [] then []
  else if ¬bracketed then encoded text
  else beginBytes ++ encoded (erase endMarker text) ++ endBytes

/-- The end marker stands at the end, and nowhere else. -/
def EndsOnce (bytes : Bytes) : Prop :=
  ∀ i, endBytes <+: bytes.drop i ↔ i + endBytes.length = bytes.length

/-- The end marker broken up by further ones. -/
def Nested (text : List Char) : Prop := Nests '\x1b' ['[', '2', '0', '1', '~'] text

theorem prefix_of_prefix_end {start : Bytes} (hstart : start ≠ [])
    (h : endBytes <+: start ++ endBytes) : endBytes <+: start := by
  have hfirst : (0x1B : UInt8) ∉ [0x5B, 0x32, 0x30, 0x31, 0x7E] := by decide
  exact prefix_of_prefix_append hfirst hstart h

theorem not_end_prefix_begin {i : Nat} (hi : i < beginBytes.length) (rest : Bytes) :
    ¬endBytes <+: (beginBytes ++ rest).drop i := by
  unfold beginBytes at hi
  unfold beginBytes endBytes
  rcases i with - | - | - | - | - | - | i
  · simp [List.cons_prefix_cons]
  · simp [List.cons_prefix_cons]
  · simp [List.cons_prefix_cons]
  · simp [List.cons_prefix_cons]
  · simp [List.cons_prefix_cons]
  · simp [List.cons_prefix_cons]
  · simp only [List.length_cons, List.length_nil] at hi
    omega

theorem endsOnce_iff (body : Bytes) :
    EndsOnce (beginBytes ++ body ++ endBytes) ↔ ¬endBytes <:+: body := by
  constructor
  · rintro h ⟨before, after, rfl⟩
    have hfound := (h (beginBytes.length + before.length)).mp (by
      rw [List.append_assoc, ← List.drop_drop, List.drop_left, List.append_assoc,
        List.append_assoc, List.drop_left]
      exact List.prefix_append _ _)
    simp only [List.length_append] at hfound
    have hpos : 0 < endBytes.length := by decide
    omega
  · intro h i
    constructor
    · intro hfound
      rcases Nat.lt_or_ge i beginBytes.length with hlt | hle
      · rw [List.append_assoc] at hfound
        exact absurd hfound (not_end_prefix_begin hlt _)
      obtain ⟨j, rfl⟩ := Nat.exists_eq_add_of_le hle
      rw [List.append_assoc, ← List.drop_drop, List.drop_left] at hfound
      rcases Nat.lt_or_ge j body.length with hlt | hle
      · rw [List.drop_append_of_le_length hlt.le] at hfound
        have hne : body.drop j ≠ [] := fun hnil => absurd (List.drop_eq_nil_iff.mp hnil)
          (Nat.not_le.mpr hlt)
        exact absurd ((prefix_of_prefix_end hne hfound).isInfix.trans
          (List.drop_suffix j body).isInfix) h
      · have hlength := hfound.length_le
        rw [List.length_drop] at hlength
        simp only [List.length_append] at hlength ⊢
        have hpos : 0 < endBytes.length := by decide
        omega
    · intro hi
      rw [show i = (beginBytes ++ body).length by
        rw [List.length_append] at hi
        exact Nat.add_right_cancel hi, List.drop_left]

/-- A bracketed paste starts with the begin marker and ends with the end marker. No other end
marker is in it exactly when the text has none that is broken up by further ones. -/
theorem bracketed_paste_closed_iff (text : List Char) (h : encodePaste text true ≠ []) :
    beginBytes <+: encodePaste text true ∧ endBytes <:+ encodePaste text true ∧
      (EndsOnce (encodePaste text true) ↔ ¬Nested text) := by
  have htext : text ≠ [] := by
    rintro rfl
    exact h rfl
  rw [encodePaste, if_neg htext, if_neg (not_not.mpr rfl)]
  refine ⟨?_, List.suffix_append _ _, ?_⟩
  · rw [List.append_assoc]
    exact List.prefix_append _ _
  · have hbytes : endBytes = encoded endMarker := by decide
    rw [endsOnce_iff, hbytes, endMarker, encoded_infix_iff, infix_erase_iff (by decide)]
    rfl

theorem one_marker_removed : encodePaste ('a' :: endMarker) true ≠ [] ∧
    (EndsOnce (encodePaste ('a' :: endMarker) true) ↔ ¬Nested ('a' :: endMarker)) :=
  ⟨by decide, (bracketed_paste_closed_iff ('a' :: endMarker) (by decide)).2.2⟩

def nestedMarker : List Char := ['\x1b', '[', '2', '0'] ++ endMarker ++ ['1', '~']

theorem nested_marker_escapes :
    ¬∀ text, encodePaste text true ≠ [] → EndsOnce (encodePaste text true) := by
  intro h
  have hends := (h nestedMarker (by decide) 6).mp (by decide)
  exact absurd hends (by decide)

end Srui.Client.BracketedPastes

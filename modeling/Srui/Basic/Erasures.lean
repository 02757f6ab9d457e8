import Mathlib

/-!
Leaving out every occurrence of a word in one pass from the left, for a word whose first letter
occurs in it once: no two occurrences overlap, and what is left contains the word only where the
text had it broken up by further occurrences.
-/

namespace Srui.Basic.Erasures

variable {α : Type}

/-- A word with whole words put before its letters, as many as the gaps say. -/
def weave (word : List α) : List α → List Nat → List α
  | x :: rest, gap :: gaps => (List.replicate gap word).flatten ++ x :: weave word rest gaps
  | rest, _ => rest

/-- The text contains the word broken up by further occurrences. -/
def Nests (x : α) (tail text : List α) : Prop :=
  ∃ gaps : List Nat, gaps.length = tail.length ∧ (∃ gap ∈ gaps, 0 < gap) ∧
    x :: weave (x :: tail) tail gaps <:+: text

variable {word text : List α} {x y : α} {tail : List α}

theorem weave_eq_self {gaps : List Nat} (h : ∀ gap ∈ gaps, gap = 0) (start : List α) :
    weave word start gaps = start := by
  induction start generalizing gaps with
  | nil => rfl
  | cons y start ih =>
    cases gaps with
    | nil => rfl
    | cons gap gaps =>
      rw [List.forall_mem_cons] at h
      rw [weave, h.1, ih h.2]
      rfl

variable {start : List α}

theorem prefix_of_prefix_append (hfirst : x ∉ tail) {rest : List α} (hstart : start ≠ [])
    (h : x :: tail <+: start ++ x :: rest) : x :: tail <+: start := by
  rcases Nat.lt_or_ge start.length (x :: tail).length with hlt | hle
  · have hprefix : start <+: x :: tail :=
      List.prefix_of_prefix_length_le (List.prefix_append _ _) h hlt.le
    obtain ⟨left, hleft⟩ := hprefix
    rw [← hleft, List.prefix_append_right_inj] at h
    obtain ⟨y, start, rfl⟩ := List.exists_cons_of_ne_nil hstart
    obtain ⟨rfl, htail⟩ := List.cons.inj hleft
    cases left with
    | nil => exact absurd hlt (by rw [← hleft, List.append_nil]; exact Nat.lt_irrefl _)
    | cons z left =>
      obtain ⟨rfl, -⟩ := List.cons_prefix_cons.mp h
      exact absurd (htail ▸ List.mem_append_right start List.mem_cons_self) hfirst
  · exact List.prefix_of_prefix_length_le h (List.prefix_append _ _) hle

theorem gaps_eq_zero (hfirst : x ∉ start) {gaps : List Nat}
    (hlength : gaps.length = start.length) {rest : List α}
    (h : start <+: weave (x :: tail) start gaps ++ rest) : ∀ gap ∈ gaps, gap = 0 := by
  induction start generalizing gaps with
  | nil =>
    rw [List.eq_nil_of_length_eq_zero hlength]
    exact fun _ hmem => absurd hmem List.not_mem_nil
  | cons y start ih =>
    cases gaps with
    | nil => exact fun _ hmem => absurd hmem List.not_mem_nil
    | cons gap gaps =>
      obtain ⟨hne, hfirst⟩ := not_or.mp (mt List.mem_cons.mpr hfirst)
      rw [weave, List.append_assoc] at h
      cases gap with
      | zero =>
        have hrest := ih hfirst (Nat.succ.inj hlength) (List.cons_prefix_cons.mp h).2
        exact List.forall_mem_cons.mpr ⟨rfl, hrest⟩
      | succ gap =>
        rw [List.replicate_succ, List.flatten_cons] at h
        exact absurd (List.cons_prefix_cons.mp h).1.symm hne

/-! ### The pass -/

variable [DecidableEq α]

/-- One pass from the left; `skip` letters still belong to an occurrence. -/
def eraseFrom (word : List α) : Nat → List α → List α
  | _, [] => []
  | skip + 1, _ :: rest => eraseFrom word skip rest
  | 0, x :: rest =>
    if word <+: x :: rest then eraseFrom word (word.length - 1) rest
    else x :: eraseFrom word 0 rest

def erase (word text : List α) : List α := eraseFrom word 0 text

theorem eraseFrom_append (start rest : List α) :
    eraseFrom word start.length (start ++ rest) = eraseFrom word 0 rest := by
  induction start with
  | nil => rfl
  | cons y start ih => exact ih

theorem erase_word_append (hword : word ≠ []) (rest : List α) :
    erase word (word ++ rest) = erase word rest := by
  obtain ⟨y, start, rfl⟩ := List.exists_cons_of_ne_nil hword
  have hstarts : y :: start <+: y :: (start ++ rest) := List.prefix_append (y :: start) rest
  rw [erase, List.cons_append, eraseFrom, if_pos hstarts]
  exact eraseFrom_append start rest

theorem erase_words_append (hword : word ≠ []) (gap : Nat) (rest : List α) :
    erase word ((List.replicate gap word).flatten ++ rest) = erase word rest := by
  induction gap with
  | zero => rfl
  | succ gap ih =>
    rw [List.replicate_succ, List.flatten_cons, List.append_assoc, erase_word_append hword, ih]

theorem erase_cons (h : ¬word <+: y :: text) : erase word (y :: text) = y :: erase word text := by
  rw [erase, eraseFrom, if_neg h]
  rfl

/-! ### What is left comes from letters with words before them -/

theorem erase_eq_cons (hword : word ≠ []) {left : List α} (h : erase word text = y :: left) :
    ∃ gap rest, text = (List.replicate gap word).flatten ++ y :: rest ∧
      erase word rest = left ∧ ¬word <+: y :: rest := by
  induction hlength : text.length using Nat.strong_induction_on generalizing text with
  | _ n ih =>
    cases text with
    | nil => cases h
    | cons z rest =>
      by_cases hstarts : word <+: z :: rest
      · obtain ⟨rest', hrest⟩ := hstarts
        rw [← hrest, erase_word_append hword] at h
        have hshort : rest'.length < n := by
          rw [← hlength, ← hrest, List.length_append]
          exact Nat.lt_add_of_pos_left (List.length_pos_iff.mpr hword)
        obtain ⟨gap, final, rfl, hleft⟩ := ih _ hshort h rfl
        refine ⟨gap + 1, final, ?_, hleft⟩
        rw [← hrest, List.replicate_succ, List.flatten_cons, List.append_assoc]
      · rw [erase_cons hstarts] at h
        obtain ⟨rfl, hleft⟩ := List.cons.inj h
        exact ⟨0, rest, rfl, hleft, hstarts⟩

theorem erase_eq_append (hword : word ≠ []) {left : List α}
    (h : erase word text = start ++ left) :
    ∃ gaps rest, gaps.length = start.length ∧ text = weave word start gaps ++ rest ∧
      erase word rest = left := by
  induction start generalizing text with
  | nil => exact ⟨[], text, rfl, rfl, h⟩
  | cons y start ih =>
    obtain ⟨gap, rest, rfl, hrest, -⟩ := erase_eq_cons hword h
    obtain ⟨gaps, final, hlength, rfl, hfinal⟩ := ih hrest
    refine ⟨gap :: gaps, final, congrArg Nat.succ hlength, ?_, hfinal⟩
    rw [weave, List.append_assoc]
    rfl

/-! ### A first letter that occurs once -/

theorem erase_append (hfirst : x ∉ tail) (start rest : List α) :
    erase (x :: tail) (start ++ x :: rest) =
      erase (x :: tail) start ++ erase (x :: tail) (x :: rest) := by
  induction hlength : start.length using Nat.strong_induction_on generalizing start with
  | _ n ih =>
    cases start with
    | nil => rfl
    | cons y start =>
      by_cases hstarts : x :: tail <+: y :: start
      · obtain ⟨start', hstart'⟩ := hstarts
        have hshort : start'.length < n := by
          rw [← hlength, ← hstart', List.length_append]
          exact Nat.lt_add_of_pos_left (Nat.succ_pos _)
        rw [← hstart', List.append_assoc, erase_word_append (List.cons_ne_nil _ _),
          erase_word_append (List.cons_ne_nil _ _)]
        exact ih _ hshort start' rfl
      · have hlater : ¬x :: tail <+: (y :: start) ++ x :: rest :=
          mt (prefix_of_prefix_append hfirst (List.cons_ne_nil y start)) hstarts
        rw [List.cons_append] at hlater ⊢
        rw [erase_cons hlater, erase_cons hstarts, ih start.length (by
          rw [← hlength]
          exact Nat.lt_succ_self _) start rfl]
        rfl

theorem erase_weave (hfirst : x ∉ start) (gaps : List Nat) (rest : List α) :
    erase (x :: tail) (weave (x :: tail) start gaps ++ rest) =
      start ++ erase (x :: tail) rest := by
  have hletter {y : α} {left : List α} (hne : x ≠ y) :
      erase (x :: tail) (y :: left) = y :: erase (x :: tail) left :=
    erase_cons fun hstarts => hne (List.cons_prefix_cons.mp hstarts).1
  induction start generalizing gaps with
  | nil => rfl
  | cons y start ih =>
    obtain ⟨hne, hfirst⟩ := not_or.mp (mt List.mem_cons.mpr hfirst)
    cases gaps with
    | nil =>
      have hself : weave (x :: tail) start [] = start := by cases start <;> rfl
      have hrest := ih hfirst []
      rw [hself] at hrest
      rw [weave, List.cons_append, hletter hne, hrest]
      · rfl
      · exact fun _ _ _ _ _ hgaps => List.cons_ne_nil _ _ hgaps.symm
    | cons gap gaps =>
      rw [weave, List.append_assoc, erase_words_append (List.cons_ne_nil _ _),
        List.cons_append, hletter hne, ih hfirst gaps]
      rfl

theorem infix_erase_iff (hfirst : x ∉ tail) :
    x :: tail <:+: erase (x :: tail) text ↔ Nests x tail text := by
  have hword : x :: tail ≠ [] := List.cons_ne_nil x tail
  constructor
  · rintro ⟨before, after, h⟩
    rw [List.append_assoc] at h
    obtain ⟨gaps, rest, -, rfl, hrest⟩ := erase_eq_append hword h.symm
    obtain ⟨gap, rest', rfl, hrest', hbroken⟩ := erase_eq_cons hword hrest
    obtain ⟨gaps', final, hlength, rfl, -⟩ := erase_eq_append hword hrest'
    refine ⟨gaps', hlength, ?_, ?_⟩
    · by_contra hzero
      push Not at hzero
      rw [weave_eq_self fun gap hmem => Nat.eq_zero_of_le_zero (hzero gap hmem)] at hbroken
      exact hbroken (List.prefix_append _ final)
    · refine ⟨weave (x :: tail) before gaps ++ (List.replicate gap (x :: tail)).flatten, final, ?_⟩
      simp only [List.append_assoc, List.cons_append]
  · rintro ⟨gaps, hlength, ⟨gap, hmem, hpos⟩, before, after, rfl⟩
    have hbroken : ¬x :: tail <+: x :: (weave (x :: tail) tail gaps ++ after) := by
      intro h
      exact hpos.ne' (gaps_eq_zero hfirst hlength (List.cons_prefix_cons.mp h).2 gap hmem)
    rw [List.append_assoc, List.cons_append, erase_append hfirst, erase_cons hbroken,
      erase_weave hfirst]
    exact ⟨erase (x :: tail) before, erase (x :: tail) after, by
      rw [List.append_assoc, List.cons_append]⟩

end Srui.Basic.Erasures

import Mathlib

/-!
Texts as lists of characters: trimming, the cut at the last delimiter, words, and decimal numbers.
-/

namespace Srui.Basic.Texts

section Trimming

variable {α : Type} {space : α → Bool}

def trimEnd (space : α → Bool) (text : List α) : List α :=
  (text.reverse.dropWhile space).reverse

def trim (space : α → Bool) (text : List α) : List α := trimEnd space (text.dropWhile space)

theorem dropWhile_append_solid (text : List α) {delimiter : α} (h : space delimiter = false)
    (rest : List α) :
    (text ++ delimiter :: rest).dropWhile space = text.dropWhile space ++ delimiter :: rest := by
  induction text with
  | nil => rw [List.nil_append, List.dropWhile_cons_of_neg (by rw [h]; exact nofun)]; rfl
  | cons c more ih =>
    rw [List.cons_append, List.dropWhile_cons, List.dropWhile_cons]
    split
    · exact ih
    · rfl

theorem dropWhile_idem (text : List α) :
    (text.dropWhile space).dropWhile space = text.dropWhile space := by
  induction text with
  | nil => rfl
  | cons c more ih =>
    rw [List.dropWhile_cons]
    split
    · exact ih
    · rename_i hsolid
      rw [List.dropWhile_cons_of_neg hsolid]

theorem trimEnd_solid (text : List α) {last : α} (h : space last = false) :
    trimEnd space (text ++ [last]) = text ++ [last] := by
  rw [trimEnd, List.reverse_append, List.reverse_singleton, List.singleton_append,
    List.dropWhile_cons_of_neg (by rw [h]; exact nofun), List.reverse_cons, List.reverse_reverse]

theorem trim_solid {text : List α} (h : ∀ c ∈ text, space c = false) : trim space text = text := by
  have hstart : text.dropWhile space = text := by
    cases text with
    | nil => rfl
    | cons c more => exact List.dropWhile_cons_of_neg (by rw [h c List.mem_cons_self]; exact nofun)
  rw [trim, hstart]
  rcases List.eq_nil_or_concat' text with rfl | ⟨front, last, rfl⟩
  · rfl
  · exact trimEnd_solid front (h last (List.mem_append_right _ (List.mem_singleton_self _)))

theorem trim_delimited (text : List α) {delimiter : α} {rest : List α} (hrest : rest ≠ [])
    (hdelimiter : space delimiter = false) (hsolid : ∀ c ∈ rest, space c = false) :
    trim space (text ++ delimiter :: rest) = text.dropWhile space ++ delimiter :: rest := by
  rw [trim, dropWhile_append_solid text hdelimiter]
  obtain ⟨front, last, rfl⟩ := (List.eq_nil_or_concat' rest).resolve_left hrest
  have hlast := hsolid last (List.mem_append_right _ (List.mem_singleton_self _))
  have hsplit : text.dropWhile space ++ delimiter :: (front ++ [last]) =
      (text.dropWhile space ++ delimiter :: front) ++ [last] := by
    rw [List.append_assoc, List.cons_append]
  rw [hsplit, trimEnd_solid _ hlast]

theorem trimEnd_isPrefix (text : List α) : trimEnd space text <+: text := by
  rw [← List.reverse_suffix, trimEnd, List.reverse_reverse]
  exact List.dropWhile_suffix space

theorem trim_isInfix (text : List α) : trim space text <:+: text :=
  (trimEnd_isPrefix _).isInfix.trans (List.dropWhile_suffix space).isInfix

theorem trim_ne_nil {text : List α} {c : α} (hmem : c ∈ text) (hc : space c = false) :
    trim space text ≠ [] := by
  obtain ⟨before, rest, rfl⟩ := List.append_of_mem hmem
  rw [trim, dropWhile_append_solid before hc, trimEnd, ne_eq, List.reverse_eq_nil_iff,
    List.reverse_append, List.reverse_cons, List.append_assoc, List.singleton_append,
    dropWhile_append_solid _ hc]
  exact List.append_ne_nil_of_right_ne_nil _ (List.cons_ne_nil _ _)

theorem trim_append {text tail : List α} (htext : ∀ c ∈ text, space c = false)
    (htail : ∀ c ∈ tail, space c = true) : trim space (text ++ tail) = text := by
  rcases text with - | ⟨first, more⟩
  · rw [List.nil_append, trim, List.dropWhile_eq_nil_iff.mpr htail]
    rfl
  · have hstart : (first :: more ++ tail).dropWhile space = first :: more ++ tail :=
      List.dropWhile_cons_of_neg (by rw [htext first List.mem_cons_self]; exact nofun)
    have hend : (first :: more).reverse.dropWhile space = (first :: more).reverse :=
      List.dropWhile_eq_self_iff.mpr fun hlen => by
        rw [htext _ (List.mem_reverse.mp (List.getElem_mem hlen))]
        exact nofun
    rw [trim, hstart, trimEnd, List.reverse_append,
      List.dropWhile_append_of_pos (by simpa using htail), hend, List.reverse_reverse]

theorem trim_dropWhile (text : List α) : trim space (text.dropWhile space) = trim space text := by
  rw [trim, trim, dropWhile_idem]

end Trimming

section Cuts

variable {α : Type} [DecidableEq α]

def splitLast (delimiter : α) (text : List α) : Option (List α × List α) :=
  if delimiter ∈ text then
    some ((text.reverse.dropWhile (· ≠ delimiter)).tail.reverse,
      (text.reverse.takeWhile (· ≠ delimiter)).reverse)
  else none

theorem splitLast_delimited (text : List α) {delimiter : α} {rest : List α}
    (h : delimiter ∉ rest) :
    splitLast delimiter (text ++ delimiter :: rest) = some (text, rest) := by
  have hmem : delimiter ∈ text ++ delimiter :: rest :=
    List.mem_append_right _ List.mem_cons_self
  have hother : ∀ c ∈ rest.reverse, decide (c ≠ delimiter) = true := by
    intro c hc
    rw [decide_eq_true_eq]
    rintro rfl
    exact h (List.mem_reverse.mp hc)
  have hreverse : (text ++ delimiter :: rest).reverse =
      rest.reverse ++ delimiter :: text.reverse := by
    rw [List.reverse_append, List.reverse_cons, List.append_assoc, List.singleton_append]
  rw [splitLast, if_pos hmem, hreverse, List.dropWhile_append_of_pos hother,
    List.takeWhile_append_of_pos hother, List.dropWhile_cons_of_neg (by simp),
    List.takeWhile_cons_of_neg (by simp), List.tail_cons, List.append_nil, List.reverse_reverse,
    List.reverse_reverse]

end Cuts

section Positions

variable {α : Type} {p : α → Bool}

def lastIndex? (p : α → Bool) (text : List α) : Option Nat :=
  (text.reverse.findIdx? p).map fun i => text.length - 1 - i

theorem findIdx?_delimited {before : List α} {x : α} (rest : List α)
    (hbefore : ∀ y ∈ before, p y = false) (hx : p x = true) :
    (before ++ x :: rest).findIdx? p = some before.length := by
  rw [List.findIdx?_append, List.findIdx?_eq_none_iff.mpr hbefore, List.findIdx?_cons, if_pos hx]
  rw [Option.map_some, Option.none_or, Nat.zero_add]

theorem lastIndex?_delimited (before : List α) {x : α} {rest : List α}
    (hx : p x = true) (hrest : ∀ y ∈ rest, p y = false) :
    lastIndex? p (before ++ x :: rest) = some before.length := by
  have hreverse : (before ++ x :: rest).reverse = rest.reverse ++ x :: before.reverse := by
    rw [List.reverse_append, List.reverse_cons, List.append_assoc, List.singleton_append]
  have hindex : (rest.reverse ++ x :: before.reverse).findIdx? p = some rest.reverse.length :=
    findIdx?_delimited before.reverse (fun y hy => hrest y (List.mem_reverse.mp hy)) hx
  rw [lastIndex?, hreverse, hindex, Option.map_some, List.length_append, List.length_cons,
    List.length_reverse]
  congr 1
  omega

theorem eq_delimited {text : List α} {i : Nat} (h : text.findIdx? p = some i) :
    ∃ x, text = text.take i ++ x :: text.drop (i + 1) ∧ p x = true ∧
      ∀ y ∈ text.take i, p y = false := by
  obtain ⟨hlt, hx, hbefore⟩ := List.findIdx?_eq_some_iff_getElem.mp h
  refine ⟨text[i], ?_, hx, ?_⟩
  · rw [← List.drop_eq_getElem_cons hlt, List.take_append_drop]
  · intro y hy
    obtain ⟨j, hj, rfl⟩ := List.getElem_of_mem hy
    rw [List.length_take] at hj
    rw [List.getElem_take]
    exact Bool.eq_false_iff.mpr (hbefore j (by omega))

end Positions

section Words

variable {α : Type} {sep : α → Bool}

def words (sep : α → Bool) (text : List α) : List (List α) :=
  (text.splitOnP sep).filter fun word => !word.isEmpty

theorem words_append_cons {c : α} (hc : sep c = true) (before rest : List α) :
    words sep (before ++ c :: rest) = words sep before ++ words sep rest := by
  rw [words, List.splitOnP_append_cons before rest hc, List.filter_append]
  rfl

theorem words_separators {text : List α} (h : ∀ c ∈ text, sep c = true) : words sep text = [] := by
  induction text with
  | nil => rfl
  | cons c rest ih =>
    have hsplit := words_append_cons (h c List.mem_cons_self) [] rest
    rw [List.nil_append] at hsplit
    rw [hsplit, ih fun d hd => h d (List.mem_cons_of_mem c hd)]
    rfl

theorem words_word {word : List α} (hne : word ≠ []) (h : ∀ c ∈ word, sep c = false) :
    words sep word = [word] := by
  rw [words, List.splitOnP_eq_singleton h, List.filter_singleton,
    List.isEmpty_eq_false_iff.mpr hne]
  rfl

theorem mem_intercalate {ws : List (List α)} {c d : α} (h : d ∈ [c].intercalate ws) :
    d = c ∨ ∃ word ∈ ws, d ∈ word := by
  induction ws with
  | nil => exact absurd h List.not_mem_nil
  | cons word rest ih =>
    rcases rest with - | ⟨next, more⟩
    · rw [List.intercalate_singleton] at h
      exact Or.inr ⟨word, List.mem_cons_self, h⟩
    · rw [List.intercalate_cons_cons, List.append_assoc] at h
      rcases List.mem_append.mp h with h | h
      · exact Or.inr ⟨word, List.mem_cons_self, h⟩
      rcases List.mem_cons.mp h with rfl | h
      · exact Or.inl rfl
      · refine (ih h).imp_right ?_
        rintro ⟨w, hw, hd⟩
        exact ⟨w, List.mem_cons_of_mem word hw, hd⟩

theorem words_intercalate {ws : List (List α)} {c : α} {tail : List α} (hc : sep c = true)
    (htail : ∀ d ∈ tail, sep d = true) (hws : ∀ word ∈ ws, word ≠ [] ∧ ∀ d ∈ word, sep d = false) :
    words sep ([c].intercalate ws ++ tail) = ws := by
  induction ws with
  | nil => exact words_separators htail
  | cons word rest ih =>
    have hword := hws word List.mem_cons_self
    rcases rest with - | ⟨next, more⟩
    · rw [List.intercalate_singleton]
      rcases tail with - | ⟨d, more⟩
      · rw [List.append_nil]
        exact words_word hword.1 hword.2
      · rw [words_append_cons (htail d List.mem_cons_self), words_word hword.1 hword.2,
          words_separators fun e he => htail e (List.mem_cons_of_mem d he)]
        rfl
    · rw [List.intercalate_cons_cons, List.append_assoc, List.append_assoc, List.singleton_append,
        words_append_cons hc, words_word hword.1 hword.2,
        ih fun w hw => hws w (List.mem_cons_of_mem word hw)]
      rfl

end Words

section Decimals

def readDigits (text : List Char) : Option Nat :=
  if text ≠ [] ∧ text.all Char.isDigit then some (Nat.ofDigitChars 10 text 0) else none

theorem readDigits_toDigits (n : Nat) : readDigits (Nat.toDigits 10 n) = some n := by
  rw [readDigits, if_pos, Nat.ofDigitChars_toDigits (by decide) (by decide)]
  refine ⟨Nat.toDigits_ne_nil, List.all_eq_true.mpr ?_⟩
  exact fun c hc => Nat.isDigit_of_mem_toDigits (by decide) (by decide) hc

end Decimals

end Srui.Basic.Texts

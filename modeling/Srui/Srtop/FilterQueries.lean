import Srui.Sessiond.EventProcessing
import Srui.Srtop.DisplayNames

/-!
The filter of the process table.

A query and a name are both sanitized, each its own way: a query replaces by a space what a name
replaces by a mark, and narrows the runs of spaces that a name keeps. Texts are lists of their
scalars, and the lowercase of a scalar is any text.
-/

namespace Srui.Srtop.FilterQueries

open Basic.LenientReadings Basic.ScalarEncodings Basic.Texts DisplayNames Sources
open Sessiond.Capabilities (whiteSpace)
open Sessiond.EventProcessing (takeBytes)

/-! ### Queries -/

def maxFilterQueryBytes : Nat := 512

def maxFilterTerms : Nat := 16

structure FilterTerm where
  display : List Char
  folded : List Char
deriving DecidableEq

structure FilterQuery where
  raw : List Char
  terms : List FilterTerm
  truncatedBytes : Bool
  omittedTerms : Nat
deriving DecidableEq

/-- The runs of white space from here on, each as one space, where white space may stand before. -/
def collapseFrom : Bool → List Char → List Char
  | _, [] => []
  | inWhitespace, c :: rest =>
    if whiteSpace c then
      if inWhitespace then collapseFrom true rest else ' ' :: collapseFrom true rest
    else c :: collapseFrom false rest

/-- `collapse_whitespace`. -/
def collapseWhitespace (text : List Char) : List Char := collapseFrom false text

def inert (c : Char) : Char :=
  if c = '|' then '|' else if isSpaceSeparator c ∨ isUnsafe c ∨ isControl c then ' ' else c

/-- `sanitize_query`. -/
def sanitizeQuery (raw : List Char) : List Char × Bool :=
  let truncated := decide (maxFilterQueryBytes < (encoded raw).length)
  let slice := if truncated then takeBytes maxFilterQueryBytes raw else raw
  (slice.map inert, truncated)

section Matching

variable (toLowercase : Char → List Char)

/-- `fold_case`. -/
def foldCase (text : List Char) : List Char := text.flatMap toLowercase

def addSegment (terms : List FilterTerm × Nat) (segment : List Char) : List FilterTerm × Nat :=
  let trimmed := trim whiteSpace segment
  if trimmed = [] then terms
  else
    let collapsed := collapseWhitespace trimmed
    if collapsed = [] then terms
    else if terms.1.length < maxFilterTerms then
      (terms.1 ++ [⟨collapsed, foldCase toLowercase collapsed⟩], terms.2)
    else (terms.1, terms.2 + 1)

/-- `FilterQuery::parse`. -/
def parse (raw : List Char) : FilterQuery :=
  let sanitized := (sanitizeQuery raw).1
  let terms := (sanitized.splitOnP (· = '|')).foldl (addSegment toLowercase) ([], 0)
  { raw := sanitized
    terms := terms.1
    truncatedBytes := (sanitizeQuery raw).2
    omittedTerms := terms.2 }

/-- `str::contains`. -/
def contains (text part : List Char) : Bool := decide (part <:+: text)

/-- `FilterQuery::matches_name_and_command`. -/
def matchesNameAndCommand (query : FilterQuery) (name : List Char) (command : Option (List Char)) :
    Bool :=
  if query.terms = [] then true
  else
    let foldedName := foldCase toLowercase name
    let foldedCmd := command.map (foldCase toLowercase)
    query.terms.any fun term =>
      contains foldedName term.folded || foldedCmd.any fun cmd => contains cmd term.folded

/-- `FilterQuery::matches_record`, of the name that a record displays. -/
def matchesName (query : FilterQuery) (displayName : DisplayName) : Bool :=
  matchesNameAndCommand toLowercase query displayName.name.toList
    (displayName.command.map String.toList)

end Matching

/-! ### Sanitized queries -/

theorem inert_of_legible {c : Char} (h : Legible c) : inert c = c := by
  have hcontrol := (Bool.or_eq_false_iff.mp h.2).1
  unfold inert
  split_ifs with hbar hother
  · exact hbar.symm
  · rw [h.1, h.2, hcontrol] at hother
    exact absurd hother (by decide)
  · rfl

theorem inert_legible (c : Char) : Legible (inert c) := by
  unfold inert
  split_ifs with hbar hother
  · decide
  · decide
  · rw [not_or, not_or] at hother
    exact ⟨Bool.eq_false_iff.mpr hother.1, Bool.eq_false_iff.mpr hother.2.1⟩

theorem utf8Size_inert (c : Char) : (inert c).utf8Size ≤ c.utf8Size := by
  unfold inert
  split_ifs with hbar hother
  · rw [hbar]
  · exact c.utf8Size_pos
  · exact Nat.le_refl _

theorem length_takeBytes (room : Nat) (text : List Char) :
    (encoded (takeBytes room text)).length ≤ room := by
  induction text generalizing room with
  | nil => exact Nat.zero_le room
  | cons c rest ih =>
    rw [takeBytes]
    split_ifs with hfits
    · rw [length_encoded_cons]
      have hrest := ih (room - c.utf8Size)
      omega
    · exact Nat.zero_le room

theorem length_map_inert (text : List Char) :
    (encoded (text.map inert)).length ≤ (encoded text).length := by
  induction text with
  | nil => exact Nat.le_refl _
  | cons c rest ih =>
    rw [List.map_cons, length_encoded_cons, length_encoded_cons]
    exact Nat.add_le_add (utf8Size_inert c) ih

theorem sanitizeQuery_legible {text : List Char} (hlegible : ∀ c ∈ text, Legible c)
    (hfits : (encoded text).length ≤ maxFilterQueryBytes) : sanitizeQuery text = (text, false) := by
  have hwhole : decide (maxFilterQueryBytes < (encoded text).length) = false :=
    decide_eq_false (Nat.not_lt.mpr hfits)
  have hmap : text.map inert = text :=
    (List.map_congr_left fun c hc => inert_of_legible (hlegible c hc)).trans (List.map_id text)
  simp only [sanitizeQuery, hwhole, hmap, Bool.false_eq_true, if_false]

theorem sanitizeQuery_sound (raw : List Char) :
    (∀ c ∈ (sanitizeQuery raw).1, Legible c) ∧
      (encoded (sanitizeQuery raw).1).length ≤ maxFilterQueryBytes := by
  constructor
  · intro c hc
    obtain ⟨d, -, rfl⟩ := List.mem_map.mp hc
    exact inert_legible d
  · refine (length_map_inert _).trans ?_
    split_ifs with htruncated
    · exact length_takeBytes _ _
    · exact Nat.not_lt.mp fun hlt => htruncated (decide_eq_true hlt)

theorem sanitizeQuery_again (raw : List Char) :
    sanitizeQuery (sanitizeQuery raw).1 = ((sanitizeQuery raw).1, false) :=
  sanitizeQuery_legible (sanitizeQuery_sound raw).1 (sanitizeQuery_sound raw).2

/-! ### Terms -/

abbrev Apart (a b : Char) : Prop := ¬(a = ' ' ∧ b = ' ')

def SingleSpaced (text : List Char) : Prop := text.IsChain Apart

def narrowed (text : List Char) : List Char := text.destutter Apart

instance (text : List Char) : Decidable (SingleSpaced text) :=
  inferInstanceAs (Decidable (List.IsChain Apart text))

variable {toLowercase : Char → List Char} {text : List Char}

theorem cons_collapseFrom {c : Char} (hlegible : ∀ d ∈ c :: text, Legible d) :
    c :: collapseFrom (whiteSpace c) text = text.destutter' Apart c := by
  induction text generalizing c with
  | nil => rfl
  | cons d rest ih =>
    have hc := (hlegible c List.mem_cons_self).whiteSpace_iff
    have hd := (hlegible d (List.mem_cons_of_mem c List.mem_cons_self)).whiteSpace_iff
    have hrest := ih fun e he => hlegible e (List.mem_cons_of_mem c he)
    rw [collapseFrom]
    by_cases hspace : whiteSpace d = true
    · by_cases hbefore : whiteSpace c = true
      · have hsame : c = d := (hc.mp hbefore).trans (hd.mp hspace).symm
        rw [if_pos hspace, if_pos hbefore,
          List.destutter'_cons_neg _ (not_not_intro ⟨hc.mp hbefore, hd.mp hspace⟩), hsame, ← hrest,
          hspace]
      · rw [if_pos hspace, if_neg hbefore,
          List.destutter'_cons_pos _ fun hboth => hbefore (hc.mpr hboth.1), ← hrest, hspace,
          hd.mp hspace]
    · rw [if_neg hspace, List.destutter'_cons_pos _ fun hboth => hspace (hd.mpr hboth.2), ← hrest,
        Bool.eq_false_iff.mpr hspace]

theorem collapseWhitespace_eq (hlegible : ∀ c ∈ text, Legible c) :
    collapseWhitespace text = narrowed text := by
  rcases text with - | ⟨c, rest⟩
  · rfl
  · rw [narrowed, List.destutter_cons', ← cons_collapseFrom hlegible, collapseWhitespace,
      collapseFrom]
    by_cases hspace : whiteSpace c = true
    · rw [if_pos hspace, if_neg Bool.false_ne_true, hspace,
        ((hlegible c List.mem_cons_self).whiteSpace_iff).mp hspace]
    · rw [if_neg hspace, Bool.eq_false_iff.mpr hspace]

theorem parse_terms (hlegible : ∀ c ∈ text, Legible c) (hbar : '|' ∉ text)
    (hword : ∃ c ∈ text, whiteSpace c = false)
    (hfits : (encoded text).length ≤ maxFilterQueryBytes) :
    (parse toLowercase text).terms = [⟨narrowed (trim whiteSpace text),
      foldCase toLowercase (narrowed (trim whiteSpace text))⟩] := by
  obtain ⟨c, hc, hsolid⟩ := hword
  have hsplit : text.splitOnP (· = '|') = [text] :=
    List.splitOnP_eq_singleton fun d hd => decide_eq_false fun hbar' => hbar (hbar' ▸ hd)
  have htrimmed : trim whiteSpace text ≠ [] := trim_ne_nil hc hsolid
  have hcollapsed : collapseWhitespace (trim whiteSpace text) = narrowed (trim whiteSpace text) :=
    collapseWhitespace_eq fun d hd => hlegible d ((trim_isInfix text).subset hd)
  have hnarrowed : narrowed (trim whiteSpace text) ≠ [] :=
    fun hnil => htrimmed ((List.destutter_eq_nil _).mp hnil)
  simp only [parse, sanitizeQuery_legible hlegible hfits, hsplit, List.foldl_cons, List.foldl_nil,
    addSegment, if_neg htrimmed, hcollapsed, if_neg hnarrowed]
  rfl

theorem matchesName_iff {query : FilterQuery} {term : FilterTerm} (hterms : query.terms = [term])
    {displayName : DisplayName} (hcommand : displayName.command = none) :
    matchesName toLowercase query displayName = true ↔
      term.folded <:+: foldCase toLowercase displayName.name.toList := by
  rw [matchesName, matchesNameAndCommand, hterms, hcommand, if_neg (List.cons_ne_nil _ _)]
  simp only [contains, Option.map_none, Option.any_none, Bool.or_false, List.any_cons,
    List.any_nil, decide_eq_true_eq]

theorem foldCase_infix {name : List Char} (hpart : text <:+: name)
    (hspaced : SingleSpaced (trim whiteSpace text)) :
    foldCase toLowercase (narrowed (trim whiteSpace text)) <:+: foldCase toLowercase name := by
  have hsame : narrowed (trim whiteSpace text) = trim whiteSpace text :=
    List.destutter_of_isChain _ _ hspaced
  rw [hsame]
  exact ((trim_isInfix text).trans hpart).flatMap toLowercase

/-- What a name shows is found when its words stand one space apart. -/
theorem found_of_singleSpaced {raw : Bytes} (hpart : text <:+: (sanitize raw).name.toList)
    (hbar : '|' ∉ text) (hword : ∃ c ∈ text, whiteSpace c = false)
    (hfits : (encoded text).length ≤ maxFilterQueryBytes)
    (hspaced : SingleSpaced (trim whiteSpace text)) :
    matchesName toLowercase (parse toLowercase text) (sanitize raw) = true := by
  have hlegible : ∀ c ∈ text, Legible c := fun c hc => sanitize_legible raw (hpart.subset hc)
  rw [matchesName_iff (parse_terms hlegible hbar hword hfits) rfl]
  exact foldCase_infix hpart hspaced

/-- What a name shows is found when its words stand one space apart, there or, up to case,
elsewhere in the name. What is kept of a query parses to itself. -/
theorem shown_text_is_found (toLowercase : Char → List Char) :
    (∀ (raw : Bytes) (text : List Char), text <:+: (sanitize raw).name.toList → '|' ∉ text →
      (∃ c ∈ text, whiteSpace c = false) → (encoded text).length ≤ maxFilterQueryBytes →
      (matchesName toLowercase (parse toLowercase text) (sanitize raw) = true ↔
        SingleSpaced (trim whiteSpace text) ∨
          foldCase toLowercase (narrowed (trim whiteSpace text)) <:+:
            foldCase toLowercase (sanitize raw).name.toList)) ∧
    ∀ raw, (parse toLowercase (parse toLowercase raw).raw).raw = (parse toLowercase raw).raw ∧
      (parse toLowercase (parse toLowercase raw).raw).terms = (parse toLowercase raw).terms := by
  constructor
  · intro raw text hpart hbar hword hfits
    have hlegible : ∀ c ∈ text, Legible c := fun c hc => sanitize_legible raw (hpart.subset hc)
    rw [matchesName_iff (parse_terms hlegible hbar hword hfits) rfl]
    constructor
    · exact Or.inr
    · rintro (hspaced | hfound)
      · exact foldCase_infix hpart hspaced
      · exact hfound
  · intro raw
    have hagain : sanitizeQuery (parse toLowercase raw).raw = ((sanitizeQuery raw).1, false) :=
      sanitizeQuery_again raw
    constructor
    · show (sanitizeQuery (parse toLowercase raw).raw).1 = _
      rw [hagain]
      rfl
    · simp only [parse] at hagain ⊢
      rw [hagain]

theorem printable_legible {c : Char} (h : c ∈ ['A', ' ', 'b']) : Legible c := by
  simp only [List.mem_cons, List.not_mem_nil, or_false] at h
  rcases h with rfl | rfl | rfl <;> exact legible_printable (by decide) (by decide)

theorem sanitize_printable {text : List Char} (hsubset : text ⊆ ['A', ' ', 'b'])
    (hne : text ≠ []) (hlen : text.length ≤ maxDisplayNameChars)
    (htrim : trim whiteSpace text = text) : (sanitize (encoded text)).name.toList = text :=
  sanitize_encoded hne (fun _ hc => printable_legible (hsubset hc)) hlen htrim

/-- Of the name `A  b`, the whole is not found. -/
theorem wide_name_is_not_found :
    ¬∀ toLowercase : Char → List Char,
      (∀ (raw : Bytes) (text : List Char), text <:+: (sanitize raw).name.toList → '|' ∉ text →
        (∃ c ∈ text, whiteSpace c = false) → (encoded text).length ≤ maxFilterQueryBytes →
        matchesName toLowercase (parse toLowercase text) (sanitize raw) = true) ∧
      ∀ raw, (parse toLowercase (parse toLowercase raw).raw).raw = (parse toLowercase raw).raw ∧
        (parse toLowercase (parse toLowercase raw).raw).terms = (parse toLowercase raw).terms := by
  intro h
  have hsubset : ['A', ' ', ' ', 'b'] ⊆ ['A', ' ', 'b'] := by decide
  have hword : ∃ c ∈ ['A', ' ', ' ', 'b'], whiteSpace c = false := ⟨'A', List.mem_cons_self, rfl⟩
  have hname := sanitize_printable hsubset (by decide) (by decide) (by decide)
  have hfound := (h fun c => [c.toLower]).1 (encoded ['A', ' ', ' ', 'b']) ['A', ' ', ' ', 'b']
    (by rw [hname]) (by decide) hword (by decide)
  rw [matchesName_iff (parse_terms (fun _ hc => printable_legible (hsubset hc)) (by decide) hword
    (by decide)) rfl, hname] at hfound
  exact absurd hfound (by decide)

/-- Of the name `A b`, the whole is found in either case. -/
theorem narrow_name_is_found :
    matchesName (fun c => [c.toLower]) (parse (fun c => [c.toLower]) ['A', ' ', 'b'])
      (sanitize (encoded ['A', ' ', 'b'])) = true := by
  have hname := sanitize_printable (List.Subset.refl ['A', ' ', 'b']) (by decide) (by decide)
    (by decide)
  exact ((shown_text_is_found fun c => [c.toLower]).1 (encoded ['A', ' ', 'b']) ['A', ' ', 'b']
    (by rw [hname]) (by decide) ⟨'A', List.mem_cons_self, rfl⟩ (by decide)).mpr
      (Or.inl (by decide))

end Srui.Srtop.FilterQueries

import Srui.Sessiond.Capabilities

/-!
Capability profiles on the client: parsing, the sets made from the lists in a message, and the
negotiation with the profiles of a server.

Texts are sequences of scalars. The client compares texts up to canonical equivalence and looks
for delimiters among grapheme clusters, which is the same for names that have no other spelling.
-/

namespace Srui.Client.Capabilities

open Basic.Machine Basic.Texts Sessiond.TerminalNodes Sessiond.Capabilities

/-- `CharacterSet.whitespacesAndNewlines`: general category Z, the tabulation, U+000A to U+000D
and U+0085. -/
def whitespacesAndNewlines (c : Char) : Bool :=
  let n := c.toNat
  let separators := [0x20, 0xA0, 0x1680, 0x2028, 0x2029, 0x202F, 0x205F, 0x3000]
  decide (n ∈ separators ∨ 0x2000 ≤ n ∧ n ≤ 0x200A ∨ n = 9 ∨ 0xA ≤ n ∧ n ≤ 0xD ∨ n = 0x85)

/-- `UInt32(_:)` of a text: an optional sign, and a value in range. -/
def uint32 (text : List Char) : Option Nat :=
  match text with
  | '+' :: digits => (readDigits digits).filter (· ≤ u32Max)
  | '-' :: digits => (readDigits digits).filter (· = 0)
  | digits => (readDigits digits).filter (· ≤ u32Max)

/-- `Profile.parse`. -/
def parse (text : String) : Except ParseProfileError Profile :=
  let trimmed := trim whitespacesAndNewlines text.toList
  if trimmed.isEmpty then .error .emptyString
  else
    match splitLast '/' trimmed with
    | none => .error (.missingVersionDelimiter text)
    | some (name, version) =>
      let namePart := trim whitespacesAndNewlines name
      if namePart.isEmpty then .error .emptyName
      else
        let versionPart := trim whitespacesAndNewlines version
        match uint32 versionPart with
        | none => .error (.invalidVersion (String.ofList versionPart))
        | some version =>
          if 1 ≤ version then .ok ⟨String.ofList namePart, version⟩
          else .error (.invalidVersion (String.ofList versionPart))

/-- `CapabilitySet.fromStrings`. -/
def fromStrings : List String → Except ParseProfileError (Finset Profile)
  | [] => .ok ∅
  | text :: rest =>
    match parse text with
    | .error e => .error e
    | .ok profile =>
      match fromStrings rest with
      | .error e => .error e
      | .ok profiles => .ok (insert profile profiles)

/-- `CapabilitySet.fromValidStrings`. -/
def fromValidStrings (texts : List String) : Finset Profile :=
  (texts.filterMap fun text => (parse text).toOption).toFinset

/-- `CapabilitySet.toStringArray`. -/
def toStringArray (profiles : Finset Profile) : List String :=
  (profiles.sort (· ≤ ·)).map Profile.display

/-- `CapabilitySet.negotiate`; the error names the required profiles that are missing. -/
def negotiate (clientOffered serverRequired serverOptional : Finset Profile) :
    Except (List Profile) (Finset Profile) :=
  let missingRequired := (serverRequired.sort (· ≤ ·)).filter (· ∉ clientOffered)
  if missingRequired.isEmpty then
    .ok (serverRequired ∪ serverOptional.filter (· ∈ clientOffered))
  else .error missingRequired

/-! ### The texts of the other side -/

theorem whitespacesAndNewlines_eq : whitespacesAndNewlines = whiteSpace := by
  funext c
  unfold whitespacesAndNewlines whiteSpace
  dsimp only
  rw [decide_eq_decide]
  simp only [List.mem_cons, List.not_mem_nil, or_false]
  omega

theorem uint32_toDigits (n : Nat) : uint32 (Nat.toDigits 10 n) = (some n).filter (· ≤ u32Max) := by
  unfold uint32
  split
  · rename_i digits heq
    exact absurd heq (toDigits_no_sign rfl digits)
  · rename_i digits heq
    exact absurd heq (toDigits_no_sign rfl digits)
  · rw [readDigits_toDigits]

theorem parse_wellFormed {profile : Profile} (h : WellFormed profile) :
    parse profile.display = .ok profile := by
  unfold parse
  rw [whitespacesAndNewlines_eq]
  dsimp only
  rw [splitLast_display]
  dsimp only
  rw [trim_dropWhile, trim_version, uint32_toDigits, h.trimmed, Option.filter_some,
    if_pos (decide_eq_true h.bounded)]
  dsimp only
  have htrimmed : ¬(trim whiteSpace profile.display.toList).isEmpty = true := by
    rw [trim_display, List.isEmpty_iff]
    simp
  have hnamed : ¬profile.name.toList.isEmpty = true := by
    rw [List.isEmpty_iff]
    exact toList_ne_nil h.named
  rw [if_neg htrimmed, if_neg hnamed, if_pos (Nat.succ_le_of_lt h.positive), String.ofList_toList]

section Lists

variable {profiles : List Profile}

theorem fromStrings_wellFormed (h : ∀ profile ∈ profiles, WellFormed profile) :
    fromStrings (profiles.map Profile.display) = .ok profiles.toFinset := by
  induction profiles with
  | nil => rfl
  | cons first rest ih =>
    rw [List.map_cons, fromStrings, parse_wellFormed (h first List.mem_cons_self)]
    dsimp only
    rw [ih fun profile hmem => h profile (List.mem_cons_of_mem _ hmem), List.toFinset_cons]

theorem filterMap_display {parser : String → Except ParseProfileError Profile}
    (h : ∀ profile ∈ profiles, parser profile.display = .ok profile) :
    ((profiles.map Profile.display).filterMap fun text => (parser text).toOption) = profiles := by
  induction profiles with
  | nil => rfl
  | cons first rest ih =>
    rw [List.map_cons, List.filterMap_cons, h first List.mem_cons_self,
      ih fun profile hmem => h profile (List.mem_cons_of_mem _ hmem)]
    rfl

end Lists

variable {profiles : Finset Profile}

section

variable (h : ∀ profile ∈ profiles, WellFormed profile)

include h

theorem mem_sorted {profile : Profile} (hmem : profile ∈ profiles.sort (· ≤ ·)) :
    WellFormed profile :=
  h profile ((Finset.mem_sort _).mp hmem)

theorem fromStrings_toStringVec :
    fromStrings (toStringVec profiles) = .ok profiles := by
  rw [toStringVec, fromStrings_wellFormed fun profile => mem_sorted h, Finset.sort_toFinset]

theorem fromValidStrings_toStringVec :
    fromValidStrings (toStringVec profiles) = profiles := by
  rw [fromValidStrings, toStringVec,
    filterMap_display fun profile hmem => parse_wellFormed (mem_sorted h hmem),
    Finset.sort_toFinset]

theorem offeredProfiles_toStringArray :
    offeredProfiles (toStringArray profiles) = profiles := by
  rw [offeredProfiles, toStringArray,
    filterMap_display fun profile hmem => parseProfile_wellFormed (mem_sorted h hmem),
    Finset.sort_toFinset]

end

theorem negotiate_eq (capabilities : ServerCapabilities) (offered : Finset Profile) :
    negotiate offered capabilities.required capabilities.optional =
      Sessiond.Capabilities.negotiate capabilities offered := by
  unfold negotiate Sessiond.Capabilities.negotiate
  dsimp only
  rw [ite_not]
  simp only [List.isEmpty_iff]

end Srui.Client.Capabilities

import Srui.Basic.Texts
import Srui.Sessiond.TerminalNodes

/-!
Capability profiles on the server: how they are printed and parsed, the negotiation with a
client, and the contract that the namespace table of a session meets before a handshake goes on.
-/

namespace Srui.Sessiond.Capabilities

open Basic.Machine Basic.Texts Sessiond.TerminalNodes

/-- Unicode white space, which `str::trim` takes off both ends. -/
def whiteSpace (c : Char) : Bool :=
  let n := c.toNat
  decide (9 ≤ n ∧ n ≤ 13 ∨ n = 32 ∨ n = 0x85 ∨ n = 0xA0 ∨ n = 0x1680 ∨ 0x2000 ≤ n ∧ n ≤ 0x200A ∨
    n = 0x2028 ∨ n = 0x2029 ∨ n = 0x202F ∨ n = 0x205F ∨ n = 0x3000)

inductive ParseProfileError where
  | emptyString
  | emptyName
  | missingVersionDelimiter (text : String)
  | invalidVersion (text : String)
deriving DecidableEq, Repr

/-- `u32::from_str`. -/
def parseU32 (text : List Char) : Option Nat :=
  let digits :=
    match text with
    | '+' :: rest => rest
    | text => text
  (readDigits digits).filter (· ≤ u32Max)

/-- `Profile::from_str`. -/
def parseProfile (text : String) : Except ParseProfileError Profile :=
  let trimmed := trim whiteSpace text.toList
  if trimmed = [] then .error .emptyString
  else
    match splitLast '/' trimmed with
    | none => .error (.missingVersionDelimiter (String.ofList trimmed))
    | some (name, version) =>
      let name := trim whiteSpace name
      if name = [] then .error .emptyName
      else
        match parseU32 (trim whiteSpace version) with
        | none => .error (.invalidVersion (String.ofList version))
        | some 0 => .error (.invalidVersion "version must be >= 1")
        | some version => .ok ⟨String.ofList name, version⟩

instance : LinearOrder Profile :=
  LinearOrder.lift' (fun profile => toLex (profile.name, profile.version)) (by
    rintro ⟨name, version⟩ ⟨name', version'⟩ h
    obtain ⟨rfl, rfl⟩ := Prod.mk.inj (toLex.injective h)
    rfl)

instance : IsTrans Profile (· ≤ ·) := inferInstance

instance : Std.Antisymm (α := Profile) (· ≤ ·) := inferInstance

/-- `CapabilitySet::to_string_vec`. -/
def toStringVec (profiles : Finset Profile) : List String :=
  (profiles.sort (· ≤ ·)).map Profile.display

def offeredProfiles (texts : List String) : Finset Profile :=
  (texts.filterMap fun text => (parseProfile text).toOption).toFinset

/-- `ServerCapabilities::negotiate`; the error names the required profiles that are missing. -/
def negotiate (capabilities : ServerCapabilities) (offered : Finset Profile) :
    Except (List Profile) (Finset Profile) :=
  let missing := (capabilities.required.sort (· ≤ ·)).filter (· ∉ offered)
  if missing ≠ [] then .error missing
  else .ok (capabilities.required ∪ capabilities.optional.filter (· ∈ offered))

inductive ContractFault where
  | standardMissing
  | standardNotZero
  | standardRepeated
  | unsupportedStandard (profile : Profile)
  | unmapped (profile : Profile)
  | mappedToZero (profile : Profile)
  | mappedTwice (profile : Profile)
  | zeroNamespace (uri : String)
  | notAProfile (uri : String) (e : ParseProfileError)
  | notCanonical (uri expected : String)
  | standardAlias
  | notAdvertised (uri : String)
  | duplicateId (namespaceId : Nat)
  | duplicateUri (uri : String)
deriving DecidableEq

def checkProfile (table : List ExtensionNamespaceMapping) (profile : Profile) :
    Except ContractFault Unit :=
  if profile.name = Profile.standardWidgetsV1.name then
    if profile ≠ Profile.standardWidgetsV1 then .error (.unsupportedStandard profile) else .ok ()
  else
    match table.filter (·.extensionUri = profile.display) with
    | [] => .error (.unmapped profile)
    | mapping :: others =>
      if mapping.namespaceId = 0 then .error (.mappedToZero profile)
      else if others ≠ [] then .error (.mappedTwice profile)
      else .ok ()

def checkProfiles (table : List ExtensionNamespaceMapping) :
    List Profile → Except ContractFault Unit
  | [] => .ok ()
  | profile :: rest =>
    match checkProfile table profile with
    | .error e => .error e
    | .ok () => checkProfiles table rest

def checkMapping (capabilities : ServerCapabilities) (mapping : ExtensionNamespaceMapping) :
    Except ContractFault Unit :=
  if mapping.extensionUri = Profile.standardWidgetsV1.name then
    if mapping.namespaceId ≠ 0 then .error .standardNotZero else .ok ()
  else if mapping.namespaceId = 0 then .error (.zeroNamespace mapping.extensionUri)
  else
    match parseProfile mapping.extensionUri with
    | .error e => .error (.notAProfile mapping.extensionUri e)
    | .ok mapped =>
      if mapped.display ≠ mapping.extensionUri then
        .error (.notCanonical mapping.extensionUri mapped.display)
      else if mapped.name = Profile.standardWidgetsV1.name then .error .standardAlias
      else if mapped ∉ capabilities.required ∧ mapped ∉ capabilities.optional then
        .error (.notAdvertised mapping.extensionUri)
      else .ok ()

/-- The loop over the table, with the identifiers and the URIs seen so far. -/
def checkMappings (capabilities : ServerCapabilities) :
    List Nat → List String → List ExtensionNamespaceMapping → Except ContractFault Unit
  | _, _, [] => .ok ()
  | seenIds, seenUris, mapping :: rest =>
    match checkMapping capabilities mapping with
    | .error e => .error e
    | .ok () =>
      if mapping.namespaceId ∈ seenIds then .error (.duplicateId mapping.namespaceId)
      else if mapping.extensionUri ∈ seenUris then .error (.duplicateUri mapping.extensionUri)
      else
        checkMappings capabilities (mapping.namespaceId :: seenIds)
          (mapping.extensionUri :: seenUris) rest

/-- `validate_extension_namespace_contract`. -/
def validateExtensionNamespaceContract (capabilities : ServerCapabilities)
    (table : List ExtensionNamespaceMapping) : Except ContractFault Unit :=
  match table.filter (·.extensionUri = Profile.standardWidgetsV1.name) with
  | [] => .error .standardMissing
  | mapping :: others =>
    if mapping.namespaceId ≠ 0 then .error .standardNotZero
    else if others ≠ [] then .error .standardRepeated
    else
      match checkProfiles table
          (capabilities.required.sort (· ≤ ·) ++ capabilities.optional.sort (· ≤ ·)) with
      | .error e => .error e
      | .ok () => checkMappings capabilities [] [] table

section Texts

theorem toList_display (profile : Profile) :
    profile.display.toList = profile.name.toList ++ '/' :: Nat.toDigits 10 profile.version := by
  rw [Profile.display, String.toList_append, String.toList_append, Nat.toList_repr,
    List.append_assoc]
  rfl

theorem digit_solid {c : Char} (h : c.isDigit = true) : whiteSpace c = false ∧ c ≠ '/' := by
  rw [Char.isDigit, Bool.and_eq_true, decide_eq_true_eq, decide_eq_true_eq] at h
  obtain ⟨hlow, hhigh⟩ := h
  have hlow' : 48 ≤ c.toNat := hlow
  have hhigh' : c.toNat ≤ 57 := hhigh
  refine ⟨decide_eq_false (by omega), ?_⟩
  rintro rfl
  exact absurd hlow' (by decide)

theorem version_solid {n : Nat} {c : Char} (h : c ∈ Nat.toDigits 10 n) :
    whiteSpace c = false ∧ c ≠ '/' :=
  digit_solid (Nat.isDigit_of_mem_toDigits (by decide) (by decide) h)

theorem trim_display (profile : Profile) :
    trim whiteSpace profile.display.toList =
      profile.name.toList.dropWhile whiteSpace ++ '/' :: Nat.toDigits 10 profile.version := by
  rw [toList_display]
  exact trim_delimited _ Nat.toDigits_ne_nil rfl fun c hc => (version_solid hc).1

theorem splitLast_display (profile : Profile) :
    splitLast '/' (trim whiteSpace profile.display.toList) =
      some (profile.name.toList.dropWhile whiteSpace, Nat.toDigits 10 profile.version) := by
  rw [trim_display]
  exact splitLast_delimited _ fun hmem => (version_solid hmem).2 rfl

theorem trim_version (n : Nat) :
    trim whiteSpace (Nat.toDigits 10 n) = Nat.toDigits 10 n :=
  trim_solid fun _ hc => (version_solid hc).1

theorem toDigits_no_sign {n : Nat} {sign : Char} (hsign : sign.isDigit = false)
    (rest : List Char) : Nat.toDigits 10 n ≠ sign :: rest := by
  intro heq
  have hdigit := Nat.isDigit_of_mem_toDigits (c := sign) (n := n) (b := 10) (by decide) (by decide)
    (by rw [heq]; exact List.mem_cons_self)
  rw [hsign] at hdigit
  cases hdigit

theorem parseU32_toDigits (n : Nat) :
    parseU32 (Nat.toDigits 10 n) = (some n).filter (· ≤ u32Max) := by
  unfold parseU32
  split
  · rename_i rest heq
    exact absurd heq (toDigits_no_sign rfl rest)
  · dsimp only
    rw [readDigits_toDigits]

structure Printed (profile parsed : Profile) : Prop where
  name : parsed.name = String.ofList (trim whiteSpace profile.name.toList)
  version : parsed.version = profile.version
  named : trim whiteSpace profile.name.toList ≠ []
  positive : 0 < profile.version
  bounded : profile.version ≤ u32Max

variable {profile : Profile}

theorem parseProfile_display {parsed : Profile}
    (h : parseProfile profile.display = .ok parsed) : Printed profile parsed := by
  unfold parseProfile at h
  dsimp only at h
  rw [splitLast_display] at h
  split_ifs at h with hempty
  dsimp only at h
  rw [trim_dropWhile, trim_version, parseU32_toDigits, Option.filter_some] at h
  split_ifs at h with hname hle
  · split at h
    · rename_i hnone
      cases hnone
    · cases h
    · rename_i version hpositive hversion
      cases hversion
      cases h
      refine ⟨rfl, rfl, hname, Nat.pos_of_ne_zero ?_, of_decide_eq_true hle⟩
      intro hzero
      exact hpositive hzero

structure WellFormed (profile : Profile) : Prop where
  trimmed : trim whiteSpace profile.name.toList = profile.name.toList
  named : profile.name ≠ ""
  positive : 0 < profile.version
  bounded : profile.version ≤ u32Max

theorem toList_ne_nil {text : String} (h : text ≠ "") : text.toList ≠ [] :=
  fun hnil => h (String.toList_inj.mp hnil)

theorem parseProfile_wellFormed (h : WellFormed profile) :
    parseProfile profile.display = .ok profile := by
  unfold parseProfile
  dsimp only
  rw [if_neg (by rw [trim_display]; simp), splitLast_display]
  dsimp only
  rw [trim_dropWhile, trim_version, parseU32_toDigits, h.trimmed, if_neg (toList_ne_nil h.named),
    Option.filter_some, if_pos (decide_eq_true h.bounded)]
  split
  · rename_i hnone
    cases hnone
  · rename_i hzero
    exact absurd (Option.some.inj hzero) (Nat.pos_iff_ne_zero.mp h.positive)
  · rename_i version _ hversion
    rw [← Option.some.inj hversion, String.ofList_toList]

theorem wellFormed_of_canonical {parsed : Profile}
    (h : parseProfile profile.display = .ok parsed) (hsame : parsed.display = profile.display) :
    WellFormed profile := by
  obtain ⟨hname, hversion, hnamed, hpositive, hbounded⟩ := parseProfile_display h
  have htexts := congrArg String.toList hsame
  rw [toList_display, toList_display, hversion, hname, String.toList_ofList] at htexts
  have htrimmed := (List.append_left_inj _).mp htexts
  refine ⟨htrimmed, ?_, hpositive, hbounded⟩
  rintro hempty
  rw [htrimmed, hempty] at hnamed
  exact hnamed rfl

end Texts

section Contract

variable {capabilities : ServerCapabilities} {table : List ExtensionNamespaceMapping}

structure Contract (capabilities : ServerCapabilities)
    (table : List ExtensionNamespaceMapping) : Prop where
  wellFormed : ∀ profile, profile ∈ capabilities.required ∨ profile ∈ capabilities.optional →
    WellFormed profile
  mapped : ∀ profile, profile ∈ capabilities.required ∨ profile ∈ capabilities.optional →
    profile.name ≠ Profile.standardWidgetsV1.name →
      ∃ mapping ∈ table, mapping.extensionUri = profile.display
  nonzero : ∀ mapping ∈ table, mapping.extensionUri ≠ Profile.standardWidgetsV1.name →
    mapping.namespaceId ≠ 0
  standard : table ≠ []
  ids : (table.map (·.namespaceId)).Nodup
  uris : (table.map (·.extensionUri)).Nodup

theorem wellFormed_standard : WellFormed Profile.standardWidgetsV1 := by
  refine ⟨?_, ?_, ?_, ?_⟩ <;> decide +kernel

theorem display_ne_standard (profile : Profile) :
    profile.display ≠ Profile.standardWidgetsV1.name := by
  intro hsame
  have hmem : '/' ∈ profile.display.toList := by
    rw [toList_display]
    exact List.mem_append_right _ List.mem_cons_self
  rw [hsame] at hmem
  revert hmem
  decide +kernel

theorem checkProfiles_ok {profiles : List Profile} (h : checkProfiles table profiles = .ok ())
    {profile : Profile} (hmem : profile ∈ profiles) : checkProfile table profile = .ok () := by
  induction profiles with
  | nil => cases hmem
  | cons first rest ih =>
    rw [checkProfiles] at h
    split at h
    · cases h
    rename_i hfirst
    rcases List.mem_cons.mp hmem with rfl | hlater
    · exact hfirst
    · exact ih h hlater

theorem checkProfile_ok {profile : Profile} (h : checkProfile table profile = .ok ()) :
    profile = Profile.standardWidgetsV1 ∨
      ∃ mapping ∈ table, mapping.extensionUri = profile.display := by
  unfold checkProfile at h
  split_ifs at h with hname hother
  · exact .inl (not_not.mp hother)
  · split at h
    · cases h
    · rename_i mapping others hfilter
      have hmem : mapping ∈ table.filter (·.extensionUri = profile.display) := by
        rw [hfilter]
        exact List.mem_cons_self
      obtain ⟨htable, huri⟩ := List.mem_filter.mp hmem
      exact .inr ⟨mapping, htable, of_decide_eq_true huri⟩

theorem checkMapping_ok {mapping : ExtensionNamespaceMapping}
    (h : checkMapping capabilities mapping = .ok ())
    (hother : mapping.extensionUri ≠ Profile.standardWidgetsV1.name) :
    mapping.namespaceId ≠ 0 ∧ ∃ mapped, parseProfile mapping.extensionUri = .ok mapped ∧
      mapped.display = mapping.extensionUri := by
  unfold checkMapping at h
  rw [if_neg hother] at h
  split_ifs at h with hzero
  refine ⟨hzero, ?_⟩
  split at h
  · cases h
  · rename_i mapped hparsed
    split_ifs at h with hcanonical
    exact ⟨mapped, hparsed, not_not.mp hcanonical⟩

theorem checkMappings_ok {seenIds : List Nat} {seenUris : List String}
    (h : checkMappings capabilities seenIds seenUris table = .ok ()) :
    (∀ mapping ∈ table, checkMapping capabilities mapping = .ok () ∧
        mapping.namespaceId ∉ seenIds ∧ mapping.extensionUri ∉ seenUris) ∧
      (table.map (·.namespaceId)).Nodup ∧ (table.map (·.extensionUri)).Nodup := by
  induction table generalizing seenIds seenUris with
  | nil => exact ⟨nofun, List.nodup_nil, List.nodup_nil⟩
  | cons first rest ih =>
    rw [checkMappings] at h
    split at h
    · cases h
    rename_i hfirst
    split_ifs at h with hid huri
    obtain ⟨hrest, hids, huris⟩ := ih h
    refine ⟨?_, ?_, ?_⟩
    · intro mapping hmem
      rcases List.mem_cons.mp hmem with rfl | hlater
      · exact ⟨hfirst, hid, huri⟩
      · obtain ⟨hchecked, hnew, hnewUri⟩ := hrest mapping hlater
        exact ⟨hchecked, fun hseen => hnew (List.mem_cons_of_mem _ hseen),
          fun hseen => hnewUri (List.mem_cons_of_mem _ hseen)⟩
    · rw [List.map_cons, List.nodup_cons]
      refine ⟨fun hmem => ?_, hids⟩
      obtain ⟨mapping, hlater, hsame⟩ := List.mem_map.mp hmem
      exact (hrest mapping hlater).2.1 (hsame ▸ List.mem_cons_self)
    · rw [List.map_cons, List.nodup_cons]
      refine ⟨fun hmem => ?_, huris⟩
      obtain ⟨mapping, hlater, hsame⟩ := List.mem_map.mp hmem
      exact (hrest mapping hlater).2.2 (hsame ▸ List.mem_cons_self)

theorem contract_of_validate
    (h : validateExtensionNamespaceContract capabilities table = .ok ()) :
    Contract capabilities table := by
  unfold validateExtensionNamespaceContract at h
  split at h
  · cases h
  rename_i standard others hstandard
  split_ifs at h
  split at h
  · cases h
  rename_i hprofiles
  obtain ⟨hmappings, hids, huris⟩ := checkMappings_ok h
  have hchecked : ∀ profile, profile ∈ capabilities.required ∨ profile ∈ capabilities.optional →
      profile = Profile.standardWidgetsV1 ∨
        ∃ mapping ∈ table, mapping.extensionUri = profile.display := by
    intro profile hmem
    refine checkProfile_ok (checkProfiles_ok hprofiles (List.mem_append.mpr ?_))
    exact hmem.imp (Finset.mem_sort _).mpr (Finset.mem_sort _).mpr
  refine ⟨?_, ?_, ?_, ?_, hids, huris⟩
  · intro profile hmem
    rcases hchecked profile hmem with rfl | ⟨mapping, htable, huri⟩
    · exact wellFormed_standard
    · have hother := huri ▸ display_ne_standard profile
      obtain ⟨-, mapped, hparsed, hcanonical⟩ :=
        checkMapping_ok (hmappings mapping htable).1 hother
      rw [huri] at hparsed hcanonical
      exact wellFormed_of_canonical hparsed hcanonical
  · intro profile hmem hname
    rcases hchecked profile hmem with rfl | hmapped
    · exact absurd rfl hname
    · exact hmapped
  · exact fun mapping htable hother => (checkMapping_ok (hmappings mapping htable).1 hother).1
  · rintro rfl
    cases hstandard

end Contract

end Srui.Sessiond.Capabilities

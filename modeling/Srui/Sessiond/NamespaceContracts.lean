import Srui.Sessiond.Capabilities
import Srui.Sessiond.TerminalContracts

/-!
What the validator of namespace tables accepts.

A table passes exactly when it is the reserved mapping and one mapping for each extension that is
advertised, in any order.
-/

namespace Srui.Sessiond.NamespaceContracts

open Sessiond.TerminalNodes Sessiond.TerminalContracts Sessiond.Capabilities

abbrev standardUri : String := Profile.standardWidgetsV1.name

def advertised (capabilities : ServerCapabilities) : Finset Profile :=
  capabilities.required ∪ capabilities.optional

def extensions (capabilities : ServerCapabilities) : Finset Profile :=
  (advertised capabilities).filter (·.name ≠ standardUri)

/-- The table assigns distinct nonzero identifiers to the extensions, each under its canonical
form, and zero to the standard widgets. -/
structure Assigns (capabilities : ServerCapabilities) (table : List ExtensionNamespaceMapping)
    (assigned : Profile → Nat) : Prop where
  table : table.Perm (standardNamespaceMapping ::
    ((extensions capabilities).sort (· ≤ ·)).map fun profile =>
      ⟨profile.display, assigned profile⟩)
  canonical : ∀ profile ∈ extensions capabilities, parseProfile profile.display = .ok profile
  nonzero : ∀ profile ∈ extensions capabilities, assigned profile ≠ 0
  distinct : Set.InjOn assigned (extensions capabilities)
  standard : ∀ profile ∈ advertised capabilities, profile.name = standardUri →
    profile = Profile.standardWidgetsV1

def Decodes (table : List ExtensionNamespaceMapping) (namespaceId : Nat) (profile : Profile) :
    Prop :=
  ∃ mapping ∈ table, mapping.namespaceId = namespaceId ∧
    (mapping.extensionUri = standardUri ∧ profile = Profile.standardWidgetsV1 ∨
      parseProfile mapping.extensionUri = .ok profile ∧
        profile.display = mapping.extensionUri)

/-- Some client's offer makes the profile part of what is negotiated. -/
def Negotiable (capabilities : ServerCapabilities) (profile : Profile) : Prop :=
  ∃ offered negotiated, negotiate capabilities offered = .ok negotiated ∧ profile ∈ negotiated

variable {capabilities : ServerCapabilities} {table : List ExtensionNamespaceMapping}
  {assigned : Profile → Nat}

variable {profile : Profile}

theorem mem_extensions : profile ∈ extensions capabilities ↔
    profile ∈ advertised capabilities ∧ profile.name ≠ standardUri := Finset.mem_filter

theorem negotiable_iff :
    Negotiable capabilities profile ↔ profile ∈ advertised capabilities := by
  constructor
  · rintro ⟨offered, negotiated, hnegotiated, hmem⟩
    unfold negotiate at hnegotiated
    dsimp only at hnegotiated
    split_ifs at hnegotiated
    cases hnegotiated
    rcases Finset.mem_union.mp hmem with hrequired | hoptional
    · exact Finset.mem_union_left _ hrequired
    · exact Finset.mem_union_right _ (Finset.mem_filter.mp hoptional).1
  · intro hmem
    refine ⟨advertised capabilities, capabilities.required ∪
      capabilities.optional.filter (· ∈ advertised capabilities), ?_, ?_⟩
    · unfold negotiate
      dsimp only
      rw [if_neg]
      rw [not_not, List.filter_eq_nil_iff]
      intro required hrequired
      have hoffered : required ∈ advertised capabilities :=
        Finset.mem_union_left _ ((Finset.mem_sort _).mp hrequired)
      simpa using hoffered
    · rcases Finset.mem_union.mp hmem with hrequired | hoptional
      · exact Finset.mem_union_left _ hrequired
      · exact Finset.mem_union_right _ (Finset.mem_filter.mpr ⟨hoptional, hmem⟩)

/-! ### What a table that passes is -/

theorem display_inj {other : Profile} (h : parseProfile profile.display = .ok profile)
    (h' : parseProfile other.display = .ok other) (hsame : profile.display = other.display) :
    profile = other := by
  rw [hsame, h'] at h
  exact (Except.ok.inj h).symm

variable {mapping : ExtensionNamespaceMapping}

theorem extension_of_checkMapping
    (h : checkMapping capabilities mapping = .ok ())
    (hother : mapping.extensionUri ≠ standardUri) :
    mapping.namespaceId ≠ 0 ∧ ∃ profile ∈ extensions capabilities,
      profile.display = mapping.extensionUri ∧ parseProfile profile.display = .ok profile := by
  unfold checkMapping at h
  rw [if_neg hother] at h
  split_ifs at h with hzero
  refine ⟨hzero, ?_⟩
  split at h
  · cases h
  rename_i mapped hparsed
  split_ifs at h with hcanonical hstandard hadvertised
  have hdisplay : mapped.display = mapping.extensionUri := not_not.mp hcanonical
  refine ⟨mapped, mem_extensions.mpr ⟨?_, hstandard⟩, hdisplay, hdisplay ▸ hparsed⟩
  rw [not_and_or, not_not, not_not] at hadvertised
  exact Finset.mem_union.mpr hadvertised

theorem nodup_of_uris (h : (table.map (·.extensionUri)).Nodup) : table.Nodup :=
  h.of_map _

theorem standard_of_filter
    (h : table.filter (·.extensionUri = standardUri) = [mapping])
    (hzero : mapping.namespaceId = 0) :
    standardNamespaceMapping ∈ table ∧ ∀ other ∈ table, other.extensionUri = standardUri →
      other = standardNamespaceMapping := by
  have hmem : mapping ∈ table.filter (·.extensionUri = standardUri) := by
    rw [h]
    exact List.mem_singleton_self mapping
  obtain ⟨htable, huri⟩ := List.mem_filter.mp hmem
  have hreserved : mapping = standardNamespaceMapping := by
    obtain ⟨uri, namespaceId⟩ := mapping
    obtain rfl : uri = standardUri := of_decide_eq_true huri
    obtain rfl : namespaceId = 0 := hzero
    rfl
  refine ⟨hreserved ▸ htable, ?_⟩
  intro other hother hsame
  have hin : other ∈ table.filter (·.extensionUri = standardUri) :=
    List.mem_filter.mpr ⟨hother, decide_eq_true hsame⟩
  rw [h] at hin
  exact (List.mem_singleton.mp hin).trans hreserved

theorem assigns_of_validate
    (h : validateExtensionNamespaceContract capabilities table = .ok ()) :
    Assigns capabilities table fun profile => (namespaceOf table profile.display).getD 0 := by
  unfold validateExtensionNamespaceContract at h
  split at h
  · cases h
  rename_i standard others hstandard
  split_ifs at h with hzero hothers
  split at h
  · cases h
  rename_i hprofiles
  obtain ⟨hmappings, hids, huris⟩ := checkMappings_ok h
  rw [not_not.mp hothers] at hstandard
  obtain ⟨hreserved, honly⟩ := standard_of_filter hstandard (not_not.mp hzero)
  have hchecked : ∀ profile ∈ advertised capabilities,
      checkProfile table profile = .ok () := by
    intro profile hmem
    refine checkProfiles_ok hprofiles (List.mem_append.mpr ?_)
    exact (Finset.mem_union.mp hmem).imp (Finset.mem_sort _).mpr (Finset.mem_sort _).mpr
  -- Every extension has its mapping, and every other mapping its extension.
  have hmapped : ∀ profile ∈ extensions capabilities,
      parseProfile profile.display = .ok profile ∧
        ∃ namespaceId, namespaceId ≠ 0 ∧ ⟨profile.display, namespaceId⟩ ∈ table := by
    intro profile hmem
    obtain ⟨hadvertised, hname⟩ := mem_extensions.mp hmem
    rcases checkProfile_ok (hchecked profile hadvertised) with rfl | ⟨mapping, htable, huri⟩
    · exact absurd rfl hname
    · obtain ⟨uri, namespaceId⟩ := mapping
      obtain rfl : uri = profile.display := huri
      obtain ⟨hnonzero, mapped, -, hdisplay, hparsed⟩ :=
        extension_of_checkMapping (hmappings _ htable).1 (display_ne_standard profile)
      have hsame : mapped.display = profile.display := hdisplay
      rw [hsame] at hparsed
      have hwell : WellFormed profile := wellFormed_of_canonical hparsed hsame
      exact ⟨parseProfile_wellFormed hwell, namespaceId, hnonzero, htable⟩
  have hassigned : ∀ profile ∈ extensions capabilities,
      (namespaceOf table profile.display).getD 0 ≠ 0 ∧
        ⟨profile.display, (namespaceOf table profile.display).getD 0⟩ ∈ table := by
    intro profile hmem
    obtain ⟨-, namespaceId, hnonzero, htable⟩ := hmapped profile hmem
    rw [namespaceOf_of_mem huris htable]
    exact ⟨hnonzero, htable⟩
  have hinj : ∀ profile ∈ extensions capabilities, ∀ other ∈ extensions capabilities,
      profile.display = other.display → profile = other :=
    fun profile hmem other hother hsame =>
      display_inj (hmapped profile hmem).1 (hmapped other hother).1 hsame
  refine ⟨?_, fun profile hmem => (hmapped profile hmem).1,
    fun profile hmem => (hassigned profile hmem).1, ?_, ?_⟩
  · apply (List.perm_ext_iff_of_nodup (nodup_of_uris huris) ?_).mpr
    · intro mapping
      rw [List.mem_cons, List.mem_map]
      constructor
      · intro htable
        by_cases hstandardUri : mapping.extensionUri = standardUri
        · exact Or.inl (honly mapping htable hstandardUri)
        · obtain ⟨-, profile, hmem, hdisplay, -⟩ :=
            extension_of_checkMapping (hmappings mapping htable).1 hstandardUri
          refine Or.inr ⟨profile, (Finset.mem_sort _).mpr hmem, ?_⟩
          obtain ⟨uri, namespaceId⟩ := mapping
          obtain rfl : profile.display = uri := hdisplay
          rw [namespaceOf_of_mem huris htable]
          rfl
      · rintro (rfl | ⟨profile, hmem, rfl⟩)
        · exact hreserved
        · exact (hassigned profile ((Finset.mem_sort _).mp hmem)).2
    · rw [List.nodup_cons]
      constructor
      · intro hmem
        obtain ⟨profile, -, hsame⟩ := List.mem_map.mp hmem
        exact display_ne_standard profile (congrArg (·.extensionUri) hsame)
      · refine List.Nodup.map_on ?_ (Finset.sort_nodup _ _)
        intro profile hmem other hother hsame
        exact hinj profile ((Finset.mem_sort _).mp hmem) other ((Finset.mem_sort _).mp hother)
          (congrArg (·.extensionUri) hsame)
  · intro profile hmem other hother hsame
    apply hinj profile hmem other hother
    have hids' := List.inj_on_of_nodup_map hids (hassigned profile hmem).2
      (hassigned other hother).2 hsame
    exact congrArg (·.extensionUri) hids'
  · intro profile hadvertised hname
    have hpassed := hchecked profile hadvertised
    unfold checkProfile at hpassed
    rw [if_pos hname] at hpassed
    split_ifs at hpassed with hother
    exact not_not.mp hother

/-! ### What passes -/

theorem checkProfiles_of {profiles : List Profile}
    (h : ∀ profile ∈ profiles, checkProfile table profile = .ok ()) :
    checkProfiles table profiles = .ok () := by
  induction profiles with
  | nil => rfl
  | cons profile rest ih =>
    rw [checkProfiles, h profile List.mem_cons_self]
    exact ih fun other hmem => h other (List.mem_cons_of_mem profile hmem)

theorem checkMappings_of {seenIds : List Nat} {seenUris : List String}
    (h : ∀ mapping ∈ table, checkMapping capabilities mapping = .ok () ∧
      mapping.namespaceId ∉ seenIds ∧ mapping.extensionUri ∉ seenUris)
    (hids : (table.map (·.namespaceId)).Nodup) (huris : (table.map (·.extensionUri)).Nodup) :
    checkMappings capabilities seenIds seenUris table = .ok () := by
  induction table generalizing seenIds seenUris with
  | nil => rfl
  | cons first rest ih =>
    rw [List.map_cons, List.nodup_cons] at hids huris
    obtain ⟨hfirst, hid, huri⟩ := h first List.mem_cons_self
    rw [checkMappings, hfirst]
    dsimp only
    rw [if_neg hid, if_neg huri]
    apply ih _ hids.2 huris.2
    intro mapping hmem
    obtain ⟨hchecked, hnew, hnewUri⟩ := h mapping (List.mem_cons_of_mem first hmem)
    refine ⟨hchecked, fun hseen => ?_, fun hseen => ?_⟩
    · rcases List.mem_cons.mp hseen with hsame | hseen
      · exact hids.1 (hsame ▸ List.mem_map_of_mem hmem)
      · exact hnew hseen
    · rcases List.mem_cons.mp hseen with hsame | hseen
      · exact huris.1 (hsame ▸ List.mem_map_of_mem hmem)
      · exact hnewUri hseen

theorem filter_eq_singleton {uri : String}
    (huris : (table.map (·.extensionUri)).Nodup) (hmem : mapping ∈ table)
    (huri : mapping.extensionUri = uri) : table.filter (·.extensionUri = uri) = [mapping] := by
  apply List.perm_singleton.mp
  apply (List.perm_ext_iff_of_nodup ((nodup_of_uris huris).filter _)
    (List.nodup_singleton mapping)).mpr
  intro other
  rw [List.mem_filter, List.mem_singleton, decide_eq_true_eq]
  constructor
  · rintro ⟨hother, hsame⟩
    exact List.inj_on_of_nodup_map huris hother hmem (hsame.trans huri.symm)
  · rintro rfl
    exact ⟨hmem, huri⟩

section

variable (h : Assigns capabilities table assigned)

include h

theorem Assigns.mem : mapping ∈ table ↔
      mapping = standardNamespaceMapping ∨ ∃ profile ∈ extensions capabilities,
        mapping = ⟨profile.display, assigned profile⟩ := by
  rw [h.table.mem_iff, List.mem_cons, List.mem_map]
  simp only [Finset.mem_sort, eq_comm]

theorem Assigns.uris :
    (table.map (·.extensionUri)).Nodup := by
  rw [(h.table.map _).nodup_iff, List.map_cons, List.map_map, List.nodup_cons]
  constructor
  · intro hmem
    obtain ⟨profile, -, hsame⟩ := List.mem_map.mp hmem
    exact display_ne_standard profile hsame
  · refine List.Nodup.map_on ?_ (Finset.sort_nodup _ _)
    intro profile hmem other hother hsame
    exact display_inj (h.canonical profile ((Finset.mem_sort _).mp hmem))
      (h.canonical other ((Finset.mem_sort _).mp hother)) hsame

theorem Assigns.ids :
    (table.map (·.namespaceId)).Nodup := by
  rw [(h.table.map _).nodup_iff, List.map_cons, List.map_map, List.nodup_cons]
  constructor
  · intro hmem
    obtain ⟨profile, hprofile, hzero⟩ := List.mem_map.mp hmem
    exact h.nonzero profile ((Finset.mem_sort _).mp hprofile) hzero
  · refine List.Nodup.map_on ?_ (Finset.sort_nodup _ _)
    intro profile hmem other hother hsame
    exact h.distinct ((Finset.mem_sort _).mp hmem) ((Finset.mem_sort _).mp hother) hsame

theorem Assigns.checkProfile_eq (hmem : profile ∈ advertised capabilities) :
    checkProfile table profile = .ok () := by
  unfold checkProfile
  split_ifs with hname hother
  · exact absurd (h.standard profile hmem hname) hother
  · rfl
  · have hextension : profile ∈ extensions capabilities := mem_extensions.mpr ⟨hmem, hname⟩
    have hfilter := filter_eq_singleton h.uris
      (h.mem.mpr (Or.inr ⟨profile, hextension, rfl⟩)) rfl
    dsimp only at hfilter
    rw [hfilter]
    dsimp only
    rw [if_neg (h.nonzero profile hextension), if_neg (not_not.mpr rfl)]

theorem Assigns.checkMapping_eq (hmem : mapping ∈ table) :
    checkMapping capabilities mapping = .ok () := by
  rcases h.mem.mp hmem with rfl | ⟨profile, hprofile, rfl⟩
  · rfl
  · obtain ⟨hadvertised, hname⟩ := mem_extensions.mp hprofile
    unfold checkMapping
    dsimp only
    rw [if_neg (display_ne_standard profile), if_neg (h.nonzero profile hprofile),
      h.canonical profile hprofile]
    dsimp only
    rw [if_neg (not_not.mpr rfl), if_neg hname, if_neg]
    rw [not_and_or, not_not, not_not]
    exact Finset.mem_union.mp hadvertised

theorem Assigns.validate :
    validateExtensionNamespaceContract capabilities table = .ok () := by
  have hfilter : table.filter (·.extensionUri = Profile.standardWidgetsV1.name) =
      [standardNamespaceMapping] :=
    filter_eq_singleton h.uris (h.mem.mpr (Or.inl rfl)) rfl
  have hprofiles : checkProfiles table
      (capabilities.required.sort (· ≤ ·) ++ capabilities.optional.sort (· ≤ ·)) = .ok () := by
    apply checkProfiles_of
    intro profile hmem
    apply h.checkProfile_eq
    rcases List.mem_append.mp hmem with hrequired | hoptional
    · exact Finset.mem_union_left _ ((Finset.mem_sort _).mp hrequired)
    · exact Finset.mem_union_right _ ((Finset.mem_sort _).mp hoptional)
  unfold validateExtensionNamespaceContract
  rw [hfilter]
  dsimp only
  have hzero : standardNamespaceMapping.namespaceId = 0 := rfl
  rw [if_neg (not_not.mpr hzero), if_neg (not_not.mpr rfl), hprofiles]
  dsimp only
  apply checkMappings_of _ h.ids h.uris
  exact fun mapping hmem => ⟨h.checkMapping_eq hmem, List.not_mem_nil, List.not_mem_nil⟩

end

/-! ### What a client decodes -/

/-- An identifier of the table decodes to exactly one profile: zero to the standard widgets, of
which this version is negotiated if it is advertised and no other version ever is, and any other
identifier to a profile that a client can negotiate. -/
structure Decoded (capabilities : ServerCapabilities) (table : List ExtensionNamespaceMapping)
    (namespaceId : Nat) : Prop where
  unique : ∃! profile, Decodes table namespaceId profile
  standard : namespaceId = 0 → Decodes table namespaceId Profile.standardWidgetsV1 ∧
    (Profile.standardWidgetsV1 ∈ advertised capabilities →
      Negotiable capabilities Profile.standardWidgetsV1) ∧
    ∀ profile, Negotiable capabilities profile → profile.name = standardUri →
      profile = Profile.standardWidgetsV1
  extension : namespaceId ≠ 0 → ∀ profile, Decodes table namespaceId profile →
    Negotiable capabilities profile ∧ profile.name ≠ standardUri

theorem Assigns.decodes (h : Assigns capabilities table assigned)
    {namespaceId : Nat} : Decodes table namespaceId profile ↔
      namespaceId = 0 ∧ profile = Profile.standardWidgetsV1 ∨
        profile ∈ extensions capabilities ∧ namespaceId = assigned profile := by
  have hplain : ∀ parsed, parseProfile standardUri = .ok parsed → parsed.display ≠ standardUri :=
    fun parsed _ => display_ne_standard parsed
  constructor
  · rintro ⟨mapping, hmem, rfl, hread⟩
    rcases h.mem.mp hmem with rfl | ⟨other, hother, rfl⟩
    · rcases hread with ⟨-, rfl⟩ | ⟨hparsed, hdisplay⟩
      · exact Or.inl ⟨rfl, rfl⟩
      · exact absurd hdisplay (hplain profile hparsed)
    · rcases hread with ⟨huri, -⟩ | ⟨hparsed, -⟩
      · exact absurd huri (display_ne_standard other)
      · obtain rfl : profile = other :=
          Except.ok.inj (hparsed.symm.trans (h.canonical other hother))
        exact Or.inr ⟨hother, rfl⟩
  · rintro (⟨rfl, rfl⟩ | ⟨hmem, rfl⟩)
    · exact ⟨standardNamespaceMapping, h.mem.mpr (Or.inl rfl), rfl, Or.inl ⟨rfl, rfl⟩⟩
    · exact ⟨_, h.mem.mpr (Or.inr ⟨profile, hmem, rfl⟩), rfl,
        Or.inr ⟨h.canonical profile hmem, rfl⟩⟩

theorem Assigns.decoded (h : Assigns capabilities table assigned) {namespaceId : Nat}
    (hmem : namespaceId ∈ table.map (·.namespaceId)) :
    Decoded capabilities table namespaceId := by
  refine ⟨?_, ?_, ?_⟩
  · obtain ⟨mapping, htable, rfl⟩ := List.mem_map.mp hmem
    rcases h.mem.mp htable with rfl | ⟨profile, hprofile, rfl⟩
    · refine ⟨Profile.standardWidgetsV1, h.decodes.mpr (Or.inl ⟨rfl, rfl⟩), ?_⟩
      intro other hother
      rcases h.decodes.mp hother with ⟨-, rfl⟩ | ⟨hextension, hzero⟩
      · rfl
      · exact absurd hzero.symm (h.nonzero other hextension)
    · refine ⟨profile, h.decodes.mpr (Or.inr ⟨hprofile, rfl⟩), ?_⟩
      intro other hother
      rcases h.decodes.mp hother with ⟨hzero, -⟩ | ⟨hextension, hsame⟩
      · exact absurd hzero (h.nonzero profile hprofile)
      · exact (h.distinct hprofile hextension hsame).symm
  · rintro rfl
    refine ⟨h.decodes.mpr (Or.inl ⟨rfl, rfl⟩), negotiable_iff.mpr, ?_⟩
    exact fun profile hnegotiable => h.standard profile (negotiable_iff.mp hnegotiable)
  · intro hnonzero profile hdecodes
    rcases h.decodes.mp hdecodes with ⟨hzero, -⟩ | ⟨hextension, -⟩
    · exact absurd hzero hnonzero
    · obtain ⟨hadvertised, hname⟩ := mem_extensions.mp hextension
      exact ⟨negotiable_iff.mpr hadvertised, hname⟩

theorem validate_exact (capabilities : ServerCapabilities)
    (table : List ExtensionNamespaceMapping) :
    (validateExtensionNamespaceContract capabilities table = .ok () ↔
      ∃ assigned, Assigns capabilities table assigned) ∧
    (validateExtensionNamespaceContract capabilities table = .ok () →
      ∀ namespaceId ∈ table.map (·.namespaceId),
        Decoded capabilities table namespaceId) := by
  refine ⟨⟨fun h => ⟨_, assigns_of_validate h⟩, ?_⟩, ?_⟩
  · rintro ⟨assigned, h⟩
    exact h.validate
  · exact fun h namespaceId hmem => (assigns_of_validate h).decoded hmem

end Srui.Sessiond.NamespaceContracts

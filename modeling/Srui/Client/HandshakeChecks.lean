import Srui.Client.Capabilities
import Srui.Client.SnapshotAssemblers
import Srui.Sessiond.Handshakes

/-!
The handshake on the client: the hello and the resume it sends, and what it checks of a welcome,
of the acceptance of a resume and of a resync before it goes on. Texts are compared up to
canonical equivalence here; the sets of profiles are those of `Capabilities`, which tell names
apart by their scalars, and this is the same where no name has another spelling.
-/

namespace Srui.Client.HandshakeChecks

open Basic.Machine EventDedupe.Windows Client.Capabilities Client.SnapshotAssemblers
open Sessiond.TerminalNodes Sessiond.Capabilities Sessiond.PendingCancellations Sessiond.Handshakes

/-- `SRUICoreVersion`. -/
def sruiCoreVersion : String := "0.5.0"

/-- `defaultMaxFrameSize` of the client. -/
def clientMaxFrameSize : Nat := 16 * 1024 * 1024

/-- `defaultMaxSnapshotParts`. -/
def defaultMaxSnapshotParts : Nat := 16

/-- What the client takes from Unicode: `Character.isNumber`, which is more than the digits, and
the canonical form in which it compares texts. -/
structure UnicodeRules where
  isNumber : Char → Bool
  digits : ∀ c, c.isDigit → isNumber c
  canonical : String → String

/-- No other text is canonically equivalent. -/
def UnicodeRules.Plain (unicode : UnicodeRules) (text : String) : Prop :=
  ∀ other, unicode.canonical other = unicode.canonical text → other = text

/-- What a controller has when a handshake begins. `Int` limits of a store and of the resource
cache are signed. -/
structure Controller where
  clientCapabilities : Finset Profile
  requiredServerProfiles : Finset Profile
  maxTransactionOperations : Int
  maxTreeDepth : Int
  maxNodeCount : Int
  maxStringLength : Int
  maxEncodedBytes : Int
  retainedCapabilities : Option (Finset Profile)
  committedStoreContainsExtensionNodes : Bool

inductive HandshakeFailure where
  | incompatibleCoreVersion (version : String)
  | undeliverableSnapshot (e : SnapshotAssemblyError)
  | partsAtRevisionZero (parts : Nat)
  | unparsedRequiredProfiles (e : ParseProfileError)
  | negotiation (missing : List Profile)
  | unsatisfiedClient (missing : Finset Profile)
  | duplicateNamespaceId (namespaceId : Nat)
  | duplicateExtensionUri (uri : String)
  | terminalUnmapped
  | terminalMappedToZero
  | wrongSession (requested sessionId : String)
  | reusedSession (sessionId : String)
  | omittedNegotiation
  | unspecifiedContinuity
deriving DecidableEq

/-- `sruiCoreVersionIsCompatible`. -/
def sruiCoreVersionIsCompatible (unicode : UnicodeRules) (advertised : String) : Bool :=
  match majorMinor unicode.isNumber advertised, majorMinor unicode.isNumber sruiCoreVersion with
  | some advertised, some supported => advertised = supported
  | _, _ => false

/-- `UInt32(clamping:)`. -/
def clamping (value : Int) : Nat := min value.toNat u32Max

/-- `makeClientLimits`. -/
def makeClientLimits (controller : Controller) : ClientLimits where
  maxFrameSize := clamping clientMaxFrameSize
  maxTransactionOperations := clamping controller.maxTransactionOperations
  maxTreeDepth := clamping controller.maxTreeDepth
  maxNodeCount := clamping controller.maxNodeCount
  maxStringLength := clamping controller.maxStringLength
  maxResourceSize := clamping controller.maxEncodedBytes
  maxSnapshotParts := defaultMaxSnapshotParts

def makeHello (controller : Controller) (clientInstanceId : Bytes) : ClientHello where
  coreVersion := sruiCoreVersion
  profiles := toStringArray controller.clientCapabilities
  limits := some (makeClientLimits controller)
  clientInstanceId := clientInstanceId

def makeResume (controller : Controller) (requestedId : String) (clientInstanceId : Bytes)
    (lastAppliedRevision : Nat) (terminalStreamOffsets : List (Nat × Nat))
    (pendingTextEdits : List PendingTextEditRef) : ClientResume where
  sessionId := requestedId
  clientInstanceId := clientInstanceId
  lastAppliedRevision := lastAppliedRevision
  terminalStreamOffsets := terminalStreamOffsets
  limits := some (makeClientLimits controller)
  pendingTextEdits := pendingTextEdits
  coreVersion := sruiCoreVersion
  profiles := toStringArray controller.clientCapabilities

/-- `makeSnapshotAssembler`. -/
def makeSnapshotAssembler (controller : Controller) (snapshotRevision announcedParts : Nat) :
    Except HandshakeFailure SnapshotAssembler :=
  (SnapshotAssembler.init snapshotRevision announcedParts defaultMaxSnapshotParts
    controller.maxTransactionOperations).mapError .undeliverableSnapshot

def negotiateMessage (controller : Controller) (requiredProfiles optionalProfiles : List String) :
    Except HandshakeFailure (Finset Profile) :=
  match fromStrings requiredProfiles with
  | .error e => .error (.unparsedRequiredProfiles e)
  | .ok serverRequired =>
    match Client.Capabilities.negotiate controller.clientCapabilities serverRequired
        (fromValidStrings optionalProfiles) with
    | .error missing => .error (.negotiation missing)
    | .ok negotiated =>
      if controller.requiredServerProfiles ≠ ∅ ∧
          ¬controller.requiredServerProfiles ⊆ negotiated then
        .error (.unsatisfiedClient (controller.requiredServerProfiles \ negotiated))
      else .ok negotiated

/-- The loop of `applyExtensionNamespaces` over the table. -/
def checkDistinct (unicode : UnicodeRules) : List Nat → List String →
    List ExtensionNamespaceMapping → Except HandshakeFailure Unit
  | _, _, [] => .ok ()
  | seenIds, seenUris, mapping :: rest =>
    if mapping.namespaceId ∈ seenIds then .error (.duplicateNamespaceId mapping.namespaceId)
    else if unicode.canonical mapping.extensionUri ∈ seenUris then
      .error (.duplicateExtensionUri mapping.extensionUri)
    else
      checkDistinct unicode (mapping.namespaceId :: seenIds)
        (unicode.canonical mapping.extensionUri :: seenUris) rest

/-- `applyExtensionNamespaces`, up to where it publishes the type of terminals. -/
def applyExtensionNamespaces (unicode : UnicodeRules) (mappings : List ExtensionNamespaceMapping)
    (negotiated : Finset Profile) : Except HandshakeFailure (Option Nat) :=
  match checkDistinct unicode [] [] mappings with
  | .error e => .error e
  | .ok () =>
    let mapping := mappings.find? fun mapping =>
      unicode.canonical mapping.extensionUri = unicode.canonical terminalProfileUri
    if Profile.terminalV1 ∈ negotiated ∧ mapping = none then .error .terminalUnmapped
    else if (mapping.map (·.namespaceId)) = some 0 then .error .terminalMappedToZero
    else
      .ok (if Profile.terminalV1 ∈ negotiated then mapping.map (·.namespaceId) else none)

/-- What the client goes on with: the negotiated profiles, the namespace of terminals, and the
assembler of an announced snapshot. -/
structure Accepted where
  negotiated : Finset Profile
  terminalNamespace : Option Nat
  assembler : Option SnapshotAssembler

/-- `handleWelcome`. -/
def handleWelcome (unicode : UnicodeRules) (controller : Controller) (welcome : ServerWelcome) :
    Except HandshakeFailure Accepted :=
  if !sruiCoreVersionIsCompatible unicode welcome.coreVersion then
    .error (.incompatibleCoreVersion welcome.coreVersion)
  else
    let announced : Except HandshakeFailure (Option SnapshotAssembler) :=
      if welcome.initialRevision > 0 then
        (makeSnapshotAssembler controller welcome.initialRevision welcome.snapshotParts).map some
      else if welcome.snapshotParts = 0 then .ok none
      else .error (.partsAtRevisionZero welcome.snapshotParts)
    match announced with
    | .error e => .error e
    | .ok announced =>
      match negotiateMessage controller welcome.requiredProfiles welcome.optionalProfiles with
      | .error e => .error e
      | .ok negotiated =>
        match applyExtensionNamespaces unicode welcome.extensionNamespaces negotiated with
        | .error e => .error e
        | .ok terminalNamespace => .ok ⟨negotiated, terminalNamespace, announced⟩

/-- `validatedResumeNegotiation`; the server may have advertised nothing. -/
def validatedResumeNegotiation (controller : Controller)
    (requiredProfiles optionalProfiles : List String)
    (extensionNamespaces : List ExtensionNamespaceMapping) :
    Except HandshakeFailure (Option (Finset Profile)) :=
  if requiredProfiles = [] ∧ optionalProfiles = [] ∧ extensionNamespaces = [] then .ok none
  else (negotiateMessage controller requiredProfiles optionalProfiles).map some

/-- `handleResumeOk` on a client that has asked for a session. -/
def handleResumeOk (unicode : UnicodeRules) (controller : Controller) (requestedId : String)
    (resumeOk : ServerResumeOk) : Except HandshakeFailure Accepted :=
  if unicode.canonical requestedId ≠ unicode.canonical resumeOk.sessionId then
    .error (.wrongSession requestedId resumeOk.sessionId)
  else
    match validatedResumeNegotiation controller resumeOk.requiredProfiles
        resumeOk.optionalProfiles resumeOk.extensionNamespaces with
    | .error e => .error e
    | .ok (some negotiated) =>
      match applyExtensionNamespaces unicode resumeOk.extensionNamespaces negotiated with
      | .error e => .error e
      | .ok terminalNamespace => .ok ⟨negotiated, terminalNamespace, none⟩
    | .ok none =>
      match controller.retainedCapabilities with
      | some retained => .ok ⟨retained, none, none⟩
      | none =>
        if controller.requiredServerProfiles = ∅ ∧
            !controller.committedStoreContainsExtensionNodes then
          .ok ⟨{Profile.standardWidgetsV1}, none, none⟩
        else .error .omittedNegotiation

/-- `handleResyncRequired` on a client that has asked for a session. -/
def handleResyncRequired (unicode : UnicodeRules) (controller : Controller)
    (requestedId : String) (resync : ServerResyncRequired) : Except HandshakeFailure Accepted :=
  match makeSnapshotAssembler controller resync.snapshotRevision resync.snapshotParts with
  | .error e => .error e
  | .ok assembler =>
    match validatedResumeNegotiation controller resync.requiredProfiles
        resync.optionalProfiles resync.extensionNamespaces with
    | .error e => .error e
    | .ok response =>
      if response = none ∧ controller.retainedCapabilities = none ∧
          (controller.requiredServerProfiles ≠ ∅ ∨
            controller.committedStoreContainsExtensionNodes) then
        .error .omittedNegotiation
      else
        match resync.continuity with
        | .unspecified => .error .unspecifiedContinuity
        | .sameSession =>
          if unicode.canonical resync.sessionId ≠ unicode.canonical requestedId then
            .error (.wrongSession requestedId resync.sessionId)
          else
            match response with
            | none =>
              .ok ⟨controller.retainedCapabilities.getD {Profile.standardWidgetsV1}, none,
                some assembler⟩
            | some negotiated =>
              match applyExtensionNamespaces unicode resync.extensionNamespaces negotiated with
              | .error e => .error e
              | .ok terminalNamespace =>
                .ok ⟨negotiated, terminalNamespace, some assembler⟩
        | .replaced =>
          if unicode.canonical resync.sessionId = unicode.canonical requestedId then
            .error (.reusedSession requestedId)
          else
            match response with
            | none => .error .omittedNegotiation
            | some negotiated =>
              match applyExtensionNamespaces unicode resync.extensionNamespaces negotiated with
              | .error e => .error e
              | .ok terminalNamespace =>
                .ok ⟨negotiated, terminalNamespace, some assembler⟩

/-! ### What a session that keeps its contract is checked for -/

section Contract

variable {unicode : UnicodeRules} {controller : Controller} {capabilities : ServerCapabilities}
  {table : List ExtensionNamespaceMapping} {negotiated : Finset Profile}

theorem canonical_nodup (hplain : ∀ mapping ∈ table, unicode.Plain mapping.extensionUri)
    (huris : (table.map (·.extensionUri)).Nodup) :
    (table.map fun mapping => unicode.canonical mapping.extensionUri).Nodup := by
  have hinjective : Set.InjOn unicode.canonical {uri | uri ∈ table.map (·.extensionUri)} := by
    intro uri _ other hother hsame
    obtain ⟨mapping, hmem, rfl⟩ := List.mem_map.mp hother
    exact hplain mapping hmem uri hsame
  have hcanonical := huris.map_on fun uri huri other hother hsame => hinjective huri hother hsame
  rwa [List.map_map] at hcanonical

theorem checkDistinct_ok {seenIds : List Nat} {seenUris : List String}
    (hids : (table.map (·.namespaceId)).Nodup)
    (huris : (table.map fun mapping => unicode.canonical mapping.extensionUri).Nodup)
    (hnewIds : ∀ mapping ∈ table, mapping.namespaceId ∉ seenIds)
    (hnewUris : ∀ mapping ∈ table, unicode.canonical mapping.extensionUri ∉ seenUris) :
    checkDistinct unicode seenIds seenUris table = .ok () := by
  induction table generalizing seenIds seenUris with
  | nil => rfl
  | cons first rest ih =>
    rw [List.map_cons, List.nodup_cons] at hids huris
    rw [checkDistinct, if_neg (hnewIds first List.mem_cons_self),
      if_neg (hnewUris first List.mem_cons_self)]
    refine ih hids.2 huris.2 ?_ ?_
    · intro mapping hmem hseen
      rcases List.mem_cons.mp hseen with hsame | hold
      · exact hids.1 (hsame ▸ List.mem_map_of_mem hmem)
      · exact hnewIds mapping (List.mem_cons_of_mem _ hmem) hold
    · intro mapping hmem hseen
      rcases List.mem_cons.mp hseen with hsame | hold
      · exact huris.1 (hsame ▸ List.mem_map_of_mem hmem)
      · exact hnewUris mapping (List.mem_cons_of_mem _ hmem) hold

theorem applyExtensionNamespaces_ok (hcontract : Contract capabilities table)
    (hplain : ∀ mapping ∈ table, unicode.Plain mapping.extensionUri)
    (hnegotiated : negotiated ⊆ capabilities.required ∪ capabilities.optional) :
    ∃ terminalNamespace,
      applyExtensionNamespaces unicode table negotiated = .ok terminalNamespace := by
  unfold applyExtensionNamespaces
  rw [checkDistinct_ok hcontract.ids (canonical_nodup hplain hcontract.uris)
    (fun _ _ => List.not_mem_nil) (fun _ _ => List.not_mem_nil)]
  dsimp only
  rw [if_neg, if_neg]
  · exact ⟨_, rfl⟩
  · intro hzero
    obtain ⟨mapping, hfind, hid⟩ := Option.map_eq_some_iff.mp hzero
    have hmem := List.mem_of_find?_eq_some hfind
    have huri : terminalProfileUri = mapping.extensionUri := by
      have hfound := List.find?_some hfind
      exact hplain mapping hmem _ (of_decide_eq_true hfound).symm
    refine hcontract.nonzero mapping hmem ?_ hid
    rw [← huri]
    decide
  · rintro ⟨hterminal, hnone⟩
    have hadvertised := Finset.mem_union.mp (hnegotiated hterminal)
    obtain ⟨mapping, hmem, huri⟩ := hcontract.mapped _ hadvertised (by decide)
    have habsent := List.find?_eq_none.mp hnone mapping hmem
    refine habsent (decide_eq_true (congrArg unicode.canonical (huri.trans ?_)))
    decide +kernel

theorem negotiate_subset {offered : Finset Profile}
    (h : Sessiond.Capabilities.negotiate capabilities offered = .ok negotiated) :
    negotiated ⊆ capabilities.required ∪ capabilities.optional := by
  unfold Sessiond.Capabilities.negotiate at h
  dsimp only at h
  split at h
  · cases h
  obtain rfl := Except.ok.inj h
  exact Finset.union_subset_union_right (Finset.filter_subset _ _)

theorem negotiateMessage_ok (hcontract : Contract capabilities table)
    (hpolicy : controller.requiredServerProfiles = ∅)
    (h : Sessiond.Capabilities.negotiate capabilities controller.clientCapabilities =
      .ok negotiated) :
    negotiateMessage controller (toStringVec capabilities.required)
      (toStringVec capabilities.optional) = .ok negotiated := by
  unfold negotiateMessage
  rw [fromStrings_toStringVec fun profile hmem => hcontract.wellFormed profile (.inl hmem),
    fromValidStrings_toStringVec fun profile hmem => hcontract.wellFormed profile (.inr hmem)]
  dsimp only
  rw [negotiate_eq, h]
  dsimp only
  rw [if_neg (fun hstrict => hstrict.1 hpolicy)]

theorem validatedResumeNegotiation_ok (hcontract : Contract capabilities table)
    (hpolicy : controller.requiredServerProfiles = ∅)
    (h : Sessiond.Capabilities.negotiate capabilities controller.clientCapabilities =
      .ok negotiated) :
    validatedResumeNegotiation controller (toStringVec capabilities.required)
      (toStringVec capabilities.optional) table = .ok (some negotiated) := by
  unfold validatedResumeNegotiation
  rw [if_neg fun habsent => hcontract.standard habsent.2.2, negotiateMessage_ok hcontract hpolicy h]
  rfl

end Contract

theorem majorMinor_of_digits (unicode : UnicodeRules) :
    majorMinor unicode.isNumber sruiCoreVersion = some (['0'], ['5']) := by
  have hzero : unicode.isNumber '0' = true := unicode.digits '0' (by decide)
  have hfive : unicode.isNumber '5' = true := unicode.digits '5' (by decide)
  have hparts : sruiCoreVersion.toList.splitOn '.' = [['0'], ['5'], ['0']] := by decide +kernel
  unfold majorMinor
  rw [hparts]
  dsimp only
  rw [if_pos (by simp [hzero, hfive])]

theorem sruiCoreVersionIsCompatible_server (unicode : UnicodeRules) :
    sruiCoreVersionIsCompatible unicode coreVersion = true := by
  unfold sruiCoreVersionIsCompatible
  rw [show coreVersion = sruiCoreVersion from rfl, majorMinor_of_digits]
  exact decide_eq_true rfl

end Srui.Client.HandshakeChecks

import Srui.Client.HandshakeChecks
import Srui.Sessiond.EventCalls

/-!
A handshake that the server accepts is one that the client accepts: the checks of the answer
pass, both sides negotiate the same profiles, and the announced snapshot is staged to its end.
-/

namespace Srui.Exchange.HandshakeAgreement

open Basic.Machine SemanticTree.Stores SemanticTree.Operations SemanticTree.Wire EventDedupe.Windows
open Protocol.SnapshotFraming (SnapshotFramePlan split partCount announcedParts
  effectiveParts)
open Protocol.SnapshotReassembly Protocol.SnapshotEnvelopes Client.Capabilities
open Client.SnapshotAssemblers Client.HandshakeChecks Sessiond.EventProcessing
open Sessiond.EventCalls (opened)
open Sessiond.PendingCancellations Sessiond.TerminalNodes Sessiond.Capabilities Sessiond.Handshakes

section Limits

variable {controller : Controller} {serverMaxFrameSize : Nat}

theorem envelopeBudget_le_client :
    envelopeBudget serverMaxFrameSize (some (makeClientLimits controller)) ≤
      (makeClientLimits controller).maxFrameSize := by
  have hclient : ((some (makeClientLimits controller)).bind fun limits =>
      nonzero limits.maxFrameSize) = some (makeClientLimits controller).maxFrameSize := rfl
  unfold envelopeBudget
  dsimp only
  rw [hclient]
  exact (Nat.min_le_right _ _).trans (Nat.min_le_right _ _)

theorem envelopeBudget_le_server (clientLimits : Option ClientLimits)
    (h : serverMaxFrameSize ≠ 0) :
    envelopeBudget serverMaxFrameSize clientLimits ≤ serverMaxFrameSize := by
  unfold envelopeBudget
  dsimp only
  rw [nonzero, if_pos h]
  exact (Nat.min_le_right _ _).trans (Nat.min_le_left _ _)

theorem clamping_positive {limit : Int} (h : 0 < limit) :
    clamping limit ≠ 0 ∧ clamping limit ≤ limit.toNat := by
  refine ⟨?_, Nat.min_le_left _ _⟩
  have hpositive : 0 < limit.toNat := Int.lt_toNat.mpr h
  unfold clamping u32Max
  omega

end Limits

/-- The client stages the snapshot: its envelopes are within the frame sizes that the peers
advertise (an empty snapshot fits only what a client advertises), and the assembler of a client
with room for operations completes it with the last of them. -/
def Staged (encodedLen : WireOperation → Nat) (controller : Controller) (config : SessionConfig)
    (frames : SnapshotFramePlan) (snapshot : WireTransaction) (assembler : SnapshotAssembler) :
    Prop :=
  ∃ envelopes, split frames snapshot = .ok envelopes ∧
    envelopes.length = partCount frames ∧
    (∀ envelope ∈ envelopes,
      framedPayloadLen encodedLen envelope ≤ (makeClientLimits controller).maxFrameSize ∧
      (config.limits.maxFrameSize ≠ 0 → snapshot.operations ≠ [] →
        framedPayloadLen encodedLen envelope ≤ config.limits.maxFrameSize)) ∧
    (0 < controller.maxTransactionOperations →
      acceptAll assembler envelopes =
        List.replicate (partCount frames - 1) (.ok none) ++ [.ok (some snapshot)])

/-- No name that a handshake compares has another spelling: neither those that the client offers
nor those of the session. -/
structure PlainNames (unicode : UnicodeRules) (controller : Controller) (config : SessionConfig) :
    Prop where
  offered : ∀ profile ∈ controller.clientCapabilities, unicode.Plain profile.name
  advertised : ∀ profile ∈ config.capabilities.required ∪ config.capabilities.optional,
    unicode.Plain profile.name
  mapped : ∀ mapping ∈ config.extensionNamespaces, unicode.Plain mapping.extensionUri
  session : unicode.Plain config.sessionId

/-- The client that has asked for a session goes on with the answer, with these profiles. -/
def ResumeAccepted (encodedLen : WireOperation → Nat) (unicode : UnicodeRules)
    (controller : Controller) (config : SessionConfig) (requestedId : String) (negotiated : Finset Profile)
    (frames : SnapshotFramePlan) : ResumeOutcome → Prop
  | .replay resumeOk _ =>
    ∃ accepted, handleResumeOk unicode controller requestedId resumeOk = .ok accepted ∧
      accepted.negotiated = negotiated
  | .resync resync snapshot =>
    ∃ accepted assembler,
      handleResyncRequired unicode controller requestedId resync = .ok accepted ∧
      accepted.negotiated = negotiated ∧ accepted.assembler = some assembler ∧
      Staged encodedLen controller config frames snapshot assembler

section Snapshot

variable {encodedLen : WireOperation → Nat} {controller : Controller} {config : SessionConfig}
  {revision : Nat} {snapshot : WireTransaction} {frames : SnapshotFramePlan}

theorem makeSnapshotAssembler_ok (controller : Controller) (revision : Nat) {announced : Nat}
    (h : effectiveParts announced ≤ defaultMaxSnapshotParts) :
    ∃ assembler, makeSnapshotAssembler controller revision announced = .ok assembler ∧
      SnapshotAssembler.init revision announced defaultMaxSnapshotParts
        controller.maxTransactionOperations = .ok assembler := by
  unfold makeSnapshotAssembler SnapshotAssembler.init
  dsimp only
  rw [if_pos (show max announced 1 ≤ max defaultMaxSnapshotParts 1 from h)]
  exact ⟨_, rfl, rfl⟩

theorem staged_of_deliverable
    (h : Deliverable encodedLen config.limits.maxFrameSize (some (makeClientLimits controller))
      revision snapshot frames) (hbounded : revision ≤ u64Max) :
    ∃ assembler, makeSnapshotAssembler controller revision (announcedParts frames) =
        .ok assembler ∧
      Staged encodedLen controller config frames snapshot assembler := by
  obtain ⟨hbase, hrevision, hpriority, hplanned, hoperations⟩ := h
  have hcovers := planSnapshotFrames_covers hplanned
  have hparts : partCount frames ≤ defaultMaxSnapshotParts := planSnapshotFrames_parts hplanned
  obtain ⟨envelopes, -, hsplit, hlength, -, -⟩ :=
    split_accepted hbase (.inr ⟨_, _, hplanned⟩) hparts (Nat.le_refl _)
  have hcount : partCount frames ≠ 0 := by
    obtain ⟨last, hlast, -⟩ := hcovers.total
    intro hzero
    rw [List.length_eq_zero_iff.mp hzero] at hlast
    cases hlast
  obtain ⟨assembler, hmade, hinit⟩ := makeSnapshotAssembler_ok controller revision
    (le_of_eq_of_le (announcedParts_effective hcount) hparts)
  refine ⟨assembler, hmade, envelopes, hsplit, hlength, fun envelope henvelope => ?_,
    fun hpositive => ?_⟩
  · rcases eq_or_ne snapshot.operations [] with hempty | hfilled
    · obtain ⟨hsameBase, hsameRevision, hsamePriority, hnone⟩ :=
        split_empty hcovers hsplit hempty envelope henvelope
      have hsmall := framedPayloadLen_empty encodedLen (hsameBase.trans hbase)
        (by rw [hsameRevision, hrevision]; exact hbounded)
        (by rw [hsamePriority, hpriority]; exact Nat.zero_le _) hnone
      exact ⟨hsmall.trans (show 64 ≤ clamping clientMaxFrameSize by decide),
        fun _ hfilled => absurd hempty hfilled⟩
    · have hfits := split_fits hplanned hsplit hfilled envelope henvelope
      exact ⟨hfits.trans envelopeBudget_le_client,
        fun hserver _ => hfits.trans (envelopeBudget_le_server _ hserver)⟩
  · obtain ⟨hbinding, hclamped⟩ := clamping_positive hpositive
    have hlimit := (hoperations _ rfl hbinding).trans hclamped
    obtain ⟨again, server, hagain, -, hnew, haccepted⟩ :=
      split_accepted hbase (.inr ⟨_, _, hplanned⟩) hparts hlimit
    obtain rfl := Except.ok.inj (hsplit.symm.trans hagain)
    rw [← Int.toNat_of_nonneg (Int.le_of_lt hpositive), init_mirrored, ← hrevision, hnew] at hinit
    obtain rfl := Except.ok.inj hinit
    rw [acceptAll_mirrored, haccepted, List.map_append, List.map_replicate]
    rfl

end Snapshot

section Answers

variable {encodedLen : WireOperation → Nat} {payloadLen : WireModelItem → Nat} {env : Externals}
  {unicode : UnicodeRules} {controller : Controller} {config : SessionConfig}

theorem negotiateClient_offered {version : String} {negotiated : Finset Profile}
    (hprofiles : ∀ profile ∈ controller.clientCapabilities, WellFormed profile)
    (h : negotiateClient config version (toStringArray controller.clientCapabilities) =
      .ok negotiated) :
    Sessiond.Capabilities.negotiate config.capabilities controller.clientCapabilities =
        .ok negotiated ∧
      Contract config.capabilities config.extensionNamespaces := by
  obtain ⟨hnegotiated, hcontract⟩ := negotiateClient_ok h
  rw [offeredProfiles_toStringArray hprofiles] at hnegotiated
  exact ⟨hnegotiated, hcontract⟩

theorem welcome_accepted (hplain : PlainNames unicode controller config)
    (hprofiles : ∀ profile ∈ controller.clientCapabilities, WellFormed profile)
    (hpolicy : controller.requiredServerProfiles = ∅) {clientInstanceId : Bytes}
    {bootstrap : FreshClientBootstrap}
    (h : Welcomed encodedLen config (makeHello controller clientInstanceId) bootstrap) :
    ∃ accepted, handleWelcome unicode controller bootstrap.welcome = .ok accepted ∧
      negotiateClient config sruiCoreVersion (toStringArray controller.clientCapabilities) =
        .ok accepted.negotiated ∧
      bootstrap.terminalNegotiated = decide (Profile.terminalV1 ∈ accepted.negotiated) ∧
      (bootstrap.snapshot = none ∧ accepted.assembler = none ∨
        ∃ snapshot assembler, bootstrap.snapshot = some snapshot ∧
          accepted.assembler = some assembler ∧
          Staged encodedLen controller config bootstrap.snapshotFrames snapshot assembler) := by
  obtain ⟨negotiated, hclient, hterminal⟩ := h.negotiated
  obtain ⟨hnegotiated, hcontract⟩ := negotiateClient_offered hprofiles hclient
  have hmessage := negotiateMessage_ok hcontract hpolicy hnegotiated
  obtain ⟨terminalNamespace, hnamespaces⟩ :=
    applyExtensionNamespaces_ok hcontract hplain.mapped (negotiate_subset hnegotiated)
  have hchecked : ∀ announced : Option SnapshotAssembler,
      (if bootstrap.welcome.initialRevision > 0 then
          (makeSnapshotAssembler controller bootstrap.welcome.initialRevision
            bootstrap.welcome.snapshotParts).map some
        else if bootstrap.welcome.snapshotParts = 0 then .ok none
        else .error (.partsAtRevisionZero bootstrap.welcome.snapshotParts)) = .ok announced →
      handleWelcome unicode controller bootstrap.welcome =
        .ok ⟨negotiated, terminalNamespace, announced⟩ := by
    intro announced hannounced
    unfold handleWelcome
    rw [h.compatible, sruiCoreVersionIsCompatible_server, if_neg (by decide)]
    dsimp only
    rw [hannounced]
    dsimp only
    rw [h.required, h.optional, hmessage]
    dsimp only
    rw [h.namespaces, hnamespaces]
  rcases h.snapshot with ⟨hzero, hnone, hsingle⟩ | ⟨hpositive, snapshot, hsome, hdeliverable⟩
  · refine ⟨_, hchecked none ?_, hclient, hterminal, .inl ⟨hnone, rfl⟩⟩
    have hparts : bootstrap.welcome.snapshotParts = 0 := by
      rw [h.announced, hsingle]
      rfl
    rw [if_neg (by rw [hzero]; exact Nat.lt_irrefl 0), if_pos hparts]
  · obtain ⟨assembler, hmade, hstaged⟩ := staged_of_deliverable hdeliverable h.bounded
    refine ⟨_, hchecked (some assembler) ?_, hclient, hterminal,
      .inr ⟨snapshot, assembler, hsome, rfl, hstaged⟩⟩
    rw [if_pos hpositive, h.announced, hmade]
    rfl

theorem resume_accepted (hplain : PlainNames unicode controller config)
    (hprofiles : ∀ profile ∈ controller.clientCapabilities, WellFormed profile)
    (hpolicy : controller.requiredServerProfiles = ∅) {negotiated : Finset Profile}
    (hclient : negotiateClient config sruiCoreVersion
      (toStringArray controller.clientCapabilities) = .ok negotiated)
    {resume : ClientResume} (hlimits : resume.limits = some (makeClientLimits controller))
    {outcome : ResumeOutcome} {frames : SnapshotFramePlan}
    (h : Resumed encodedLen config resume outcome frames) :
    ResumeAccepted encodedLen unicode controller config resume.sessionId negotiated frames outcome := by
  obtain ⟨hnegotiated, hcontract⟩ := negotiateClient_offered hprofiles hclient
  have hvalidated := validatedResumeNegotiation_ok hcontract hpolicy hnegotiated
  obtain ⟨terminalNamespace, hnamespaces⟩ :=
    applyExtensionNamespaces_ok hcontract hplain.mapped (negotiate_subset hnegotiated)
  rcases h with hsame | ⟨hcause, hbounded, hdeliverable⟩
  · refine ⟨⟨negotiated, terminalNamespace, none⟩, ?_, rfl⟩
    unfold handleResumeOk
    rw [if_neg (not_not.mpr (congrArg unicode.canonical hsame))]
    dsimp only
    rw [hvalidated]
    dsimp only
    rw [hnamespaces]
  · rename_i pending cause revision snapshot reading
    rw [hlimits] at hdeliverable
    obtain ⟨assembler, hmade, hstaged⟩ := staged_of_deliverable hdeliverable hbounded
    refine ⟨⟨negotiated, terminalNamespace, some assembler⟩, assembler, ?_, rfl, rfl, hstaged⟩
    unfold handleResyncRequired
    dsimp only
    rw [hmade]
    dsimp only
    rw [hvalidated]
    dsimp only
    rw [if_neg fun habsent => nomatch habsent.1]
    cases cause with
    | replacedIncarnation =>
      dsimp only [ResyncCause.continuity]
      rw [if_neg fun hreused => hcause.mp rfl (hplain.session _ hreused.symm), hnamespaces]
    | outboundQueueOverflow | journalGap =>
      have hsame : resume.sessionId = config.sessionId :=
        not_not.mp fun hother => nomatch hcause.mpr hother
      dsimp only [ResyncCause.continuity]
      rw [if_neg (not_not.mpr (congrArg unicode.canonical hsame.symm)), hnamespaces]

/-- Whatever the configuration and the state of the session, when it answers the hello or the
resume of a client whose profiles are well formed, and no name has another spelling, the checks
of the client pass, both have negotiated the same profiles, and the snapshot that is announced comes in envelopes within the
advertised frame size, which the client stages to the end if it has room for operations. -/
theorem handshake_accepted (encodedLen : WireOperation → Nat) (payloadLen : WireModelItem → Nat)
    (env : Externals) (unicode : UnicodeRules) (controller : Controller) (config : SessionConfig)
    (readings : Nat → Reading × Reading) (attachment : Attachment) (clientInstanceId : Bytes)
    (hplain : PlainNames unicode controller config)
    (hprofiles : ∀ profile ∈ controller.clientCapabilities, WellFormed profile)
    (hpolicy : controller.requiredServerProfiles = ∅) :
    (∀ bootstrap : FreshClientBootstrap,
      bootstrapFreshClient encodedLen payloadLen config readings attachment
        (makeHello controller clientInstanceId) = .ok bootstrap →
      ∃ accepted, handleWelcome unicode controller bootstrap.welcome = .ok accepted ∧
        negotiateClient config sruiCoreVersion (toStringArray controller.clientCapabilities) =
          .ok accepted.negotiated ∧
        bootstrap.terminalNegotiated = decide (Profile.terminalV1 ∈ accepted.negotiated) ∧
        (bootstrap.snapshot = none ∧ accepted.assembler = none ∨
          ∃ snapshot assembler, bootstrap.snapshot = some snapshot ∧
            accepted.assembler = some assembler ∧
            Staged encodedLen controller config bootstrap.snapshotFrames snapshot assembler)) ∧
    ∀ (requestedId : String) (lastAppliedRevision : Nat)
      (terminalStreamOffsets : List (Nat × Nat)) (pendingTextEdits : List PendingTextEditRef)
      (bootstrap : ResumeClientBootstrap),
      bootstrapResume encodedLen payloadLen env config readings attachment
        (makeResume controller requestedId clientInstanceId lastAppliedRevision
          terminalStreamOffsets pendingTextEdits) = .ok bootstrap →
      ∃ negotiated,
        negotiateClient config sruiCoreVersion (toStringArray controller.clientCapabilities) =
          .ok negotiated ∧
        bootstrap.terminalNegotiated = decide (Profile.terminalV1 ∈ negotiated) ∧
        ResumeAccepted encodedLen unicode controller config requestedId negotiated
          bootstrap.snapshotFrames bootstrap.outcome := by
  refine ⟨?_, ?_⟩
  · intro bootstrap hbootstrap
    exact welcome_accepted hplain hprofiles hpolicy (bootstrapFreshClient_ok hbootstrap)
  · intro requestedId lastAppliedRevision terminalStreamOffsets pendingTextEdits bootstrap
      hbootstrap
    obtain ⟨hresumed, negotiated, hclient, hterminal⟩ := bootstrapResume_ok hbootstrap
    exact ⟨negotiated, hclient, hterminal,
      resume_accepted hplain hprofiles hpolicy hclient rfl hresumed⟩

end Answers

section Examples

/-- Every text is taken for its only spelling. -/
def scalars : UnicodeRules := ⟨Char.isDigit, fun _ hdigit => hdigit, id⟩

def offering (profiles : Finset Profile) (maxOperations : Int) : Controller where
  clientCapabilities := profiles
  requiredServerProfiles := ∅
  maxTransactionOperations := maxOperations
  maxTreeDepth := 64
  maxNodeCount := 1000
  maxStringLength := 1000
  maxEncodedBytes := 1000
  retainedCapabilities := none
  committedStoreContainsExtensionNodes := false

def widgets (maxFrameSize : Nat) : SessionConfig where
  sessionId := "first"
  capabilities := ⟨{Profile.standardWidgetsV1}, ∅⟩
  extensionNamespaces := [standardNamespaceMapping]
  limits := ⟨maxFrameSize, 100, 64, 1000, 1000, 1000⟩

def emptied : SemanticStore := .withLimitsAndRevision .default 1

def oneWidget : SemanticStore := (apply (.createNode 1 ⟨0, 1⟩ none none []) emptied).1

def readingOf (store : SemanticStore) (h : store.revision ≤ u64Max) : Reading where
  inner := { (opened .default 8 8 1 8).inner with session := ⟨store, .new 8⟩ }
  stale := false
  bounded := h

def attachedOk : Attachment := ⟨.ok (), .ok ()⟩

def answerHello (config : SessionConfig) (controller : Controller) (reading : Reading) :
    Outcome HandshakeError FreshClientBootstrap :=
  bootstrapFreshClient (fun _ => 10) (fun _ => 0) config (fun _ => (reading, reading)) attachedOk
    (makeHello controller [65])

def widgetReading : Reading := readingOf oneWidget (by decide +kernel)

def emptiedReading : Reading := readingOf emptied (by decide)

def refusal {ε α : Type} : Except ε α → Option ε
  | .error e => some e
  | .ok _ => none

theorem exists_ok {ε α : Type} {result : Except ε α} {p : α → Bool}
    (h : result.toOption.any p = true) : ∃ a, result = .ok a ∧ p a = true := by
  rcases result with e | a
  · cases h
  · exact ⟨a, rfl, h⟩

theorem wellFormed_offered :
    ∀ profile ∈ (offering {Profile.standardWidgetsV1} 100).clientCapabilities,
      WellFormed profile := by
  intro profile hmem
  rw [Finset.mem_singleton.mp hmem]
  exact wellFormed_standard

theorem plainNames_scalars {controller : Controller} {config : SessionConfig} :
    PlainNames scalars controller config :=
  ⟨fun _ _ _ h => h, fun _ _ _ h => h, fun _ _ _ h => h, fun _ h => h⟩

theorem handshake_accepted_widgets :
    ∃ bootstrap accepted,
      answerHello (widgets 0) (offering {Profile.standardWidgetsV1} 100) widgetReading =
        .ok bootstrap ∧
      handleWelcome scalars (offering {Profile.standardWidgetsV1} 100) bootstrap.welcome =
        .ok accepted ∧
      bootstrap.terminalNegotiated = decide (Profile.terminalV1 ∈ accepted.negotiated) := by
  obtain ⟨bootstrap, hok, -⟩ := exists_ok (p := fun _ => true)
    (show (answerHello (widgets 0) (offering {Profile.standardWidgetsV1} 100)
      widgetReading).toOption.any _ = true by decide +kernel)
  obtain ⟨accepted, hwelcome, -, hterminal, -⟩ :=
    (handshake_accepted (fun _ => 10) (fun _ => 0) ⟨fun _ => "", fun _ => "", fun _ => "",
      fun _ => "", fun _ => []⟩ scalars (offering {Profile.standardWidgetsV1} 100) (widgets 0)
      (fun _ => (widgetReading, widgetReading)) attachedOk [65] plainNames_scalars
      wellFormed_offered rfl).1
      bootstrap hok
  exact ⟨bootstrap, accepted, hok, hwelcome, hterminal⟩

/-- The server accepts where the client does not: a limit of no operations is advertised like
none at all, a profile built unchecked is offered by a name that the server trims, and the empty
snapshot of a session is sent in a frame larger than the session advertises. -/
theorem handshake_refused :
    (∃ bootstrap snapshot accepted assembler envelopes,
      answerHello (widgets 0) (offering {Profile.standardWidgetsV1} 0) widgetReading =
        .ok bootstrap ∧
      bootstrap.snapshot = some snapshot ∧
      handleWelcome scalars (offering {Profile.standardWidgetsV1} 0) bootstrap.welcome =
        .ok accepted ∧
      accepted.assembler = some assembler ∧
      split bootstrap.snapshotFrames snapshot = .ok envelopes ∧
      (acceptAll assembler envelopes).map refusal = [some (.operationLimitExceeded 0 0 1)]) ∧
    (∃ bootstrap,
      answerHello (widgets 0) (offering {⟨"org.srui.standard-widgets ", 1⟩} 100) widgetReading =
        .ok bootstrap ∧
      refusal (handleWelcome scalars (offering {⟨"org.srui.standard-widgets ", 1⟩} 100)
        bootstrap.welcome) = some (.negotiation [Profile.standardWidgetsV1])) ∧
    ∃ bootstrap snapshot,
      answerHello (widgets 3) (offering {Profile.standardWidgetsV1} 100) emptiedReading =
        .ok bootstrap ∧
      bootstrap.snapshot = some snapshot ∧
      (widgets 3).limits.maxFrameSize < framedPayloadLen (fun _ => 10) snapshot := by
  refine ⟨?_, ?_, ?_⟩
  · obtain ⟨bootstrap, hok, hp⟩ := exists_ok
      (p := fun bootstrap => bootstrap.snapshot.any fun snapshot =>
        (handleWelcome scalars (offering {Profile.standardWidgetsV1} 0)
          bootstrap.welcome).toOption.any fun accepted =>
        accepted.assembler.any fun assembler =>
        (split bootstrap.snapshotFrames snapshot).toOption.any fun envelopes =>
        (acceptAll assembler envelopes).map refusal = [some (.operationLimitExceeded 0 0 1)])
      (show (answerHello (widgets 0) (offering {Profile.standardWidgetsV1} 0)
        widgetReading).toOption.any _ = true by decide +kernel)
    obtain ⟨snapshot, hsnapshot, hp⟩ := (Option.any_eq_true _ _).mp hp
    obtain ⟨accepted, hwelcome, hp⟩ := exists_ok hp
    obtain ⟨assembler, hassembler, hp⟩ := (Option.any_eq_true _ _).mp hp
    obtain ⟨envelopes, hsplit, hp⟩ := exists_ok hp
    exact ⟨bootstrap, snapshot, accepted, assembler, envelopes, hok, hsnapshot, hwelcome,
      hassembler, hsplit, of_decide_eq_true hp⟩
  · obtain ⟨bootstrap, hok, hp⟩ := exists_ok
      (p := fun bootstrap => refusal (handleWelcome scalars
        (offering {⟨"org.srui.standard-widgets ", 1⟩} 100) bootstrap.welcome) =
          some (.negotiation [Profile.standardWidgetsV1]))
      (show (answerHello (widgets 0) (offering {⟨"org.srui.standard-widgets ", 1⟩} 100)
        widgetReading).toOption.any _ = true by decide +kernel)
    exact ⟨bootstrap, hok, of_decide_eq_true hp⟩
  · obtain ⟨bootstrap, hok, hp⟩ := exists_ok
      (p := fun bootstrap => bootstrap.snapshot.any fun snapshot =>
        (widgets 3).limits.maxFrameSize < framedPayloadLen (fun _ => 10) snapshot)
      (show (answerHello (widgets 3) (offering {Profile.standardWidgetsV1} 100)
        emptiedReading).toOption.any _ = true by decide +kernel)
    obtain ⟨snapshot, hsnapshot, hlarge⟩ := (Option.any_eq_true _ _).mp hp
    exact ⟨bootstrap, snapshot, hok, hsnapshot, of_decide_eq_true hlarge⟩

end Examples

end Srui.Exchange.HandshakeAgreement

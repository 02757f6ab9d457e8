import Srui.Protocol.SnapshotEnvelopes
import Srui.Sessiond.Capabilities
import Srui.Sessiond.PendingCancellations
import Srui.Sessiond.Snapshots

/-!
The handshake of a client with a session: the answer to a hello, and to a resume.

A handshake takes the lock of the session, exports the snapshot without it, and takes it again,
so what it finds at each lock is an input here. The capabilities, the namespace table and the
limits stay as they are, since a connection is attached as long as its handshake runs.
-/

namespace Srui.Sessiond.Handshakes

open Basic.Machine SemanticTree.Wire SemanticTree.Stores EventDedupe.Windows
open EventDedupe.Deduplicators Journal.TransactionJournals Protocol.SnapshotFraming
open Sessiond.Sessions Sessiond.Snapshots Sessiond.EventProcessing Sessiond.PendingCancellations
open Sessiond.TerminalNodes Sessiond.Capabilities

structure ClientLimits where
  maxFrameSize : Nat
  maxTransactionOperations : Nat
  maxTreeDepth : Nat
  maxNodeCount : Nat
  maxStringLength : Nat
  maxResourceSize : Nat
  maxSnapshotParts : Nat
deriving DecidableEq

structure ServerLimits where
  maxFrameSize : Nat
  maxTransactionOperations : Nat
  maxTreeDepth : Nat
  maxNodeCount : Nat
  maxStringLength : Nat
  maxResourceSize : Nat
deriving DecidableEq

structure ClientHello where
  coreVersion : String
  profiles : List String
  limits : Option ClientLimits
  clientInstanceId : Bytes

structure ServerWelcome where
  coreVersion : String
  requiredProfiles : List String
  optionalProfiles : List String
  sessionId : String
  initialRevision : Nat
  extensionNamespaces : List ExtensionNamespaceMapping
  limits : Option ServerLimits
  snapshotParts : Nat
deriving DecidableEq

structure ClientResume where
  sessionId : String
  clientInstanceId : Bytes
  lastAppliedRevision : Nat
  terminalStreamOffsets : List (Nat × Nat)
  limits : Option ClientLimits
  pendingTextEdits : List PendingTextEditRef
  coreVersion : String
  profiles : List String

inductive SessionContinuity where
  | unspecified
  | sameSession
  | replaced
deriving DecidableEq

structure ServerResumeOk where
  sessionId : String
  replayFromRevision : Nat
  lastProcessedEventSeq : Nat
  requiredProfiles : List String
  optionalProfiles : List String
  extensionNamespaces : List ExtensionNamespaceMapping
deriving DecidableEq

structure ServerResyncRequired where
  sessionId : String
  snapshotRevision : Nat
  reason : String
  continuity : SessionContinuity
  lastProcessedEventSeq : Nat
  discardedTextEdits : List PendingTextEditRef
  requiredProfiles : List String
  optionalProfiles : List String
  extensionNamespaces : List ExtensionNamespaceMapping
  snapshotParts : Nat
deriving DecidableEq

inductive HandshakeError where
  | oversizedClientInstanceId (bytes : Nat)
  | tooManyStreamOffsets (entries : Nat)
  | invalidPendingTextEdits (message : String)
  | unsupportedCoreVersion (requested supported : String)
  | negotiation (missing : List Profile)
  | invalidConfiguration (fault : ContractFault)
  | snapshotUnrepresentable (limit actual : Nat)
  | snapshotUndeliverable (e : SnapshotFramingError)
  | session (e : SessionError)

/-- `CORE_VERSION`. -/
def coreVersion : String := "0.5.0"

/-- `MAX_OPTIMISTIC_SNAPSHOT_EXPORT_ATTEMPTS`. -/
def maxOptimisticSnapshotExportAttempts : Nat := 3

/-- `MAX_CLIENT_INSTANCE_ID_BYTES`. -/
def maxClientInstanceIdBytes : Nat := 64

/-- `MAX_TERMINAL_RESUME_MAP_ENTRIES`. -/
def maxTerminalResumeMapEntries : Nat := 256

/-- `DEFAULT_MAX_FRAME_SIZE`. -/
def defaultMaxFrameSize : Nat := 16 * 1024 * 1024

def majorMinor (numeric : Char → Bool) (version : String) : Option (List Char × List Char) :=
  match version.toList.splitOn '.' with
  | major :: minor :: _ =>
    if (major ≠ [] ∧ major.all numeric) ∧ minor ≠ [] ∧ minor.all numeric then
      some (major, minor)
    else none
  | _ => none

/-- `core_version_is_compatible`. -/
def coreVersionIsCompatible (requested : String) : Bool :=
  match majorMinor Char.isDigit requested, majorMinor Char.isDigit coreVersion with
  | some requested, some supported => requested = supported
  | _, _ => false

/-- The part of a session that no call changes while a connection is attached. -/
structure SessionConfig where
  sessionId : String
  capabilities : ServerCapabilities
  extensionNamespaces : List ExtensionNamespaceMapping
  limits : ServerLimits

/-- What a handshake finds when it has the lock, and whether the hub has the client marked as
stale. A revision is a 64-bit number. -/
structure Reading where
  inner : SessionInner
  stale : Bool
  bounded : inner.session.store.revision ≤ u64Max

def Reading.store (reading : Reading) : SemanticStore := reading.inner.session.store

/-- How the steps after the catch-up end: the subscription to the hub, and the attach of the
terminals. -/
structure Attachment where
  subscribed : Except SessionError Unit
  attached : Except SessionError Unit

structure FreshClientBootstrap where
  welcome : ServerWelcome
  snapshot : Option WireTransaction
  snapshotFrames : SnapshotFramePlan
  terminalNegotiated : Bool

inductive ResumeOutcome where
  | replay (welcomeMsg : ServerResumeOk) (replayed : List WireTransaction)
  | resync (resyncMsg : ServerResyncRequired) (snapshotTransaction : WireTransaction)

structure ResumeClientBootstrap where
  outcome : ResumeOutcome
  snapshotFrames : SnapshotFramePlan
  terminalNegotiated : Bool

inductive ResyncCause where
  | replacedIncarnation
  | outboundQueueOverflow
  | journalGap
deriving DecidableEq

def ResyncCause.continuity : ResyncCause → SessionContinuity
  | .replacedIncarnation => .replaced
  | .outboundQueueOverflow => .sameSession
  | .journalGap => .sameSession

def ResyncCause.reason : ResyncCause → String
  | .replacedIncarnation => "requested session incarnation is no longer available"
  | .outboundQueueOverflow =>
    "outbound transaction queue overflowed; full state resynchronization required (§20.2)"
  | .journalGap => "client revision outside retained journal window"

def nonzero (value : Nat) : Option Nat := if value ≠ 0 then some value else none

def envelopeBudget (serverMaxFrameSize : Nat) (clientLimits : Option ClientLimits) : Nat :=
  let client := clientLimits.bind fun limits => nonzero limits.maxFrameSize
  min defaultMaxFrameSize
    (min ((nonzero serverMaxFrameSize).getD defaultMaxFrameSize)
      (client.getD defaultMaxFrameSize))

def wrapFault {ε : Type} (wrap : ε → HandshakeError) : Fault ε → Fault HandshakeError
  | .error e => .error (wrap e)
  | .panicked => .panicked
  | .diverges => .diverges

section Exports

variable (encodedLen : WireOperation → Nat) (payloadLen : WireModelItem → Nat)

/-- `plan_snapshot_delivery`. -/
def planSnapshotDelivery (snapshot : WireTransaction) (serverMaxFrameSize : Nat)
    (clientLimits : Option ClientLimits) : Outcome HandshakeError SnapshotFramePlan :=
  let plan :=
    (planSnapshotFrames encodedLen snapshot (envelopeBudget serverMaxFrameSize clientLimits)
      ((clientLimits.map (·.maxSnapshotParts)).getD 0)).mapError (wrapFault .snapshotUndeliverable)
  match clientLimits.bind fun limits => nonzero limits.maxTransactionOperations with
  | none => plan
  | some limit =>
    if snapshot.operations.length > limit then
      err (.snapshotUnrepresentable limit snapshot.operations.length)
    else plan

/-- The closure `export_and_plan` of both handshakes. -/
def exportAndPlan (serverMaxFrameSize : Nat) (clientLimits : Option ClientLimits)
    (store : SemanticStore) : Outcome HandshakeError (WireTransaction × SnapshotFramePlan) :=
  match (exportSnapshotTransaction payloadLen store).mapError (wrapFault .session) with
  | .error fault => .error fault
  | .ok snapshot =>
    match planSnapshotDelivery encodedLen snapshot serverMaxFrameSize clientLimits with
    | .error fault => .error fault
    | .ok plan => .ok (snapshot, plan)

end Exports

/-- What follows an export: with the lock kept, its result; without it, another attempt when the
session has moved on, and else the result. -/
def afterRelock {α : Type} (moved : Bool) (again : Option (Outcome HandshakeError α))
    (result : Outcome HandshakeError α) : Outcome HandshakeError α :=
  match again, result with
  | none, result => result
  | some _, .error .panicked => .error .panicked
  | some _, .error .diverges => .error .diverges
  | some again, result => if moved then again else result

section Handshake

variable (encodedLen : WireOperation → Nat) (payloadLen : WireModelItem → Nat) (env : Externals)
  (config : SessionConfig)

/-- `negotiate_client`. -/
def negotiateClient (version : String) (profiles : List String) :
    Except HandshakeError (Finset Profile) :=
  if !coreVersionIsCompatible version then
    .error (.unsupportedCoreVersion version Handshakes.coreVersion)
  else
    match negotiate config.capabilities (offeredProfiles profiles) with
    | .error missing => .error (.negotiation missing)
    | .ok negotiated =>
      match validateExtensionNamespaceContract config.capabilities
          config.extensionNamespaces with
      | .error fault => .error (.invalidConfiguration fault)
      | .ok () => .ok negotiated

/-- `negotiated_max_resource_size`. -/
def negotiatedMaxResourceSize (server : Nat) (clientLimits : Option ClientLimits) : Nat :=
  let client := (clientLimits.map (·.maxResourceSize)).getD 0
  if client = 0 then server else min server client

/-- `validate_client_instance_id`. -/
def validateClientInstanceId (clientInstanceId : Bytes) : Except HandshakeError Unit :=
  if clientInstanceId.length > maxClientInstanceIdBytes then
    .error (.oversizedClientInstanceId clientInstanceId.length)
  else .ok ()

/-- `negotiate_hello`. -/
def negotiateHello (reading : Reading) (hello : ClientHello) :
    Except HandshakeError (ServerWelcome × Option SemanticStore × Bool) :=
  match validateClientInstanceId hello.clientInstanceId with
  | .error e => .error e
  | .ok () =>
    match negotiateClient config hello.coreVersion hello.profiles with
    | .error e => .error e
    | .ok negotiated =>
      let welcome : ServerWelcome := {
        coreVersion := Handshakes.coreVersion
        requiredProfiles := toStringVec config.capabilities.required
        optionalProfiles := toStringVec config.capabilities.optional
        sessionId := config.sessionId
        initialRevision := reading.store.revision
        extensionNamespaces := config.extensionNamespaces
        limits := some { config.limits with
          maxResourceSize :=
            negotiatedMaxResourceSize config.limits.maxResourceSize hello.limits }
        snapshotParts := 0 }
      .ok (welcome, if 0 < reading.store.revision then some reading.store else none,
        decide (Profile.terminalV1 ∈ negotiated))

def exportHello (hello : ClientHello) (welcome : ServerWelcome) :
    Option SemanticStore → Outcome HandshakeError (Option (WireTransaction × SnapshotFramePlan))
  | none => .ok none
  | some store =>
    match exportAndPlan encodedLen payloadLen
        ((welcome.limits.map (·.maxFrameSize)).getD 0) hello.limits store with
    | .error fault => .error fault
    | .ok exported => .ok (some exported)

/-- One pass of the loop of `bootstrap_fresh_client`, with what it finds at its two locks, and the
passes after it unless the lock is kept. -/
def freshAttempt (hello : ClientHello) (reading : Reading × Reading)
    (again : Option (Outcome HandshakeError
      (ServerWelcome × Option (WireTransaction × SnapshotFramePlan) × Bool))) :
    Outcome HandshakeError
      (ServerWelcome × Option (WireTransaction × SnapshotFramePlan) × Bool) :=
  match negotiateHello config reading.1 hello with
  | .error e => err e
  | .ok (welcome, store, terminalNegotiated) =>
    afterRelock (reading.2.store.revision ≠ welcome.initialRevision) again
      (match exportHello encodedLen payloadLen hello welcome store with
      | .error fault => .error fault
      | .ok exported => .ok (welcome, exported, terminalNegotiated))

/-- The loop of `bootstrap_fresh_client`, with so many passes without the lock left. -/
def freshAttempts (readings : Nat → Reading × Reading) (hello : ClientHello) :
    Nat → Outcome HandshakeError
      (ServerWelcome × Option (WireTransaction × SnapshotFramePlan) × Bool)
  | 0 => freshAttempt encodedLen payloadLen config hello (readings 0) none
  | left + 1 =>
    freshAttempt encodedLen payloadLen config hello (readings (left + 1))
      (some (freshAttempts readings hello left))

/-- `Session::bootstrap_fresh_client`. -/
def bootstrapFreshClient (readings : Nat → Reading × Reading) (attachment : Attachment)
    (hello : ClientHello) : Outcome HandshakeError FreshClientBootstrap :=
  match freshAttempts encodedLen payloadLen config readings hello
      maxOptimisticSnapshotExportAttempts with
  | .error fault => .error fault
  | .ok (welcome, exported, terminalNegotiated) =>
    let snapshotFrames := (exported.map Prod.snd).getD (.single 0)
    match attachment.subscribed, attachment.attached with
    | .error e, _ => err (.session e)
    | .ok (), .error e => err (.session e)
    | .ok (), .ok () =>
      .ok {
        welcome := { welcome with snapshotParts := announcedParts snapshotFrames }
        snapshot := exported.map Prod.fst
        snapshotFrames := snapshotFrames
        terminalNegotiated := terminalNegotiated }

/-- The closure `determine_resync_cause`. -/
def determineResyncCause (resume : ClientResume) (reading : Reading) : Option ResyncCause :=
  if resume.sessionId ≠ config.sessionId then some .replacedIncarnation
  else if reading.stale then some .outboundQueueOverflow
  else if (iterFrom reading.inner.session.journal resume.lastAppliedRevision).isNone then
    some .journalGap
  else none

def replayFor (resume : ClientResume) (reading : Reading) : ResumeOutcome :=
  .replay {
      sessionId := config.sessionId
      replayFromRevision := resume.lastAppliedRevision
      lastProcessedEventSeq :=
        lastContiguousProcessedSeq reading.inner.dedupe resume.clientInstanceId
      requiredProfiles := toStringVec config.capabilities.required
      optionalProfiles := toStringVec config.capabilities.optional
      extensionNamespaces := config.extensionNamespaces }
    ((iterFrom reading.inner.session.journal resume.lastAppliedRevision).getD [])

def resyncFor (resume : ClientResume) (pending : List ValidatedPendingTextEditRef)
    (cause : ResyncCause) (snapshotRevision : Nat) (snapshot : WireTransaction)
    (frames : SnapshotFramePlan) (reading : Reading) : ResumeOutcome :=
  let cancellation :=
    match cause with
    | .replacedIncarnation => none
    | _ =>
      some (preparePendingTextEditCancellation reading.inner resume.clientInstanceId pending)
  .resync {
      sessionId := config.sessionId
      snapshotRevision := snapshotRevision
      reason := cause.reason
      continuity := cause.continuity
      lastProcessedEventSeq :=
        lastContiguousProcessedSeq
          ((cancellation.map (·.stagedDedupe)).getD reading.inner.dedupe)
          resume.clientInstanceId
      discardedTextEdits := (cancellation.map (·.discarded)).getD []
      requiredProfiles := toStringVec config.capabilities.required
      optionalProfiles := toStringVec config.capabilities.optional
      extensionNamespaces := config.extensionNamespaces
      snapshotParts := announcedParts frames }
    snapshot

/-- One pass of the loop of `bootstrap_resume`. With the lock kept, the first reading is the
second as well. -/
def resumeAttempt (resume : ClientResume) (pending : List ValidatedPendingTextEditRef)
    (reading : Reading × Reading)
    (again : Option (Outcome HandshakeError ResumeClientBootstrap)) :
    Outcome HandshakeError ResumeClientBootstrap :=
  match negotiateClient config resume.coreVersion resume.profiles with
  | .error e => err e
  | .ok negotiated =>
    let terminalNegotiated := decide (Profile.terminalV1 ∈ negotiated)
    match determineResyncCause config resume reading.1 with
    | none => .ok ⟨replayFor config resume reading.1, .single 0, terminalNegotiated⟩
    | some cause =>
      let last := if again.isSome then reading.2 else reading.1
      afterRelock
        (last.store.revision ≠ reading.1.store.revision ∨
          determineResyncCause config resume last ≠ some cause) again
        (match exportAndPlan encodedLen payloadLen config.limits.maxFrameSize resume.limits
            reading.1.store with
        | .error fault => .error fault
        | .ok (snapshot, frames) =>
          .ok ⟨resyncFor config resume pending cause reading.1.store.revision snapshot
            frames last, frames, terminalNegotiated⟩)

/-- The loop of `bootstrap_resume`, with so many passes without the lock left. -/
def resumeAttempts (readings : Nat → Reading × Reading) (resume : ClientResume)
    (pending : List ValidatedPendingTextEditRef) :
    Nat → Outcome HandshakeError ResumeClientBootstrap
  | 0 => resumeAttempt encodedLen payloadLen config resume pending (readings 0) none
  | left + 1 =>
    resumeAttempt encodedLen payloadLen config resume pending (readings (left + 1))
      (some (resumeAttempts readings resume pending left))

/-- `Session::bootstrap_resume`. -/
def bootstrapResume (readings : Nat → Reading × Reading) (attachment : Attachment)
    (resume : ClientResume) : Outcome HandshakeError ResumeClientBootstrap :=
  match validateClientInstanceId resume.clientInstanceId with
  | .error e => err e
  | .ok () =>
    if resume.terminalStreamOffsets.length > maxTerminalResumeMapEntries then
      err (.tooManyStreamOffsets resume.terminalStreamOffsets.length)
    else
      match validatePendingTextEditRefs env resume.pendingTextEdits with
      | .error message => err (.invalidPendingTextEdits message)
      | .ok pending =>
        match resumeAttempts encodedLen payloadLen config readings resume pending
            maxOptimisticSnapshotExportAttempts with
        | .error fault => .error fault
        | .ok bootstrap =>
          match attachment.subscribed, attachment.attached with
          | .error e, _ => err (.session e)
          | .ok (), .error e => err (.session e)
          | .ok (), .ok () => .ok bootstrap

end Handshake

section Answers

variable {encodedLen : WireOperation → Nat} {payloadLen : WireModelItem → Nat} {env : Externals}
  {config : SessionConfig} {readings : Nat → Reading × Reading} {attachment : Attachment}

structure Deliverable (encodedLen : WireOperation → Nat) (serverMaxFrameSize : Nat)
    (clientLimits : Option ClientLimits) (revision : Nat) (snapshot : WireTransaction)
    (frames : SnapshotFramePlan) : Prop where
  base : snapshot.baseRevision = 0
  revision : snapshot.newRevision = revision
  priority : snapshot.priority = 0
  planned : planSnapshotFrames encodedLen snapshot
    (envelopeBudget serverMaxFrameSize clientLimits)
    ((clientLimits.map (·.maxSnapshotParts)).getD 0) = .ok frames
  operations : ∀ limits, clientLimits = some limits → limits.maxTransactionOperations ≠ 0 →
    snapshot.operations.length ≤ limits.maxTransactionOperations

theorem mapError_ok {ε ε' α : Type} {f : ε → ε'} {result : Except ε α} {a : α}
    (h : result.mapError f = .ok a) : result = .ok a := by
  rcases result with e | b
  · cases h
  · exact congrArg Except.ok (Except.ok.inj h)

theorem planSnapshotDelivery_ok {snapshot : WireTransaction} {serverMaxFrameSize : Nat}
    {clientLimits : Option ClientLimits} {frames : SnapshotFramePlan}
    (h : planSnapshotDelivery encodedLen snapshot serverMaxFrameSize clientLimits = .ok frames) :
    planSnapshotFrames encodedLen snapshot (envelopeBudget serverMaxFrameSize clientLimits)
        ((clientLimits.map (·.maxSnapshotParts)).getD 0) = .ok frames ∧
      ∀ limits, clientLimits = some limits → limits.maxTransactionOperations ≠ 0 →
        snapshot.operations.length ≤ limits.maxTransactionOperations := by
  unfold planSnapshotDelivery at h
  dsimp only at h
  rcases clientLimits with _ | limits
  · exact ⟨mapError_ok h, nofun⟩
  · rw [Option.bind_some] at h
    unfold nonzero at h
    rcases Nat.eq_zero_or_pos limits.maxTransactionOperations with hzero | hpositive
    · rw [if_neg (not_not.mpr hzero)] at h
      refine ⟨mapError_ok h, ?_⟩
      intro _ hsome hnonzero
      obtain rfl := Option.some.inj hsome
      exact absurd hzero hnonzero
    · rw [if_pos (Nat.pos_iff_ne_zero.mp hpositive)] at h
      dsimp only at h
      split at h
      · cases h
      · rename_i hlimit
        refine ⟨mapError_ok h, ?_⟩
        intro _ hsome _
        obtain rfl := Option.some.inj hsome
        exact Nat.not_lt.mp hlimit

theorem exportAndPlan_ok {serverMaxFrameSize : Nat} {clientLimits : Option ClientLimits}
    {store : SemanticStore} {snapshot : WireTransaction} {frames : SnapshotFramePlan}
    (h : exportAndPlan encodedLen payloadLen serverMaxFrameSize clientLimits store =
      .ok (snapshot, frames)) :
    Deliverable encodedLen serverMaxFrameSize clientLimits store.revision snapshot frames := by
  unfold exportAndPlan at h
  split at h
  · cases h
  rename_i exported hexported
  replace hexported := mapError_ok hexported
  split at h
  · cases h
  rename_i plan hplan
  obtain ⟨rfl, rfl⟩ := Prod.mk.inj (Except.ok.inj h)
  obtain ⟨hplanned, hoperations⟩ := planSnapshotDelivery_ok hplan
  unfold exportSnapshotTransaction at hexported
  dsimp only at hexported
  split at hexported
  · cases hexported
  split at hexported
  · cases hexported
  obtain rfl := Except.ok.inj hexported
  exact ⟨rfl, rfl, rfl, hplanned, hoperations⟩

theorem negotiateClient_ok {version : String} {profiles : List String}
    {negotiated : Finset Profile} (h : negotiateClient config version profiles = .ok negotiated) :
    negotiate config.capabilities (offeredProfiles profiles) = .ok negotiated ∧
      Contract config.capabilities config.extensionNamespaces := by
  unfold negotiateClient at h
  split at h
  · cases h
  split at h
  · cases h
  rename_i hnegotiated
  split at h
  · cases h
  rename_i hcontract
  obtain rfl := Except.ok.inj h
  exact ⟨hnegotiated, contract_of_validate hcontract⟩

theorem afterRelock_ok {α : Type} {moved : Bool} {again : Option (Outcome HandshakeError α)}
    {result : Outcome HandshakeError α} {a : α} (h : afterRelock moved again result = .ok a) :
    result = .ok a ∨ again = some (.ok a) := by
  rcases again with _ | again
  · exact .inl h
  · rcases result with (e | _ | _) | b
    · unfold afterRelock at h
      dsimp only at h
      split at h
      · exact .inr (congrArg some h)
      · cases h
    · cases h
    · cases h
    · unfold afterRelock at h
      dsimp only at h
      split at h
      · exact .inr (congrArg some h)
      · exact .inl h

theorem freshAttempts_ok {hello : ClientHello} {left : Nat} {welcome : ServerWelcome}
    {exported : Option (WireTransaction × SnapshotFramePlan)} {terminalNegotiated : Bool}
    (h : freshAttempts encodedLen payloadLen config readings hello left =
      .ok (welcome, exported, terminalNegotiated)) :
    ∃ reading store,
      negotiateHello config reading hello = .ok (welcome, store, terminalNegotiated) ∧
      exportHello encodedLen payloadLen hello welcome store = .ok exported := by
  have hattempt : ∀ reading again,
      freshAttempt encodedLen payloadLen config hello reading again =
        .ok (welcome, exported, terminalNegotiated) →
      (∃ reading store,
        negotiateHello config reading hello = .ok (welcome, store, terminalNegotiated) ∧
        exportHello encodedLen payloadLen hello welcome store = .ok exported) ∨
      again = some (.ok (welcome, exported, terminalNegotiated)) := by
    intro reading again hattempt
    unfold freshAttempt at hattempt
    split at hattempt
    · cases hattempt
    rename_i store _ hnegotiated
    refine (afterRelock_ok hattempt).imp (fun hresult => ?_) id
    split at hresult
    · cases hresult
    rename_i hexported
    obtain ⟨rfl, rest⟩ := Prod.mk.inj (Except.ok.inj hresult)
    obtain ⟨rfl, rfl⟩ := Prod.mk.inj rest
    exact ⟨reading.1, store, hnegotiated, hexported⟩
  induction left with
  | zero =>
    rcases hattempt _ _ h with hdone | hagain
    · exact hdone
    · cases hagain
  | succ left ih =>
    rcases hattempt _ _ h with hdone | hagain
    · exact hdone
    · exact ih (Option.some.inj hagain)

structure Welcomed (encodedLen : WireOperation → Nat) (config : SessionConfig)
    (hello : ClientHello) (bootstrap : FreshClientBootstrap) : Prop where
  compatible : bootstrap.welcome.coreVersion = coreVersion
  required : bootstrap.welcome.requiredProfiles = toStringVec config.capabilities.required
  optional : bootstrap.welcome.optionalProfiles = toStringVec config.capabilities.optional
  namespaces : bootstrap.welcome.extensionNamespaces = config.extensionNamespaces
  announced : bootstrap.welcome.snapshotParts = announcedParts bootstrap.snapshotFrames
  bounded : bootstrap.welcome.initialRevision ≤ u64Max
  negotiated : ∃ negotiated, negotiateClient config hello.coreVersion hello.profiles =
    .ok negotiated ∧ bootstrap.terminalNegotiated = decide (Profile.terminalV1 ∈ negotiated)
  snapshot : bootstrap.welcome.initialRevision = 0 ∧ bootstrap.snapshot = none ∧
      bootstrap.snapshotFrames = .single 0 ∨
    0 < bootstrap.welcome.initialRevision ∧ ∃ snapshot, bootstrap.snapshot = some snapshot ∧
      Deliverable encodedLen config.limits.maxFrameSize hello.limits
        bootstrap.welcome.initialRevision snapshot bootstrap.snapshotFrames

theorem bootstrapFreshClient_ok {hello : ClientHello} {bootstrap : FreshClientBootstrap}
    (h : bootstrapFreshClient encodedLen payloadLen config readings attachment hello =
      .ok bootstrap) : Welcomed encodedLen config hello bootstrap := by
  unfold bootstrapFreshClient at h
  split at h
  · cases h
  rename_i welcome exported terminalNegotiated hattempts
  dsimp only at h
  split at h
  · cases h
  · cases h
  obtain rfl := Except.ok.inj h
  obtain ⟨reading, store, hnegotiated, hexported⟩ := freshAttempts_ok hattempts
  unfold negotiateHello at hnegotiated
  split at hnegotiated
  · cases hnegotiated
  split at hnegotiated
  · cases hnegotiated
  rename_i negotiated hclient
  dsimp only at hnegotiated
  obtain ⟨rfl, rest⟩ := Prod.mk.inj (Except.ok.inj hnegotiated)
  obtain ⟨rfl, rfl⟩ := Prod.mk.inj rest
  refine ⟨rfl, rfl, rfl, rfl, rfl, reading.bounded, ⟨negotiated, hclient, rfl⟩, ?_⟩
  rcases Nat.eq_zero_or_pos reading.store.revision with hzero | hpositive
  · rw [if_neg (by rw [hzero]; exact Nat.lt_irrefl 0)] at hexported
    obtain rfl := Except.ok.inj hexported
    exact .inl ⟨hzero, rfl, rfl⟩
  · rw [if_pos hpositive] at hexported
    unfold exportHello at hexported
    dsimp only at hexported
    split at hexported
    · cases hexported
    rename_i delivered hdelivered
    obtain rfl := Except.ok.inj hexported
    exact .inr ⟨hpositive, delivered.1, rfl, exportAndPlan_ok hdelivered⟩

inductive Resumed (encodedLen : WireOperation → Nat) (config : SessionConfig)
    (resume : ClientResume) : ResumeOutcome → SnapshotFramePlan → Prop where
  | replay {reading : Reading} (hsame : resume.sessionId = config.sessionId) :
      Resumed encodedLen config resume (replayFor config resume reading) (.single 0)
  | resync {pending : List ValidatedPendingTextEditRef} {cause : ResyncCause} {revision : Nat}
      {snapshot : WireTransaction} {frames : SnapshotFramePlan} {reading : Reading}
      (hcause : cause = .replacedIncarnation ↔ resume.sessionId ≠ config.sessionId)
      (hbounded : revision ≤ u64Max)
      (hdeliverable : Deliverable encodedLen config.limits.maxFrameSize resume.limits revision
        snapshot frames) :
      Resumed encodedLen config resume
        (resyncFor config resume pending cause revision snapshot frames reading) frames

variable {resume : ClientResume}

theorem determineResyncCause_none {reading : Reading}
    (h : determineResyncCause config resume reading = none) :
    resume.sessionId = config.sessionId := by
  unfold determineResyncCause at h
  split_ifs at h with hother
  exact not_not.mp hother

theorem determineResyncCause_some {reading : Reading}
    {cause : ResyncCause} (h : determineResyncCause config resume reading = some cause) :
    cause = .replacedIncarnation ↔ resume.sessionId ≠ config.sessionId := by
  unfold determineResyncCause at h
  split_ifs at h with hother <;> obtain rfl := Option.some.inj h <;> simp [hother]

variable {bootstrap : ResumeClientBootstrap}

theorem resumeAttempt_ok {pending : List ValidatedPendingTextEditRef}
    {reading : Reading × Reading}
    {again : Option (Outcome HandshakeError ResumeClientBootstrap)}
    (h : resumeAttempt encodedLen payloadLen config resume pending reading again =
      .ok bootstrap) :
    Resumed encodedLen config resume bootstrap.outcome bootstrap.snapshotFrames ∧
        (∃ negotiated, negotiateClient config resume.coreVersion resume.profiles = .ok negotiated ∧
          bootstrap.terminalNegotiated = decide (Profile.terminalV1 ∈ negotiated)) ∨
      again = some (.ok bootstrap) := by
  unfold resumeAttempt at h
  split at h
  · cases h
  rename_i negotiated hnegotiated
  dsimp only at h
  split at h
  · rename_i hcause
    obtain rfl := Except.ok.inj h
    exact .inl ⟨.replay (determineResyncCause_none hcause), negotiated, hnegotiated, rfl⟩
  · rename_i cause hcause
    refine (afterRelock_ok h).imp (fun hresult => ?_) id
    split at hresult
    · cases hresult
    rename_i snapshot frames hexported
    obtain rfl := Except.ok.inj hresult
    exact ⟨.resync (determineResyncCause_some hcause) reading.1.bounded
      (exportAndPlan_ok hexported), negotiated, hnegotiated, rfl⟩

theorem resumeAttempts_ok {pending : List ValidatedPendingTextEditRef}
    {left : Nat}
    (h : resumeAttempts encodedLen payloadLen config readings resume pending left =
      .ok bootstrap) :
    Resumed encodedLen config resume bootstrap.outcome bootstrap.snapshotFrames ∧
      ∃ negotiated, negotiateClient config resume.coreVersion resume.profiles = .ok negotiated ∧
        bootstrap.terminalNegotiated = decide (Profile.terminalV1 ∈ negotiated) := by
  induction left with
  | zero =>
    rcases resumeAttempt_ok h with hdone | hagain
    · exact hdone
    · cases hagain
  | succ left ih =>
    rcases resumeAttempt_ok h with hdone | hagain
    · exact hdone
    · exact ih (Option.some.inj hagain)

theorem bootstrapResume_ok
    (h : bootstrapResume encodedLen payloadLen env config readings attachment resume =
      .ok bootstrap) :
    Resumed encodedLen config resume bootstrap.outcome bootstrap.snapshotFrames ∧
      ∃ negotiated, negotiateClient config resume.coreVersion resume.profiles = .ok negotiated ∧
        bootstrap.terminalNegotiated = decide (Profile.terminalV1 ∈ negotiated) := by
  unfold bootstrapResume at h
  split at h
  · cases h
  split at h
  · cases h
  split at h
  · cases h
  split at h
  · cases h
  rename_i hattempts
  split at h
  · cases h
  · cases h
  obtain rfl := Except.ok.inj h
  exact resumeAttempts_ok hattempts

end Answers

end Srui.Sessiond.Handshakes

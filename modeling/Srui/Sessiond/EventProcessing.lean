import Srui.Sessiond.SessionCommits
import Srui.Sessiond.TextEditTrackers

/-!
Processing of client events, as the critical sections it is made of: admission with
validation and reservation, the decision on a text edit, and the settlement after the
handlers. Policies and handlers run between them, without the lock.
-/

namespace Srui.Sessiond.EventProcessing

open Basic.Machine Basic.Runs EventDedupe.Windows EventDedupe.Deduplicators SemanticTree.Values
open SemanticTree.Limits SemanticTree.Stores SemanticTree.OperationEffects SemanticTree.Transactions
open SemanticTree.Wire SemanticTree.Events Journal.TransactionJournals Sdk.UiTransactions
open Sessiond.Sessions Sessiond.Lockstep Sessiond.SessionCommits Sessiond.TextEditTrackers

/-- What is taken from elsewhere: the texts of errors and the truncated SHA-256 digest
of an identifier. -/
structure Externals where
  validationText : EventValidationError → String
  wireText : Srui.SemanticTree.Events.WireError → String
  storeText : StoreError → String
  journalText : JournalError → String
  digest : Bytes → Bytes

/-- The part of `SessionInner` that events read and change. -/
structure SessionInner where
  session : Session
  dedupe : EventDeduplicator
  textEditTracker : TextEditTracker

inductive EventOutcome where
  | processed (revisionAfterEffect lastProcessedEventSeq : Nat)
  | pending (lastProcessedEventSeq : Nat)
  | duplicate (accepted : Bool) (revisionAfterEffect lastProcessedEventSeq : Nat)
      (rejectReason : String)
  | rejected (error : EventValidationError) (revisionAfterEffect lastProcessedEventSeq : Nat)
deriving DecidableEq, Repr

/-- The errors of `process_event`. -/
inductive ProcessError where
  | lockPoisoned
  | eventSequence (e : EventSequenceError)
  | handlerFailed (message : String)
  | handlerPanicked (message : String)
deriving DecidableEq, Repr

inductive StandardValidationState where
  | valid
  | warning
  | error
deriving DecidableEq, Repr

def StandardValidationState.token : StandardValidationState → Value
  | .valid => .scalar (.enumToken 12 1)
  | .warning => .scalar (.enumToken 12 2)
  | .error => .scalar (.enumToken 12 3)

structure TextEditRequest where
  clientInstanceId : Bytes
  eventId : Bytes
  eventSeq : Nat
  editSeq : EditSeq
  nodeId : NodeId
  value : String
  observedRevision : Revision
deriving DecidableEq

inductive TextEditDecision where
  | accept
  | correct (value : String) (validation : StandardValidationState)
  | reject (value : Option String) (reason : String)
deriving DecidableEq, Repr

inductive HandlerDispatchKind where
  | ordinary
  | committedTextEdit
deriving DecidableEq, Repr

inductive Dispatch where
  | ok
  | failed (message : String)
  | panicked (message : String)
deriving DecidableEq, Repr

/-- `bound_diagnostic_string`: as many whole characters as fit. -/
def takeBytes : Nat → List Char → List Char
  | _, [] => []
  | room, c :: rest => if c.utf8Size ≤ room then c :: takeBytes (room - c.utf8Size) rest else []

def boundDiagnosticString (value : String) (maxLen : Nat) : String :=
  if value.utf8ByteSize ≤ maxLen then value else String.ofList (takeBytes maxLen value.toList)

def identityOf (event : WireEvent) : Event where
  clientInstanceId := event.clientInstanceId
  eventSeq := event.eventSeq
  eventId := event.eventId
  eventType := event.eventType.map fun eventType => (eventType.namespaceId, eventType.localId)

/-- The eight bytes of a `u64`, the highest first. -/
def bigEndian (n : Nat) : Bytes :=
  (List.range 8).reverse.map fun place => UInt8.ofNat (n / 256 ^ place)

/-- `oversized_event_dedupe_id`. -/
def oversizedEventDedupeId (env : Externals) (eventSeq : Nat) (eventId : Bytes) : Bytes :=
  bigEndian eventSeq ++ env.digest eventId ++ List.replicate (maxEventIdBytes + 1 - 24) 255

/-- The identity `process_event` admits: the event's own, or the placeholder for one whose
identifier is too long. -/
def admissionIdentity (env : Externals) (event : WireEvent) : Event :=
  match decodeEvent event with
  | .error (.eventIdTooLong _ _) =>
    { identityOf event with
      eventId := oversizedEventDedupeId env event.eventSeq event.eventId }
  | _ => identityOf event

/-- `Session::settle_rejected_event`. -/
def settleRejectedEvent (env : Externals) (inner : SessionInner) (event : Event)
    (error : EventValidationError) : SessionInner × EventOutcome :=
  let revision := inner.session.store.revision
  let outcome : EventOutcomeRecord := ⟨false, revision,
    boundDiagnosticString (env.validationText error) inner.session.store.limits.maxStringLength⟩
  let settled := settleEvent inner.dedupe event outcome
  ({ inner with dedupe := settled.1 }, .rejected error revision settled.2)

/-- `is_editor_type`: `TEXT_INPUT` or `TEXT_AREA`. -/
def isEditorType (nodeType : TypeRef) : Bool := nodeType = ⟨0, 13⟩ || nodeType = ⟨0, 14⟩

/-- `validate_text_edit`, with the text it checks. -/
def validateTextEdit (store : SemanticStore) (event : DomainEvent) :
    Except EventValidationError (EditSeq × String) :=
  match event.editSeq with
  | none => .error .invalidEditSeq
  | some editSeq =>
    match validateObservedRevision event store.revision with
    | .error e => .error e
    | .ok () =>
      match validateNodeInteractive event store with
      | .error e => .error e
      | .ok node =>
        if isEditorType node.nodeType = false then
          .error (.unsupportedNodeType node.nodeType)
        else if node.properties[readOnly]? = some (.scalar (.bool true)) then
          .error (.nodeReadOnly event.nodeId)
        else
          match textArg event with
          | none => .error (.missingArgument text)
          | some submitted =>
            if store.limits.maxStringLength < submitted.utf8ByteSize then
              .error (.stringTooLong submitted.utf8ByteSize store.limits.maxStringLength)
            else .ok (editSeq, submitted)

/-- Where a `process_event` call stands after its first critical section: it has returned,
its policy runs, or its handlers run. -/
inductive Begun where
  | returned (outcome : EventOutcome)
  | deciding (request : TextEditRequest) (generation : Nat)
  | dispatching

/-- `process_admitted_text_edit` up to the call of the policy. -/
def reserveTextEdit (env : Externals) (inner : SessionInner) (event : WireEvent)
    (domain : DomainEvent) : SessionInner × Outcome ProcessError Begun :=
  match validateTextEdit inner.session.store domain with
  | .error error =>
    let (inner, outcome) := settleRejectedEvent env inner (identityOf event) error
    (inner, .ok (.returned outcome))
  | .ok (editSeq, submitted) =>
    let reclaimed :=
      if isAtCapacity inner.textEditTracker then
        reclaimDepartedClients inner.textEditTracker inner.dedupe
      else (inner.textEditTracker, .ok ())
    match reclaimed with
    | (tracker, .error _) => ({ inner with textEditTracker := tracker }, .error .panicked)
    | (tracker, .ok ()) =>
      match reserve tracker event.clientInstanceId domain.nodeId editSeq with
      | (tracker, .ok generation) =>
        ({ inner with textEditTracker := tracker }, .ok (.deciding
          ⟨domain.clientInstanceId.getD event.clientInstanceId, domain.eventId,
            domain.eventSeq, editSeq, domain.nodeId, submitted, domain.observedRevision⟩
          generation))
      | (tracker, .error error) =>
        let (inner, outcome) := settleRejectedEvent env
          { inner with textEditTracker := tracker } (identityOf event) error
        (inner, .ok (.returned outcome))

/-- What `process_event` does with an event that was admitted. -/
def processFresh (env : Externals) (inner : SessionInner) (event : WireEvent) :
    SessionInner × Outcome ProcessError Begun :=
  match decodeEvent event with
  | .error e =>
    let (inner, outcome) := settleRejectedEvent env inner (admissionIdentity env event)
      (.policyRejected ("malformed event: " ++ env.wireText e))
    (inner, .ok (.returned outcome))
  | .ok domain =>
    if domain.eventType = eventTextEdit then reserveTextEdit env inner event domain
    else
      match validateObservedRevision domain inner.session.store.revision,
          validateNodeInteractive domain inner.session.store with
      | .ok (), .ok _ => (inner, .ok .dispatching)
      | .error error, _ =>
        let (inner, outcome) := settleRejectedEvent env inner (identityOf event) error
        (inner, .ok (.returned outcome))
      | .ok (), .error error =>
        let (inner, outcome) := settleRejectedEvent env inner (identityOf event) error
        (inner, .ok (.returned outcome))

/-- `process_event` up to the point where it releases the lock. -/
def beginEvent (env : Externals) (inner : SessionInner) (event : WireEvent) :
    SessionInner × Outcome ProcessError Begun :=
  match admitEvent inner.dedupe (admissionIdentity env event) with
  | (dedupe, .error e) => ({ inner with dedupe := dedupe }, err (.eventSequence e))
  | (dedupe, .ok (.duplicate prior last)) =>
    ({ inner with dedupe := dedupe }, .ok (.returned
      (.duplicate prior.accepted prior.revisionAfterEffect last prior.rejectReason)))
  | (dedupe, .ok (.pending last)) =>
    ({ inner with dedupe := dedupe }, .ok (.returned (.pending last)))
  | (dedupe, .ok (.fresh _)) => processFresh env { inner with dedupe := dedupe } event

/-- `revalidate_editor_for_commit`. -/
def revalidateEditorForCommit (store : SemanticStore) (nodeId : NodeId) :
    Except EventValidationError Unit :=
  match store.nodes[nodeId]? with
  | none => .error (.nodeNotFound nodeId)
  | some node =>
    if isEditorType node.nodeType = false then .error (.unsupportedNodeType node.nodeType)
    else if node.properties[enabled]? = some (.scalar (.bool false)) then
      .error (.nodeDisabled nodeId)
    else if node.properties[readOnly]? = some (.scalar (.bool true)) then
      .error (.nodeReadOnly nodeId)
    else .ok ()

/-- `reject_reserved`. -/
def rejectReserved (env : Externals) (inner : SessionInner) (event : WireEvent)
    (request : TextEditRequest) (error : EventValidationError) : SessionInner × EventOutcome :=
  let marked :=
    markTerminal inner.textEditTracker event.clientInstanceId request.nodeId request.editSeq
  settleRejectedEvent env { inner with textEditTracker := marked } (identityOf event) error

/-- The mapping of `reject_reserved_store`. -/
def storeRejection (env : Externals) : StoreError → EventValidationError
  | .nodeNotFound id => .nodeNotFound id
  | other => .policyRejected (env.storeText other)

/-- `current_editor_value`. -/
def currentEditorValue (store : SemanticStore) (nodeId : NodeId) : String :=
  ((store.nodes[nodeId]?.bind fun node =>
    (node.properties[value]?.bind asString).or (node.properties[text]?.bind asString))).getD ""

def decided (current : String) (request : TextEditRequest) :
    TextEditDecision → String × StandardValidationState × Bool × String
  | .accept => (request.value, .valid, true, "")
  | .correct value validation => (value, validation, true, "")
  | .reject value reason => (value.getD current, .error, false, reason)

def stageDecision (store : SemanticStore) (nodeId : NodeId) (published : String)
    (validation : StandardValidationState) : UiTransaction × Outcome StoreError Unit :=
  let ui := UiTransaction.new store store.limits.maxTransactionOperations
  match ui.set nodeId value (.scalar (.string published)) with
  | (ui, .error f) => (ui, .error f)
  | (ui, .ok _) =>
    match ui.set nodeId validationState validation.token with
    | (ui, .error f) => (ui, .error f)
    | (ui, .ok _) => (ui, .ok ())

inductive TextEditCommit where
  | settled (outcome : EventOutcome)
  | dispatchAccepted (tx : WireTransaction)

/-- The end of `commit_text_edit_decision`, once store and journal have advanced. -/
def finishDecision (inner : SessionInner) (event : WireEvent) (request : TextEditRequest)
    (accepted : Bool) (rejectReason : String) (tx : WireTransaction) :
    SessionInner × Outcome ProcessError TextEditCommit :=
  let marked := markTerminal inner.textEditTracker event.clientInstanceId request.nodeId
    request.editSeq
  if accepted then
    match beginCommittedHandlerDispatch marked event.clientInstanceId event.eventSeq
        ⟨event.nodeId, event.editSeq⟩ with
    | (tracker, .error _) => ({ inner with textEditTracker := tracker }, .error .panicked)
    | (tracker, .ok ()) => ({ inner with textEditTracker := tracker }, .ok (.dispatchAccepted tx))
  else
    let revision := inner.session.store.revision
    let settled := settleEvent inner.dedupe (identityOf event) ⟨false, revision, rejectReason⟩
    ({ inner with textEditTracker := marked, dedupe := settled.1 },
      .ok (.settled (.rejected (.policyRejected rejectReason) revision settled.2)))

def lateDecision (dedupe : EventDeduplicator) (event : WireEvent) : EventOutcome :=
  let last := lastContiguousProcessedSeq dedupe event.clientInstanceId
  match dedupe.clients[event.clientInstanceId]?.bind fun window => window.seenIds[event.eventId]? with
  | some (.settled _ _ prior) =>
    .duplicate prior.accepted prior.revisionAfterEffect last prior.rejectReason
  | _ => .pending last

/-- `EventDeduplicator::is_in_flight`. -/
def isInFlight (dedupe : EventDeduplicator) (client eventId : Bytes) : Bool :=
  match dedupe.clients[client]?.bind fun window => window.seenIds[eventId]? with
  | some (.inFlight _ _) => true
  | _ => false

/-- `commit_text_edit_decision` from the checked reservation on. -/
def publishDecision (env : Externals) (inner : SessionInner) (event : WireEvent)
    (request : TextEditRequest) (decision : TextEditDecision) :
    SessionInner × Outcome ProcessError TextEditCommit :=
  let store := inner.session.store
  let reject := fun error =>
    let (inner, outcome) := rejectReserved env inner event request error
    (inner, (.ok (.settled outcome) : Outcome ProcessError TextEditCommit))
  let (published, validation, accepted, reason) :=
    decided (currentEditorValue store request.nodeId) request decision
  if store.limits.maxStringLength < published.utf8ByteSize then
    reject (.stringTooLong published.utf8ByteSize store.limits.maxStringLength)
  else
    match stageDecision store request.nodeId published validation with
    | (_, .error (.error e)) => reject (storeRejection env e)
    | (_, .error .panicked) => (inner, .error .panicked)
    | (_, .error .diverges) => (inner, .error .diverges)
    | (ui, .ok ()) =>
      match hnext : checkedNext store.revision with
      | none => (inner, .error .panicked)
      | some next =>
        match prepare inner.session.journal (AuthoritativeCommit.new hnext ui.operations) with
        | .error e => reject (.policyRejected (env.journalText e))
        | .ok permit =>
          let advanced := commitStaging store ui.staged next
          match append inner.session.journal permit with
          | .error _ =>
            ({ inner with session := { inner.session with store := advanced } },
              .error .panicked)
          | .ok journal =>
            finishDecision { inner with session := ⟨advanced, journal⟩ } event request
              accepted (boundDiagnosticString reason store.limits.maxStringLength)
              permit.tx

/-- `Session::commit_text_edit_decision`. -/
def commitTextEditDecision (env : Externals) (inner : SessionInner) (event : WireEvent)
    (request : TextEditRequest) (reservedGeneration : Nat) (decision : TextEditDecision) :
    SessionInner × Outcome ProcessError TextEditCommit :=
  if isInFlight inner.dedupe event.clientInstanceId event.eventId = false then
    (inner, .ok (.settled (lateDecision inner.dedupe event)))
  else
    match revalidateEditorForCommit inner.session.store request.nodeId with
    | .error error =>
      let (inner, outcome) := rejectReserved env inner event request error
      (inner, .ok (.settled outcome))
    | .ok () =>
      if (generationOf inner.textEditTracker event.clientInstanceId request.nodeId).getD 0 ≠
          reservedGeneration then
        let (inner, outcome) := rejectReserved env inner event request .supersededGeneration
        (inner, .ok (.settled outcome))
      else publishDecision env inner event request decision

/-- The critical section of `abandon_text_edit_after_panic`. -/
def abandonTextEditAfterPanic (inner : SessionInner) (event : WireEvent)
    (request : TextEditRequest) : SessionInner :=
  { inner with
    textEditTracker := abandonReservation inner.textEditTracker event.clientInstanceId
      request.nodeId request.editSeq
    dedupe := abandonEvent inner.dedupe (identityOf event) }

/-- The end of `dispatch_admitted_event`, once its handlers have ended. -/
def finishDispatch (env : Externals) (inner : SessionInner) (event : WireEvent)
    (kind : HandlerDispatchKind) (dispatch : Dispatch) :
    SessionInner × Except ProcessError EventOutcome :=
  match kind, dispatch with
  | .ordinary, .failed message =>
    let (inner, outcome) := settleRejectedEvent env inner (identityOf event)
      (.policyRejected ("event handler failed: " ++ message))
    (inner, .ok outcome)
  | .ordinary, .panicked message =>
    ({ inner with dedupe := abandonEvent inner.dedupe (identityOf event) },
      .error (.handlerPanicked message))
  | kind, dispatch =>
    let revision := inner.session.store.revision
    let settled := settleEvent inner.dedupe (identityOf event) ⟨true, revision, ""⟩
    let tracker :=
      match kind with
      | .ordinary => inner.textEditTracker
      | .committedTextEdit =>
        finishCommittedHandlerDispatch inner.textEditTracker event.clientInstanceId
          event.eventSeq
    ({ inner with dedupe := settled.1, textEditTracker := tracker },
      match dispatch with
      | .ok => .ok (.processed revision settled.2)
      | .failed message => .error (.handlerFailed message)
      | .panicked message => .error (.handlerPanicked message))

/-!
What each critical section can do.
-/

variable {env : Externals} {inner : SessionInner} {event : WireEvent}

variable {domain : DomainEvent}

theorem admissionIdentity_of_ok (env : Externals)
    (h : decodeEvent event = .ok domain) :
    admissionIdentity env event = identityOf event := by
  rw [admissionIdentity, h]

theorem decodeEvent_eventId (h : decodeEvent event = .ok domain) :
    event.eventId ≠ [] := by
  intro hempty
  rw [decodeEvent, if_pos hempty] at h
  simp at h

def Reclaimed (tracker : TextEditTracker) (dedupe : EventDeduplicator)
    (tracker' : TextEditTracker) : Prop :=
  tracker' = tracker ∨ tracker' = (reclaimDepartedClients tracker dedupe).1

/-- The first critical section: an event is refused, answered from its record, rejected,
or goes on to its policy or to its handlers. -/
inductive Begins (env : Externals) (inner : SessionInner) (event : WireEvent) :
    SessionInner → Outcome ProcessError Begun → Prop where
  | refused {dedupe : EventDeduplicator} {error : EventSequenceError}
      (hadmits : admitEvent inner.dedupe (admissionIdentity env event) = (dedupe, .error error)) :
      Begins env inner event { inner with dedupe := dedupe } (err (.eventSequence error))
  | duplicate {dedupe : EventDeduplicator} {prior : EventOutcomeRecord} {last : Nat}
      (hadmits : admitEvent inner.dedupe (admissionIdentity env event) =
        (dedupe, .ok (.duplicate prior last))) :
      Begins env inner event { inner with dedupe := dedupe } (.ok (.returned
        (.duplicate prior.accepted prior.revisionAfterEffect last prior.rejectReason)))
  | pending {dedupe : EventDeduplicator} {last : Nat}
      (hadmits : admitEvent inner.dedupe (admissionIdentity env event) =
        (dedupe, .ok (.pending last))) :
      Begins env inner event { inner with dedupe := dedupe } (.ok (.returned (.pending last)))
  | rejected {dedupe settled : EventDeduplicator} {last frontier : Nat}
      {tracker : TextEditTracker} {error : EventValidationError} {reason : String}
      (hadmits : admitEvent inner.dedupe (admissionIdentity env event) =
        (dedupe, .ok (.fresh last)))
      (hreclaimed : Reclaimed inner.textEditTracker dedupe tracker)
      (hsettle : settleEvent dedupe (admissionIdentity env event)
        ⟨false, inner.session.store.revision, reason⟩ = (settled, frontier)) :
      Begins env inner event ⟨inner.session, settled, tracker⟩
        (.ok (.returned (.rejected error inner.session.store.revision frontier)))
  | stuck {dedupe : EventDeduplicator} {last : Nat} {tracker : TextEditTracker}
      (hadmits : admitEvent inner.dedupe (admissionIdentity env event) =
        (dedupe, .ok (.fresh last)))
      (hreclaimed : Reclaimed inner.textEditTracker dedupe tracker) :
      Begins env inner event ⟨inner.session, dedupe, tracker⟩ (.error .panicked)
  | deciding {dedupe : EventDeduplicator} {last generation : Nat}
      {tracker tracker' : TextEditTracker} {domain : DomainEvent} {node : Node}
      {request : TextEditRequest}
      (hadmits : admitEvent inner.dedupe (admissionIdentity env event) =
        (dedupe, .ok (.fresh last)))
      (hdecode : decodeEvent event = .ok domain)
      (hnode : inner.session.store.nodes[request.nodeId]? = some node)
      (hreclaimed : Reclaimed inner.textEditTracker dedupe tracker)
      (hreserve : reserve tracker event.clientInstanceId request.nodeId request.editSeq =
        (tracker', .ok generation)) :
      Begins env inner event ⟨inner.session, dedupe, tracker'⟩ (.ok (.deciding request generation))
  | dispatching {dedupe : EventDeduplicator} {last : Nat} {domain : DomainEvent}
      (hadmits : admitEvent inner.dedupe (admissionIdentity env event) =
        (dedupe, .ok (.fresh last)))
      (hdecode : decodeEvent event = .ok domain) :
      Begins env inner event { inner with dedupe := dedupe } (.ok .dispatching)

variable {store : SemanticStore}

theorem validateNodeInteractive_ok {node : Node}
    (h : validateNodeInteractive domain store = .ok node) :
    store.nodes[domain.nodeId]? = some node := by
  rw [validateNodeInteractive] at h
  split at h
  · simp at h
  · rename_i found hfound
    split at h
    · simp at h
    · rw [hfound, Except.ok.inj h]

theorem validateTextEdit_ok
    {result : EditSeq × String} (h : validateTextEdit store domain = .ok result) :
    ∃ node, store.nodes[domain.nodeId]? = some node := by
  rw [validateTextEdit] at h
  split at h
  · simp at h
  split at h
  · simp at h
  split at h
  · simp at h
  · rename_i node hnode
    exact ⟨node, validateNodeInteractive_ok hnode⟩

variable {dedupe : EventDeduplicator} {last : Nat}

section

variable (hadmits : admitEvent inner.dedupe (admissionIdentity env event) = (dedupe, .ok (.fresh last)))

include hadmits

theorem Begins.rejects {tracker : TextEditTracker}
    (hreclaimed : Reclaimed inner.textEditTracker dedupe tracker) (error : EventValidationError) :
    Begins env inner event
      (settleRejectedEvent env ⟨inner.session, dedupe, tracker⟩ (admissionIdentity env event) error).1
      (.ok (.returned (settleRejectedEvent env ⟨inner.session, dedupe, tracker⟩
        (admissionIdentity env event) error).2)) :=
  .rejected hadmits hreclaimed rfl

theorem reserveTextEdit_begins (hdecode : decodeEvent event = .ok domain) :
    Begins env inner event (reserveTextEdit env { inner with dedupe := dedupe } event domain).1
      (reserveTextEdit env { inner with dedupe := dedupe } event domain).2 := by
  have hidentity : admissionIdentity env event = identityOf event :=
    admissionIdentity_of_ok env hdecode
  rw [reserveTextEdit]
  split
  · rename_i error _
    rw [← hidentity]
    exact Begins.rejects hadmits (.inl rfl) error
  rename_i editSeq submitted hvalid
  obtain ⟨node, hnode⟩ := validateTextEdit_ok hvalid
  have hreclaimed : Reclaimed inner.textEditTracker dedupe
      (if isAtCapacity inner.textEditTracker then
        reclaimDepartedClients inner.textEditTracker dedupe
      else (inner.textEditTracker, .ok ())).1 := by
    split
    · exact .inr rfl
    · exact .inl rfl
  simp only
  generalize (if isAtCapacity inner.textEditTracker then
    reclaimDepartedClients inner.textEditTracker dedupe
    else (inner.textEditTracker, .ok ())) = reclaimed at hreclaimed
  obtain ⟨tracker, ended⟩ := reclaimed
  cases ended with
  | error panic => exact .stuck hadmits hreclaimed
  | ok _ =>
    simp only
    split
    · rename_i tracker' generation hreserve
      exact .deciding hadmits hdecode hnode hreclaimed hreserve
    · rename_i tracker' error hreserve
      rcases reserve_cases tracker event.clientInstanceId domain.nodeId editSeq with
        ⟨error', hrefused⟩ | ⟨other, generation, hgranted, -⟩
      · rw [hrefused] at hreserve
        obtain ⟨rfl, -⟩ := Prod.mk.inj hreserve
        rw [← hidentity]
        exact Begins.rejects hadmits hreclaimed error
      · rw [hgranted] at hreserve
        simp at hreserve

theorem processFresh_begins :
    Begins env inner event (processFresh env { inner with dedupe := dedupe } event).1
      (processFresh env { inner with dedupe := dedupe } event).2 := by
  rw [processFresh]
  split
  · exact Begins.rejects hadmits (.inl rfl) _
  rename_i domain hdecode
  split
  · exact reserveTextEdit_begins hadmits hdecode
  rw [← admissionIdentity_of_ok env hdecode]
  split
  · exact .dispatching hadmits hdecode
  · exact Begins.rejects hadmits (.inl rfl) _
  · exact Begins.rejects hadmits (.inl rfl) _

end

theorem beginEvent_begins (env : Externals) (inner : SessionInner) (event : WireEvent) :
    Begins env inner event (beginEvent env inner event).1 (beginEvent env inner event).2 := by
  rw [beginEvent]
  split
  · rename_i hadmits
    exact .refused hadmits
  · rename_i hadmits
    exact .duplicate hadmits
  · rename_i hadmits
    exact .pending hadmits
  · rename_i hadmits
    exact processFresh_begins hadmits

/-- A decision that goes through: the editor is there, the reservation is the newest of
its stream, and the store and the journal advance together. -/
structure Publishes (inner : SessionInner) (event : WireEvent) (request : TextEditRequest)
    (generation : Nat) (session' : Session) (tracker' : TextEditTracker) : Prop where
  live : ∃ node, inner.session.store.nodes[request.nodeId]? = some node
  newest : (generationOf inner.textEditTracker event.clientInstanceId request.nodeId).getD 0 =
    generation
  commits : ∃ ops, Commits inner.session ops session'
  marked : ∀ c n, streamOf tracker' c n = streamOf (markTerminal inner.textEditTracker
    event.clientInstanceId request.nodeId request.editSeq) c n

inductive Decides (inner : SessionInner) (event : WireEvent) (request : TextEditRequest)
    (generation : Nat) : SessionInner → Outcome ProcessError TextEditCommit → Prop where
  | late (hlate : isInFlight inner.dedupe event.clientInstanceId event.eventId = false) :
      Decides inner event request generation inner
        (.ok (.settled (lateDecision inner.dedupe event)))
  | rejected {settled : EventDeduplicator} {frontier : Nat} {error : EventValidationError}
      {reason : String}
      (hsettle : settleEvent inner.dedupe (identityOf event)
        ⟨false, inner.session.store.revision, reason⟩ = (settled, frontier)) :
      Decides inner event request generation
        ⟨inner.session, settled, markTerminal inner.textEditTracker event.clientInstanceId
          request.nodeId request.editSeq⟩
        (.ok (.settled (.rejected error inner.session.store.revision frontier)))
  | faulted {fault : Fault ProcessError} : Decides inner event request generation inner (.error fault)
  | accepted {session' : Session} {tracker' : TextEditTracker} {tx : WireTransaction}
      (hpublishes : Publishes inner event request generation session' tracker') :
      Decides inner event request generation ⟨session', inner.dedupe, tracker'⟩
        (.ok (.dispatchAccepted tx))
  | stuck {session' : Session} {tracker' : TextEditTracker}
      (hpublishes : Publishes inner event request generation session' tracker') :
      Decides inner event request generation ⟨session', inner.dedupe, tracker'⟩ (.error .panicked)
  | declined {session' : Session} {tracker' : TextEditTracker} {settled : EventDeduplicator}
      {frontier : Nat} {error : EventValidationError} {reason : String}
      (hpublishes : Publishes inner event request generation session' tracker')
      (hsettle : settleEvent inner.dedupe (identityOf event)
        ⟨false, session'.store.revision, reason⟩ = (settled, frontier)) :
      Decides inner event request generation ⟨session', settled, tracker'⟩
        (.ok (.settled (.rejected error session'.store.revision frontier)))

theorem set_advanced {ui ui' : UiTransaction} {node : NodeId} {property : PropertyRef}
    {val : Value} {old : Option Value} (h : ui.set node property val = (ui', .ok old)) :
    Admits ui ∧ ui' = advanced ui (.setProperty node property val) := by
  have hui : (ui.perform (.set node property val)).1 = ui' := by
    rw [UiTransaction.perform, answer, h]
  have hadmits : Admits ui := by
    by_contra hrefused
    have hcount : ui.opCount + 1 > ui.maxOps := Nat.not_le.mp hrefused
    simp [UiTransaction.set, UiTransaction.recorded, UiTransaction.recordOp, hcount, err] at h
  refine ⟨hadmits, ?_⟩
  rw [← hui]
  exact perform_admitted hadmits _

theorem stageDecision_staged {nodeId : NodeId} {published : String}
    {validation : StandardValidationState} {ui : UiTransaction}
    (h : stageDecision store nodeId published validation = (ui, .ok ())) :
    ui.staged = run applyStep store ui.operations ∧
      ui.operations.length ≤ store.limits.maxTransactionOperations := by
  rw [stageDecision] at h
  split at h
  · simp at h
  rename_i first _ hfirst
  split at h
  · simp at h
  rename_i second _ hsecond
  obtain ⟨rfl, -⟩ := Prod.mk.inj h
  obtain ⟨hadmits, hadvanced⟩ := set_advanced hsecond
  rw [hadvanced]
  rw [(set_advanced hfirst).2] at hadmits ⊢
  exact ⟨rfl, hadmits⟩

theorem finishDecision_decides {request : TextEditRequest} {generation : Nat} {session' : Session}
    (hpublishes : ∀ tracker', (∀ c n, streamOf tracker' c n = streamOf (markTerminal
      inner.textEditTracker event.clientInstanceId request.nodeId request.editSeq) c n) →
        Publishes inner event request generation session' tracker')
    (accepted : Bool) (reason : String) (tx : WireTransaction) :
    Decides inner event request generation
      (finishDecision { inner with session := session' } event request accepted reason tx).1
      (finishDecision { inner with session := session' } event request accepted reason tx).2 := by
  rw [finishDecision]
  simp only
  split
  · have hbegun := streamOf_begin (markTerminal inner.textEditTracker event.clientInstanceId
      request.nodeId request.editSeq) event.clientInstanceId event.eventSeq
      ⟨event.nodeId, event.editSeq⟩
    split
    · rename_i hbegin
      rw [hbegin] at hbegun
      exact .stuck (hpublishes _ hbegun)
    · rename_i hbegin
      rw [hbegin] at hbegun
      exact .accepted (hpublishes _ hbegun)
  · exact .declined (hpublishes _ fun _ _ => rfl) rfl

theorem publishDecision_decides {request : TextEditRequest} {generation : Nat}
    (hlive : ∃ node, inner.session.store.nodes[request.nodeId]? = some node)
    (hnewest : (generationOf inner.textEditTracker event.clientInstanceId
      request.nodeId).getD 0 = generation) (decision : TextEditDecision) :
    Decides inner event request generation (publishDecision env inner event request decision).1
      (publishDecision env inner event request decision).2 := by
  rw [publishDecision]
  simp only
  split
  · exact .rejected rfl
  split
  · exact .rejected rfl
  · exact .faulted
  · exact .faulted
  rename_i ui hstage
  split
  · exact .faulted
  rename_i next hnext
  split
  · exact .rejected rfl
  rename_i permit hprepare
  obtain ⟨hstaged, hfits⟩ := stageDecision_staged hstage
  obtain ⟨journal, happend, hcommits⟩ := prepared_commits hnext ui hstaged hfits hprepare
  rw [happend]
  exact finishDecision_decides
    (fun _ hmarked => ⟨hlive, hnewest, ⟨ui.operations, hcommits⟩, hmarked⟩) _ _ _

theorem revalidateEditorForCommit_ok {nodeId : NodeId}
    (h : revalidateEditorForCommit store nodeId = .ok ()) :
    ∃ node, store.nodes[nodeId]? = some node := by
  rw [revalidateEditorForCommit] at h
  split at h
  · simp at h
  · rename_i node hnode
    exact ⟨node, hnode⟩

theorem commitTextEditDecision_decides (env : Externals) (inner : SessionInner)
    (event : WireEvent) (request : TextEditRequest) (generation : Nat)
    (decision : TextEditDecision) :
    Decides inner event request generation
      (commitTextEditDecision env inner event request generation decision).1
      (commitTextEditDecision env inner event request generation decision).2 := by
  rw [commitTextEditDecision]
  split
  · rename_i hlate
    exact .late hlate
  split
  · exact .rejected rfl
  rename_i hvalid
  split
  · exact .rejected rfl
  · rename_i hnewest
    exact publishDecision_decides (revalidateEditorForCommit_ok hvalid) (not_not.mp hnewest)
      decision

end Srui.Sessiond.EventProcessing

import Srui.Client.OwnershipFences

/-!
The ordered lane of transactions beside the receive loop of one connection: each queued task
awaits the tail it found, and the loop awaits the tail before a message that replaces the replica.
-/

namespace Srui.Client.TransactionLanes

open Client.OwnershipFences

inductive ProtocolPhase where
  | idle
  | awaitingWelcome
  | awaitingResume
  | active
  | awaitingSnapshot
  | failed
deriving DecidableEq

def allowsDataPlane : ProtocolPhase → Bool
  | .active | .awaitingSnapshot => true
  | .idle | .awaitingWelcome | .awaitingResume | .failed => false

/-- A message, as far as the receive loop tells them apart. -/
inductive Message (T M : Type) where
  | transaction (wireTransaction : T)
  | serverWelcome (welcome : M) (initialRevision : Nat)
  | serverResumeOk (resumeOk : M)
  | serverResyncRequired (resync : M)
  | other (message : M)

variable {T M : Type}

/-- `requiresTransactionLaneOrdering`. -/
def requiresTransactionLaneOrdering : Message T M → Bool
  | .serverResumeOk _ | .serverResyncRequired _ => true
  | _ => false

/-- The messages that are handled in the order they came: transactions, and those before which the
loop awaits the lane. -/
def sequenced : Message T M → Bool
  | .transaction _ => true
  | message => requiresTransactionLaneOrdering message

structure ConnectionState where
  context : SessionContinuityContext
  outboxConnectionBinding : Nat
  outboxSessionIncarnation : Nat
  phase : ProtocolPhase
  pendingResync : Bool

def ConnectionState.ownership (c : ConnectionState) : Ownership :=
  ⟨c.outboxConnectionBinding, c.outboxSessionIncarnation⟩

/-- Where a queued transaction is: before `handleTransaction`, in it, or past it. -/
inductive TaskProgress where
  | awaitingPredecessor
  | awaitingAdmission
  | admissionOwned (ownership : Ownership)
  | admissionLeased (ownership : Ownership)
  | sleeping
  | admitted
  | owned (ownership : Ownership)
  | fenced
  | handling
  | committing (ownership : Ownership)
  | adopted (previous next : Ownership)
  | draining (previous next : Ownership)
  | committed
  | caughtUp
  | returned
  | failed
deriving DecidableEq

inductive TaskSection where
  | resume
  | readAdmissionOwnership
  | acquireMutation
  | admissionAttempt (admitted : Bool)
  | wake
  | currentTransactionIngressOwnership
  | isActive
  | handleTransaction
  | readSnapshotOwnership
  | adoptFullResyncInteractionBoundary (sessionIncarnation : Nat)
  | advanceSessionIncarnation
  | finishAdvance
  | completeSnapshotCatchUp
  | returnFromHandleTransaction

/-- One section of a queued task. The waits for the leases of others and for rate credit may take
any time. -/
def taskSection (c : ConnectionState) (predecessorFinished : Bool) :
    TaskProgress → TaskSection → Option (ConnectionState × TaskProgress)
  | .awaitingPredecessor, .resume =>
    if predecessorFinished then some (c, .awaitingAdmission) else none
  -- `waitForTransactionAdmission`
  | .awaitingAdmission, .readAdmissionOwnership => some (c, .admissionOwned c.ownership)
  | .admissionOwned ownership, .acquireMutation =>
    match c.context.acquireMutation ownership with
    | some context => some ({ c with context := context }, .admissionLeased ownership)
    | none => some (c, .returned)
  | .admissionLeased ownership, .admissionAttempt admitted =>
    some ({ c with context := (c.context.releaseMutation ownership).1 },
      if admitted then .admitted else .sleeping)
  | .sleeping, .wake => some (c, .awaitingAdmission)
  -- the last guard of `runQueuedTransaction`
  | .admitted, .currentTransactionIngressOwnership => some (c, .owned c.ownership)
  | .owned ownership, .isActive =>
    some (c, if c.context.isActive ownership then .fenced else .returned)
  | .fenced, .handleTransaction =>
    some (c, if allowsDataPlane c.phase then .handling else .returned)
  -- `handleTransaction`
  | .handling, .readSnapshotOwnership =>
    if c.pendingResync then some (c, .committing c.ownership) else none
  | .committing ownership, .adoptFullResyncInteractionBoundary sessionIncarnation =>
    some ({ c with outboxSessionIncarnation := sessionIncarnation },
      .adopted ownership ⟨ownership.binding, sessionIncarnation⟩)
  | .adopted previous next, .advanceSessionIncarnation =>
    if previous = next then
      some (c, if c.context.isActive next then .committed else .failed)
    else if c.context.activeOwnership = some previous then
      some ({ c with context := c.context.advance previous next }, .draining previous next)
    else some (c, .failed)
  | .draining previous next, .finishAdvance =>
    some ({ c with context := c.context.drained {previous} },
      if c.context.isActive next then .committed else .failed)
  | .committed, .completeSnapshotCatchUp =>
    some ({ c with
      pendingResync := false
      phase := if c.phase = .awaitingSnapshot then .active else c.phase }, .caughtUp)
  | .handling, .returnFromHandleTransaction => some (c, .returned)
  -- a snapshot that cannot be prepared is waited for again
  | .committing _, .returnFromHandleTransaction => some (c, .returned)
  | .caughtUp, .returnFromHandleTransaction => some (c, .returned)
  | _, _ => none

/-- A task that has not begun `handleTransaction`. -/
def TaskProgress.isWaiting : TaskProgress → Bool
  | .awaitingPredecessor | .awaitingAdmission | .admissionOwned _ | .admissionLeased _ => true
  | .sleeping | .admitted | .owned _ | .fenced => true
  | _ => false

/-- A task in `handleTransaction`. -/
def TaskProgress.isHandling : TaskProgress → Bool
  | .handling | .committing _ | .adopted _ _ | .draining _ _ | .committed | .caughtUp => true
  | _ => false

inductive Entry (T M : Type) where
  | began (message : Message T M)
  | ended (message : Message T M)

def TaskSection.entries (message : Message T M) : TaskSection → TaskProgress → List (Entry T M)
  | .handleTransaction, .handling => [.began message]
  | .returnFromHandleTransaction, _ => [.ended message]
  | _, _ => []

/-- What the oldest task has read of its ownership is still so, and the context is active under it
except between the two steps of a snapshot. -/
def TaskAligned (c : ConnectionState) : TaskProgress → Prop
  | .admissionOwned ownership | .admissionLeased ownership | .owned ownership
  | .committing ownership =>
    ownership = c.ownership ∧ c.context.activeOwnership = some ownership
  | .adopted previous next => c.context.activeOwnership = some previous ∧ next = c.ownership
  | .draining _ next => c.context.activeOwnership = some next ∧ next = c.ownership
  | _ => c.context.activeOwnership = some c.ownership

/-- What a section of an aligned task does: it goes on within its stage, or begins or ends
`handleTransaction` with the entry that says so. -/
inductive Moves (message : Message T M) (progress progress' : TaskProgress) :
    List (Entry T M) → Prop where
  | waits (h : progress.isWaiting) (h' : progress'.isWaiting) : Moves message progress progress' []
  | begins (h : progress.isWaiting) (h' : progress'.isHandling) :
      Moves message progress progress' [.began message]
  | handles (h : progress.isHandling) (h' : progress'.isHandling) :
      Moves message progress progress' []
  | ends (h : progress.isHandling) (h' : progress' = .returned) :
      Moves message progress progress' [.ended message]

theorem taskSection_moves {c c' : ConnectionState} {done : Bool} {progress progress' : TaskProgress}
    {action : TaskSection} (message : Message T M)
    (h : taskSection c done progress action = some (c', progress'))
    (haligned : TaskAligned c progress) (hphase : allowsDataPlane c.phase = true) :
    TaskAligned c' progress' ∧ allowsDataPlane c'.phase = true ∧
      Moves message progress progress' (action.entries message progress') := by
  unfold taskSection at h
  split at h
  · split_ifs at h
    obtain ⟨rfl, rfl⟩ := Prod.mk.inj (Option.some.inj h)
    exact ⟨haligned, hphase, .waits rfl rfl⟩
  · obtain ⟨rfl, rfl⟩ := Prod.mk.inj (Option.some.inj h)
    exact ⟨⟨rfl, haligned⟩, hphase, .waits rfl rfl⟩
  · rename_i ownership
    obtain ⟨rfl, hactive⟩ := haligned
    rw [SessionContinuityContext.acquireMutation, if_pos hactive] at h
    obtain ⟨rfl, rfl⟩ := Prod.mk.inj (Option.some.inj h)
    exact ⟨⟨rfl, hactive⟩, hphase, .waits rfl rfl⟩
  · rename_i ownership admitted
    obtain ⟨rfl, hactive⟩ := haligned
    obtain ⟨rfl, rfl⟩ := Prod.mk.inj (Option.some.inj h)
    have hreleased := (c.context.releaseMutation_activeOwnership c.ownership).trans hactive
    cases admitted with
    | true | false => exact ⟨hreleased, hphase, .waits rfl rfl⟩
  · obtain ⟨rfl, rfl⟩ := Prod.mk.inj (Option.some.inj h)
    exact ⟨haligned, hphase, .waits rfl rfl⟩
  · obtain ⟨rfl, rfl⟩ := Prod.mk.inj (Option.some.inj h)
    exact ⟨⟨rfl, haligned⟩, hphase, .waits rfl rfl⟩
  · rename_i ownership
    obtain ⟨rfl, hactive⟩ := haligned
    have hfenced : c.context.isActive c.ownership = true := decide_eq_true hactive
    rw [hfenced] at h
    obtain ⟨rfl, rfl⟩ := Prod.mk.inj (Option.some.inj h)
    exact ⟨hactive, hphase, .waits rfl rfl⟩
  · rw [hphase] at h
    obtain ⟨rfl, rfl⟩ := Prod.mk.inj (Option.some.inj h)
    exact ⟨haligned, hphase, .begins rfl rfl⟩
  · split_ifs at h
    obtain ⟨rfl, rfl⟩ := Prod.mk.inj (Option.some.inj h)
    exact ⟨⟨rfl, haligned⟩, hphase, .handles rfl rfl⟩
  · obtain ⟨rfl, hactive⟩ := haligned
    obtain ⟨rfl, rfl⟩ := Prod.mk.inj (Option.some.inj h)
    exact ⟨⟨hactive, rfl⟩, hphase, .handles rfl rfl⟩
  · rename_i previous next
    obtain ⟨hactive, rfl⟩ := haligned
    rw [if_pos hactive] at h
    split_ifs at h with hsame hnext
    · obtain ⟨rfl, rfl⟩ := Prod.mk.inj (Option.some.inj h)
      exact ⟨hactive.trans (congrArg some hsame), hphase, .handles rfl rfl⟩
    · exact absurd (decide_eq_true (hactive.trans (congrArg some hsame))) hnext
    · obtain ⟨rfl, rfl⟩ := Prod.mk.inj (Option.some.inj h)
      exact ⟨⟨rfl, rfl⟩, hphase, .handles rfl rfl⟩
  · rename_i previous next
    obtain ⟨hactive, rfl⟩ := haligned
    have hnext : c.context.isActive c.ownership = true := decide_eq_true hactive
    rw [hnext] at h
    obtain ⟨rfl, rfl⟩ := Prod.mk.inj (Option.some.inj h)
    exact ⟨hactive, hphase, .handles rfl rfl⟩
  · obtain ⟨rfl, rfl⟩ := Prod.mk.inj (Option.some.inj h)
    refine ⟨haligned, ?_, .handles rfl rfl⟩
    change allowsDataPlane (if c.phase = .awaitingSnapshot then .active else c.phase) = true
    split_ifs
    · rfl
    · exact hphase
  · obtain ⟨rfl, rfl⟩ := Prod.mk.inj (Option.some.inj h)
    exact ⟨haligned, hphase, .ends rfl rfl⟩
  · obtain ⟨hsame, hactive⟩ := haligned
    obtain ⟨rfl, rfl⟩ := Prod.mk.inj (Option.some.inj h)
    exact ⟨hactive.trans (congrArg some hsame), hphase, .ends rfl rfl⟩
  · obtain ⟨rfl, rfl⟩ := Prod.mk.inj (Option.some.inj h)
    exact ⟨haligned, hphase, .ends rfl rfl⟩
  · cases h

/-- A task of `transactionIngressTasks`, with the chunk its transaction came in. -/
structure QueuedTransaction (T : Type) where
  taskID : Nat
  wireTransaction : T
  predecessor : Option Nat
  progress : TaskProgress := .awaitingPredecessor
  chunk : Nat

structure ReceivedChunk (T M : Type) where
  index : Nat
  byteCount : Nat
  remaining : List (Message T M)
  transactionCompletions : List Nat := []

structure ChunkAcknowledgement where
  index : Nat
  byteCount : Nat
  transactionCompletions : List Nat

def ChunkAcknowledgement.isDue (a : ChunkAcknowledgement) (index : Nat) : Bool :=
  a.index = index && a.transactionCompletions.isEmpty

def ChunkAcknowledgement.awaitNext (a : ChunkAcknowledgement) : ChunkAcknowledgement :=
  { a with transactionCompletions := a.transactionCompletions.tail }

inductive ReceiveLoop (T M : Type) where
  | awaitingChunk
  | dispatching (chunk : ReceivedChunk T M)
  | awaitingOldest (chunk : ReceivedChunk T M) (oldest : Nat)
  | enqueueing (chunk : ReceivedChunk T M)
  | awaitingTail (chunk : ReceivedChunk T M) (tail : Option Nat)
  | handling (chunk : ReceivedChunk T M) (message : Message T M) (ownership : Ownership)
  | adopted (chunk : ReceivedChunk T M) (message : Message T M) (previous next : Ownership)
  | draining (chunk : ReceivedChunk T M) (message : Message T M) (previous next : Ownership)
  | replaced (chunk : ReceivedChunk T M) (message : Message T M)

def maxQueuedIngressTransactions : Nat := 2048

/-- The receive loop with its lane. `delivered`, `chunks` and `log` record what the transport has
delivered and what has been handled; `ended` stands for a stop, a failure or a supersession. -/
structure IngressLane (T M : Type) where
  connection : ConnectionState
  transactionIngressTasks : List (QueuedTransaction T) := []
  transactionIngressOrder : List Nat := []
  transactionIngressTail : Option Nat := none
  nextTaskID : Nat := 0
  receiveLoop : ReceiveLoop T M := .awaitingChunk
  acknowledgements : List ChunkAcknowledgement := []
  acknowledged : List (Nat × Nat) := []
  chunks : List (Nat × Nat) := []
  delivered : List (Message T M) := []
  log : List (Entry T M) := []
  ended : Bool := false

inductive Section (T M : Type) where
  | receiveChunk (byteCount : Nat) (messages : List (Message T M))
  | awaitTransactionIngressQueueCapacity
  | oldestFinished
  | enqueueIncomingTransaction
  | awaitQueuedTransactionLane
  | handleOrderedMessage
  | resetTextEditingForReplacement (sessionIncarnation : Nat)
  | advanceSessionIncarnation
  | finishAdvance
  | returnFromOrderedMessage
  | handleWelcome
  | handleOther
  | finishChunk
  | task (taskID : Nat) (step : TaskSection)
  | finishQueuedTransaction (taskID : Nat)
  | completionFinished (index : Nat)
  | acknowledgeReceived (index : Nat)
  | endConnection

namespace IngressLane

def queuedTransaction? (s : IngressLane T M) (taskID : Nat) : Option (QueuedTransaction T) :=
  s.transactionIngressTasks.find? (·.taskID = taskID)

def finished (s : IngressLane T M) (task : Option Nat) : Bool :=
  match task with
  | some taskID => (s.queuedTransaction? taskID).isNone
  | none => true

/-- `runQueuedTransaction`. -/
def task (s : IngressLane T M) (taskID : Nat) (action : TaskSection) : IngressLane T M :=
  match s.queuedTransaction? taskID with
  | some queued =>
    match taskSection s.connection (s.finished queued.predecessor) queued.progress action with
    | some (connection, progress) =>
      { s with
        connection := connection
        transactionIngressTasks := s.transactionIngressTasks.map fun t =>
          if t.taskID = taskID then { t with progress := progress } else t
        log := s.log ++ action.entries (.transaction queued.wireTransaction) progress
        ended := progress = .failed }
    | none => s
  | none => s

def finishQueuedTransaction (s : IngressLane T M) (taskID : Nat) : IngressLane T M :=
  match s.queuedTransaction? taskID with
  | some queued =>
    if queued.progress = .returned then
      { s with
        transactionIngressTasks := s.transactionIngressTasks.filter (·.taskID ≠ taskID)
        transactionIngressOrder := s.transactionIngressOrder.erase taskID
        transactionIngressTail :=
          if s.transactionIngressTasks.filter (·.taskID ≠ taskID) = [] then none
          else s.transactionIngressTail }
    else s
  | none => s

def receiveChunk (s : IngressLane T M) (byteCount : Nat) (messages : List (Message T M)) :
    IngressLane T M :=
  match s.receiveLoop with
  | .awaitingChunk =>
    { s with
      receiveLoop := .dispatching ⟨s.chunks.length, byteCount, messages, []⟩
      chunks := s.chunks ++ [(s.chunks.length, byteCount)]
      delivered := s.delivered ++ messages }
  | _ => s

def oldestQueued (s : IngressLane T M) : Option Nat :=
  if maxQueuedIngressTransactions ≤ s.transactionIngressTasks.length then
    s.transactionIngressOrder.head?.bind fun oldest =>
      (s.queuedTransaction? oldest).map fun _ => oldest
  else none

def awaitTransactionIngressQueueCapacity (s : IngressLane T M) : IngressLane T M :=
  match s.receiveLoop with
  | .dispatching chunk =>
    match chunk.remaining with
    | .transaction _ :: _ =>
      match s.oldestQueued with
      | some oldest => { s with receiveLoop := .awaitingOldest chunk oldest }
      | none => { s with receiveLoop := .enqueueing chunk }
    | _ => s
  | _ => s

def oldestFinished (s : IngressLane T M) : IngressLane T M :=
  match s.receiveLoop with
  | .awaitingOldest chunk oldest =>
    if s.finished (some oldest) then { s with receiveLoop := .dispatching chunk } else s
  | _ => s

def enqueueIncomingTransaction (s : IngressLane T M) : IngressLane T M :=
  match s.receiveLoop with
  | .enqueueing chunk =>
    match chunk.remaining with
    | .transaction wireTransaction :: rest =>
      if allowsDataPlane s.connection.phase then
        { s with
          transactionIngressTasks := s.transactionIngressTasks ++ [{
            taskID := s.nextTaskID
            wireTransaction := wireTransaction
            predecessor := s.transactionIngressTail
            chunk := chunk.index }]
          transactionIngressOrder := s.transactionIngressOrder ++ [s.nextTaskID]
          transactionIngressTail := some s.nextTaskID
          nextTaskID := s.nextTaskID + 1
          receiveLoop := .dispatching { chunk with
            remaining := rest
            transactionCompletions := chunk.transactionCompletions ++ [s.nextTaskID] } }
      else { s with ended := true }
    | _ => s
  | _ => s

def awaitQueuedTransactionLane (s : IngressLane T M) : IngressLane T M :=
  match s.receiveLoop with
  | .dispatching chunk =>
    match chunk.remaining with
    | message :: _ =>
      if requiresTransactionLaneOrdering message then
        { s with receiveLoop := .awaitingTail chunk s.transactionIngressTail }
      else s
    | [] => s
  | _ => s

def expects (phase : ProtocolPhase) : Message T M → Bool
  | .serverResumeOk _ => phase = .awaitingResume
  | .serverResyncRequired _ =>
    phase = .awaitingResume || phase = .active || phase = .awaitingSnapshot
  | _ => false

def handleOrderedMessage (s : IngressLane T M) : IngressLane T M :=
  match s.receiveLoop with
  | .awaitingTail chunk tail =>
    match chunk.remaining with
    | message :: rest =>
      if s.finished tail then
        if expects s.connection.phase message then
          { s with
            receiveLoop :=
              .handling { chunk with remaining := rest } message s.connection.ownership
            log := s.log ++ [.began message] }
        else { s with ended := true }
      else s
    | [] => s
  | _ => s

def resetTextEditingForReplacement (s : IngressLane T M) (sessionIncarnation : Nat) :
    IngressLane T M :=
  match s.receiveLoop with
  | .handling chunk (.serverResyncRequired resync) ownership =>
    { s with
      connection :=
        { s.connection with outboxSessionIncarnation := sessionIncarnation }
      receiveLoop := .adopted chunk (.serverResyncRequired resync) ownership
        ⟨ownership.binding, sessionIncarnation⟩ }
  | _ => s

def advanceSessionIncarnation (s : IngressLane T M) : IngressLane T M :=
  match s.receiveLoop with
  | .adopted chunk message previous next =>
    if previous = next then
      if s.connection.context.isActive next then
        { s with receiveLoop := .replaced chunk message }
      else { s with ended := true }
    else if s.connection.context.activeOwnership = some previous then
      { s with
        connection :=
          { s.connection with context := s.connection.context.advance previous next }
        receiveLoop := .draining chunk message previous next }
    else { s with ended := true }
  | _ => s

def finishAdvance (s : IngressLane T M) : IngressLane T M :=
  match s.receiveLoop with
  | .draining chunk message previous next =>
    if s.connection.context.isActive next then
      { s with
        connection :=
          { s.connection with context := s.connection.context.drained {previous} }
        receiveLoop := .replaced chunk message }
    else { s with ended := true }
  | _ => s

def settle (c : ConnectionState) : Message T M → ConnectionState
  | .serverResumeOk _ => { c with phase := .active }
  | .serverResyncRequired _ => { c with phase := .awaitingSnapshot, pendingResync := true }
  | _ => c

def returnFromOrderedMessage (s : IngressLane T M) : IngressLane T M :=
  match s.receiveLoop with
  | .handling chunk message _ =>
    { s with
      connection := settle s.connection message
      receiveLoop := .dispatching chunk
      log := s.log ++ [.ended message] }
  | .replaced chunk message =>
    { s with
      connection := settle s.connection message
      receiveLoop := .dispatching chunk
      log := s.log ++ [.ended message] }
  | _ => s

/-- The state that a fresh `WELCOME` commits. -/
def welcomed (c : ConnectionState) (initialRevision : Nat) : ConnectionState :=
  if 0 < initialRevision then { c with phase := .awaitingSnapshot, pendingResync := true }
  else { c with phase := .active }

def handleWelcome (s : IngressLane T M) : IngressLane T M :=
  match s.receiveLoop with
  | .dispatching chunk =>
    match chunk.remaining with
    | .serverWelcome _ initialRevision :: rest =>
      if s.connection.phase = .idle ∨ s.connection.phase = .awaitingWelcome then
        { s with
          connection := welcomed s.connection initialRevision
          receiveLoop := .dispatching { chunk with remaining := rest } }
      else { s with ended := true }
    | _ => s
  | _ => s

/-- Control traffic, which neither awaits the lane nor changes what it depends on. -/
def handleOther (s : IngressLane T M) : IngressLane T M :=
  match s.receiveLoop with
  | .dispatching chunk =>
    match chunk.remaining with
    | .other _ :: rest => { s with receiveLoop := .dispatching { chunk with remaining := rest } }
    | _ => s
  | _ => s

def finishChunk (s : IngressLane T M) : IngressLane T M :=
  match s.receiveLoop with
  | .dispatching chunk =>
    match chunk.remaining with
    | [] =>
      if chunk.transactionCompletions = [] then
        { s with
          receiveLoop := .awaitingChunk
          acknowledged := s.acknowledged ++ [(chunk.index, chunk.byteCount)] }
      else
        { s with
          receiveLoop := .awaitingChunk
          acknowledgements := s.acknowledgements ++
            [⟨chunk.index, chunk.byteCount, chunk.transactionCompletions⟩] }
    | _ :: _ => s
  | _ => s

def completionFinished (s : IngressLane T M) (index : Nat) : IngressLane T M :=
  { s with
    acknowledgements := s.acknowledgements.map fun a =>
      if a.index = index ∧ s.finished a.transactionCompletions.head? then a.awaitNext else a }

def acknowledgeReceived (s : IngressLane T M) (index : Nat) : IngressLane T M :=
  match s.acknowledgements.find? (·.isDue index) with
  | some a =>
    { s with
      acknowledgements := s.acknowledgements.eraseP (·.isDue index)
      acknowledged := s.acknowledged ++ [(a.index, a.byteCount)] }
  | none => s

def step (s : IngressLane T M) (action : Section T M) : IngressLane T M :=
  if s.ended then s
  else match action with
    | .receiveChunk byteCount messages => s.receiveChunk byteCount messages
    | .awaitTransactionIngressQueueCapacity => s.awaitTransactionIngressQueueCapacity
    | .oldestFinished => s.oldestFinished
    | .enqueueIncomingTransaction => s.enqueueIncomingTransaction
    | .awaitQueuedTransactionLane => s.awaitQueuedTransactionLane
    | .handleOrderedMessage => s.handleOrderedMessage
    | .resetTextEditingForReplacement sessionIncarnation =>
      s.resetTextEditingForReplacement sessionIncarnation
    | .advanceSessionIncarnation => s.advanceSessionIncarnation
    | .finishAdvance => s.finishAdvance
    | .returnFromOrderedMessage => s.returnFromOrderedMessage
    | .handleWelcome => s.handleWelcome
    | .handleOther => s.handleOther
    | .finishChunk => s.finishChunk
    | .task taskID action => s.task taskID action
    | .finishQueuedTransaction taskID => s.finishQueuedTransaction taskID
    | .completionFinished index => s.completionFinished index
    | .acknowledgeReceived index => s.acknowledgeReceived index
    | .endConnection => { s with ended := true }

end IngressLane

end Srui.Client.TransactionLanes

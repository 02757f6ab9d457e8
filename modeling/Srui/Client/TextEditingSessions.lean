import Srui.SemanticTree.Events

/-!
The coordinator of the native text editors of one session: drafts, flushed edits that wait
for a transport identity, and the published strings they answer to.

A debounce task only calls `flushPending` later, which a caller may do at any time, so
tasks are left out; and so is what the callbacks are told. `withPreservedLocalText` is a
call that begins it and one that ends it, around whatever its body calls. Texts are compared
scalar by scalar, where a Swift `String` compares up to canonical equivalence.
-/

namespace Srui.Client.TextEditingSessions

open Std Basic.FiniteMaps Basic.Machine
open Basic.Varints (Bytes)
open SemanticTree.Values (NodeId Revision)
open SemanticTree.Events (EditSeq)

abbrev EventId := Bytes

/-- What the native editor is to do with a published value. -/
inductive AuthoritativeResolution where
  | apply
  | keepLocal
  | deferred
deriving DecidableEq, Repr

/-- A whole-value local edit ready to acquire its durable transport identity. -/
structure LocalTextEdit where
  nodeId : NodeId
  text : String
  editSeq : EditSeq
  observedRevision : Revision
  laneEpoch : Nat
  flushGeneration : Nat
  invalidationEpoch : Nat
deriving DecidableEq, Repr

structure Event where
  isTextEdit : Bool
  nodeId : NodeId
  textArg : Option String
  editSeq : Option EditSeq
  eventId : EventId
deriving DecidableEq, Repr

/-- `TextEditingSession.NodeState`: the draft of one node on its way to an event. -/
structure NodeState where
  nextEditSeq : Nat := 1
  pendingValue : Option String := none
  lastFlushedValue : Option String := none
  unassignedFlushedEditSeq : Option EditSeq := none
  unassignedFlushedValue : Option String := none
  unassignedObservedRevision : Option Revision := none
  unassignedLaneEpoch : Option Nat := none
  unassignedFlushGeneration : Option Nat := none
  unassignedClaimed : Bool := false
  invalidationEpoch : Nat := 0
  lastSubmittedValue : Option String := none
  lastKnownAuthoritative : Option String := none
  assignedEventId : Option EventId := none
  localValue : String := ""
  deferredAuthoritative : Option String := none
  composing : Bool := false
deriving DecidableEq, Repr

structure TextEditingSession where
  debounceNanoseconds : Nat := 75000000
  nodes : ExtTreeMap NodeId NodeState := ∅
  unassignedNodeOrder : List NodeId := []
  preservingLocalTextAcrossRemount : Bool := false
  laneEpoch : ExtTreeMap NodeId Nat := ∅
  resyncLaneEpoch : Nat := 0
  flushGeneration : Nat := 0
  suppressingLocalEditsForResync : Bool := false

/-- Epochs saturate. -/
def bumped (epoch : Nat) : Nat := if epoch = u64Max then u64Max else epoch + 1

/-! ### Parts of the calls -/

/-- `nodes[nodeID] = state`. -/
def setNode (session : TextEditingSession) (nodeID : NodeId) (state : NodeState) :
    TextEditingSession :=
  { session with nodes := session.nodes.insert nodeID state }

def stateOrNew (session : TextEditingSession) (nodeID : NodeId) : NodeState :=
  session.nodes[nodeID]?.getD {}

/-- A node without a published value is compared with the empty text. -/
def seededState (session : TextEditingSession) (nodeID : NodeId) : NodeState :=
  let state := stateOrNew session nodeID
  if state.lastKnownAuthoritative = none then { state with lastKnownAuthoritative := some "" }
  else state

def forgetOrder (session : TextEditingSession) (nodeID : NodeId) : TextEditingSession :=
  { session with unassignedNodeOrder := session.unassignedNodeOrder.filter (· ≠ nodeID) }

/-- What `clearUnassignedEdit` does to the state of the node. -/
def clearUnassignedEdit (state : NodeState) : NodeState :=
  { state with
    unassignedFlushedEditSeq := none
    unassignedFlushedValue := none
    unassignedObservedRevision := none
    unassignedLaneEpoch := none
    unassignedFlushGeneration := none
    unassignedClaimed := false }

def bumpInvalidationEpoch (state : NodeState) : NodeState :=
  { state with invalidationEpoch := bumped state.invalidationEpoch }

def nextLaneEpoch (session : TextEditingSession) (nodeID : NodeId) : Nat :=
  bumped (max session.resyncLaneEpoch (session.laneEpoch[nodeID]?.getD 0))

def bumpLaneEpoch (session : TextEditingSession) (nodeID : NodeId) : TextEditingSession :=
  { session with laneEpoch := session.laneEpoch.insert nodeID (nextLaneEpoch session nodeID) }

def hadDraft (state : NodeState) : Bool :=
  state.pendingValue.isSome || state.unassignedFlushedEditSeq.isSome ||
    state.lastSubmittedValue.isSome

def hasLocalWork (state : NodeState) : Bool :=
  state.pendingValue.isSome || state.unassignedFlushedEditSeq.isSome ||
    state.assignedEventId.isSome

/-- Whatever the node has on its way is forgotten. -/
def retireLocalWork (state : NodeState) : NodeState :=
  let state := clearUnassignedEdit { state with pendingValue := none }
  { state with lastSubmittedValue := none, assignedEventId := none }

/-- A snapshot of a draft that was there is no longer valid. -/
def settleRetired (session : TextEditingSession) (nodeID : NodeId) (state : NodeState)
    (hadDraft : Bool) : TextEditingSession :=
  if hadDraft then
    setNode (bumpLaneEpoch session nodeID) nodeID (bumpInvalidationEpoch state)
  else setNode session nodeID state

/-! ### Publications -/

/-- The echo of the submitted value is kept; any other value retires the local work, and waits
while the editor composes. -/
def applyPublishedValue (session : TextEditingSession) (nodeID : NodeId) (published : String) :
    TextEditingSession × AuthoritativeResolution :=
  let state := stateOrNew session nodeID
  if state.lastSubmittedValue = some published then
    (setNode session nodeID { state with lastKnownAuthoritative := some published }, .keepLocal)
  else if session.preservingLocalTextAcrossRemount ∧ hasLocalWork state ∧
      state.lastKnownAuthoritative = some published then
    (setNode session nodeID state, .keepLocal)
  else
    let hadDraft := hadDraft state
    let deferNativeReplacement := state.composing
    let state :=
      { retireLocalWork state with
        lastKnownAuthoritative := some published
        lastFlushedValue := some published }
    let state :=
      if deferNativeReplacement then { state with deferredAuthoritative := some published }
      else { state with deferredAuthoritative := none, localValue := published }
    (settleRetired (forgetOrder session nodeID) nodeID state hadDraft,
      if deferNativeReplacement then .deferred else .apply)

/-- As a published value, but without a text to show. -/
def noteInvalidPublishedValue (session : TextEditingSession) (nodeID : NodeId) :
    TextEditingSession :=
  match session.nodes[nodeID]? with
  | none => session
  | some state =>
    settleRetired (forgetOrder session nodeID) nodeID (retireLocalWork state) (hadDraft state)

/-! ### Local typing -/

/-- The pending value becomes an edit that waits for a transport identity. -/
def flushPending (session : TextEditingSession) (nodeID : NodeId) : TextEditingSession :=
  if session.preservingLocalTextAcrossRemount ∨ session.suppressingLocalEditsForResync then
    session
  else
    match session.nodes[nodeID]? with
    | none => session
    | some state =>
      match state.pendingValue with
      | none => session
      | some value =>
        let state := { state with pendingValue := none }
        if state.composing then setNode session nodeID state
        else
          match EditSeq.new state.nextEditSeq with
          | none => setNode session nodeID { state with pendingValue := some value }
          | some seq =>
            -- An exhausted sequence must not wrap: the value stays pending.
            if u64Max ≤ state.nextEditSeq then
              setNode session nodeID { state with pendingValue := some value }
            else
              let epoch := nextLaneEpoch session nodeID
              let flushGeneration := bumped session.flushGeneration
              let state :=
                { state with
                  nextEditSeq := state.nextEditSeq + 1
                  lastFlushedValue := some value
                  unassignedFlushedEditSeq := some seq
                  unassignedFlushedValue := some value
                  unassignedObservedRevision := none
                  unassignedLaneEpoch := some epoch
                  unassignedFlushGeneration := some flushGeneration
                  unassignedClaimed := false
                  localValue := value }
              let session := setNode (bumpLaneEpoch session nodeID) nodeID state
              { forgetOrder session nodeID with
                flushGeneration := flushGeneration
                unassignedNodeOrder :=
                  (forgetOrder session nodeID).unassignedNodeOrder ++ [nodeID] }

def flushAllPending (session : TextEditingSession) : TextEditingSession :=
  session.nodes.keys.foldl flushPending session

/-- What a remounted editor reports while the local text is preserved. -/
def noteRemountedValue (session : TextEditingSession) (value : String) (nodeID : NodeId)
    (composing : Bool) : TextEditingSession :=
  let state := { seededState session nodeID with composing := false, deferredAuthoritative := none }
  if composing then setNode session nodeID state
  else
    let state := { state with localValue := value }
    setNode session nodeID
      (if state.pendingValue ≠ none ∨ state.lastKnownAuthoritative ≠ some value then
        { state with pendingValue := some value }
      else state)

def noteLocalValue (session : TextEditingSession) (value : String) (nodeID : NodeId)
    (composing flushImmediately : Bool) : TextEditingSession :=
  if session.suppressingLocalEditsForResync then session
  else if session.preservingLocalTextAcrossRemount then
    noteRemountedValue session value nodeID composing
  else
    let state :=
      { seededState session nodeID with localValue := value, composing := composing }
    if composing then setNode session nodeID state
    else
      match state.deferredAuthoritative with
      | some deferred =>
        (applyPublishedValue
          (setNode session nodeID { state with deferredAuthoritative := none }) nodeID
          deferred).1
      | none =>
        if state.lastFlushedValue = some value ∧ state.pendingValue = none then
          setNode session nodeID state
        else
          let session := setNode session nodeID { state with pendingValue := some value }
          if flushImmediately ∨ session.debounceNanoseconds = 0 then
            flushPending session nodeID
          else session

def endEditing (session : TextEditingSession) (nodeID : NodeId) : TextEditingSession :=
  if session.suppressingLocalEditsForResync ∨ session.preservingLocalTextAcrossRemount then
    session
  else flushPending session nodeID

/-! ### Composition -/

/-- The text that was there before the composition comes back. -/
def abandonComposition (session : TextEditingSession) (nodeID : NodeId) : TextEditingSession :=
  match session.nodes[nodeID]? with
  | none => session
  | some state =>
    let restored :=
      ((state.deferredAuthoritative.or state.pendingValue).or
        state.unassignedFlushedValue).or state.lastSubmittedValue
    setNode session nodeID
      { state with
        composing := false
        deferredAuthoritative := none
        localValue := restored.getD state.localValue }

def abandonAllCompositions (session : TextEditingSession) : TextEditingSession :=
  session.nodes.keys.foldl abandonComposition session

/-- Until `withPreservedLocalText` runs its body. -/
def beginPreservingLocalText (session : TextEditingSession) : TextEditingSession :=
  abandonAllCompositions { session with preservingLocalTextAcrossRemount := true }

/-- What `withPreservedLocalText` does after its body. -/
def endPreservingLocalText (session : TextEditingSession) : TextEditingSession :=
  { session with preservingLocalTextAcrossRemount := false }

/-- The end of a composition applies a published value that was put off. -/
def setComposing (session : TextEditingSession) (composing : Bool) (nodeID : NodeId) :
    TextEditingSession :=
  if session.suppressingLocalEditsForResync then session
  else if session.preservingLocalTextAcrossRemount then abandonComposition session nodeID
  else
    let state := stateOrNew session nodeID
    let ending := state.composing && !composing
    let state := { state with composing := composing }
    match state.deferredAuthoritative with
    | some deferred =>
      if ending then
        (applyPublishedValue
          (setNode session nodeID { state with deferredAuthoritative := none }) nodeID
          deferred).1
      else setNode session nodeID state
    | none => setNode session nodeID state

/-! ### Claims and assignments -/

/-- Only the edit that waits for a transport identity can be given its revision. -/
def recordObservedRevision (session : TextEditingSession) (nodeID : NodeId) (text : String)
    (editSeq : EditSeq) (laneEpoch : Nat) (observedRevision : Revision) :
    TextEditingSession × Bool :=
  match session.nodes[nodeID]? with
  | none => (session, false)
  | some state =>
    if state.unassignedFlushedEditSeq = some editSeq ∧
        state.unassignedFlushedValue = some text ∧
        state.unassignedLaneEpoch = some laneEpoch then
      (setNode session nodeID
        { state with unassignedObservedRevision := some observedRevision }, true)
    else (session, false)

/-- The snapshot carries the epoch that tells later whether it is still valid. -/
def claimUnassignedEdit (session : TextEditingSession) (nodeID : NodeId) (text : String)
    (editSeq : EditSeq) (laneEpoch : Nat) : TextEditingSession × Option LocalTextEdit :=
  match session.nodes[nodeID]? with
  | none => (session, none)
  | some state =>
    if state.unassignedClaimed = false ∧ state.unassignedFlushedEditSeq = some editSeq ∧
        state.unassignedFlushedValue = some text ∧
        state.unassignedLaneEpoch = some laneEpoch then
      match state.unassignedObservedRevision, state.unassignedFlushGeneration with
      | some observedRevision, some flushGeneration =>
        (setNode session nodeID { state with unassignedClaimed := true }, some {
          nodeId := nodeID
          text := text
          editSeq := editSeq
          observedRevision := observedRevision
          laneEpoch := laneEpoch
          flushGeneration := flushGeneration
          invalidationEpoch := state.invalidationEpoch })
      | _, _ => (session, none)
    else (session, none)

/-- `maxFlushGeneration` leaves out edits flushed later than a given moment. -/
def claimable (state : NodeState) (maxFlushGeneration : Option Nat) : Bool :=
  !state.unassignedClaimed && state.unassignedObservedRevision.isSome &&
    state.unassignedLaneEpoch.isSome &&
    match state.unassignedFlushGeneration, maxFlushGeneration with
    | none, _ => false
    | some _, none => true
    | some generation, some most => decide (generation ≤ most)

/-- The loop of `firstClaimableUnassignedNode`, which drops nodes that have no edit. -/
def firstClaimable (nodes : ExtTreeMap NodeId NodeState) (maxFlushGeneration : Option Nat) :
    List NodeId → List NodeId × Option NodeId
  | [] => ([], none)
  | nodeID :: rest =>
    match nodes[nodeID]? with
    | none => firstClaimable nodes maxFlushGeneration rest
    | some state =>
      if state.unassignedFlushedEditSeq.isSome && state.unassignedFlushedValue.isSome then
        if claimable state maxFlushGeneration then (nodeID :: rest, some nodeID)
        else
          let found := firstClaimable nodes maxFlushGeneration rest
          (nodeID :: found.1, found.2)
      else firstClaimable nodes maxFlushGeneration rest

def nextUnassignedEditNode (session : TextEditingSession) (maxFlushGeneration : Option Nat) :
    TextEditingSession × Option NodeId :=
  let found := firstClaimable session.nodes maxFlushGeneration session.unassignedNodeOrder
  ({ session with unassignedNodeOrder := found.1 }, found.2)

def claimNextUnassignedEdit (session : TextEditingSession) (maxFlushGeneration : Option Nat) :
    TextEditingSession × Option LocalTextEdit :=
  let found := nextUnassignedEditNode session maxFlushGeneration
  match found.2 with
  | none => (found.1, none)
  | some nodeID =>
    let state := stateOrNew found.1 nodeID
    match state.unassignedFlushedValue, state.unassignedFlushedEditSeq,
        state.unassignedLaneEpoch with
    | some text, some editSeq, some laneEpoch =>
      claimUnassignedEdit found.1 nodeID text editSeq laneEpoch
    | _, _, _ => (found.1, none)

/-- Whether nothing has retired the edit since its snapshot was taken. -/
def isSnapshotStillValid (session : TextEditingSession) (edit : LocalTextEdit) : Bool :=
  decide (session.nodes[edit.nodeId]?.map (·.invalidationEpoch) = some edit.invalidationEpoch)

/-- Whether the edit is the one that waits for a transport identity. -/
def holds (state : NodeState) (edit : LocalTextEdit) : Bool :=
  decide (state.unassignedFlushedEditSeq = some edit.editSeq ∧
    state.unassignedFlushedValue = some edit.text ∧
    state.unassignedLaneEpoch = some edit.laneEpoch)

def releaseClaim (session : TextEditingSession) (edit : LocalTextEdit) : TextEditingSession :=
  match session.nodes[edit.nodeId]? with
  | none => session
  | some state =>
    if holds state edit then
      setNode session edit.nodeId { state with unassignedClaimed := false }
    else session

/-- One turn of the loop of `releaseUnassignedClaimsForConnectionTransition`. -/
def releaseNodeClaim (session : TextEditingSession) (nodeID : NodeId) : TextEditingSession :=
  match session.nodes[nodeID]? with
  | none => session
  | some state =>
    if state.unassignedClaimed then
      setNode session nodeID { state with unassignedClaimed := false }
    else session

def releaseUnassignedClaimsForConnectionTransition (session : TextEditingSession) :
    TextEditingSession :=
  session.unassignedNodeOrder.foldl releaseNodeClaim session

/-- `noteAssigned(_:)`. -/
def noteAssigned (session : TextEditingSession) (event : Event) : TextEditingSession :=
  if event.isTextEdit then
    let state :=
      { stateOrNew session event.nodeId with
        lastSubmittedValue := event.textArg
        assignedEventId := some event.eventId }
    if state.unassignedFlushedEditSeq = event.editSeq then
      setNode (forgetOrder session event.nodeId) event.nodeId (clearUnassignedEdit state)
    else setNode session event.nodeId state
  else session

/-- `noteAssigned(_:matching:)`. -/
def noteAssignedMatching (session : TextEditingSession) (event : Event) (edit : LocalTextEdit) :
    TextEditingSession × Bool :=
  if event.isTextEdit ∧ event.nodeId = edit.nodeId ∧ event.editSeq = some edit.editSeq ∧
      event.textArg = some edit.text then
    match session.nodes[edit.nodeId]? with
    | none => (session, false)
    | some state =>
      if state.invalidationEpoch = edit.invalidationEpoch then
        let assigned :=
          { state with
            lastSubmittedValue := event.textArg
            assignedEventId := some event.eventId }
        if holds state edit then
          (setNode (forgetOrder session edit.nodeId) edit.nodeId
            (clearUnassignedEdit assigned), true)
        else (setNode session edit.nodeId assigned, true)
      else (session, false)
  else (session, false)

/-- `restoreUnassigned(_:from:)`. -/
def restoreUnassigned (session : TextEditingSession) (edit : LocalTextEdit) (event : Event) :
    TextEditingSession :=
  if event.isTextEdit ∧ event.nodeId = edit.nodeId ∧ event.editSeq = some edit.editSeq then
    match session.nodes[edit.nodeId]? with
    | none => session
    | some state =>
      if state.assignedEventId = some event.eventId ∧
          state.lastSubmittedValue = event.textArg then
        let state :=
          { state with
            assignedEventId := none
            lastSubmittedValue := none
            unassignedFlushedEditSeq := some edit.editSeq
            unassignedFlushedValue := some edit.text
            unassignedObservedRevision := some edit.observedRevision
            unassignedLaneEpoch := some edit.laneEpoch
            unassignedFlushGeneration := some edit.flushGeneration
            unassignedClaimed := false }
        let session := setNode (forgetOrder session edit.nodeId) edit.nodeId state
        { session with unassignedNodeOrder := edit.nodeId :: session.unassignedNodeOrder }
      else session
  else session

def noteAcknowledged (session : TextEditingSession) (nodeID : NodeId) (eventId : EventId) :
    TextEditingSession :=
  match session.nodes[nodeID]? with
  | none => session
  | some state =>
    setNode session nodeID
      (if state.assignedEventId = some eventId then
        { state with assignedEventId := none, lastSubmittedValue := none }
      else state)

/-! ### Cancellation, resync, removal -/

/-- A cancellation of an event that the node no longer waits for is ignored. -/
def noteCanceled (session : TextEditingSession) (nodeID : NodeId) (eventId : EventId) :
    TextEditingSession :=
  match session.nodes[nodeID]? with
  | none => session
  | some state =>
    if state.assignedEventId = some eventId then
      setNode (bumpLaneEpoch (forgetOrder session nodeID) nodeID) nodeID
        (bumpInvalidationEpoch (retireLocalWork state))
    else session

def invalidateDraft (session : TextEditingSession) (nodeID : NodeId) : TextEditingSession :=
  match session.nodes[nodeID]? with
  | none => session
  | some state =>
    setNode (bumpLaneEpoch (forgetOrder session nodeID) nodeID) nodeID
      (bumpInvalidationEpoch (clearUnassignedEdit { state with pendingValue := none }))

/-- The published value is shown again. -/
def discardUnresolved (state : NodeState) : NodeState :=
  bumpInvalidationEpoch
    { retireLocalWork state with
      lastFlushedValue := none
      deferredAuthoritative := none
      composing := false
      localValue := state.lastKnownAuthoritative.getD "" }

/-- Edits are suppressed until `finishResyncTextBoundary`. -/
def discardUnresolvedEditsForResync (session : TextEditingSession) : TextEditingSession :=
  let highest := max session.resyncLaneEpoch (session.laneEpoch.values.foldl max 0)
  let resyncLaneEpoch := bumped highest
  { session with
    suppressingLocalEditsForResync := true
    resyncLaneEpoch := resyncLaneEpoch
    unassignedNodeOrder := []
    nodes := session.nodes.map fun _ state => discardUnresolved state
    laneEpoch := insertAll session.laneEpoch
      (session.nodes.keys.map fun nodeID => (nodeID, resyncLaneEpoch)) }

def finishResyncTextBoundary (session : TextEditingSession) : TextEditingSession :=
  { session with suppressingLocalEditsForResync := false }

/-- Nodes that are not present any more lose their state. -/
def syncPresentNodes (session : TextEditingSession) (present : List NodeId) :
    TextEditingSession :=
  let stale := session.nodes.keys.filter (· ∉ present)
  { session with
    nodes := eraseAll session.nodes stale
    laneEpoch := eraseAll session.laneEpoch stale
    unassignedNodeOrder := session.unassignedNodeOrder.filter (· ∈ present) }

def resetForReplacementSession (session : TextEditingSession) : TextEditingSession :=
  { session with
    nodes := ∅
    unassignedNodeOrder := []
    laneEpoch := ∅
    resyncLaneEpoch := 0
    suppressingLocalEditsForResync := false }

/-! ### Calls -/

/-- The calls that the views and the session controller make. -/
inductive Call where
  | resetForReplacementSession
  | syncPresentNodes (present : List NodeId)
  | noteAssigned (event : Event)
  | noteAcknowledged (nodeID : NodeId) (eventId : EventId)
  | noteCanceled (nodeID : NodeId) (eventId : EventId)
  | beginPreservingLocalText
  | endPreservingLocalText
  | invalidateDraft (nodeID : NodeId)
  | noteLocalValue (value : String) (nodeID : NodeId) (composing flushImmediately : Bool)
  | endEditing (nodeID : NodeId)
  | flushPending (nodeID : NodeId)
  | flushAllPending
  | recordObservedRevision (nodeID : NodeId) (text : String) (editSeq : EditSeq)
      (laneEpoch : Nat) (observedRevision : Revision)
  | nextUnassignedEditNode (maxFlushGeneration : Option Nat)
  | claimUnassignedEdit (nodeID : NodeId) (text : String) (editSeq : EditSeq) (laneEpoch : Nat)
  | claimNextUnassignedEdit (maxFlushGeneration : Option Nat)
  | releaseClaim (edit : LocalTextEdit)
  | releaseUnassignedClaimsForConnectionTransition
  | noteAssignedMatching (event : Event) (edit : LocalTextEdit)
  | restoreUnassigned (edit : LocalTextEdit) (event : Event)
  | applyPublishedValue (nodeID : NodeId) (published : String)
  | noteInvalidPublishedValue (nodeID : NodeId)
  | abandonComposition (nodeID : NodeId)
  | discardUnresolvedEditsForResync
  | finishResyncTextBoundary
  | setComposing (composing : Bool) (nodeID : NodeId)

/-- One call, with the snapshot it hands out if it claims an edit. -/
def perform (session : TextEditingSession) : Call → TextEditingSession × Option LocalTextEdit
  | .resetForReplacementSession => (resetForReplacementSession session, none)
  | .syncPresentNodes present => (syncPresentNodes session present, none)
  | .noteAssigned event => (noteAssigned session event, none)
  | .noteAcknowledged nodeID eventId => (noteAcknowledged session nodeID eventId, none)
  | .noteCanceled nodeID eventId => (noteCanceled session nodeID eventId, none)
  | .beginPreservingLocalText => (beginPreservingLocalText session, none)
  | .endPreservingLocalText => (endPreservingLocalText session, none)
  | .invalidateDraft nodeID => (invalidateDraft session nodeID, none)
  | .noteLocalValue value nodeID composing flushImmediately =>
    (noteLocalValue session value nodeID composing flushImmediately, none)
  | .endEditing nodeID => (endEditing session nodeID, none)
  | .flushPending nodeID => (flushPending session nodeID, none)
  | .flushAllPending => (flushAllPending session, none)
  | .recordObservedRevision nodeID text editSeq laneEpoch observedRevision =>
    ((recordObservedRevision session nodeID text editSeq laneEpoch observedRevision).1, none)
  | .nextUnassignedEditNode maxFlushGeneration =>
    ((nextUnassignedEditNode session maxFlushGeneration).1, none)
  | .claimUnassignedEdit nodeID text editSeq laneEpoch =>
    claimUnassignedEdit session nodeID text editSeq laneEpoch
  | .claimNextUnassignedEdit maxFlushGeneration =>
    claimNextUnassignedEdit session maxFlushGeneration
  | .releaseClaim edit => (releaseClaim session edit, none)
  | .releaseUnassignedClaimsForConnectionTransition =>
    (releaseUnassignedClaimsForConnectionTransition session, none)
  | .noteAssignedMatching event edit => ((noteAssignedMatching session event edit).1, none)
  | .restoreUnassigned edit event => (restoreUnassigned session edit event, none)
  | .applyPublishedValue nodeID published => ((applyPublishedValue session nodeID published).1, none)
  | .noteInvalidPublishedValue nodeID => (noteInvalidPublishedValue session nodeID, none)
  | .abandonComposition nodeID => (abandonComposition session nodeID, none)
  | .discardUnresolvedEditsForResync => (discardUnresolvedEditsForResync session, none)
  | .finishResyncTextBoundary => (finishResyncTextBoundary session, none)
  | .setComposing composing nodeID => (setComposing session composing nodeID, none)

end Srui.Client.TextEditingSessions

import Srui.Basic.Varints
import Srui.SemanticTree.Wire

/-!
Semantic events of clients: their decoding from the wire and their validation
against a store.
-/

namespace Srui.SemanticTree.Events

open Basic.Varints SemanticTree.Values SemanticTree.Stores SemanticTree.Wire

structure EditSeq where
  get : Nat
  positive : 0 < get
deriving DecidableEq, Repr

/-- `EditSeq::new`: zero is absent on the wire. -/
def EditSeq.new (value : Nat) : Option EditSeq :=
  if h : 0 < value then some ⟨value, h⟩ else none

/-- `MAX_EVENT_ID_BYTES`. -/
def maxEventIdBytes : Nat := 64

/-- `TypeRef::EVENT_TEXT_EDIT`, standard event 5. -/
def eventTextEdit : TypeRef := ⟨0, 5⟩

/-- `PropertyRef::ENABLED`, standard property 7. -/
def enabled : PropertyRef := ⟨0, 7⟩

/-- `PropertyRef::READ_ONLY`, standard property 8. -/
def readOnly : PropertyRef := ⟨0, 8⟩

/-- `PropertyRef::VALIDATION_STATE`, standard property 11. -/
def validationState : PropertyRef := ⟨0, 11⟩

/-- `PropertyRef::TEXT`, standard property 12. -/
def text : PropertyRef := ⟨0, 12⟩

/-- `PropertyRef::VALUE`, standard property 13. -/
def value : PropertyRef := ⟨0, 13⟩

structure WireEvent where
  clientInstanceId : Bytes
  eventSeq : Nat
  eventId : Bytes
  observedRevision : Nat
  nodeId : Nat
  eventType : Option TypeRef
  arguments : List WireProperty
  editSeq : Nat

/-- The `WireError` values that decoding an event returns. -/
inductive WireError where
  | missingField (field : String)
  | eventIdTooLong (actual limit : Nat)
  | event (message : String)
  | valueConversion (e : ValueConversionError)

structure DomainEvent where
  clientInstanceId : Option Bytes
  eventSeq : Nat
  eventId : Bytes
  observedRevision : Revision
  nodeId : NodeId
  eventType : TypeRef
  arguments : PropertyMap
  editSeq : Option EditSeq

def decodeEditSeq (eventType : TypeRef) (editSeq : Nat) : Except WireError (Option EditSeq) :=
  if eventType = eventTextEdit then
    match EditSeq.new editSeq with
    | some editSeq => .ok (some editSeq)
    | none => .error (.event "TEXT_EDIT requires a positive edit_seq")
  else if editSeq = 0 then .ok none
  else .error (.event "only TEXT_EDIT may carry edit_seq")

/-- `TryFrom<srui_protocol::Event> for Event`. -/
def decodeEvent (wire : WireEvent) : Except WireError DomainEvent :=
  if wire.eventId = [] then .error (.missingField "Event.event_id")
  else if maxEventIdBytes < wire.eventId.length then
    .error (.eventIdTooLong wire.eventId.length maxEventIdBytes)
  else
    match wire.eventType with
    | none => .error (.missingField "Event.event_type")
    | some eventType =>
      match decodeEditSeq eventType wire.editSeq with
      | .error e => .error e
      | .ok editSeq =>
        match decodeProperties wire.arguments with
        | .error e => .error (.valueConversion e)
        | .ok arguments =>
          .ok {
            clientInstanceId :=
              if wire.clientInstanceId = [] then none else some wire.clientInstanceId
            eventSeq := wire.eventSeq
            eventId := wire.eventId
            observedRevision := wire.observedRevision
            nodeId := wire.nodeId
            eventType := eventType
            arguments := collectProperties arguments
            editSeq := editSeq }

inductive EventValidationError where
  | nodeNotFound (id : NodeId)
  | nodeDisabled (id : NodeId)
  | futureRevision (observed current : Revision)
  | missingArgument (property : PropertyRef)
  | invalidEditSeq
  | staleEditSeq (observed watermark : Nat)
  | supersededGeneration
  | generationOverflow
  | nodeReadOnly (id : NodeId)
  | unsupportedNodeType (nodeType : TypeRef)
  | stringTooLong (length limit : Nat)
  | textTrackerFull (limit : Nat)
  | policyRejected (reason : String)
deriving DecidableEq, Repr

/-- `Value::as_string`. -/
def asString : Value → Option String
  | .scalar (.string s) => some s
  | _ => none

/-- `Event::text_arg`. -/
def textArg (event : DomainEvent) : Option String := event.arguments[text]?.bind asString

/-- `Event::validate_observed_revision`. -/
def validateObservedRevision (event : DomainEvent) (revision : Revision) :
    Except EventValidationError Unit :=
  if revision < event.observedRevision then
    .error (.futureRevision event.observedRevision revision)
  else .ok ()

/-- `Event::validate_node_interactive`. -/
def validateNodeInteractive (event : DomainEvent) (store : SemanticStore) :
    Except EventValidationError Node :=
  match store.nodes[event.nodeId]? with
  | none => .error (.nodeNotFound event.nodeId)
  | some node =>
    if node.properties[enabled]? = some (.scalar (.bool false)) then
      .error (.nodeDisabled event.nodeId)
    else .ok node

end Srui.SemanticTree.Events

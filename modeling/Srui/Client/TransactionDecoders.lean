import Srui.Client.TransactionAppliers
import Srui.SemanticTree.Wire

/-!
The client's decoder of transactions, and what becomes of a delivered message.

Every limit is enforced on what the message carries, before the replica is touched. The
size of the encoded frame is the framing's concern.
-/

namespace Srui.Client.TransactionDecoders

open Basic.Machine SemanticTree.Values
open SemanticTree.Models (ModelItem)
open SemanticTree.Limits (StoreLimits)
open SemanticTree.Wire Client.ReplicaStores Client.TransactionAppliers

inductive ProtocolDecodeError where
  | missingField (field : String)
  | maxOperationsExceeded (limit actual : Nat)
  | maxStringLengthExceeded (limit actual : Nat)
  | maxValueDepthExceeded (limit actual : Nat)
  | maxListElementsExceeded (limit actual : Nat)
  | maxRecordPropertiesExceeded (limit actual : Nat)
  | maxItemsPerModelOperationExceeded (limit actual : Nat)
  | invalidResourceHashLength (length : Nat)
  | invalidOperation (message : String)
deriving DecidableEq, Repr

def withinDepth (limits : StoreLimits) (depth : Nat) (value : Except ProtocolDecodeError Value) :
    Except ProtocolDecodeError Value :=
  if limits.maxValueDepth < depth then .error (.maxValueDepthExceeded limits.maxValueDepth depth)
  else value

mutual

def validateAndConvertValue (limits : StoreLimits) :
    WireValue → Nat → Except ProtocolDecodeError Value
  | .unset, depth => withinDepth limits depth (.error (.missingField "Value.value"))
  | .nullValue _, depth => withinDepth limits depth (.ok .null)
  | .boolValue b, depth => withinDepth limits depth (.ok (.scalar (.bool b)))
  | .intValue i, depth => withinDepth limits depth (.ok (.scalar (.signedInt i)))
  | .uintValue u, depth => withinDepth limits depth (.ok (.scalar (.unsignedInt u)))
  | .floatValue f, depth => withinDepth limits depth (.ok (.scalar (.float64 f)))
  | .stringValue s, depth =>
    withinDepth limits depth
      (if limits.maxStringLength < s.utf8ByteSize then
        .error (.maxStringLengthExceeded limits.maxStringLength s.utf8ByteSize)
      else .ok (.scalar (.string s)))
  | .nodeIdValue id, depth => withinDepth limits depth (.ok (.scalar (.nodeId id)))
  | .itemIdValue id, depth => withinDepth limits depth (.ok (.scalar (.itemId id)))
  | .resourceHash bytes, depth =>
    withinDepth limits depth
      (if h : bytes.length = 32 then .ok (.scalar (.resourceHash ⟨bytes, h⟩))
      else .error (.invalidResourceHashLength bytes.length))
  | .enumValue enumId valueId, depth =>
    withinDepth limits depth (.ok (.scalar (.enumToken enumId valueId)))
  | .sizeValue width height, depth =>
    withinDepth limits depth (.ok (.scalar (.size width height)))
  | .pointValue x y, depth => withinDepth limits depth (.ok (.scalar (.point x y)))
  | .rangeValue location length, depth =>
    withinDepth limits depth (.ok (.scalar (.range location length)))
  | .rectValue x y width height, depth =>
    withinDepth limits depth (.ok (.scalar (.rect x y width height)))
  | .insetsValue top leading bottom trailing, depth =>
    withinDepth limits depth (.ok (.scalar (.edgeInsets top leading bottom trailing)))
  | .listValue values, depth =>
    withinDepth limits depth
      (if limits.maxListElements < values.length then
        .error (.maxListElementsExceeded limits.maxListElements values.length)
      else
        match validateAndConvertValues limits values (depth + 1) with
        | .error e => .error e
        | .ok items => .ok (.list items))
  | .recordValue none _, depth =>
    withinDepth limits depth (.error (.missingField "SmallRecord.type"))
  | .recordValue (some typeRef) properties, depth =>
    withinDepth limits depth
      (if limits.maxRecordProperties < properties.length then
        .error (.maxRecordPropertiesExceeded limits.maxRecordProperties properties.length)
      else
        match validateAndConvertProperties limits properties (depth + 1) with
        | .error e => .error e
        | .ok properties => .ok (.record typeRef properties))

def validateAndConvertValues (limits : StoreLimits) :
    List WireValue → Nat → Except ProtocolDecodeError (List Value)
  | [], _ => .ok []
  | value :: rest, depth =>
    match validateAndConvertValue limits value depth with
    | .error e => .error e
    | .ok value =>
      match validateAndConvertValues limits rest depth with
      | .error e => .error e
      | .ok rest => .ok (value :: rest)

def validateAndConvertProperty (limits : StoreLimits) :
    WireProperty → Nat → Except ProtocolDecodeError (PropertyRef × Value)
  | .mk none _, _ => .error (.missingField "Property.property")
  | .mk (some property) none, _ => .ok (property, .null)
  | .mk (some property) (some value), depth =>
    match validateAndConvertValue limits value depth with
    | .error e => .error e
    | .ok value => .ok (property, value)

def validateAndConvertProperties (limits : StoreLimits) :
    List WireProperty → Nat → Except ProtocolDecodeError (List (PropertyRef × Value))
  | [], _ => .ok []
  | property :: rest, depth =>
    match validateAndConvertProperty limits property depth with
    | .error e => .error e
    | .ok property =>
      match validateAndConvertProperties limits rest depth with
      | .error e => .error e
      | .ok rest => .ok (property :: rest)

end

def validateAndConvertOptional (limits : StoreLimits) :
    Option WireValue → Except ProtocolDecodeError Value
  | none => .ok .null
  | some value => validateAndConvertValue limits value 1

def validateAndConvertModelItem (limits : StoreLimits) (wire : WireModelItem) :
    Except ProtocolDecodeError ModelItem :=
  match validateAndConvertOptional limits wire.value with
  | .error e => .error e
  | .ok value =>
    match validateAndConvertProperties limits wire.properties 1 with
    | .error e => .error e
    | .ok properties => .ok ⟨wire.itemId, value, collectProperties properties⟩

def convertModelItems (limits : StoreLimits) :
    List WireModelItem → Except ProtocolDecodeError (List ModelItem)
  | [] => .ok []
  | item :: rest =>
    match validateAndConvertModelItem limits item with
    | .error e => .error e
    | .ok item =>
      match convertModelItems limits rest with
      | .error e => .error e
      | .ok rest => .ok (item :: rest)

def validateAndConvertModelItems (limits : StoreLimits) (items : List WireModelItem) :
    Except ProtocolDecodeError (List ModelItem) :=
  if limits.maxItemsPerModelOperation < items.length then
    .error (.maxItemsPerModelOperationExceeded limits.maxItemsPerModelOperation items.length)
  else convertModelItems limits items

def convertParent (parentID : Nat) : Option NodeId := if parentID = 0 then none else some parentID

/-- `UInt32.max` is no index. -/
def convertChildIndex (childIndex : UInt32) : Option Int :=
  if childIndex.toNat = u32Max then none else some childIndex.toNat

def convertCount (count : Nat) : Option Nat := if 0 < count then some count else none

def validateAndConvertOperation (limits : StoreLimits) :
    WireOperation → Except ProtocolDecodeError StoreOperation
  | .unset => .error (.missingField "Operation.op")
  | .createNode none => .error (.missingField "CreateNodeOp.node")
  | .createNode (some node) =>
    match node.type with
    | none => .error (.missingField "NodeRecord.type")
    | some nodeType =>
      match validateAndConvertProperties limits node.properties 1 with
      | .error e => .error e
      | .ok properties =>
        .ok (.createNode node.nodeId nodeType (convertParent node.parentId)
          (convertChildIndex node.childIndex) properties)
  | .deleteNode nodeID => .ok (.deleteNode nodeID)
  | .setProperty _ none _ => .error (.missingField "SetPropertyOp.property")
  | .setProperty nodeID (some property) value =>
    match validateAndConvertOptional limits value with
    | .error e => .error e
    | .ok value => .ok (.setProperty nodeID property value)
  | .clearProperty _ none => .error (.missingField "ClearPropertyOp.property")
  | .clearProperty nodeID (some property) => .ok (.clearProperty nodeID property)
  | .moveNode nodeID newParentID newChildIndex =>
    .ok (.moveNode nodeID (convertParent newParentID) (convertChildIndex newChildIndex))
  | .reorderChildren parentID childNodeIDs => .ok (.reorderChildren parentID childNodeIDs)
  | .batchPropertySet nodeID properties =>
    match validateAndConvertProperties limits properties 1 with
    | .error e => .error e
    | .ok properties => .ok (.batchPropertySet nodeID properties)
  | .createModel _ none _ => .error (.missingField "CreateModelOp.modelType")
  | .createModel modelID (some modelType) itemCount =>
    .ok (.createModel modelID modelType itemCount)
  | .modelInsert modelID index items =>
    match validateAndConvertModelItems limits items with
    | .error e => .error e
    | .ok items => .ok (.modelInsert modelID index items)
  | .modelDelete modelID index count itemIDs =>
    if limits.maxItemsPerModelOperation < itemIDs.length then
      .error (.maxItemsPerModelOperationExceeded limits.maxItemsPerModelOperation
        itemIDs.length)
    else
      .ok (.modelDelete modelID ((convertCount count).map fun _ => index) (convertCount count)
        itemIDs)
  | .modelUpdate modelID index items =>
    match validateAndConvertModelItems limits items with
    | .error e => .error e
    | .ok items => .ok (.modelUpdate modelID (if index = u64Max then none else some index) items)
  | .modelResetRange modelID startIndex items totalCount =>
    match validateAndConvertModelItems limits items with
    | .error e => .error e
    | .ok items => .ok (.modelResetRange modelID startIndex items (convertCount totalCount))
  | .commit =>
    .error (.invalidOperation "Unsupported or unknown operation variant in wire envelope")

def convertOperations (limits : StoreLimits) :
    List WireOperation → Except ProtocolDecodeError (List StoreOperation)
  | [] => .ok []
  | op :: rest =>
    match validateAndConvertOperation limits op with
    | .error e => .error e
    | .ok op =>
      match convertOperations limits rest with
      | .error e => .error e
      | .ok rest => .ok (op :: rest)

def validateAndConvertTransaction (limits : StoreLimits) (wire : WireTransaction) :
    Except ProtocolDecodeError TransactionAppliers.Transaction :=
  if limits.maxTransactionOperations < wire.operations.length then
    .error (.maxOperationsExceeded limits.maxTransactionOperations wire.operations.length)
  else
    match convertOperations limits wire.operations with
    | .error e => .error e
    | .ok operations => .ok ⟨wire.baseRevision, wire.newRevision, operations, wire.priority⟩

/-- Why a delivered message did not reach the replica. -/
inductive DeliveryFailure where
  | decodeFailed (error : ProtocolDecodeError)
  | rejected (fault : Fault TxnError)
deriving DecidableEq

def deliver (applier : TransactionApplier) (wire : WireTransaction) :
    TransactionApplier × Except DeliveryFailure TransactionSnapshot :=
  match validateAndConvertTransaction applier.store.limits wire with
  | .error e => (applier, .error (.decodeFailed e))
  | .ok record =>
    match applyDelivered applier record with
    | (applier, .error fault) => (applier, .error (.rejected fault))
    | (applier, .ok snapshot) => (applier, .ok snapshot)

end Srui.Client.TransactionDecoders

import Srui.SemanticTree.Transactions

/-!
Conversions between the in-memory types and the protocol messages, and which
operations survive them.

A message field that may be absent is an `Option`; a `oneof` that may be unset
has a constructor for that. Scalars without a field of their own encode an
absent value as zero or as the largest value, as the source does.
-/

namespace Srui.SemanticTree.Wire

open Basic.Machine SemanticTree.Values SemanticTree.Models SemanticTree.Stores
open SemanticTree.Operations SemanticTree.Transactions

mutual
/-- The `Value` message. -/
inductive WireValue where
  | unset
  | nullValue (raw : Int)
  | boolValue (b : Bool)
  | intValue (i : Int)
  | uintValue (u : Nat)
  | floatValue (f : Float64)
  | stringValue (s : String)
  | nodeIdValue (id : Nat)
  | itemIdValue (id : Nat)
  | resourceHash (bytes : List UInt8)
  | enumValue (enumId valueId : Nat)
  | sizeValue (width height : Float64)
  | pointValue (x y : Float64)
  | rangeValue (location length : Nat)
  | rectValue (x y width height : Float64)
  | insetsValue (top leading bottom trailing : Float64)
  | listValue (values : List WireValue)
  | recordValue (type : Option TypeRef) (properties : List WireProperty)

/-- The `Property` message. -/
inductive WireProperty where
  | mk (property : Option PropertyRef) (value : Option WireValue)
end

/-- The `ModelItem` message. -/
structure WireModelItem where
  itemId : Nat
  value : Option WireValue
  properties : List WireProperty

/-- The `NodeRecord` message. -/
structure NodeRecord where
  nodeId : Nat
  type : Option TypeRef
  parentId : Nat
  childIndex : UInt32
  properties : List WireProperty

/-- The `Operation` message. -/
inductive WireOperation where
  | unset
  | createNode (node : Option NodeRecord)
  | deleteNode (nodeId : Nat)
  | setProperty (nodeId : Nat) (property : Option PropertyRef) (value : Option WireValue)
  | clearProperty (nodeId : Nat) (property : Option PropertyRef)
  | commit
  | createModel (modelId : Nat) (modelType : Option TypeRef) (itemCount : Nat)
  | modelInsert (modelId index : Nat) (items : List WireModelItem)
  | modelDelete (modelId index count : Nat) (itemIds : List Nat)
  | modelUpdate (modelId index : Nat) (items : List WireModelItem)
  | modelResetRange (modelId startIndex : Nat) (items : List WireModelItem) (totalCount : Nat)
  | moveNode (nodeId newParentId : Nat) (newChildIndex : UInt32)
  | reorderChildren (parentId : Nat) (childNodeIds : List Nat)
  | batchPropertySet (nodeId : Nat) (properties : List WireProperty)

/-- The `Transaction` message. -/
structure WireTransaction where
  baseRevision : Nat
  newRevision : Nat
  operations : List WireOperation
  priority : Nat

inductive ValueConversionError where
  | missingField (field : String)
  | invalidResourceHashLength (length : Nat)
  | invalidNestedStructure (message : String)

def ValueConversionError.display : ValueConversionError → String
  | .missingField field => "missing expected protobuf wire field: " ++ field
  | .invalidResourceHashLength length =>
    "expected 32-byte resource hash, got " ++ toString length ++ " bytes"
  | .invalidNestedStructure message => "invalid nested structure: " ++ message

def encodeScalar : Scalar → WireValue
  | .null => .nullValue 0
  | .bool b => .boolValue b
  | .signedInt i => .intValue i
  | .unsignedInt u => .uintValue u
  | .float64 f => .floatValue f
  | .string s => .stringValue s
  | .nodeId id => .nodeIdValue id
  | .itemId id => .itemIdValue id
  | .resourceHash h => .resourceHash h.bytes
  | .enumToken enumId valueId => .enumValue enumId valueId
  | .size width height => .sizeValue width height
  | .point x y => .pointValue x y
  | .range start length => .rangeValue start length
  | .rect x y width height => .rectValue x y width height
  | .edgeInsets top leading bottom trailing => .insetsValue top leading bottom trailing

mutual
/-- `From<&Value> for srui_protocol::Value`. -/
def encodeValue : Value → WireValue
  | .scalar s => encodeScalar s
  | .list items => .listValue (encodeValues items)
  | .record typeRef properties => .recordValue (some typeRef) (encodeProperties properties)

def encodeValues : List Value → List WireValue
  | [] => []
  | value :: rest => encodeValue value :: encodeValues rest

/-- `From<&Property> for srui_protocol::Property`, over a list. -/
def encodeProperties : List (PropertyRef × Value) → List WireProperty
  | [] => []
  | (property, value) :: rest =>
    .mk (some property) (some (encodeValue value)) :: encodeProperties rest
end

mutual
/-- `TryFrom<srui_protocol::Value> for Value`. -/
def decodeValue : WireValue → Except ValueConversionError Value
  | .unset => .error (.missingField "value")
  | .nullValue _ => .ok .null
  | .boolValue b => .ok (.scalar (.bool b))
  | .intValue i => .ok (.scalar (.signedInt i))
  | .uintValue u => .ok (.scalar (.unsignedInt u))
  | .floatValue f => .ok (.scalar (.float64 f))
  | .stringValue s => .ok (.scalar (.string s))
  | .nodeIdValue id => .ok (.scalar (.nodeId id))
  | .itemIdValue id => .ok (.scalar (.itemId id))
  | .resourceHash bytes =>
    if h : bytes.length = 32 then .ok (.scalar (.resourceHash ⟨bytes, h⟩))
    else .error (.invalidResourceHashLength bytes.length)
  | .enumValue enumId valueId => .ok (.scalar (.enumToken enumId valueId))
  | .sizeValue width height => .ok (.scalar (.size width height))
  | .pointValue x y => .ok (.scalar (.point x y))
  | .rangeValue location length => .ok (.scalar (.range location length))
  | .rectValue x y width height => .ok (.scalar (.rect x y width height))
  | .insetsValue top leading bottom trailing =>
    .ok (.scalar (.edgeInsets top leading bottom trailing))
  | .listValue values =>
    match decodeValues values with
    | .error e => .error e
    | .ok items => .ok (.list items)
  | .recordValue none _ => .error (.missingField "record.type")
  | .recordValue (some typeRef) properties =>
    match decodeProperties properties with
    | .error e => .error e
    | .ok properties => .ok (.record typeRef properties)

def decodeValues : List WireValue → Except ValueConversionError (List Value)
  | [] => .ok []
  | value :: rest =>
    match decodeValue value with
    | .error e => .error e
    | .ok value =>
      match decodeValues rest with
      | .error e => .error e
      | .ok rest => .ok (value :: rest)

/-- `TryFrom<srui_protocol::Property> for Property`; an absent value is null. -/
def decodeProperty : WireProperty → Except ValueConversionError (PropertyRef × Value)
  | .mk none _ => .error (.missingField "property")
  | .mk (some property) none => .ok (property, .null)
  | .mk (some property) (some value) =>
    match decodeValue value with
    | .error e => .error e
    | .ok value => .ok (property, value)

def decodeProperties : List WireProperty →
    Except ValueConversionError (List (PropertyRef × Value))
  | [] => .ok []
  | property :: rest =>
    match decodeProperty property with
    | .error e => .error e
    | .ok property =>
      match decodeProperties rest with
      | .error e => .error e
      | .ok rest => .ok (property :: rest)
end

/-- `From<&ModelItem> for srui_protocol::ModelItem`. -/
def encodeItem (item : ModelItem) : WireModelItem where
  itemId := item.itemId
  value := some (encodeValue item.value)
  properties := encodeProperties item.properties.toList

/-- `TryFrom<srui_protocol::ModelItem> for ModelItem`. -/
def decodeItem (wire : WireModelItem) : Except ValueConversionError ModelItem :=
  match (match wire.value with | some value => decodeValue value | none => .ok .null) with
  | .error e => .error e
  | .ok value =>
    match decodeProperties wire.properties with
    | .error e => .error e
    | .ok properties => .ok ⟨wire.itemId, value, collectProperties properties⟩

def decodeItems : List WireModelItem → Except ValueConversionError (List ModelItem)
  | [] => .ok []
  | item :: rest =>
    match decodeItem item with
    | .error e => .error e
    | .ok item =>
      match decodeItems rest with
      | .error e => .error e
      | .ok rest => .ok (item :: rest)

def asTxnError {α : Type} : Except ValueConversionError α → Except TxnError α
  | .ok a => .ok a
  | .error e => .error (.wireError e.display)

def decodeParent (parentId : Nat) : Option NodeId := if parentId = 0 then none else some parentId

/-- Child index `u32::MAX` stands for no index. -/
def decodeChildIndex (childIndex : UInt32) : Option Nat :=
  if childIndex.toNat = u32Max then none else some childIndex.toNat

/-- The cast `idx as u32` keeps the low bits. -/
def encodeChildIndex : Option Nat → UInt32
  | some index => UInt32.ofNat index
  | none => UInt32.ofNat u32Max

def decodeCount (count : Nat) : Option Nat := if count > 0 then some count else none

/-- `From<&Operation> for srui_protocol::Operation`. -/
def encodeOperation : Operation → WireOperation
  | .createNode id nodeType parentId childIndex properties =>
    .createNode (some ⟨id, some nodeType, parentId.getD 0, encodeChildIndex childIndex,
      encodeProperties properties⟩)
  | .deleteNode id => .deleteNode id
  | .setProperty id property value => .setProperty id (some property) (some (encodeValue value))
  | .clearProperty id property => .clearProperty id (some property)
  | .moveNode id newParentId newChildIndex =>
    .moveNode id (newParentId.getD 0) (encodeChildIndex newChildIndex)
  | .reorderChildren parentId newOrder => .reorderChildren parentId newOrder
  | .batchPropertySet id properties => .batchPropertySet id (encodeProperties properties)
  | .createModel id modelType itemCount => .createModel id (some modelType) itemCount
  | .modelInsert id index items => .modelInsert id index (items.map encodeItem)
  | .modelDelete id index count itemIds => .modelDelete id (index.getD 0) (count.getD 0) itemIds
  | .modelUpdate id index items => .modelUpdate id (index.getD u64Max) (items.map encodeItem)
  | .modelResetRange id startIndex items totalCount =>
    .modelResetRange id startIndex (items.map encodeItem) (totalCount.getD 0)

/-- `TryFrom<srui_protocol::Operation> for Operation`. -/
def decodeOperation : WireOperation → Except TxnError Operation
  | .unset => .error (.wireError "empty operation payload in wire Operation")
  | .createNode none => .error (.wireError "missing NodeRecord in CreateNodeOp")
  | .createNode (some rec) =>
    match rec.type with
    | none => .error (.wireError "missing TypeRef in CreateNodeOp")
    | some nodeType =>
      match asTxnError (decodeProperties rec.properties) with
      | .error e => .error e
      | .ok properties =>
        .ok (.createNode rec.nodeId nodeType (decodeParent rec.parentId)
          (decodeChildIndex rec.childIndex) properties)
  | .deleteNode nodeId => .ok (.deleteNode nodeId)
  | .setProperty _ none _ => .error (.wireError "missing PropertyRef in SetPropertyOp")
  | .setProperty nodeId (some property) none => .ok (.setProperty nodeId property .null)
  | .setProperty nodeId (some property) (some value) =>
    match asTxnError (decodeValue value) with
    | .error e => .error e
    | .ok value => .ok (.setProperty nodeId property value)
  | .clearProperty _ none => .error (.wireError "missing PropertyRef in ClearPropertyOp")
  | .clearProperty nodeId (some property) => .ok (.clearProperty nodeId property)
  | .commit => .error (.wireError "unsupported operation variant for tree mutation")
  | .createModel _ none _ => .error (.wireError "missing TypeRef in CreateModelOp")
  | .createModel modelId (some modelType) itemCount =>
    .ok (.createModel modelId modelType itemCount)
  | .modelInsert modelId index items =>
    match asTxnError (decodeItems items) with
    | .error e => .error e
    | .ok items => .ok (.modelInsert modelId index items)
  | .modelDelete modelId index count itemIds =>
    .ok (.modelDelete modelId ((decodeCount count).map fun _ => index) (decodeCount count)
      itemIds)
  | .modelUpdate modelId index items =>
    match asTxnError (decodeItems items) with
    | .error e => .error e
    | .ok items =>
      .ok (.modelUpdate modelId (if index = u64Max then none else some index) items)
  | .modelResetRange modelId startIndex items totalCount =>
    match asTxnError (decodeItems items) with
    | .error e => .error e
    | .ok items => .ok (.modelResetRange modelId startIndex items (decodeCount totalCount))
  | .moveNode nodeId newParentId newChildIndex =>
    .ok (.moveNode nodeId (decodeParent newParentId) (decodeChildIndex newChildIndex))
  | .reorderChildren parentId childNodeIds => .ok (.reorderChildren parentId childNodeIds)
  | .batchPropertySet nodeId properties =>
    match asTxnError (decodeProperties properties) with
    | .error e => .error e
    | .ok properties => .ok (.batchPropertySet nodeId properties)

def decodeOperations : List WireOperation → Except TxnError (List Operation)
  | [] => .ok []
  | op :: rest =>
    match decodeOperation op with
    | .error e => .error e
    | .ok op =>
      match decodeOperations rest with
      | .error e => .error e
      | .ok rest => .ok (op :: rest)

/-- `From<&Transaction> for srui_protocol::Transaction`. -/
def encodeTransaction (txn : Transaction) : WireTransaction where
  baseRevision := txn.baseRevision
  newRevision := txn.newRevision
  operations := txn.operations.map encodeOperation
  priority := txn.priority

/-- `TryFrom<srui_protocol::Transaction> for Transaction`. -/
def decodeTransaction (wire : WireTransaction) : Except TxnError Transaction :=
  match decodeOperations wire.operations with
  | .error e => .error e
  | .ok operations => .ok ⟨wire.baseRevision, wire.newRevision, operations, wire.priority⟩

/-- `SemanticStore::apply_wire_transaction`. -/
def applyWireTransaction (s : SemanticStore) (wire : WireTransaction) : TxnResult :=
  match decodeTransaction wire with
  | .error e => (s, err e)
  | .ok txn =>
    match validateCommit txn with
    | .error e => (s, err e)
    | .ok () =>
      match checkBaseRevision s txn.baseRevision with
      | .error e => (s, err e)
      | .ok () => applyStagedOwned s txn.operations txn.newRevision

/-- `SemanticStore::apply_delivered_transaction`. -/
def applyDeliveredTransaction (s : SemanticStore) (wire : WireTransaction) : TxnResult :=
  match decodeTransaction wire with
  | .error e => (s, err e)
  | .ok txn =>
    match classify txn with
    | .error e => (s, err e)
    | .ok (.commit commit) => applyAuthoritative s commit
    | .ok (.delta delta) => applyCoalescedDelta s delta

end Srui.SemanticTree.Wire

import Srui.SemanticTree.Values

/-!
Errors of the store's mutation operations and the runtime limits it enforces.
-/

namespace Srui.SemanticTree.Limits

open SemanticTree.Values

inductive StoreError where
  | nodeIdAlreadyUsed (id : NodeId)
  | nodeNotFound (id : NodeId)
  | parentNotFound (id : NodeId)
  | invalidChildrenReorder (parentId : NodeId) (reason : String)
  | cycleDetected (nodeId targetParent : NodeId)
  | maxTreeDepthExceeded (limit actual : Nat)
  | maxNodeCountExceeded (limit current : Nat)
  | maxStringLengthExceeded (limit actual : Nat)
  | maxValueDepthExceeded (limit actual : Nat)
  | maxListLengthExceeded (limit actual : Nat)
  | maxRecordPropertiesExceeded (limit actual : Nat)
  | maxModelCountExceeded (limit current : Nat)
  | maxCachedItemsPerModelExceeded (limit current attempted : Nat)
  | maxItemsPerModelOperationExceeded (limit actual : Nat)
  | invalidModelDelete (reason : String)
  | childIndexOutOfBounds (index count : Nat)
  | modelIdAlreadyUsed (id : ModelId)
  | modelNotFound (id : ModelId)
  | itemNotFound (id : ItemId)
  | modelIndexOutOfBounds (index count : Nat)
  | duplicateItemId (modelId : ModelId) (itemId : ItemId)
  | operationError (message : String)
deriving DecidableEq, Repr

structure StoreLimits where
  maxTreeDepth : Nat
  maxNodeCount : Nat
  maxStringLength : Nat
  maxValueDepth : Nat
  maxListElements : Nat
  maxRecordProperties : Nat
  maxTransactionOperations : Nat
  maxModelCount : Nat
  maxCachedItemsPerModel : Nat
  maxItemsPerModelOperation : Nat
deriving DecidableEq, Repr

/-- `DEFAULT_MAX_ITEMS_PER_MODEL_OPERATION`. -/
def defaultMaxItemsPerModelOperation : Nat := 10000

/-- `StoreLimits::default`. -/
def StoreLimits.default : StoreLimits where
  maxTreeDepth := 64
  maxNodeCount := 100000
  maxStringLength := 1024 * 1024
  maxValueDepth := 16
  maxListElements := 10000
  maxRecordProperties := 1000
  maxTransactionOperations := 10000
  maxModelCount := 1000
  maxCachedItemsPerModel := 100000
  maxItemsPerModelOperation := defaultMaxItemsPerModelOperation

def validateModelItemsBatch (limits : StoreLimits) (count : Nat) : Except StoreError Unit :=
  if count > limits.maxItemsPerModelOperation then
    .error (.maxItemsPerModelOperationExceeded limits.maxItemsPerModelOperation count)
  else .ok ()

def validateScalar (limits : StoreLimits) : Scalar → Except StoreError Unit
  | .string s =>
    if s.utf8ByteSize > limits.maxStringLength then
      .error (.maxStringLengthExceeded limits.maxStringLength s.utf8ByteSize)
    else .ok ()
  | _ => .ok ()

mutual
/-- `validate_value_inner`: string length, nesting depth and collection sizes
of a value found at nesting level `depth`. -/
def validateValueInner (limits : StoreLimits) : Value → Nat → Except StoreError Unit
  | .scalar s, depth =>
    if depth > limits.maxValueDepth then
      .error (.maxValueDepthExceeded limits.maxValueDepth depth)
    else validateScalar limits s
  | .list items, depth =>
    if depth > limits.maxValueDepth then
      .error (.maxValueDepthExceeded limits.maxValueDepth depth)
    else if items.length > limits.maxListElements then
      .error (.maxListLengthExceeded limits.maxListElements items.length)
    else validateItemsInner limits items (depth + 1)
  | .record _ properties, depth =>
    if depth > limits.maxValueDepth then
      .error (.maxValueDepthExceeded limits.maxValueDepth depth)
    else if properties.length > limits.maxRecordProperties then
      .error (.maxRecordPropertiesExceeded limits.maxRecordProperties properties.length)
    else validatePropertiesInner limits properties (depth + 1)

def validateItemsInner (limits : StoreLimits) : List Value → Nat → Except StoreError Unit
  | [], _ => .ok ()
  | item :: items, depth =>
    match validateValueInner limits item depth with
    | .error e => .error e
    | .ok () => validateItemsInner limits items depth

def validatePropertiesInner (limits : StoreLimits) :
    List (PropertyRef × Value) → Nat → Except StoreError Unit
  | [], _ => .ok ()
  | (_, value) :: properties, depth =>
    match validateValueInner limits value depth with
    | .error e => .error e
    | .ok () => validatePropertiesInner limits properties depth
end

/-- `StoreLimits::validate_value`. -/
def validateValue (limits : StoreLimits) (value : Value) : Except StoreError Unit :=
  validateValueInner limits value 1

end Srui.SemanticTree.Limits

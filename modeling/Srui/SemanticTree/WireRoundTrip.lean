import Srui.SemanticTree.Wire

/-!
Round trips through the protocol messages. Values and items survive unchanged;
an operation comes back as its image, which differs from it in the fields the
messages have no room for.
-/

namespace Srui.SemanticTree.WireRoundTrip

open Basic.Machine Basic.FiniteMaps SemanticTree.Values SemanticTree.Models SemanticTree.Stores
open SemanticTree.Operations SemanticTree.Transactions SemanticTree.Wire

theorem decodeValue_encodeScalar (s : Scalar) :
    decodeValue (encodeScalar s) = .ok (.scalar s) := by
  cases s with
  | resourceHash h => simp [encodeScalar, decodeValue, h.length_eq]
  | _ => simp [encodeScalar, decodeValue]

mutual
theorem decodeValue_encodeValue : (value : Value) → decodeValue (encodeValue value) = .ok value
  | .scalar s => by
    rw [encodeValue]
    exact decodeValue_encodeScalar s
  | .list items => by
    rw [encodeValue, decodeValue, decodeValues_encodeValues items]
  | .record typeRef properties => by
    rw [encodeValue, decodeValue, decodeProperties_encodeProperties properties]

theorem decodeValues_encodeValues :
    (values : List Value) → decodeValues (encodeValues values) = .ok values
  | [] => by rw [encodeValues, decodeValues]
  | value :: rest => by
    rw [encodeValues, decodeValues, decodeValue_encodeValue value,
      decodeValues_encodeValues rest]

theorem decodeProperties_encodeProperties :
    (properties : List (PropertyRef × Value)) →
      decodeProperties (encodeProperties properties) = .ok properties
  | [] => by rw [encodeProperties, decodeProperties]
  | (property, value) :: rest => by
    rw [encodeProperties, decodeProperties, decodeProperty, decodeValue_encodeValue value,
      decodeProperties_encodeProperties rest]
end

theorem decodeItem_encodeItem (item : ModelItem) : decodeItem (encodeItem item) = .ok item := by
  have hproperties : collectProperties item.properties.toList = item.properties :=
    insertAll_toList item.properties
  simp only [decodeItem, encodeItem, decodeValue_encodeValue, decodeProperties_encodeProperties,
    hproperties]

theorem decodeItems_encodeItems (items : List ModelItem) :
    decodeItems (items.map encodeItem) = .ok items := by
  induction items with
  | nil => rfl
  | cons item rest ih => rw [List.map_cons, decodeItems, decodeItem_encodeItem, ih]

def wireImage : Operation → Operation
  | .createNode id nodeType parentId childIndex properties =>
    .createNode id nodeType (decodeParent (parentId.getD 0))
      (decodeChildIndex (encodeChildIndex childIndex)) properties
  | .moveNode id newParentId newChildIndex =>
    .moveNode id (decodeParent (newParentId.getD 0))
      (decodeChildIndex (encodeChildIndex newChildIndex))
  | .modelDelete id index count itemIds =>
    .modelDelete id ((decodeCount (count.getD 0)).map fun _ => index.getD 0)
      (decodeCount (count.getD 0)) itemIds
  | .modelUpdate id index items =>
    .modelUpdate id (if index.getD u64Max = u64Max then none else some (index.getD u64Max)) items
  | .modelResetRange id startIndex items totalCount =>
    .modelResetRange id startIndex items (decodeCount (totalCount.getD 0))
  | op => op

theorem decodeOperation_encodeOperation (op : Operation) :
    decodeOperation (encodeOperation op) = .ok (wireImage op) := by
  cases op with
  | createNode id nodeType parentId childIndex properties | batchPropertySet id properties =>
    simp only [encodeOperation, decodeOperation, decodeProperties_encodeProperties, asTxnError,
      wireImage]
  | setProperty id property value =>
    simp only [encodeOperation, decodeOperation, decodeValue_encodeValue, asTxnError, wireImage]
  | modelInsert id index items | modelUpdate id index items
  | modelResetRange id startIndex items totalCount =>
    simp only [encodeOperation, decodeOperation, decodeItems_encodeItems, asTxnError, wireImage]
  | _ => rfl

theorem decodeOperations_encodeOperations (ops : List Operation) :
    decodeOperations (ops.map encodeOperation) = .ok (ops.map wireImage) := by
  induction ops with
  | nil => rfl
  | cons op rest ih =>
    rw [List.map_cons, decodeOperations, decodeOperation_encodeOperation, ih, List.map_cons]

def imageTransaction (txn : Transaction) : Transaction :=
  { txn with operations := txn.operations.map wireImage }

theorem decodeTransaction_encodeTransaction (txn : Transaction) :
    decodeTransaction (encodeTransaction txn) = .ok (imageTransaction txn) := by
  have hops : decodeOperations (encodeTransaction txn).operations =
      .ok (txn.operations.map wireImage) := decodeOperations_encodeOperations txn.operations
  rw [decodeTransaction, hops]
  rfl

theorem decodeParent_stable (n : Nat) : decodeParent
    ((decodeParent n).getD 0) = decodeParent n := by
  unfold decodeParent
  split
  · rfl
  · rename_i hne
    simp [hne]

theorem decodeChildIndex_stable (c : UInt32) :
    decodeChildIndex (encodeChildIndex (decodeChildIndex c)) = decodeChildIndex c := by
  unfold decodeChildIndex
  split
  · decide
  · rename_i hne
    have hback : encodeChildIndex (some c.toNat) = c := by simp [encodeChildIndex]
    rw [hback, if_neg hne]

theorem decodeCount_stable (n : Nat) : decodeCount ((decodeCount n).getD 0) = decodeCount n := by
  unfold decodeCount
  split
  · rename_i hpos
    simp [hpos]
  · rfl

theorem wireImage_of_decoded {wire : WireOperation} {op : Operation}
    (h : decodeOperation wire = .ok op) : wireImage op = op := by
  cases wire with
  | createNode node =>
    cases node with
    | none => simp [decodeOperation] at h
    | some rec =>
      rw [decodeOperation] at h
      split at h
      · simp at h
      · split at h
        · simp at h
        · rw [← Except.ok.inj h, wireImage, decodeParent_stable, decodeChildIndex_stable]
  | setProperty nodeId property value =>
    cases property with
    | none => simp [decodeOperation] at h
    | some property =>
      cases value with
      | none =>
        rw [decodeOperation] at h
        rw [← Except.ok.inj h]
        rfl
      | some value =>
        rw [decodeOperation] at h
        split at h
        · simp at h
        · rw [← Except.ok.inj h]
          rfl
  | clearProperty nodeId property =>
    cases property with
    | none => simp [decodeOperation] at h
    | some property =>
      rw [decodeOperation] at h
      rw [← Except.ok.inj h]
      rfl
  | createModel modelId modelType itemCount =>
    cases modelType with
    | none => simp [decodeOperation] at h
    | some modelType =>
      rw [decodeOperation] at h
      rw [← Except.ok.inj h]
      rfl
  | modelInsert modelId index items | batchPropertySet nodeId properties =>
    rw [decodeOperation] at h
    split at h
    · simp at h
    · rw [← Except.ok.inj h]
      rfl
  | modelDelete modelId index count itemIds =>
    rw [decodeOperation] at h
    rw [← Except.ok.inj h, wireImage, decodeCount_stable]
    unfold decodeCount
    split <;> simp
  | modelUpdate modelId index items =>
    rw [decodeOperation] at h
    split at h
    · simp at h
    · rw [← Except.ok.inj h, wireImage]
      split
      · simp
      · rename_i hne
        simp [hne]
  | modelResetRange modelId startIndex items totalCount =>
    rw [decodeOperation] at h
    split at h
    · simp at h
    · rw [← Except.ok.inj h, wireImage, decodeCount_stable]
  | moveNode nodeId newParentId newChildIndex =>
    rw [decodeOperation] at h
    rw [← Except.ok.inj h, wireImage, decodeParent_stable, decodeChildIndex_stable]
  | deleteNode nodeId | reorderChildren parentId childNodeIds =>
    rw [decodeOperation] at h
    rw [← Except.ok.inj h]
    rfl
  | unset | commit => simp [decodeOperation] at h

theorem map_wireImage_of_decoded {wire : List WireOperation} {ops : List Operation}
    (h : decodeOperations wire = .ok ops) : ops.map wireImage = ops := by
  induction wire generalizing ops with
  | nil =>
    rw [decodeOperations] at h
    rw [← Except.ok.inj h]
    rfl
  | cons first rest ih =>
    rw [decodeOperations] at h
    split at h
    · simp at h
    rename_i op hop
    split at h
    · simp at h
    rename_i tail htail
    rw [← Except.ok.inj h, List.map_cons, wireImage_of_decoded hop, ih htail]

theorem decodeTransaction_stable {wire : WireTransaction} {txn : Transaction}
    (h : decodeTransaction wire = .ok txn) :
    decodeTransaction (encodeTransaction txn) = .ok txn := by
  rw [decodeTransaction_encodeTransaction]
  rw [decodeTransaction] at h
  split at h
  · simp at h
  · rename_i ops hops
    rw [← Except.ok.inj h, imageTransaction, map_wireImage_of_decoded hops]

/-- The operations whose meaning the messages carry: no parent is node zero, no
child index reaches `u32::MAX`, and no items are written from `u64::MAX` on. -/
def WireSafe : Operation → Prop
  | .createNode _ _ parentId childIndex _ =>
    parentId ≠ some 0 ∧ ∀ i, childIndex = some i → i < u32Max
  | .moveNode _ newParentId newChildIndex =>
    newParentId ≠ some 0 ∧ ∀ i, newChildIndex = some i → i < u32Max
  | .modelUpdate _ index items => index = some u64Max → items = []
  | _ => True

theorem decodeParent_getD {parentId : Option NodeId} (h : parentId ≠ some 0) :
    decodeParent (parentId.getD 0) = parentId := by
  cases parentId with
  | none => rfl
  | some p =>
    have hne : p ≠ 0 := by
      rintro rfl
      exact h rfl
    simp [decodeParent, hne]

theorem decodeChildIndex_encodeChildIndex {childIndex : Option Nat}
    (h : ∀ i, childIndex = some i → i < u32Max) :
    decodeChildIndex (encodeChildIndex childIndex) = childIndex := by
  cases childIndex with
  | none => decide
  | some i =>
    have hi := h i rfl
    unfold u32Max at hi
    have hback : (UInt32.ofNat i).toNat = i := by
      rw [UInt32.toNat_ofNat']
      omega
    rw [encodeChildIndex, decodeChildIndex, hback, if_neg]
    unfold u32Max
    omega

theorem deleteItems_image (m : Model) (index count : Option Nat) (itemIds : List ItemId) :
    deleteItems m ((decodeCount (count.getD 0)).map fun _ => index.getD 0)
      (decodeCount (count.getD 0)) itemIds = deleteItems m index count itemIds := by
  unfold decodeCount
  split
  · rename_i hpos
    simp [deleteItems]
  · rename_i hzero
    have hcount : count.getD 0 = 0 := by omega
    simp [deleteItems, hcount]

theorem resetRange_image (m : Model) (startIndex : Nat) (items : List ModelItem)
    (totalCount : Option Nat) :
    resetRange m startIndex items (decodeCount (totalCount.getD 0)) =
      resetRange m startIndex items totalCount := by
  have hcount : (decodeCount (totalCount.getD 0)).getD 0 = totalCount.getD 0 := by
    unfold decodeCount
    split
    · rfl
    · rename_i hzero
      simp only [Option.getD_none]
      omega
  unfold resetRange
  rw [hcount]

theorem apply_wireImage {op : Operation} (h : WireSafe op) (s : SemanticStore) :
    apply (wireImage op) s = apply op s := by
  cases op with
  | createNode id nodeType parentId childIndex properties
  | moveNode id newParentId newChildIndex =>
    rw [wireImage, decodeParent_getD h.1, decodeChildIndex_encodeChildIndex h.2]
  | modelDelete id index count itemIds =>
    rw [wireImage, apply, apply, modelDelete, modelDelete]
    simp only [deleteItems_image]
  | modelUpdate id index items =>
    rw [wireImage, apply, apply]
    cases index with
    | none => simp
    | some i =>
      by_cases hi : i = u64Max
      · have hitems : items = [] := h (by rw [hi])
        subst hitems
        simp only [hi, Option.getD_some, if_pos]
        rfl
      · simp [hi]
  | modelResetRange id startIndex items totalCount =>
    rw [wireImage, apply, apply, modelResetRange, modelResetRange]
    simp only [modelResetRangeChecked, resetCached, resetRange_image]
  | _ => rfl

end Srui.SemanticTree.WireRoundTrip

import Srui.Client.StoreAgreement
import Srui.Client.TransactionDecoders
import Srui.SemanticTree.WireRoundTrip

/-!
A server's store and a client's replica that is fed the messages the server delivers.

The client decodes under the limits of its replica. It refuses some of what the server
applies: a standard property with a value of another kind than the registry declares, a
value beyond the limits that a later entry of the same item overrides, and a range
deletion that counts more than `Int64.max` items.
-/

namespace Srui.Exchange.DeliveredStreams

open Std Basic.Machine Basic.Runs SemanticTree.Values
open SemanticTree.Models (ModelItem)
open SemanticTree.Limits (StoreLimits validateValueInner validateItemsInner
  validatePropertiesInner validateValue validateModelItemsBatch)
open SemanticTree.Stores (SemanticStore validateBatch)
open SemanticTree.Operations (Operation)
open SemanticTree.Wire
open Client.ReplicaModels (int64Max)
open Client.TransactionAppliers (TransactionApplier applyDelivered)
open Client.TransactionDecoders Client.StoreAgreement

variable {limits : StoreLimits} {s s' : SemanticStore}

/-! ### What is asked of a message -/

def carriedItems : WireOperation → List WireModelItem
  | .modelInsert _ _ items => items
  | .modelUpdate _ _ items => items
  | .modelResetRange _ _ items _ => items
  | _ => []

/-- Every property an item carries is within the limits, overridden or not. -/
def PropertiesFit (limits : StoreLimits) (item : WireModelItem) : Prop :=
  match decodeProperties item.properties with
  | .ok properties => validatePropertiesInner limits properties 1 = .ok ()
  | .error _ => True

instance (limits : StoreLimits) (item : WireModelItem) : Decidable (PropertiesFit limits item) :=
  match h : decodeProperties item.properties with
  | .ok properties =>
    decidable_of_iff (validatePropertiesInner limits properties 1 = .ok ())
      (by rw [PropertiesFit, h])
  | .error _ => isTrue (by rw [PropertiesFit, h]; trivial)

/-- What both sides take alike. -/
def Conventional (op : Operation) : Prop := Typed op ∧ deletedCount op ≤ int64Max

instance (op : Operation) : Decidable (Conventional op) := inferInstanceAs (Decidable (_ ∧ _))

def ConventionalForm (wire : WireOperation) : Prop :=
  match decodeOperation wire with
  | .ok op => Conventional op
  | .error _ => True

instance (wire : WireOperation) : Decidable (ConventionalForm wire) :=
  match h : decodeOperation wire with
  | .ok op => decidable_of_iff (Conventional op) (by rw [ConventionalForm, h])
  | .error _ => isTrue (by rw [ConventionalForm, h]; trivial)

/-- A message that every replica takes which the server's own store takes. -/
def Acceptable (limits : StoreLimits) (wire : WireTransaction) : Prop :=
  ∀ op ∈ wire.operations, ConventionalForm op ∧ ∀ item ∈ carriedItems op, PropertiesFit limits item

instance (limits : StoreLimits) (wire : WireTransaction) : Decidable (Acceptable limits wire) :=
  inferInstanceAs (Decidable (∀ op ∈ wire.operations, _ ∧ _))

/-! ### Values -/

theorem withinDepth_of_le {depth : Nat} (h : ¬limits.maxValueDepth < depth)
    (value : Except ProtocolDecodeError Value) : withinDepth limits depth value = value := if_neg h

theorem depth_le_of_valid {value : Value} {depth : Nat}
    (h : validateValueInner limits value depth = .ok ()) : ¬limits.maxValueDepth < depth := by
  intro hdepth
  rcases value with scalar | items | ⟨typeRef, properties⟩
  all_goals
    rw [validateValueInner.eq_def] at h
    exact absurd ((if_pos hdepth).symm.trans h) nofun

theorem decodeValues_length {wire : List WireValue} {items : List Value}
    (h : decodeValues wire = .ok items) : items.length = wire.length := by
  induction wire generalizing items with
  | nil =>
    rw [decodeValues] at h
    cases h
    rfl
  | cons value rest ih =>
    rw [decodeValues] at h
    split at h
    · cases h
    split at h
    · cases h
    · rename_i hrest
      cases h
      rw [List.length_cons, List.length_cons, ih hrest]

theorem decodeProperties_length {wire : List WireProperty}
    {properties : List (PropertyRef × Value)} (h : decodeProperties wire = .ok properties) :
    properties.length = wire.length := by
  induction wire generalizing properties with
  | nil =>
    rw [decodeProperties] at h
    cases h
    rfl
  | cons property rest ih =>
    rw [decodeProperties] at h
    split at h
    · cases h
    split at h
    · cases h
    · rename_i hrest
      cases h
      rw [List.length_cons, List.length_cons, ih hrest]

mutual

theorem convertValue_agrees : (wire : WireValue) → (depth : Nat) → (value : Value) →
    decodeValue wire = .ok value → validateValueInner limits value depth = .ok () →
    validateAndConvertValue limits wire depth = .ok value
  | .unset, _, _ => fun h _ => by
    rw [decodeValue] at h
    cases h
  | .stringValue text, depth, value => fun h hvalid => by
    rw [decodeValue] at h
    cases h
    have hdepth := depth_le_of_valid hvalid
    rw [validateValueInner, if_neg hdepth, SemanticTree.Limits.validateScalar] at hvalid
    rw [validateAndConvertValue, withinDepth_of_le hdepth]
    split at hvalid
    · cases hvalid
    · rename_i hlength
      exact if_neg hlength
  | .resourceHash bytes, depth, value => fun h hvalid => by
    rw [decodeValue] at h
    rw [validateAndConvertValue, withinDepth_of_le (depth_le_of_valid hvalid)]
    split at h
    · rename_i hlength
      rw [dif_pos hlength]
      cases h
      rfl
    · cases h
  | .listValue values, depth, value => fun h hvalid => by
    rw [decodeValue] at h
    split at h
    · cases h
    rename_i items hitems
    cases h
    have hdepth := depth_le_of_valid hvalid
    rw [validateValueInner, if_neg hdepth] at hvalid
    rw [validateAndConvertValue, withinDepth_of_le hdepth]
    split at hvalid
    · cases hvalid
    rename_i hlength
    rw [decodeValues_length hitems] at hlength
    rw [if_neg hlength, convertValues_agrees values (depth + 1) items hitems hvalid]
  | .recordValue none properties, _, _ => fun h _ => by
    rw [decodeValue] at h
    cases h
  | .recordValue (some typeRef) properties, depth, value => fun h hvalid => by
    rw [decodeValue] at h
    split at h
    · cases h
    rename_i decoded hdecoded
    cases h
    have hdepth := depth_le_of_valid hvalid
    rw [validateValueInner, if_neg hdepth] at hvalid
    rw [validateAndConvertValue, withinDepth_of_le hdepth]
    split at hvalid
    · cases hvalid
    rename_i hlength
    rw [decodeProperties_length hdecoded] at hlength
    rw [if_neg hlength, convertProperties_agrees properties (depth + 1) decoded hdecoded hvalid]
  | .nullValue _, _, _ | .boolValue _, _, _ | .intValue _, _, _ | .uintValue _, _, _
  | .floatValue _, _, _ | .nodeIdValue _, _, _ | .itemIdValue _, _, _ | .enumValue _ _, _, _
  | .sizeValue _ _, _, _ | .pointValue _ _, _, _ | .rangeValue _ _, _, _
  | .rectValue _ _ _ _, _, _ | .insetsValue _ _ _ _, _, _ => fun h hvalid => by
    rw [decodeValue] at h
    cases h
    rw [validateAndConvertValue, withinDepth_of_le (depth_le_of_valid hvalid)]

theorem convertValues_agrees : (wire : List WireValue) → (depth : Nat) → (items : List Value) →
    decodeValues wire = .ok items → validateItemsInner limits items depth = .ok () →
    validateAndConvertValues limits wire depth = .ok items
  | [], _, _ => fun h _ => by
    rw [decodeValues] at h
    rw [validateAndConvertValues]
    cases h
    rfl
  | value :: rest, depth, items => fun h hvalid => by
    rw [decodeValues] at h
    split at h
    · cases h
    rename_i first hfirst
    split at h
    · cases h
    rename_i others hothers
    cases h
    rw [validateItemsInner] at hvalid
    split at hvalid
    · cases hvalid
    rename_i hvalue
    rw [validateAndConvertValues, convertValue_agrees value depth first hfirst hvalue,
      convertValues_agrees rest depth others hothers hvalid]

theorem convertProperty_agrees : (wire : WireProperty) → (depth : Nat) →
    (entry : PropertyRef × Value) → decodeProperty wire = .ok entry →
    validateValueInner limits entry.2 depth = .ok () →
    validateAndConvertProperty limits wire depth = .ok entry
  | .mk none _, _, _ => fun h _ => by
    rw [decodeProperty] at h
    cases h
  | .mk (some property) none, _, _ => fun h _ => by
    rw [decodeProperty] at h
    rw [validateAndConvertProperty]
    cases h
    rfl
  | .mk (some property) (some value), depth, entry => fun h hvalid => by
    rw [decodeProperty] at h
    split at h
    · cases h
    rename_i decoded hdecoded
    cases h
    rw [validateAndConvertProperty, convertValue_agrees value depth decoded hdecoded hvalid]

theorem convertProperties_agrees : (wire : List WireProperty) → (depth : Nat) →
    (properties : List (PropertyRef × Value)) → decodeProperties wire = .ok properties →
    validatePropertiesInner limits properties depth = .ok () →
    validateAndConvertProperties limits wire depth = .ok properties
  | [], _, _ => fun h _ => by
    rw [decodeProperties] at h
    rw [validateAndConvertProperties]
    cases h
    rfl
  | property :: rest, depth, properties => fun h hvalid => by
    rw [decodeProperties] at h
    split at h
    · cases h
    rename_i first hfirst
    split at h
    · cases h
    rename_i others hothers
    cases h
    rw [validatePropertiesInner] at hvalid
    split at hvalid
    · cases hvalid
    rename_i hvalue
    rw [validateAndConvertProperties, convertProperty_agrees property depth first hfirst hvalue,
      convertProperties_agrees rest depth others hothers hvalid]

end

/-! ### Operations -/

/-- What the server checked of an operation's payload when it applied it. -/
def Within (limits : StoreLimits) : Operation → Prop
  | .createNode _ _ _ _ properties => validatePropertiesInner limits properties 1 = .ok ()
  | .setProperty _ _ value => validateValue limits value = .ok ()
  | .batchPropertySet _ properties => validatePropertiesInner limits properties 1 = .ok ()
  | .modelInsert _ _ items => validateBatch limits items = .ok ()
  | .modelDelete _ _ _ itemIds => validateModelItemsBatch limits itemIds.length = .ok ()
  | .modelUpdate _ _ items => validateBatch limits items = .ok ()
  | .modelResetRange _ _ items _ => validateBatch limits items = .ok ()
  | _ => True

theorem validateProperties_within {properties : List (PropertyRef × Value)}
    (h : SemanticTree.Stores.validateProperties s properties = .ok ()) :
    validatePropertiesInner s.limits properties 1 = .ok () := by
  induction properties with
  | nil => rw [validatePropertiesInner]
  | cons entry rest ih =>
    obtain ⟨property, value⟩ := entry
    rw [SemanticTree.Stores.validateProperties] at h
    split at h
    · cases h
    rename_i hfirst
    rw [SemanticTree.Stores.validateProperty] at hfirst
    split at hfirst
    · cases hfirst
    rename_i hvalue
    rw [validateValue] at hvalue
    rw [validatePropertiesInner, hvalue]
    exact ih h

theorem apply_within {op : Operation}
    (h : SemanticTree.Operations.apply op s = (s', .ok ())) : Within s.limits op := by
  cases op with
  | createNode id nodeType parentId childIndex properties =>
    have hdone := commit_ok h
    rw [SemanticTree.Stores.createNode] at hdone
    repeat' split at hdone
    all_goals first
      | exact validateProperties_within ‹_›
      | cases hdone
  | setProperty id property value =>
    obtain ⟨rest, hdone⟩ := commitFst_ok h
    rw [SemanticTree.Stores.setProperty] at hdone
    split at hdone
    · cases hdone
    rename_i hproperty
    rw [SemanticTree.Stores.validateProperty] at hproperty
    split at hproperty
    · cases hproperty
    · assumption
  | batchPropertySet id properties =>
    have hdone := commit_ok h
    rw [SemanticTree.Stores.batchPropertySet] at hdone
    split at hdone
    · cases hdone
    · exact validateProperties_within ‹_›
  | modelInsert id index items =>
    rw [SemanticTree.Operations.apply, SemanticTree.Stores.modelInsert,
      SemanticTree.Stores.modelInsertChecked.eq_def] at h
    split at h
    · cases h
    · assumption
  | modelDelete id index count itemIds =>
    rw [SemanticTree.Operations.apply, SemanticTree.Stores.modelDelete] at h
    split at h
    · cases h
    · assumption
  | modelUpdate id index items =>
    rw [SemanticTree.Operations.apply, SemanticTree.Stores.modelUpdate,
      SemanticTree.Stores.modelUpdateChecked.eq_def] at h
    split at h
    · cases h
    · assumption
  | modelResetRange id startIndex items totalCount =>
    rw [SemanticTree.Operations.apply, SemanticTree.Stores.modelResetRange,
      SemanticTree.Stores.modelResetRangeChecked.eq_def] at h
    split at h
    · cases h
    · assumption
  | _ => trivial

theorem convertOptional_agrees {wire : Option WireValue} {value : Value}
    (h : (match wire with | some wire => decodeValue wire | none => .ok .null) = .ok value)
    (hvalid : validateValue limits value = .ok ()) :
    validateAndConvertOptional limits wire = .ok value := by
  rcases wire with - | wire
  · cases h
    rfl
  · exact convertValue_agrees wire 1 value h hvalid

variable {items : List ModelItem}

theorem convertModelItems_agrees {wire : List WireModelItem}
    (h : decodeItems wire = .ok items)
    (hvalid : SemanticTree.Stores.validateItems limits items = .ok ())
    (hfit : ∀ item ∈ wire, PropertiesFit limits item) :
    convertModelItems limits wire = .ok items := by
  induction wire generalizing items with
  | nil =>
    cases h
    rfl
  | cons wire rest ih =>
    rw [decodeItems] at h
    split at h
    · cases h
    rename_i item hitem
    split at h
    · cases h
    rename_i others hothers
    cases h
    rw [SemanticTree.Stores.validateItems_cons] at hvalid
    split at hvalid
    · cases hvalid
    rename_i hfirst
    rw [SemanticTree.Stores.validateItem_def] at hfirst
    split at hfirst
    · cases hfirst
    rename_i hvalue
    rw [decodeItem] at hitem
    split at hitem
    · cases hitem
    rename_i value hdecoded
    split at hitem
    · cases hitem
    rename_i properties hproperties
    cases hitem
    have hproper := hfit wire (by simp)
    rw [PropertiesFit, hproperties] at hproper
    rw [convertModelItems, validateAndConvertModelItem, convertOptional_agrees hdecoded hvalue,
      convertProperties_agrees wire.properties 1 properties hproperties hproper]
    simp only
    rw [ih hothers hvalid fun item hitem => hfit item (List.mem_cons_of_mem _ hitem)]

theorem decodeItems_length {wire : List WireModelItem}
    (h : decodeItems wire = .ok items) : items.length = wire.length := by
  induction wire generalizing items with
  | nil =>
    cases h
    rfl
  | cons item rest ih =>
    rw [decodeItems] at h
    split at h
    · cases h
    split at h
    · cases h
    · rename_i hrest
      cases h
      rw [List.length_cons, List.length_cons, ih hrest]

theorem validateAndConvertModelItems_agrees {wire : List WireModelItem}
    (h : decodeItems wire = .ok items) (hvalid : validateBatch limits items = .ok ())
    (hfit : ∀ item ∈ wire, PropertiesFit limits item) :
    validateAndConvertModelItems limits wire = .ok items := by
  rw [SemanticTree.Stores.validateBatch_def] at hvalid
  split at hvalid
  · cases hvalid
  rename_i hcount
  rw [validateModelItemsBatch, decodeItems_length h] at hcount
  split at hcount
  · cases hcount
  · rename_i hle
    rw [validateAndConvertModelItems, if_neg hle]
    exact convertModelItems_agrees h hvalid hfit

theorem asTxnError_ok {α : Type} {result : Except ValueConversionError α} {a : α}
    (h : asTxnError result = .ok a) : result = .ok a := by
  rcases result with e | found
  · cases h
  · cases h
    rfl

theorem convertChildIndex_eq (childIndex : UInt32) :
    convertChildIndex childIndex = (decodeChildIndex childIndex).map Int.ofNat := by
  rw [convertChildIndex, decodeChildIndex]
  split
  · rfl
  · rfl

theorem convertOperation_agrees {wire : WireOperation} {op : Operation}
    (h : decodeOperation wire = .ok op) (hwithin : Within limits op)
    (hfit : ∀ item ∈ carriedItems wire, PropertiesFit limits item) :
    validateAndConvertOperation limits wire = .ok (translate op) := by
  cases wire with
  | unset => cases h
  | commit => cases h
  | createNode node =>
    rcases node with - | node
    · cases h
    rw [decodeOperation] at h
    split at h
    · cases h
    rename_i nodeType htype
    split at h
    · cases h
    rename_i properties hproperties
    cases h
    rw [validateAndConvertOperation]
    simp only [htype]
    rw [convertProperties_agrees node.properties 1 properties (asTxnError_ok hproperties) hwithin,
      convertChildIndex_eq]
    rfl
  | deleteNode nodeId =>
    cases h
    rfl
  | reorderChildren parentId childNodeIds =>
    cases h
    rfl
  | setProperty nodeId property value =>
    rcases property with - | property
    · cases h
    rw [validateAndConvertOperation]
    rcases value with - | value
    · cases h
      rfl
    rw [decodeOperation] at h
    split at h
    · cases h
    rename_i decoded hdecoded
    cases h
    rw [validateAndConvertOptional,
      convertValue_agrees value 1 decoded (asTxnError_ok hdecoded) hwithin]
    rfl
  | clearProperty nodeId property =>
    rcases property with - | property
    · cases h
    · cases h
      rfl
  | createModel modelId modelType itemCount =>
    rcases modelType with - | modelType
    · cases h
    · cases h
      rfl
  | modelInsert modelId index items | modelUpdate modelId index items
  | modelResetRange modelId startIndex items totalCount =>
    rw [decodeOperation] at h
    split at h
    · cases h
    rename_i decoded hdecoded
    cases h
    rw [validateAndConvertOperation,
      validateAndConvertModelItems_agrees (asTxnError_ok hdecoded) hwithin hfit]
    rfl
  | modelDelete modelId index count itemIds =>
    cases h
    have hcount : validateModelItemsBatch limits itemIds.length = .ok () := hwithin
    rw [validateModelItemsBatch] at hcount
    split at hcount
    · cases hcount
    · rename_i hle
      rw [validateAndConvertOperation, if_neg hle]
      rfl
  | moveNode nodeId newParentId newChildIndex =>
    cases h
    rw [validateAndConvertOperation, convertChildIndex_eq]
    rfl
  | batchPropertySet nodeId properties =>
    rw [decodeOperation] at h
    split at h
    · cases h
    rename_i decoded hdecoded
    cases h
    rw [validateAndConvertOperation,
      convertProperties_agrees properties 1 decoded (asTxnError_ok hdecoded) hwithin]
    rfl

/-! ### Transactions -/

theorem stage_agrees {wire : List WireOperation} {ops : List Operation} {opIndex : Nat}
    {t staged : SemanticStore} (hdecode : decodeOperations wire = .ok ops)
    (hlimits : t.limits = limits)
    (hform : ∀ op ∈ wire,
      ConventionalForm op ∧ ∀ item ∈ carriedItems op, PropertiesFit limits item)
    (h : SemanticTree.Transactions.stage SemanticTree.Operations.apply t opIndex ops =
      .ok staged) :
    convertOperations limits wire = .ok (ops.map translate) ∧
      Client.TransactionAppliers.stage t opIndex (ops.map translate) = .ok staged := by
  induction wire generalizing ops t opIndex with
  | nil =>
    cases hdecode
    cases h
    exact ⟨rfl, rfl⟩
  | cons wire rest ih =>
    rw [decodeOperations] at hdecode
    split at hdecode
    · cases hdecode
    rename_i op hop
    split at hdecode
    · cases hdecode
    rename_i others hothers
    cases hdecode
    rw [SemanticTree.Transactions.stage] at h
    split at h
    · cases h
    rename_i next happly
    obtain ⟨hconventional, hfit⟩ := hform wire (by simp)
    rw [ConventionalForm, hop] at hconventional
    have hnext : next.limits = limits := by
      rw [← hlimits, ← SemanticTree.OperationEffects.apply_limits t op, happly]
    obtain ⟨hconvert, hstage⟩ := ih hothers hnext
      (fun op hop => hform op (List.mem_cons_of_mem _ hop)) h
    have hfirst := convertOperation_agrees hop (hlimits ▸ apply_within happly) hfit
    constructor
    · rw [convertOperations, hfirst, hconvert, List.map_cons]
    · rw [List.map_cons, Client.TransactionAppliers.stage,
        apply_agrees hconventional.1 hconventional.2 happly]
      exact hstage

theorem classify_form {txn : SemanticTree.Transactions.Transaction}
    {delivered : SemanticTree.Transactions.DeliveredTransaction}
    (h : SemanticTree.Transactions.classify txn = .ok delivered) :
    ∃ next, SemanticTree.Transactions.checkedNext txn.baseRevision = some next ∧
      (txn.newRevision = next ∨
        (next < txn.newRevision ∧ SemanticTree.Transactions.isCoalesceable txn = true)) ∧
      ((∃ commit, delivered = .commit commit ∧ commit.txn = txn) ∨
        ∃ delta, delivered = .delta delta ∧ delta.txn = txn) := by
  rw [SemanticTree.Transactions.classify] at h
  split at h
  · cases h
  rename_i next hnext
  split at h
  · rename_i heq
    cases h
    exact ⟨next, hnext, Or.inl heq, Or.inl ⟨_, rfl, rfl⟩⟩
  rename_i hother
  split at h
  swap
  · cases h
  rename_i hdelta
  cases h
  refine ⟨next, hnext, Or.inr ?_, Or.inr ⟨_, rfl, rfl⟩⟩
  rw [SemanticTree.Transactions.validateDelta, hnext] at hdelta
  simp only at hdelta
  split at hdelta
  · cases hdelta
  rename_i hform
  rw [not_or, Bool.not_eq_false] at hform
  have hsucc : next = txn.baseRevision + 1 := (checkedAdd_eq_some.mp hnext).2
  have hlater : next ≤ txn.newRevision := hsucc ▸ Nat.lt_of_not_le hform.1
  exact ⟨Nat.lt_of_le_of_ne hlater (Ne.symm hother), hform.2⟩

theorem isScalarSetProperty_eq (op : Operation) :
    Client.TransactionAppliers.isScalarSetProperty (translate op) =
      (match op with
      | .setProperty _ _ value => value.isScalar
      | _ => false) := by
  cases op with
  | _ => rfl

theorem isCoalesceable_eq (txn : SemanticTree.Transactions.Transaction) :
    Client.TransactionAppliers.isCoalesceable
        ⟨txn.baseRevision, txn.newRevision, txn.operations.map translate, txn.priority⟩ =
      SemanticTree.Transactions.isCoalesceable txn := by
  rw [Client.TransactionAppliers.isCoalesceable, SemanticTree.Transactions.isCoalesceable,
    List.isEmpty_map, List.all_map]
  congr 2
  funext op
  exact isScalarSetProperty_eq op

theorem decodeOperations_length {wire : List WireOperation} {ops : List Operation}
    (h : decodeOperations wire = .ok ops) : ops.length = wire.length := by
  induction wire generalizing ops with
  | nil =>
    cases h
    rfl
  | cons op rest ih =>
    rw [decodeOperations] at h
    split at h
    · cases h
    split at h
    · cases h
    · rename_i hrest
      cases h
      rw [List.length_cons, List.length_cons, ih hrest]

variable {wire : WireTransaction} {revision : Revision}

theorem applied_form
    (h : applyDeliveredTransaction s wire = (s', .ok revision)) :
    ∃ txn delivered staged, decodeTransaction wire = .ok txn ∧
      SemanticTree.Transactions.classify txn = .ok delivered ∧
      txn.baseRevision = s.revision ∧
      txn.operations.length ≤ s.limits.maxTransactionOperations ∧
      SemanticTree.Transactions.stage SemanticTree.Operations.apply s 0 txn.operations =
        .ok staged ∧
      s' = SemanticTree.Transactions.commitStaging s staged txn.newRevision := by
  have hvalidated : ∀ txn, SemanticTree.Transactions.applyValidated s txn = (s', .ok revision) →
      ∃ staged, txn.baseRevision = s.revision ∧
        txn.operations.length ≤ s.limits.maxTransactionOperations ∧
        SemanticTree.Transactions.stage SemanticTree.Operations.apply s 0 txn.operations =
          .ok staged ∧
        s' = SemanticTree.Transactions.commitStaging s staged txn.newRevision := by
    intro txn htxn
    rw [SemanticTree.Transactions.applyValidated] at htxn
    split at htxn
    · cases htxn
    rename_i hbase
    rw [SemanticTree.Transactions.checkBaseRevision] at hbase
    split at hbase
    · cases hbase
    rename_i heq
    rw [SemanticTree.Transactions.applyStaged, SemanticTree.Transactions.applyStagedWith] at htxn
    split at htxn
    · cases htxn
    rename_i hcount
    split at htxn
    · cases htxn
    rename_i staged hstaged
    cases htxn
    exact ⟨staged, not_not.mp heq, Nat.le_of_not_lt hcount, hstaged, rfl⟩
  rw [applyDeliveredTransaction] at h
  split at h
  · cases h
  rename_i txn hdecode
  split at h
  · cases h
  · rename_i commit hclassify
    obtain ⟨-, -, -, ⟨found, hfound, hsame⟩ | ⟨found, hfound, -⟩⟩ := classify_form hclassify
    · cases hfound
      rw [SemanticTree.Transactions.applyAuthoritative, hsame] at h
      obtain ⟨staged, hrest⟩ := hvalidated txn h
      exact ⟨txn, _, staged, hdecode, hclassify, hrest⟩
    · cases hfound
  · rename_i delta hclassify
    obtain ⟨-, -, -, ⟨found, hfound, -⟩ | ⟨found, hfound, hsame⟩⟩ := classify_form hclassify
    · cases hfound
    · cases hfound
      rw [SemanticTree.Transactions.applyCoalescedDelta, hsame] at h
      obtain ⟨staged, hrest⟩ := hvalidated txn h
      exact ⟨txn, _, staged, hdecode, hclassify, hrest⟩

theorem checkedNext_agrees {next : Revision}
    (h : SemanticTree.Transactions.checkedNext revision = some next) :
    Client.TransactionAppliers.checkedNext revision = some next := by
  obtain ⟨hfits, rfl⟩ := checkedAdd_eq_some.mp h
  have hbelow : ¬revision = u64Max := by
    intro heq
    rw [heq] at hfits
    exact absurd hfits (Nat.not_succ_le_self u64Max)
  exact if_neg hbelow

theorem deliver_agrees
    (h : applyDeliveredTransaction s wire = (s', .ok revision))
    (hform : Acceptable s.limits wire) :
    ∃ snapshot, deliver (.init s) wire = (.init s', .ok snapshot) := by
  obtain ⟨txn, delivered, staged, hdecode, hclassify, hbase, hcount, hstaged, hresult⟩ :=
    applied_form h
  obtain ⟨next, hnext, hshape, -⟩ := classify_form hclassify
  rw [decodeTransaction] at hdecode
  split at hdecode
  · cases hdecode
  rename_i ops hops
  cases hdecode
  obtain ⟨hconvert, hstage⟩ := stage_agrees hops rfl hform hstaged
  have hwire : ¬s.limits.maxTransactionOperations < wire.operations.length := by
    rw [← decodeOperations_length hops]
    exact Nat.not_lt.mpr hcount
  have hmapped : ¬s.limits.maxTransactionOperations < (ops.map translate).length := by
    rw [List.length_map]
    exact Nat.not_lt.mpr hcount
  have hconverted : validateAndConvertTransaction s.limits wire =
      .ok ⟨wire.baseRevision, wire.newRevision, ops.map translate, wire.priority⟩ := by
    rw [validateAndConvertTransaction, if_neg hwire, hconvert]
  have hshaped : wire.newRevision = next ∨ (next < wire.newRevision ∧
      Client.TransactionAppliers.isCoalesceable
        ⟨wire.baseRevision, wire.newRevision, ops.map translate, wire.priority⟩ = true) := by
    rcases hshape with heq | ⟨hlater, hcoalesceable⟩
    · exact Or.inl heq
    · refine Or.inr ⟨hlater, ?_⟩
      rw [← hcoalesceable]
      exact isCoalesceable_eq ⟨wire.baseRevision, wire.newRevision, ops, wire.priority⟩
  have happlied : applyDelivered (.init s)
      ⟨wire.baseRevision, wire.newRevision, ops.map translate, wire.priority⟩ =
      (.init s', .ok (Client.TransactionAppliers.currentSnapshot (.init s'))) := by
    rw [applyDelivered, checkedNext_agrees hnext]
    simp only
    have hcurrent : ¬(wire.baseRevision ≠ (TransactionApplier.init s).store.revision) :=
      not_not.mpr hbase
    have hstagedCall : Client.TransactionAppliers.applyStaged (.init s) (ops.map translate)
        wire.newRevision = (.init s', .ok wire.newRevision) := by
      have hroom : ¬(TransactionApplier.init s).store.limits.maxTransactionOperations <
          (ops.map translate).length := hmapped
      have hdone : Client.TransactionAppliers.stage (TransactionApplier.init s).store 0
          (ops.map translate) = .ok staged := hstage
      rw [Client.TransactionAppliers.applyStaged, if_neg hroom, hdone, hresult]
      rfl
    rw [if_pos hshaped, Client.TransactionAppliers.applyValidated, if_neg hcurrent]
    simp only
    rw [hstagedCall]
  have hlimits : (TransactionApplier.init s).store.limits = s.limits := rfl
  refine ⟨Client.TransactionAppliers.currentSnapshot (.init s'), ?_⟩
  rw [deliver, hlimits, hconverted]
  simp only
  rw [happlied]

/-! ### Streams -/

structure Pair where
  server : SemanticStore
  replica : TransactionApplier

def relay (p : Pair) (wire : WireTransaction) : Pair :=
  ⟨(applyDeliveredTransaction p.server wire).1, (deliver p.replica wire).1⟩

/-- The replica holds what the server holds, at the same revision. -/
def Corresponds (p : Pair) : Prop :=
  p.replica.store = p.server ∧ p.replica.lastAppliedRevision = p.server.revision

def Committed (p : Pair) (wire : WireTransaction) : Prop :=
  ∃ revision, (applyDeliveredTransaction p.server wire).2 = .ok revision

def Taken (p : Pair) (wire : WireTransaction) : Prop :=
  ∃ snapshot, (deliver p.replica wire).2 = .ok snapshot

def refusal (p : Pair) (wire : WireTransaction) : Option DeliveryFailure :=
  match (deliver p.replica wire).2 with
  | .error failure => some failure
  | .ok _ => none

instance (p : Pair) (wire : WireTransaction) : Decidable (Committed p wire) :=
  match h : (applyDeliveredTransaction p.server wire).2 with
  | .ok revision => isTrue ⟨revision, h⟩
  | .error _ => isFalse (by rintro ⟨revision, hrevision⟩; rw [h] at hrevision; cases hrevision)

theorem relay_agrees {p : Pair} (h : Corresponds p)
    (hcommitted : Committed p wire) (hform : Acceptable p.server.limits wire) :
    Taken p wire ∧ Corresponds (relay p wire) := by
  have hreplica : p.replica = .init p.server := by
    rcases p with ⟨server, store, lastAppliedRevision⟩
    obtain ⟨hstore, hrevision⟩ := h
    simp only at hstore hrevision
    rw [hstore, hrevision]
    rfl
  obtain ⟨revision, hrevision⟩ := hcommitted
  obtain ⟨snapshot, hsnapshot⟩ := deliver_agrees (Prod.ext rfl hrevision) hform
  rw [← hreplica] at hsnapshot
  refine ⟨⟨snapshot, congrArg Prod.snd hsnapshot⟩, ?_⟩
  rw [relay, hsnapshot]
  exact ⟨rfl, rfl⟩

/-- From any pair that corresponds, a replica takes every message of a stream and keeps
corresponding. -/
theorem replica_follows {p : Pair} (h : Corresponds p) (stream : List WireTransaction)
    (hstream : EveryStep relay
      (fun p wire => Committed p wire ∧ Acceptable p.server.limits wire) p stream) :
    EveryStep relay Taken p stream ∧ EveryState relay Corresponds p stream := by
  induction stream generalizing p with
  | nil => exact ⟨trivial, h⟩
  | cons wire rest ih =>
    obtain ⟨⟨hcommitted, hform⟩, hrest⟩ := hstream
    obtain ⟨htaken, hnext⟩ := relay_agrees h hcommitted hform
    obtain ⟨hsteps, hstates⟩ := ih hnext hrest
    exact ⟨⟨htaken, hsteps⟩, h, hstates⟩

def opened (limits : StoreLimits) : Pair :=
  let store := SemanticStore.withLimits limits
  ⟨store, .init store⟩

def modelStream : List WireTransaction :=
  [⟨0, 1, [.createModel 7 (some ⟨0, 1⟩) 1,
      .modelResetRange 7 0 [⟨3, some (.stringValue "row"), []⟩] 1,
      .createNode (some ⟨1, some ⟨0, 1⟩, 0, 4294967295,
        [.mk (some ⟨0, 17⟩) (some (.uintValue 7))]⟩)], 0⟩,
    ⟨1, 3, [.setProperty 1 (some ⟨0, 7⟩) (some (.boolValue true))], 0⟩]

theorem modelStream_followed :
    EveryStep relay Taken (opened .default) modelStream ∧
      EveryState relay Corresponds (opened .default) modelStream := by
  refine replica_follows ⟨rfl, rfl⟩ modelStream ?_
  decide +kernel

def untypedLabel : WireTransaction :=
  ⟨0, 1, [.createNode (some ⟨1, some ⟨0, 1⟩, 0, 4294967295,
    [.mk (some ⟨0, 1⟩) (some (.boolValue true))]⟩)], 0⟩

def halfDeleted : WireTransaction :=
  ⟨0, 1, [.createModel 7 (some ⟨0, 1⟩) 9223372036854775809,
    .modelDelete 7 0 9223372036854775809 []], 0⟩

def overriddenString : WireTransaction :=
  ⟨0, 1, [.createModel 7 (some ⟨0, 1⟩) 0,
    .modelInsert 7 0 [⟨3, none, [.mk (some ⟨9, 1⟩) (some (.stringValue "ab")),
      .mk (some ⟨9, 1⟩) (some (.stringValue "a"))]⟩]], 0⟩

theorem replica_not_always_follows :
    (Committed (opened .default) untypedLabel ∧
        refusal (opened .default) untypedLabel = some (.rejected (.error (.opFailed 0
          (.invalidPropertyValueType ⟨0, 1⟩ .string "bool"))))) ∧
      (Committed (opened .default) halfDeleted ∧
        refusal (opened .default) halfDeleted = some (.rejected .panicked)) ∧
      Committed (opened { StoreLimits.default with maxStringLength := 1 }) overriddenString ∧
        refusal (opened { StoreLimits.default with maxStringLength := 1 }) overriddenString =
          some (.decodeFailed (.maxStringLengthExceeded 1 2)) := by
  refine ⟨⟨?_, ?_⟩, ⟨?_, ?_⟩, ?_, ?_⟩
  all_goals decide +kernel

end Srui.Exchange.DeliveredStreams

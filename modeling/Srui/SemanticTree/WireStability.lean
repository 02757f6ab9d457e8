import Srui.SemanticTree.WireRoundTrip

/-!
Decoding, encoding and decoding again. The properties of an item are listed out of a
hash map, so they may be encoded in any order.
-/

namespace Srui.SemanticTree.WireStability

open Basic.FiniteMaps SemanticTree.Values SemanticTree.Models SemanticTree.Operations
open SemanticTree.Transactions SemanticTree.Wire SemanticTree.WireRoundTrip

/-- `From<&Property> for srui_protocol::Property`. -/
def encodeProperty (property : PropertyRef × Value) : WireProperty :=
  .mk (some property.1) (some (encodeValue property.2))

structure ItemReordered (wire wire' : WireModelItem) : Prop where
  itemId : wire'.itemId = wire.itemId
  value : wire'.value = wire.value
  properties : wire'.properties.Perm wire.properties

inductive Reordered : WireOperation → WireOperation → Prop where
  | same (wire : WireOperation) : Reordered wire wire
  | modelInsert (modelId index : Nat) {items items' : List WireModelItem}
      (h : List.Forall₂ ItemReordered items items') :
      Reordered (.modelInsert modelId index items) (.modelInsert modelId index items')
  | modelUpdate (modelId index : Nat) {items items' : List WireModelItem}
      (h : List.Forall₂ ItemReordered items items') :
      Reordered (.modelUpdate modelId index items) (.modelUpdate modelId index items')
  | modelResetRange (modelId startIndex totalCount : Nat) {items items' : List WireModelItem}
      (h : List.Forall₂ ItemReordered items items') :
      Reordered (.modelResetRange modelId startIndex items totalCount)
        (.modelResetRange modelId startIndex items' totalCount)

structure TransactionReordered (wire wire' : WireTransaction) : Prop where
  baseRevision : wire'.baseRevision = wire.baseRevision
  newRevision : wire'.newRevision = wire.newRevision
  priority : wire'.priority = wire.priority
  operations : List.Forall₂ Reordered wire.operations wire'.operations

theorem decodeProperty_encodeProperty (property : PropertyRef × Value) :
    decodeProperty (encodeProperty property) = .ok property := by
  rw [encodeProperty, decodeProperty, decodeValue_encodeValue]

theorem decodeProperties_cons {wire : WireProperty} {rest : List WireProperty}
    {properties : List (PropertyRef × Value)} :
    decodeProperties (wire :: rest) = .ok properties ↔ ∃ property tail,
      decodeProperty wire = .ok property ∧ decodeProperties rest = .ok tail ∧
        properties = property :: tail := by
  rw [decodeProperties]
  cases decodeProperty wire with
  | error e => simp
  | ok property =>
    cases decodeProperties rest with
    | error e => simp
    | ok tail =>
      constructor
      · rintro ⟨rfl⟩
        exact ⟨property, tail, rfl, rfl, rfl⟩
      · rintro ⟨property', tail', ⟨rfl⟩, ⟨rfl⟩, rfl⟩
        rfl

theorem decodeProperties_perm {wire wire' : List WireProperty} (hperm : wire'.Perm wire)
    {properties : List (PropertyRef × Value)} (h : decodeProperties wire = .ok properties) :
    ∃ properties', decodeProperties wire' = .ok properties' ∧ properties'.Perm properties := by
  induction hperm generalizing properties with
  | nil => exact ⟨properties, h, .refl _⟩
  | cons first _ ih =>
    obtain ⟨property, tail, hfirst, htail, rfl⟩ := decodeProperties_cons.mp h
    obtain ⟨tail', htail', hperm⟩ := ih htail
    exact ⟨property :: tail', decodeProperties_cons.mpr ⟨_, _, hfirst, htail', rfl⟩, hperm.cons _⟩
  | swap first second rest =>
    obtain ⟨p, tail, hp, htail, rfl⟩ := decodeProperties_cons.mp h
    obtain ⟨q, last, hq, hlast, rfl⟩ := decodeProperties_cons.mp htail
    refine ⟨q :: p :: last, ?_, .swap _ _ _⟩
    exact decodeProperties_cons.mpr
      ⟨_, _, hq, decodeProperties_cons.mpr ⟨_, _, hp, hlast, rfl⟩, rfl⟩
  | trans _ _ ih ih' =>
    obtain ⟨middle, hmiddle, hperm⟩ := ih' h
    obtain ⟨last, hlast, hperm'⟩ := ih hmiddle
    exact ⟨last, hlast, hperm'.trans hperm⟩

theorem decodeItem_reordered {item : ModelItem} {wire : WireModelItem}
    (h : ItemReordered (encodeItem item) wire) : decodeItem wire = .ok item := by
  obtain ⟨listed, hlisted, hperm⟩ := decodeProperties_perm h.properties
    (decodeProperties_encodeProperties item.properties.toList)
  have hcollected : collectProperties listed = item.properties :=
    (insertAll_perm (nodup_toList_keys item.properties) hperm).trans
      (insertAll_toList item.properties)
  have hid : wire.itemId = item.itemId := h.itemId
  have hvalue : wire.value = some (encodeValue item.value) := h.value
  simp only [decodeItem, hvalue, decodeValue_encodeValue, hlisted, hcollected, hid]

theorem decodeItems_reordered {items : List ModelItem} {wire : List WireModelItem}
    (h : List.Forall₂ ItemReordered (items.map encodeItem) wire) : decodeItems wire = .ok items := by
  induction items generalizing wire with
  | nil =>
    obtain rfl := List.forall₂_nil_left_iff.mp h
    rfl
  | cons item rest ih =>
    obtain ⟨first, tail, hfirst, htail, rfl⟩ := List.forall₂_cons_left_iff.mp h
    rw [decodeItems, decodeItem_reordered hfirst, ih htail]

theorem decodeOperation_reordered {op : Operation} {wire : WireOperation}
    (h : Reordered (encodeOperation op) wire) : decodeOperation wire = .ok (wireImage op) := by
  generalize hencoded : encodeOperation op = encoded at h
  cases h with
  | same =>
    rw [← hencoded]
    exact decodeOperation_encodeOperation op
  | modelInsert modelId index hitems =>
    cases op with
    | modelInsert id index' items =>
      simp only [encodeOperation, WireOperation.modelInsert.injEq] at hencoded
      obtain ⟨rfl, rfl, rfl⟩ := hencoded
      rw [decodeOperation, decodeItems_reordered hitems]
      rfl
    | _ => simp [encodeOperation] at hencoded
  | modelUpdate modelId index hitems =>
    cases op with
    | modelUpdate id index' items =>
      simp only [encodeOperation, WireOperation.modelUpdate.injEq] at hencoded
      obtain ⟨rfl, rfl, rfl⟩ := hencoded
      rw [decodeOperation, decodeItems_reordered hitems]
      rfl
    | _ => simp [encodeOperation] at hencoded
  | modelResetRange modelId startIndex totalCount hitems =>
    cases op with
    | modelResetRange id startIndex' items totalCount' =>
      simp only [encodeOperation, WireOperation.modelResetRange.injEq] at hencoded
      obtain ⟨rfl, rfl, rfl, rfl⟩ := hencoded
      rw [decodeOperation, decodeItems_reordered hitems]
      rfl
    | _ => simp [encodeOperation] at hencoded

theorem decodeOperations_reordered {ops : List Operation} {wire : List WireOperation}
    (h : List.Forall₂ Reordered (ops.map encodeOperation) wire) :
    decodeOperations wire = .ok (ops.map wireImage) := by
  induction ops generalizing wire with
  | nil =>
    obtain rfl := List.forall₂_nil_left_iff.mp h
    rfl
  | cons op rest ih =>
    obtain ⟨first, tail, hfirst, htail, rfl⟩ := List.forall₂_cons_left_iff.mp h
    rw [decodeOperations, decodeOperation_reordered hfirst, ih htail, List.map_cons]

theorem decodeTransaction_reordered {txn : Transaction} {wire : WireTransaction}
    (h : TransactionReordered (encodeTransaction txn) wire) :
    decodeTransaction wire = .ok (imageTransaction txn) := by
  have hbase : wire.baseRevision = txn.baseRevision := h.baseRevision
  have hnew : wire.newRevision = txn.newRevision := h.newRevision
  have hpriority : wire.priority = txn.priority := h.priority
  rw [decodeTransaction, decodeOperations_reordered h.operations, hbase, hnew, hpriority]
  rfl

theorem decoded_imageTransaction {wire : WireTransaction} {txn : Transaction}
    (h : decodeTransaction wire = .ok txn) : imageTransaction txn = txn := by
  have hstable := decodeTransaction_stable h
  rw [decodeTransaction_encodeTransaction] at hstable
  exact Except.ok.inj hstable

/-- What was decoded is what its encoding decodes to, whatever order the properties of
its items are encoded in; a value is what its encoding decodes to. -/
theorem wire_reencoding_stable :
    (∀ wire op, decodeOperation wire = .ok op →
      ∀ wire', Reordered (encodeOperation op) wire' → decodeOperation wire' = .ok op) ∧
    (∀ wire txn, decodeTransaction wire = .ok txn →
      ∀ wire', TransactionReordered (encodeTransaction txn) wire' →
        decodeTransaction wire' = .ok txn) ∧
    (∀ wire item, decodeItem wire = .ok item →
      ∀ wire', ItemReordered (encodeItem item) wire' → decodeItem wire' = .ok item) ∧
    (∀ wire property, decodeProperty wire = .ok property →
      decodeProperty (encodeProperty property) = .ok property) ∧
    (∀ wire value, decodeValue wire = .ok value → decodeValue (encodeValue value) = .ok value) ∧
    ∀ value, decodeValue (encodeValue value) = .ok value := by
  refine ⟨?_, ?_, ?_, ?_, ?_, decodeValue_encodeValue⟩
  · intro wire op h wire' hencoded
    rw [decodeOperation_reordered hencoded, wireImage_of_decoded h]
  · intro wire txn h wire' hencoded
    rw [decodeTransaction_reordered hencoded, decoded_imageTransaction h]
  · intro wire item _ wire' hencoded
    exact decodeItem_reordered hencoded
  · intro wire property _
    exact decodeProperty_encodeProperty property
  · intro wire value _
    exact decodeValue_encodeValue value

end Srui.SemanticTree.WireStability

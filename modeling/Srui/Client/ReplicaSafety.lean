import Srui.Client.ReplicaForests
import Srui.Client.TransactionDecoders

/-!
Exactly when wire data makes the client's replica trap.

Transactions are decoded from any messages, applied to the replica or rebuilt beside it as
snapshots, and published, in any order. The condition on a message is about the store each of
its operations meets: what an insertion, a deletion or a range reset moves, counts and ends at
fits the machine type the source computes it in.
-/

namespace Srui.Client.ReplicaSafety

open Std Basic.Machine Basic.FiniteMaps Basic.Runs SemanticTree.Values
open SemanticTree.Limits (StoreLimits)
open SemanticTree.Models (Model ModelItem)
open SemanticTree.Stores (SemanticStore)
open SemanticTree.NodeForest (StoreForest storeForest_empty)
open SemanticTree.Wire Client.ReplicaModels Client.ReplicaStores Client.TransactionAppliers
open Client.TransactionDecoders Client.ModelTraps Client.ReplicaForests

/-! ### Operations -/

/-- The positions and counts of a decoded operation are `UInt64`s. -/
def Typed : StoreOperation → Prop
  | .createModel _ _ itemCount => itemCount ≤ u64Max
  | .modelInsert _ index _ => index ≤ u64Max
  | .modelDelete _ index count _ => index.getD 0 ≤ u64Max ∧ count.getD 0 ≤ u64Max
  | .modelUpdate _ index _ => index.getD 0 ≤ u64Max
  | .modelResetRange _ startIndex _ totalCount =>
    startIndex ≤ u64Max ∧ totalCount.getD 0 ≤ u64Max
  | _ => True

def OpFits (store : SemanticStore) : StoreOperation → Prop
  | .modelInsert id index items =>
    checkItems store.limits items = .ok () → ∀ model ∈ store.models[id]?,
      model.items.size + items.length ≤ store.limits.maxCachedItemsPerModel →
        InsertFits model index items
  | .modelDelete id index count itemIds =>
    checkItemCount store.limits itemIds.length = .ok () → ∀ model ∈ store.models[id]?,
      DeleteFits model index count itemIds
  | .modelResetRange id startIndex items totalCount =>
    checkItems store.limits items = .ok () → ∀ model ∈ store.models[id]?,
      ResetFits store.limits model startIndex items totalCount
  | _ => True

instance (store : SemanticStore) : DecidablePred (OpFits store)
  | .createNode .. => isTrue trivial
  | .deleteNode .. => isTrue trivial
  | .setProperty .. => isTrue trivial
  | .clearProperty .. => isTrue trivial
  | .moveNode .. => isTrue trivial
  | .reorderChildren .. => isTrue trivial
  | .batchPropertySet .. => isTrue trivial
  | .createModel .. => isTrue trivial
  | .modelInsert .. => inferInstanceAs (Decidable (_ → ∀ model ∈ _, _ → _))
  | .modelDelete .. => inferInstanceAs (Decidable (_ → ∀ model ∈ _, _))
  | .modelUpdate .. => isTrue trivial
  | .modelResetRange .. => inferInstanceAs (Decidable (_ → ∀ model ∈ _, _))

/-- A forest of nodes, and models whose positions are `UInt64`s. -/
structure Sound (store : SemanticStore) : Prop where
  forest : StoreForest store
  models : ∀ (id : ModelId) (m : Model), store.models[id]? = some m → Addressed m

variable {s s' : SemanticStore}

theorem sound_empty (limits : StoreLimits) (revision : Revision) :
    Sound (.withLimitsAndRevision limits revision) where
  forest := storeForest_empty limits revision
  models := by
    intro id m hm
    simp [SemanticStore.withLimitsAndRevision] at hm

theorem Sound.of_same (h : Sound s) (hnodes : s'.nodes = s.nodes) (hroots : s'.roots = s.roots)
    (hused : s'.usedIds = s.usedIds) (hlimits : s'.limits = s.limits)
    (hmodels : s'.models = s.models) : Sound s' where
  forest := h.forest.of_sameNodes hnodes hroots hused hlimits
  models := by
    intro id m hm
    exact h.models id m (hmodels ▸ hm)

theorem Sound.putModel (h : Sound s) (id : ModelId) {m : Model} (hm : Addressed m)
    (usedModelIds : Finset ModelId) :
    Sound { s with models := s.models.insert id m, usedModelIds := usedModelIds } where
  forest := h.forest.of_sameNodes rfl rfl rfl rfl
  models := by
    intro id' m' hlookup
    change (s.models.insert id m)[id']? = some m' at hlookup
    rw [getElem?_put] at hlookup
    split at hlookup
    · exact Option.some.inj hlookup ▸ hm
    · exact h.models id' m' hlookup

/-- What an operation is proved to do: it ends exactly when it fits, and keeps the store sound. -/
structure Safe (s : SemanticStore) (fits : Prop) (result : Outcome StoreError SemanticStore) :
    Prop where
  ends : Ends result ↔ fits
  sound : ∀ s', result = .ok s' → Sound s'
  limits : ∀ s', result = .ok s' → s'.limits = s.limits

theorem safe_err {fits : Prop} (e : StoreError) (hfits : fits) : Safe s fits (err e) :=
  ⟨iff_of_true (ends_err e) hfits, nofun, nofun⟩

theorem Safe.after_checks {fits : Prop} {result : Outcome StoreError SemanticStore}
    (h : Safe s fits result) :
    Safe s ((.ok () : Except StoreError Unit) = .ok () → fits) result where
  ends := h.ends.trans ⟨fun hfits _ => hfits, fun hfits => hfits rfl⟩
  sound := h.sound
  limits := h.limits

section

variable (h : Sound s)

include h

theorem Sound.safe_of_keeps {result : Outcome StoreError SemanticStore} (hkeeps : Keeps s result) :
    Safe s True result where
  ends := iff_of_true hkeeps.ends trivial
  sound := by
    intro s' hok
    refine ⟨hkeeps.forest s' hok, ?_⟩
    intro id m hm
    exact h.models id m (hkeeps.models s' hok ▸ hm)
  limits := hkeeps.limits

theorem withModel_safe (id : ModelId) {f : Model → Outcome StoreError Model} {fits : Model → Prop}
    (hends : ∀ m, Addressed m → (Ends (f m) ↔ fits m))
    (haddressed : ∀ m m', Addressed m → f m = .ok m' → Addressed m') :
    Safe s (∀ m ∈ s.models[id]?, fits m) (withModel s id f) := by
  rw [withModel]
  rcases hmodel : s.models[id]? with - | model
  · exact safe_err _ (by simp)
  have hbefore := h.models id model hmodel
  have hfits : (∀ m ∈ some model, fits m) ↔ Ends (f model) := by
    rw [hends model hbefore]
    constructor
    · intro hall
      exact hall model rfl
    · rintro hm _ ⟨⟩
      exact hm
  dsimp only
  rw [hfits]
  rcases hresult : f model with fault | changed
  · exact ⟨ends_error_iff fault, by simp, by simp⟩
  · refine ⟨iff_of_true trivial trivial, ?_, ?_⟩
    · rintro _ ⟨⟩
      exact h.putModel id (haddressed model changed hbefore hresult) s.usedModelIds
    · rintro _ ⟨⟩
      rfl

theorem createModel_safe (id : ModelId) (modelType : TypeRef) {itemCount : Nat}
    (hcount : itemCount ≤ u64Max) : Safe s True (createModel s id modelType itemCount) := by
  rw [createModel]
  split
  · exact safe_err _ trivial
  split
  · exact safe_err _ trivial
  refine ⟨iff_of_true trivial trivial, ?_, ?_⟩
  · rintro _ ⟨⟩
    exact h.putModel id (addressed_new id modelType hcount) (insert id s.usedModelIds)
  · rintro _ ⟨⟩
    rfl

theorem modelInsert_safe (id : ModelId) (index : Nat) (items : List ModelItem) :
    Safe s (OpFits s (.modelInsert id index items)) (modelInsert s id index items) := by
  rw [modelInsert, OpFits]
  rcases checkItems s.limits items with e | ⟨⟩
  · exact safe_err e (by simp)
  have hmodel : Safe s (∀ model ∈ s.models[id]?,
      model.items.size + items.length ≤ s.limits.maxCachedItemsPerModel →
        InsertFits model index items) (withModel s id fun model =>
      if s.limits.maxCachedItemsPerModel < model.items.size + items.length then
        err (.maxCachedItemsPerModelExceeded s.limits.maxCachedItemsPerModel
          model.items.size (model.items.size + items.length))
      else insertItems model index items) := by
    apply withModel_safe h id
    · intro m hm
      split
      · rename_i hfull
        exact iff_of_true (ends_err _) fun hroom => absurd hfull (Nat.not_lt.mpr hroom)
      · rename_i hroom
        rw [insertItems_ends_iff hm]
        exact ⟨fun hfits _ => hfits, fun hfits => hfits (Nat.le_of_not_lt hroom)⟩
    · intro m m' hm hok
      split at hok
      · cases hok
      · exact insertItems_addressed hm hok
  exact hmodel.after_checks

theorem modelDelete_safe (id : ModelId) (index count : Option Nat) (itemIds : List ItemId) :
    Safe s (OpFits s (.modelDelete id index count itemIds))
      (modelDelete s id index count itemIds) := by
  rw [modelDelete, OpFits]
  rcases checkItemCount s.limits itemIds.length with e | ⟨⟩
  · exact safe_err e (by simp)
  have hmodel := withModel_safe h id (fun m hm => deleteItems_ends_iff hm index count itemIds)
    fun m m' hm hok => deleteItems_addressed hm hok
  exact hmodel.after_checks

theorem modelUpdate_safe (id : ModelId) {index : Option Nat} (hindex : index.getD 0 ≤ u64Max)
    (items : List ModelItem) :
    Safe s True (modelUpdate s id index items) := by
  rw [modelUpdate]
  rcases checkItems s.limits items with e | ⟨⟩
  · exact safe_err e trivial
  have hmodel : Safe s (∀ m ∈ s.models[id]?, True)
      (withModel s id fun model => updateItems model index items) := by
    apply withModel_safe h id
    · exact fun m hm => iff_of_true (updateItems_ends hm hindex items) trivial
    · exact fun m m' hm hok => updateItems_addressed hm hok
  exact ⟨hmodel.ends.trans (iff_of_true (fun _ _ => trivial) trivial), hmodel.sound,
    hmodel.limits⟩

theorem modelResetRange_safe (id : ModelId) {startIndex : Nat} (hstart : startIndex ≤ u64Max)
    (items : List ModelItem) {totalCount : Option Nat} (htotal : totalCount.getD 0 ≤ u64Max) :
    Safe s (OpFits s (.modelResetRange id startIndex items totalCount))
      (modelResetRange s id startIndex items totalCount) := by
  rw [modelResetRange, OpFits]
  rcases checkItems s.limits items with e | ⟨⟩
  · exact safe_err e (by simp)
  have hmodel := withModel_safe h id
    (fun m hm => replaceRange_ends_iff hm s.limits hstart items totalCount)
    fun m m' hm hok => replaceRange_addressed hm hstart htotal hok
  exact hmodel.after_checks

theorem applyTo_safe {op : StoreOperation} (htyped : Typed op) :
    Safe s (OpFits s op) (applyTo s op) := by
  cases op with
  | createNode id nodeType parentID childIndex properties =>
    exact h.safe_of_keeps (createNode_keeps h.forest id nodeType parentID childIndex properties)
  | deleteNode id => exact h.safe_of_keeps (deleteNode_keeps h.forest id)
  | setProperty id property value =>
    exact h.safe_of_keeps (setProperty_keeps h.forest id property value)
  | clearProperty id property => exact h.safe_of_keeps (clearProperty_keeps h.forest id property)
  | moveNode id newParentID newChildIndex =>
    exact h.safe_of_keeps (moveNode_keeps h.forest id newParentID newChildIndex)
  | reorderChildren parentID newOrder =>
    exact h.safe_of_keeps (reorderChildren_keeps h.forest parentID newOrder)
  | batchPropertySet id properties =>
    exact h.safe_of_keeps (batchPropertySet_keeps h.forest id properties)
  | createModel id modelType itemCount => exact createModel_safe h id modelType htyped
  | modelInsert id index items => exact modelInsert_safe h id index items
  | modelDelete id index count itemIds => exact modelDelete_safe h id index count itemIds
  | modelUpdate id index items => exact modelUpdate_safe h id htyped items
  | modelResetRange id startIndex items totalCount =>
    exact modelResetRange_safe h id htyped.1 items htyped.2

end

/-! ### Transactions -/

def StagesFit (staged : SemanticStore) : List StoreOperation → Prop
  | [] => True
  | op :: rest =>
    OpFits staged op ∧
      match applyTo staged op with
      | .error _ => True
      | .ok staged => StagesFit staged rest

instance decidableStagesFit : (staged : SemanticStore) → DecidablePred (StagesFit staged)
  | _, [] => isTrue trivial
  | staged, op :: rest => by
    rw [StagesFit]
    cases applyTo staged op with
    | error fault => exact inferInstanceAs (Decidable (OpFits staged op ∧ True))
    | ok staged' =>
      have := decidableStagesFit staged' rest
      exact inferInstanceAs (Decidable (OpFits staged op ∧ StagesFit staged' rest))

variable {operations : List StoreOperation}

theorem stage_safe (h : Sound s)
    (htyped : ∀ op ∈ operations, Typed op) (idx : Nat) :
    (Ends (stage s idx operations) ↔ StagesFit s operations) ∧
      ∀ s', stage s idx operations = .ok s' → Sound s' ∧ s'.limits = s.limits := by
  induction operations generalizing s idx with
  | nil =>
    refine ⟨iff_of_true trivial trivial, ?_⟩
    rintro _ ⟨⟩
    exact ⟨h, rfl⟩
  | cons op rest ih =>
    have hop := applyTo_safe h (htyped op (by simp))
    rw [stage, StagesFit, ← hop.ends]
    rcases hresult : applyTo s op with fault | next
    · refine ⟨?_, nofun⟩
      rcases fault with e | - | -
      · exact iff_of_true trivial ⟨trivial, trivial⟩
      · exact iff_of_false id And.left
      · exact iff_of_false id And.left
    · have hlimits := hop.limits next hresult
      obtain ⟨hends, hkept⟩ := ih (hop.sound next hresult)
        (fun op hmem => htyped op (List.mem_cons_of_mem _ hmem)) (idx + 1)
      refine ⟨hends.trans (and_iff_right (ends_ok next)).symm, ?_⟩
      intro s' hok
      obtain ⟨hsound, hsame⟩ := hkept s' hok
      exact ⟨hsound, hsame.trans hlimits⟩

theorem commitStaging_sound {store staged : SemanticStore} (h : Sound staged)
    (hlimits : staged.limits = store.limits) (newRevision : Revision) :
    Sound (commitStaging store staged newRevision) :=
  h.of_same rfl rfl rfl hlimits.symm rfl

variable {applier : TransactionApplier}

theorem applyStaged_safe (h : Sound applier.store) (htyped : ∀ op ∈ operations, Typed op)
    (newRevision : Revision) :
    (Ends (applyStaged applier operations newRevision).2 ↔
        (operations.length ≤ applier.store.limits.maxTransactionOperations →
          StagesFit applier.store operations)) ∧
      Sound (applyStaged applier operations newRevision).1.store := by
  rw [applyStaged]
  split
  · rename_i hcount
    exact ⟨iff_of_true trivial fun hle => absurd hcount (Nat.not_lt.mpr hle), h⟩
  rename_i hcount
  obtain ⟨hends, hkept⟩ := stage_safe h htyped 0
  have hfits : (operations.length ≤ applier.store.limits.maxTransactionOperations →
      StagesFit applier.store operations) ↔ Ends (stage applier.store 0 operations) :=
    ⟨fun hall => hends.mpr (hall (Nat.le_of_not_lt hcount)), fun hall _ => hends.mp hall⟩
  rw [hfits]
  rcases hresult : stage applier.store 0 operations with fault | staged
  · exact ⟨ends_error_iff fault, h⟩
  · obtain ⟨hsound, hlimits⟩ := hkept staged hresult
    exact ⟨iff_of_true trivial trivial, commitStaging_sound hsound hlimits newRevision⟩

variable {record : Transaction}

theorem applyValidated_safe (h : Sound applier.store)
    (htyped : ∀ op ∈ record.operations, Typed op) :
    (Ends (applyValidated applier record).2 ↔
        (record.baseRevision = applier.store.revision →
          record.operations.length ≤ applier.store.limits.maxTransactionOperations →
            StagesFit applier.store record.operations)) ∧
      Sound (applyValidated applier record).1.store := by
  rw [applyValidated]
  split
  · rename_i hbase
    exact ⟨iff_of_true trivial fun hsame => absurd hsame hbase, h⟩
  rename_i hbase
  obtain ⟨hends, hsound⟩ := applyStaged_safe h htyped record.newRevision
  have hfits : (record.baseRevision = applier.store.revision →
      record.operations.length ≤ applier.store.limits.maxTransactionOperations →
        StagesFit applier.store record.operations) ↔
      Ends (applyStaged applier record.operations record.newRevision).2 :=
    ⟨fun hall => hends.mpr (hall (not_not.mp hbase)), fun hall _ => hends.mp hall⟩
  rw [hfits]
  rcases hresult : applyStaged applier record.operations record.newRevision with
    ⟨after, fault | revision⟩
  · rw [hresult] at hsound
    exact ⟨ends_error_iff fault, hsound⟩
  · rw [hresult] at hsound
    exact ⟨iff_of_true trivial trivial, hsound⟩

/-- The form of a frame of the live stream. -/
def Deliverable (record : Transaction) : Prop :=
  ∃ expected ∈ checkedNext record.baseRevision, record.newRevision = expected ∨
    (expected < record.newRevision ∧ isCoalesceable record = true)

instance : DecidablePred Deliverable :=
  fun _ => inferInstanceAs (Decidable (∃ expected ∈ _, _ ∨ (_ ∧ _)))

/-- What a delivered record asks of the replica, when it gets as far as its operations. -/
def DeliveredFits (applier : TransactionApplier) (record : Transaction) : Prop :=
  Deliverable record → record.baseRevision = applier.store.revision →
    record.operations.length ≤ applier.store.limits.maxTransactionOperations →
      StagesFit applier.store record.operations

instance (applier : TransactionApplier) (record : Transaction) :
    Decidable (DeliveredFits applier record) :=
  inferInstanceAs (Decidable (_ → _ → _ → _))

theorem applyDelivered_safe (h : Sound applier.store)
    (htyped : ∀ op ∈ record.operations, Typed op) :
    (Ends (applyDelivered applier record).2 ↔ DeliveredFits applier record) ∧
      Sound (applyDelivered applier record).1.store := by
  rw [applyDelivered, DeliveredFits, Deliverable]
  rcases hnext : checkedNext record.baseRevision with - | expected
  · refine ⟨iff_of_true trivial ?_, h⟩
    rintro ⟨expected, hmem, -⟩
    cases hmem
  have hdeliverable : (∃ next ∈ some expected, record.newRevision = next ∨
      (next < record.newRevision ∧ isCoalesceable record = true)) ↔
      (record.newRevision = expected ∨
        (expected < record.newRevision ∧ isCoalesceable record = true)) := by
    constructor
    · rintro ⟨_, ⟨⟩, hform⟩
      exact hform
    · exact fun hform => ⟨expected, rfl, hform⟩
  dsimp only
  rw [hdeliverable]
  split
  · rename_i hform
    obtain ⟨hends, hsound⟩ := applyValidated_safe h htyped
    exact ⟨hends.trans ⟨fun hall _ => hall, fun hall => hall hform⟩, hsound⟩
  · rename_i hform
    exact ⟨iff_of_true trivial fun hform' => absurd hform' hform, h⟩

/-- A snapshot that `prepareResyncSnapshot` stages, on an empty store. -/
def RebuildFits (limits : StoreLimits) (lastAppliedRevision : Revision) (record : Transaction) :
    Prop :=
  record.baseRevision = 0 → lastAppliedRevision ≤ record.newRevision →
    record.operations.length ≤ limits.maxTransactionOperations →
      StagesFit (.withLimitsAndRevision limits 0) record.operations

instance (limits : StoreLimits) (lastAppliedRevision : Revision) (record : Transaction) :
    Decidable (RebuildFits limits lastAppliedRevision record) :=
  inferInstanceAs (Decidable (_ → _ → _ → _))

theorem rebuild_safe (limits : StoreLimits) (lastAppliedRevision : Revision)
    (htyped : ∀ op ∈ record.operations, Typed op) :
    (Ends (rebuild limits lastAppliedRevision record) ↔
        RebuildFits limits lastAppliedRevision record) ∧
      ∀ prepared, rebuild limits lastAppliedRevision record = .ok prepared →
        Sound prepared.store := by
  rw [rebuild, RebuildFits]
  split
  · rename_i hbase
    exact ⟨iff_of_true trivial fun hzero => absurd hzero hbase, by simp⟩
  rename_i hbase
  split
  · rename_i hlower
    exact ⟨iff_of_true trivial fun _ hle => absurd hlower (Nat.not_lt.mpr hle), by simp⟩
  rename_i hlower
  split
  · rename_i hcount
    exact ⟨iff_of_true trivial fun _ _ hle => absurd hcount (Nat.not_lt.mpr hle), by simp⟩
  rename_i hcount
  obtain ⟨hends, hkept⟩ := stage_safe (sound_empty limits 0) htyped 0
  have hfits : (record.baseRevision = 0 → lastAppliedRevision ≤ record.newRevision →
      record.operations.length ≤ limits.maxTransactionOperations →
        StagesFit (.withLimitsAndRevision limits 0) record.operations) ↔
      Ends (stage (.withLimitsAndRevision limits 0) 0 record.operations) := by
    constructor
    · intro hall
      exact hends.mpr (hall (not_not.mp hbase) (Nat.le_of_not_lt hlower)
        (Nat.le_of_not_lt hcount))
    · exact fun hall _ _ _ => hends.mp hall
  rw [hfits]
  rcases hresult : stage (.withLimitsAndRevision limits 0) 0 record.operations with fault | staged
  · exact ⟨ends_error_iff fault, by simp⟩
  · refine ⟨iff_of_true trivial trivial, ?_⟩
    rintro _ ⟨⟩
    obtain ⟨hsound, hlimits⟩ := hkept staged hresult
    exact commitStaging_sound hsound hlimits record.newRevision

/-! ### Wire messages -/

/-- The `uint64` fields of an operation's message hold what their type can. -/
def WireTyped : WireOperation → Prop
  | .createModel _ _ itemCount => itemCount ≤ u64Max
  | .modelInsert _ index _ => index ≤ u64Max
  | .modelDelete _ index count _ => index ≤ u64Max ∧ count ≤ u64Max
  | .modelUpdate _ index _ => index ≤ u64Max
  | .modelResetRange _ startIndex _ totalCount => startIndex ≤ u64Max ∧ totalCount ≤ u64Max
  | _ => True

theorem convertCount_le {count : Nat} (h : count ≤ u64Max) :
    (convertCount count).getD 0 ≤ u64Max := by
  rw [convertCount]
  split
  · exact h
  · exact Nat.zero_le _

variable {limits : StoreLimits}

theorem validateAndConvertOperation_typed {wire : WireOperation}
    {op : StoreOperation} (hwire : WireTyped wire)
    (hok : validateAndConvertOperation limits wire = .ok op) : Typed op := by
  cases wire with
  | createModel modelID modelType itemCount =>
    cases modelType with
    | none => cases hok
    | some modelType =>
      cases hok
      exact hwire
  | modelInsert modelID index items =>
    rw [validateAndConvertOperation] at hok
    split at hok
    · cases hok
    · cases hok
      exact hwire
  | modelDelete modelID index count itemIDs =>
    rw [validateAndConvertOperation] at hok
    split at hok
    · cases hok
    · cases hok
      refine ⟨?_, convertCount_le hwire.2⟩
      rcases convertCount count with - | -
      · exact Nat.zero_le _
      · exact hwire.1
  | modelUpdate modelID index items =>
    rw [validateAndConvertOperation] at hok
    split at hok
    · cases hok
    · cases hok
      change (if index = u64Max then none else some index).getD 0 ≤ u64Max
      split
      · exact Nat.zero_le _
      · exact hwire
  | modelResetRange modelID startIndex items totalCount =>
    rw [validateAndConvertOperation] at hok
    split at hok
    · cases hok
    · cases hok
      exact ⟨hwire.1, convertCount_le hwire.2⟩
  | createNode node =>
    rcases node with - | node
    · cases hok
    · rw [validateAndConvertOperation] at hok
      split at hok
      · cases hok
      split at hok
      · cases hok
      · cases hok
        trivial
  | setProperty nodeID property value =>
    rcases property with - | property
    · cases hok
    · rw [validateAndConvertOperation] at hok
      split at hok
      · cases hok
      · cases hok
        trivial
  | clearProperty nodeID property =>
    rcases property with - | property
    · cases hok
    · cases hok
      trivial
  | batchPropertySet nodeID properties =>
    rw [validateAndConvertOperation] at hok
    split at hok
    · cases hok
    · cases hok
      trivial
  | unset => cases hok
  | commit => cases hok
  | deleteNode | moveNode | reorderChildren =>
    cases hok
    trivial

theorem convertOperations_typed {wire : List WireOperation} (hwire : ∀ op ∈ wire, WireTyped op)
    (hok : convertOperations limits wire = .ok operations) : ∀ op ∈ operations, Typed op := by
  induction wire generalizing operations with
  | nil =>
    cases hok
    nofun
  | cons op rest ih =>
    rw [convertOperations] at hok
    split at hok
    · cases hok
    rename_i converted hop
    split at hok
    · cases hok
    rename_i others hrest
    cases hok
    intro typed hmem
    rcases List.mem_cons.mp hmem with rfl | hmem
    · exact validateAndConvertOperation_typed (hwire op (by simp)) hop
    · exact ih (fun op hmem => hwire op (List.mem_cons_of_mem _ hmem)) hrest typed hmem

theorem validateAndConvertTransaction_typed {wire : WireTransaction}
    (hwire : ∀ op ∈ wire.operations, WireTyped op)
    (hok : validateAndConvertTransaction limits wire = .ok record) :
    ∀ op ∈ record.operations, Typed op := by
  rw [validateAndConvertTransaction] at hok
  split at hok
  · cases hok
  split at hok
  · cases hok
  · rename_i operations hoperations
    cases hok
    exact convertOperations_typed hwire hoperations

/-! ### Runs -/

/-- What reaches the replica from the wire, and the steps its callers take on what was
decoded: a snapshot is read for, rebuilt at its caller's leisure, and published. -/
inductive Message where
  | delivered (wire : WireTransaction)
  | snapshot (wire : WireTransaction)
  | rebuild (place : Nat)
  | publish (place : Nat)

/-- The messages' fields hold what their types can. -/
def MessageTyped : Message → Prop
  | .delivered wire => ∀ op ∈ wire.operations, WireTyped op
  | .snapshot wire => ∀ op ∈ wire.operations, WireTyped op
  | .rebuild _ => True
  | .publish _ => True

def decoded (decoder : StoreLimits) : Message → Option Input
  | .delivered wire =>
    (validateAndConvertTransaction decoder wire).toOption.map .applyDelivered
  | .snapshot wire =>
    (validateAndConvertTransaction decoder wire).toOption.map .readForSnapshot
  | .rebuild place => some (.rebuildSnapshot place)
  | .publish place => some (.publishResyncSnapshot place)

def receive (decoder : StoreLimits) (s : System) (message : Message) :
    System × Outcome TxnError Reply :=
  match decoded decoder message with
  | none => (s, .ok .none)
  | some input => perform s input

def afterMessage (decoder : StoreLimits) (s : System) (message : Message) : System :=
  (receive decoder s message).1

def InputFits (s : System) : Input → Prop
  | .applyDelivered record => DeliveredFits s.applier record
  | .rebuildSnapshot place => ∀ call ∈ s.rebuilding[place]?,
      RebuildFits call.limits call.lastAppliedRevision call.record
  | _ => True

instance (s : System) : DecidablePred (InputFits s)
  | .apply .. => isTrue trivial
  | .applyCommitted _ => isTrue trivial
  | .applyDelivered record => inferInstanceAs (Decidable (DeliveredFits s.applier record))
  | .readForSnapshot _ => isTrue trivial
  | .rebuildSnapshot _ => inferInstanceAs (Decidable (∀ call ∈ _, _))
  | .publishResyncSnapshot _ => isTrue trivial

def MessageFits (decoder : StoreLimits) (s : System) (message : Message) : Prop :=
  ∀ input ∈ decoded decoder message, InputFits s input

instance (decoder : StoreLimits) (s : System) (message : Message) :
    Decidable (MessageFits decoder s message) :=
  inferInstanceAs (Decidable (∀ input ∈ _, InputFits s input))

structure SoundSystem (s : System) : Prop where
  applier : Sound s.applier.store
  rebuilding : ∀ call ∈ s.rebuilding, ∀ op ∈ call.record.operations, Typed op
  prepared : ∀ prepared ∈ s.prepared, Sound prepared.store

theorem soundSystem_opened (limits : StoreLimits) (revision : Revision) :
    SoundSystem (opened (.withLimitsAndRevision limits revision)) :=
  ⟨sound_empty limits revision, nofun, nofun⟩

theorem ends_map_iff {ε α β : Type} (f : α → β) (result : Outcome ε α) :
    Ends (result.map f) ↔ Ends result := by
  rcases result with fault | a
  · exact ends_error_iff fault
  · exact iff_of_true trivial trivial

def InputTyped : Input → Prop
  | .applyDelivered record => ∀ op ∈ record.operations, Typed op
  | .readForSnapshot record => ∀ op ∈ record.operations, Typed op
  | .rebuildSnapshot _ => True
  | .publishResyncSnapshot _ => True
  | .apply .. => False
  | .applyCommitted _ => False

theorem decoded_typed {decoder : StoreLimits} {message : Message} (h : MessageTyped message)
    {input : Input} (hinput : input ∈ decoded decoder message) : InputTyped input := by
  have hrecord : ∀ {wire : WireTransaction}, (∀ op ∈ wire.operations, WireTyped op) →
      ∀ record ∈ (validateAndConvertTransaction decoder wire).toOption,
        ∀ op ∈ record.operations, Typed op := by
    intro wire hwire record hmem
    rcases hok : validateAndConvertTransaction decoder wire with e | converted
    · rw [hok] at hmem
      cases hmem
    · rw [hok] at hmem
      cases hmem
      exact validateAndConvertTransaction_typed hwire hok
  cases message with
  | delivered wire | snapshot wire =>
    obtain ⟨record, hmem, rfl⟩ := Option.map_eq_some_iff.mp hinput
    exact hrecord h record hmem
  | rebuild place | publish place =>
    cases hinput
    trivial

theorem perform_safe {s : System} (h : SoundSystem s) {input : Input}
    (htyped : InputTyped input) :
    (Ends (perform s input).2 ↔ InputFits s input) ∧ SoundSystem (perform s input).1 := by
  cases input with
  | apply baseRevision operations => exact htyped.elim
  | applyCommitted record => exact htyped.elim
  | applyDelivered record =>
    obtain ⟨hends, hsound⟩ := applyDelivered_safe h.applier htyped
    exact ⟨(ends_map_iff _ _).trans hends, hsound, h.rebuilding, h.prepared⟩
  | readForSnapshot record =>
    refine ⟨iff_of_true trivial trivial, h.applier, ?_, h.prepared⟩
    intro call hmem
    rcases List.mem_append.mp hmem with hold | hnew
    · exact h.rebuilding call hold
    · rw [List.mem_singleton.mp hnew]
      exact htyped
  | rebuildSnapshot place =>
    rw [perform, InputFits]
    rcases hcall : s.rebuilding[place]? with - | call
    · exact ⟨iff_of_true trivial (by simp), h⟩
    have hothers : ∀ other ∈ s.rebuilding.eraseIdx place,
        ∀ op ∈ other.record.operations, Typed op := by
      intro other hmem
      exact h.rebuilding other (List.mem_of_mem_eraseIdx hmem)
    obtain ⟨hends, hkept⟩ := rebuild_safe call.limits call.lastAppliedRevision
      (h.rebuilding call (List.mem_of_getElem? hcall))
    have hfits : (∀ other ∈ some call,
        RebuildFits other.limits other.lastAppliedRevision other.record) ↔
        Ends (rebuild call.limits call.lastAppliedRevision call.record) := by
      rw [hends]
      constructor
      · intro hall
        exact hall call rfl
      · rintro hcall _ ⟨⟩
        exact hcall
    dsimp only
    rw [hfits]
    rcases hresult : rebuild call.limits call.lastAppliedRevision call.record with
      fault | prepared
    · exact ⟨ends_error_iff fault, h.applier, hothers, h.prepared⟩
    · refine ⟨iff_of_true trivial trivial, h.applier, hothers, ?_⟩
      intro other hmem
      rcases List.mem_append.mp hmem with hold | hnew
      · exact h.prepared other hold
      · rw [List.mem_singleton.mp hnew]
        exact hkept prepared hresult
  | publishResyncSnapshot place =>
    rw [perform]
    rcases hcall : s.prepared[place]? with - | prepared
    · exact ⟨iff_of_true trivial trivial, h⟩
    dsimp only
    rw [publishResyncSnapshot]
    split
    · exact ⟨iff_of_true trivial trivial, h⟩
    · exact ⟨iff_of_true trivial trivial, h.prepared prepared (List.mem_of_getElem? hcall),
        h.rebuilding, h.prepared⟩

theorem receive_safe {s : System} (h : SoundSystem s) (decoder : StoreLimits) {message : Message}
    (htyped : MessageTyped message) :
    (Ends (receive decoder s message).2 ↔ MessageFits decoder s message) ∧
      SoundSystem (afterMessage decoder s message) := by
  rw [afterMessage, receive, MessageFits]
  rcases hinput : decoded decoder message with - | input
  · exact ⟨iff_of_true trivial nofun, h⟩
  obtain ⟨hends, hsound⟩ := perform_safe h (decoded_typed htyped hinput)
  refine ⟨hends.trans ⟨?_, fun hall => hall input rfl⟩, hsound⟩
  rintro hfits _ ⟨⟩
  exact hfits

theorem everyStep_ends_iff {s : System} (h : SoundSystem s) (decoder : StoreLimits)
    {messages : List Message} (htyped : ∀ message ∈ messages, MessageTyped message) :
    EveryStep (afterMessage decoder) (fun s message => Ends (receive decoder s message).2) s
        messages ↔
      EveryStep (afterMessage decoder) (MessageFits decoder) s messages := by
  induction messages generalizing s with
  | nil => exact Iff.rfl
  | cons message rest ih =>
    obtain ⟨hends, hsound⟩ := receive_safe h decoder (htyped message (by simp))
    have hrest := ih hsound fun other hmem => htyped other (List.mem_cons_of_mem _ hmem)
    exact and_congr hends hrest

/-- From an empty replica on, each transaction that is decoded from the wire ends in success or
in a reported error exactly while every message fits: an accepted insertion leaves the length and
every position it moves a `UInt64`; an accepted range deletion counts an `Int64`; a deletion by
identity does not begin at the greatest position; and the end of a range reset is a `UInt64`. -/
theorem wire_transactions_end_iff (decoder limits : StoreLimits) (revision : Revision)
    (messages : List Message) (htyped : ∀ message ∈ messages, MessageTyped message) :
    EveryStep (afterMessage decoder) (fun s message => Ends (receive decoder s message).2)
        (opened (.withLimitsAndRevision limits revision)) messages ↔
      EveryStep (afterMessage decoder) (MessageFits decoder)
        (opened (.withLimitsAndRevision limits revision)) messages :=
  everyStep_ends_iff (soundSystem_opened limits revision) decoder htyped

/-- A model grown to the greatest length, a range that ends there, and the longest range deletion
that is carried out. -/
def greatestModel : List Message :=
  [.delivered ⟨0, 1, [.createModel 1 (some ⟨0, 1⟩) 18446744073709551614,
      .modelInsert 1 0 [⟨10, none, []⟩]], 0⟩,
    .delivered ⟨1, 2, [.modelResetRange 1 18446744073709551614 [⟨11, none, []⟩] 0], 0⟩,
    .delivered ⟨2, 3, [.modelDelete 1 1 9223372036854775807 []], 0⟩]

theorem greatestModel_ends :
    EveryStep (afterMessage StoreLimits.default)
      (fun s message => Ends (receive StoreLimits.default s message).2)
      (opened (.withLimitsAndRevision StoreLimits.default 0)) greatestModel := by
  refine (wire_transactions_end_iff StoreLimits.default StoreLimits.default 0 greatestModel ?_).mpr
    (by decide +kernel)
  simp [greatestModel, MessageTyped, WireTyped, u64Max]

def overfullModel : List Message :=
  [.delivered ⟨0, 1, [.createModel 1 (some ⟨0, 1⟩) 18446744073709551615], 0⟩,
    .delivered ⟨1, 2, [.modelInsert 1 0 [⟨10, none, []⟩]], 0⟩]

theorem overfullModel_traps :
    ¬∀ messages : List Message, (∀ message ∈ messages, MessageTyped message) →
      EveryStep (afterMessage StoreLimits.default)
        (fun s message => Ends (receive StoreLimits.default s message).2)
        (opened (.withLimitsAndRevision StoreLimits.default 0)) messages := by
  intro hall
  refine absurd (hall overfullModel ?_) (by decide +kernel)
  simp [overfullModel, MessageTyped, WireTyped, u64Max]

end Srui.Client.ReplicaSafety

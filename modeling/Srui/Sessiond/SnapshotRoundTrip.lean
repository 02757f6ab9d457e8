import Srui.SemanticTree.NodeRuns
import Srui.Sessiond.SnapshotNodes

/-!
An exported snapshot restores the store it was taken from.
-/

namespace Srui.Sessiond.SnapshotRoundTrip

open Std Basic.Machine Basic.FiniteMaps Basic.Runs SemanticTree.Values SemanticTree.Limits
open SemanticTree.Models SemanticTree.Stores SemanticTree.Operations SemanticTree.ModelIndex
open SemanticTree.ModelMutations SemanticTree.OperationEffects SemanticTree.ModelInvariants
open SemanticTree.ModelBounds SemanticTree.NodeWalks SemanticTree.NodeForest SemanticTree.NodeRuns
open SemanticTree.Transactions SemanticTree.Wire Sessiond.Snapshots Sessiond.SnapshotModels
open Sessiond.SnapshotNodes

/-- `ResyncSnapshot::try_from` of a wire transaction. -/
def resyncSnapshot (wire : WireTransaction) : Except TxnError ResyncSnapshot :=
  match decodeTransaction wire with
  | .error e => .error e
  | .ok txn =>
    match hvalid : validateSnapshot txn with
    | .error e => .error e
    | .ok () => .ok ⟨txn, hvalid⟩

/-- The model a `MODEL_REF` value names. -/
def modelNamed : Value → Option ModelId
  | .scalar (.unsignedInt u) => some u
  | .scalar (.signedInt i) => if 0 ≤ i then some i.toNat else none
  | _ => none

def NamesLiveModel (s : SemanticStore) (value : Value) : Prop :=
  ∃ id ∈ modelNamed value, s.models.contains id = true

structure Snapshotable (s : SemanticStore) : Prop where
  forest : StoreForest s
  indexed : ModelsIndexed s
  bounded : ModelsBounded s
  width : ∀ (id : ModelId) (m : Model), s.models[id]? = some m → m.itemCount ≤ u64Max
  noZero : s.nodes[0]? = none
  references : ∀ (x : NodeId) (n : Node) (value : Value), s.nodes[x]? = some n →
    n.properties[PropertyRef.modelRef]? = some value → NamesLiveModel s value
  batch : s.limits.maxItemsPerModelOperation = defaultMaxItemsPerModelOperation
  operations : s.limits.maxTransactionOperations ≤ u32Max

/-- The contents of a store keep to its own limits, and its models are filed under their identities.
-/
structure WithinLimits (s : SemanticStore) : Prop where
  values : ∀ (x : NodeId) (n : Node) (property : PropertyRef) (value : Value),
    s.nodes[x]? = some n → n.properties[property]? = some value →
      validateValue s.limits value = .ok ()
  items : ∀ (id : ModelId) (m : Model), s.models[id]? = some m → ItemsValid s.limits m
  models : s.models.size ≤ s.limits.maxModelCount
  filed : ∀ (id : ModelId) (m : Model), s.models[id]? = some m → m.id = id

/-- Whatever the encoded items measure, an export that succeeds is a valid
snapshot, and it replaces any replica that is not ahead of it by the store. -/
def RoundTrips (original : SemanticStore) : Prop :=
  ∀ (payloadLen : WireModelItem → Nat) (tx : WireTransaction) (replica : SemanticStore),
    exportSnapshotTransaction payloadLen original = .ok tx → replica.limits = original.limits →
    replica.revision ≤ tx.newRevision →
    ∃ snapshot restored, resyncSnapshot tx = .ok snapshot ∧
      replaceFromSnapshot replica snapshot = (restored, .ok tx.newRevision) ∧
      restored.roots = original.roots ∧ restored.nodes = original.nodes ∧
      restored.models = original.models ∧ restored.revision = original.revision

variable {original : SemanticStore}

theorem propertiesValid (h : Snapshotable original) (hlimits : WithinLimits original) :
    PropertiesValid original := by
  intro x n property value hn hvalue
  rw [validateProperty, hlimits.values x n property value hn hvalue]
  simp only [validatePropertyReferences]
  split
  · rename_i href
    subst href
    obtain ⟨id, hnamed, hlive⟩ := h.references x n value hn hvalue
    unfold modelNamed at hnamed
    split at hnamed
    · rw [← Option.some.inj hnamed] at hlive
      simp [hlive]
    · split at hnamed
      · rename_i hsign
        rw [← Option.some.inj hnamed] at hlive
        simp [hsign, hlive]
      · simp at hnamed
    · simp at hnamed
  · rfl

theorem modelsExportable (h : Snapshotable original) (hlimits : WithinLimits original) :
    ModelsExportable original where
  indexed := h.indexed
  bounded := h.bounded
  width := h.width
  valid := hlimits.items
  ids := hlimits.filed
  count := hlimits.models
  operation := Nat.le_of_eq h.batch.symm

theorem grown_holdingModels (original : SemanticStore) :
    Grown original ∅ (holdingModels original.limits original.models.toList) where
  closed := by simp
  live := by simp
  parents := by
    intro x
    rw [if_neg (Finset.notMem_empty x), parentOf_eq, parentIn_eq_none]
    exact ExtTreeMap.getElem?_empty
  containers := by
    intro c
    have hnothing : (containerOf original c).filter (· ∈ (∅ : Finset NodeId)) = [] := by simp
    rw [hnothing]
    cases c with
    | none => rfl
    | some p =>
      have habsent : (∅ : NodeMap)[p]? = none := ExtTreeMap.getElem?_empty
      change childrenIn ∅ p = []
      rw [childrenIn, habsent]
      rfl
  content := by
    intro x n hn
    change (∅ : NodeMap)[x]? = some n at hn
    simp at hn
  used := rfl
  models := insertAll_toList original.models
  limits := rfl

variable {ops : List Operation}

theorem resyncSnapshot_of_base {wire : WireTransaction}
    (hdecode : decodeOperations wire.operations = .ok ops) (hbase : wire.baseRevision = 0) :
    ∃ snapshot, resyncSnapshot wire = .ok snapshot ∧
      snapshot.txn = ⟨wire.baseRevision, wire.newRevision, ops, wire.priority⟩ := by
  have htxn : decodeTransaction wire =
      .ok ⟨wire.baseRevision, wire.newRevision, ops, wire.priority⟩ := by
    rw [decodeTransaction, hdecode]
  have hvalid : validateSnapshot ⟨wire.baseRevision, wire.newRevision, ops, wire.priority⟩ =
      .ok () := by
    rw [validateSnapshot, if_neg (not_not.mpr hbase)]
  refine ⟨⟨_, hvalid⟩, ?_, rfl⟩
  rw [resyncSnapshot, htxn]
  simp only
  split
  · rename_i e he
    rw [hvalid] at he
    simp at he
  · rfl

theorem decodeOperations_length {wire : List WireOperation}
    (h : decodeOperations wire = .ok ops) : ops.length = wire.length := by
  induction wire generalizing ops with
  | nil =>
    rw [decodeOperations, Except.ok.injEq] at h
    rw [← h]
    rfl
  | cons op rest ih =>
    rw [decodeOperations] at h
    cases hop : decodeOperation op with
    | error e => simp [hop] at h
    | ok decoded =>
      cases hrest : decodeOperations rest with
      | error e => simp [hop, hrest] at h
      | ok tail =>
        simp only [hop, hrest, Except.ok.injEq] at h
        rw [← h, List.length_cons, List.length_cons, ih hrest]

theorem rebuilds_replaces (tx : WireTransaction) {restored replica : SemanticStore}
    (h : Rebuilds tx.operations (SemanticStore.withLimitsAndRevision replica.limits 0) restored)
    (hbase : tx.baseRevision = 0)
    (hlength : tx.operations.length ≤ replica.limits.maxTransactionOperations)
    (hrevision : replica.revision ≤ tx.newRevision) :
    ∃ snapshot, resyncSnapshot tx = .ok snapshot ∧ replaceFromSnapshot replica snapshot =
      (commitStaging (SemanticStore.withLimitsAndRevision replica.limits 0) restored tx.newRevision,
        .ok tx.newRevision) := by
  obtain ⟨ops, hdecode, happlies⟩ := h
  obtain ⟨snapshot, hsnapshot, htxn⟩ := resyncSnapshot_of_base hdecode hbase
  refine ⟨snapshot, hsnapshot, ?_⟩
  have hahead : ¬ tx.newRevision < replica.revision := Nat.not_lt.mpr hrevision
  have hfits : ¬ ops.length > replica.limits.maxTransactionOperations := by
    rw [decodeOperations_length hdecode]
    omega
  rw [replaceFromSnapshot, htxn]
  simp only
  rw [if_neg hahead, if_neg hfits, happlies.staged 0]

structure Restorable (s : SemanticStore) : Prop where
  forest : StoreForest s
  valid : PropertiesValid s
  parents : ∀ (x : NodeId) (n : Node), s.nodes[x]? = some n → n.parentId ≠ some 0
  models : ModelsExportable s
  operations : s.limits.maxTransactionOperations ≤ u32Max

theorem export_revision {payloadLen : WireModelItem → Nat} {tx : WireTransaction}
    (hexport : exportSnapshotTransaction payloadLen original = .ok tx) :
    tx.newRevision = original.revision := by
  unfold exportSnapshotTransaction at hexport
  simp only at hexport
  split at hexport
  · simp at hexport
  split at hexport
  · simp [err] at hexport
  · rw [← Except.ok.inj hexport]

theorem export_restores (h : Restorable original) {payloadLen : WireModelItem → Nat}
    {tx : WireTransaction} {replica : SemanticStore}
    (hexport : exportSnapshotTransaction payloadLen original = .ok tx)
    (hsame : replica.limits = original.limits) (hrevision : replica.revision ≤ original.revision) :
    ∃ snapshot staged, resyncSnapshot tx = .ok snapshot ∧
      Rebuilds tx.operations (SemanticStore.withLimitsAndRevision replica.limits 0) staged ∧
      replaceFromSnapshot replica snapshot =
        (commitStaging (SemanticStore.withLimitsAndRevision replica.limits 0) staged
          original.revision, .ok original.revision) ∧
      staged.roots = original.roots ∧ staged.nodes = original.nodes ∧
      staged.models = original.models ∧ staged.usedIds ⊆ keySet original.nodes := by
  have hmodels := exportModels_complete payloadLen h.models
  unfold exportSnapshotTransaction at hexport
  simp only at hexport
  generalize hops : original.models.toList.foldl
    (fun ops entry => exportModel payloadLen ops entry.2) [] = ops at hexport hmodels
  split at hexport
  · simp at hexport
  rename_i written hvisits
  split at hexport
  · simp [err] at hexport
  rename_i hfits
  have htx := Except.ok.inj hexport
  subst htx
  -- every node has its operation, so the operation limit bounds the positions
  have hwidth : original.nodes.size ≤ u32Max := by
    have hcount := roots_count h.forest hvisits
    have hlimit := h.operations
    omega
  have hnodes : NodesExportable original := ⟨h.forest, h.valid, h.parents, hwidth⟩
  obtain ⟨nodeOps, staged, hfold, hrebuilds, heqNodes, heqRoots, heqModels, hused⟩ :=
    visitRoots_rebuild hnodes (grown_holdingModels original) ops
  have hwritten : written = ops ++ nodeOps := Option.some.inj (hvisits.symm.trans hfold)
  have hall := hmodels.append hrebuilds
  rw [← hwritten, ← hsame] at hall
  obtain ⟨snapshot, hsnapshot, hreplaced⟩ := rebuilds_replaces
    ⟨0, original.revision, written, 0⟩ hall rfl (by rw [hsame]; exact Nat.not_lt.mp hfits)
    hrevision
  exact ⟨snapshot, staged, hsnapshot, hall, hreplaced, heqRoots, heqNodes, heqModels, hused⟩

theorem restorable (h : Snapshotable original) (hlimits : WithinLimits original) :
    Restorable original where
  forest := h.forest
  valid := propertiesValid h hlimits
  parents := by
    rintro x n hn hzero
    have hparent : parentOf original x = some (some 0) := by
      rw [parentOf_eq, parentIn_of_node hn, hzero]
    -- node zero is not live, so it has no children
    have hchild := (h.forest.forest.hangs x (some 0)).mpr hparent
    rw [containerOf_child, childrenIn, h.noZero] at hchild
    simp at hchild
  models := modelsExportable h hlimits
  operations := h.operations

/-- The snapshot of a store that keeps to its own limits restores it. -/
theorem snapshot_round_trip (original : SemanticStore) (h : Snapshotable original)
    (hlimits : WithinLimits original) : RoundTrips original := by
  intro payloadLen tx replica hexport hsame hrevision
  rw [export_revision hexport] at hrevision ⊢
  obtain ⟨snapshot, staged, hsnapshot, -, hreplaced, hroots, hnodes, hmodels, -⟩ :=
    export_restores (restorable h hlimits) hexport hsame hrevision
  exact ⟨snapshot, _, hsnapshot, hreplaced, hroots, hnodes, hmodels, rfl⟩

/-!
A store with a history: an outline of three nodes over a model with a hole.
-/

def outlineRun : List Operation :=
  [.createModel 7 ⟨0, 2⟩ 9,
    .modelResetRange 7 1 [⟨10, .null, ∅⟩, ⟨11, .null, ∅⟩] none,
    .modelResetRange 7 5 [⟨12, .null, ∅⟩] none,
    .createNode 1 ⟨0, 1⟩ none none [(PropertyRef.modelRef, .scalar (.unsignedInt 7))],
    .createNode 2 ⟨0, 3⟩ (some 1) none [],
    .createNode 3 ⟨0, 3⟩ (some 1) (some 0) []]

def outline : SemanticStore :=
  run applyStep (SemanticStore.withLimitsAndRevision StoreLimits.default 4) outlineRun

/-- The conditions of a snapshot that a finite check of the entries decides. -/
def EntriesOk (s : SemanticStore) : Prop :=
  ModelsBounded s ∧ (∀ entry ∈ s.models.toList, entry.2.itemCount ≤ u64Max) ∧
  (∀ entry ∈ s.nodes.toList, ∀ value ∈ entry.2.properties[PropertyRef.modelRef]?,
    NamesLiveModel s value) ∧
  s.nodes[0]? = none ∧
  s.limits.maxItemsPerModelOperation = defaultMaxItemsPerModelOperation ∧
  s.limits.maxTransactionOperations ≤ u32Max

instance (s : SemanticStore) (value : Value) : Decidable (NamesLiveModel s value) :=
  inferInstanceAs (Decidable (∃ id ∈ modelNamed value, _))

instance (s : SemanticStore) : Decidable (EntriesOk s) := inferInstanceAs (Decidable (_ ∧ _))

theorem EntriesOk.snapshotable {s : SemanticStore} (h : EntriesOk s) (hforest : StoreForest s)
    (hindexed : ModelsIndexed s) : Snapshotable s where
  forest := hforest
  indexed := hindexed
  bounded := h.1
  width := forall_of_toList h.2.1
  noZero := h.2.2.2.1
  references := fun x n value hn hvalue => h.2.2.1 (x, n) (mem_toList.mpr hn) value hvalue
  batch := h.2.2.2.2.1
  operations := h.2.2.2.2.2

theorem outline_round_trips :
    RoundTrips outline ∧ (exportSnapshotTransaction (fun _ => 0) outline).toBool = true := by
  refine ⟨?_, by decide +kernel⟩
  have hsteps : EveryStep applyStep (fun s op => NoOverflow (apply op s))
      (SemanticStore.withLimitsAndRevision StoreLimits.default 4) outlineRun := by decide +kernel
  have hentries : EntriesOk outline := by decide +kernel
  refine snapshot_round_trip outline
    (hentries.snapshotable (run_storeForest _ _ outlineRun) (run_modelsIndexed hsteps)) ?_
  have hvalues : ∀ entry ∈ outline.nodes.toList, ∀ held ∈ entry.2.properties.toList,
      validateValue outline.limits held.2 = .ok () := by decide +kernel
  have hitems : ∀ entry ∈ outline.models.toList, ∀ cached ∈ entry.2.items.toList,
      validateItem outline.limits cached.2 = .ok () := by decide +kernel
  have hfiled : ∀ entry ∈ outline.models.toList, entry.2.id = entry.1 := by decide +kernel
  exact {
    values := fun x n property value hn hvalue =>
      hvalues (x, n) (mem_toList.mpr hn) (property, value) (mem_toList.mpr hvalue)
    items := forall_of_toList fun entry hentry => forall_of_toList (hitems entry hentry)
    models := by decide +kernel
    filed := forall_of_toList hfiled }

/-!
What exceeds the limits of the store that holds it is exported and then refused.
`commit_staging` keeps the limits of the store it commits to, whatever the
limits of the staged one.
-/

/-- `null` inside the given number of lists. -/
def nestedNull : Nat → Value
  | 0 => .null
  | n + 1 => .list [nestedNull n]

def carriedOver (limits built : StoreLimits) (ops : List Operation) : SemanticStore :=
  commitStaging (SemanticStore.withLimitsAndRevision limits 0)
    (run applyStep (SemanticStore.withLimitsAndRevision built 0) ops) 1

def deepProperty : SemanticStore :=
  carriedOver StoreLimits.default { StoreLimits.default with maxValueDepth := 17 }
    [.createNode 1 ⟨0, 1⟩ none none [(⟨0, 1⟩, nestedNull 16)]]

def deepItem : SemanticStore :=
  carriedOver StoreLimits.default { StoreLimits.default with maxValueDepth := 17 }
    [.createModel 1 ⟨0, 1⟩ 1, .modelResetRange 1 0 [⟨5, nestedNull 16, ∅⟩] none]

def crowded : SemanticStore :=
  carriedOver { StoreLimits.default with maxModelCount := 1 } StoreLimits.default
    [.createModel 1 ⟨0, 1⟩ 0, .createModel 2 ⟨0, 1⟩ 0]

/-- A model whose identity was changed through `get_model_mut`. -/
def misfiled : SemanticStore :=
  { SemanticStore.withLimitsAndRevision StoreLimits.default 1 with
    models := (∅ : ExtTreeMap ModelId Model).insert 1 (Model.new 2 ⟨0, 1⟩ 0)
    usedModelIds := insert 1 ∅ }

/-- The store a fresh replica ends with after the snapshot of `original`. -/
def restore (original : SemanticStore) : Option SemanticStore :=
  match exportSnapshotTransaction (fun _ => 0) original with
  | .error _ => none
  | .ok tx =>
    match resyncSnapshot tx with
    | .error _ => none
    | .ok snapshot =>
      match replaceFromSnapshot
          (SemanticStore.withLimitsAndRevision original.limits 0) snapshot with
      | (_, .error _) => none
      | (restored, .ok _) => some restored

theorem RoundTrips.restore_eq {original : SemanticStore} (h : RoundTrips original)
    (hexport : (exportSnapshotTransaction (fun _ => 0) original).toBool = true) :
    (restore original).map (fun s => s.models.toList.map Prod.fst) =
      some (original.models.toList.map Prod.fst) := by
  rw [restore]
  cases htx : exportSnapshotTransaction (fun _ => 0) original with
  | error f => simp [htx, Except.toBool] at hexport
  | ok tx =>
    obtain ⟨snapshot, restored, hsnapshot, hreplaced, -, -, hmodels, -⟩ :=
      h (fun _ => 0) tx (SemanticStore.withLimitsAndRevision original.limits 0) htx rfl
        (Nat.zero_le _)
    simp only [hsnapshot, hreplaced, Option.map_some, hmodels]

theorem StoreForest.carriedOver {limits built : StoreLimits}
    (hdepth : limits.maxTreeDepth = built.maxTreeDepth)
    (hcount : limits.maxNodeCount = built.maxNodeCount) :
    StoreForest (carriedOver limits built ops) := by
  have h := run_storeForest built 0 ops
  have hlimits : (run applyStep (SemanticStore.withLimitsAndRevision built 0) ops).limits =
      built :=
    run_invariant (P := fun t : SemanticStore => t.limits = built)
      (fun s op h => (apply_limits s op).trans h) rfl ops
  refine ⟨h.forest, ?_, ?_, h.used, h.ids⟩
  · intro x d hd
    have hle := h.depth x d hd
    rw [hlimits] at hle
    exact Nat.le_trans hle (Nat.le_of_eq hdepth.symm)
  · have hle := h.count
    rw [hlimits] at hle
    exact Nat.le_trans hle (Nat.le_of_eq hcount.symm)

theorem beyondLimits_not_roundTrips :
    (Snapshotable deepProperty ∧ ¬ RoundTrips deepProperty) ∧
    (Snapshotable deepItem ∧ ¬ RoundTrips deepItem) ∧
    (Snapshotable crowded ∧ ¬ RoundTrips crowded) ∧
    (Snapshotable misfiled ∧ ¬ RoundTrips misfiled) := by
  refine ⟨⟨?_, ?_⟩, ⟨?_, ?_⟩, ⟨?_, ?_⟩, ⟨?_, ?_⟩⟩
  · have hentries : EntriesOk deepProperty := by decide +kernel
    exact hentries.snapshotable (StoreForest.carriedOver rfl rfl)
      (run_modelsIndexed (by decide +kernel))
  · intro h
    exact absurd (h.restore_eq (by decide +kernel)) (by decide +kernel)
  · have hentries : EntriesOk deepItem := by decide +kernel
    exact hentries.snapshotable (StoreForest.carriedOver rfl rfl)
      (run_modelsIndexed (by decide +kernel))
  · intro h
    exact absurd (h.restore_eq (by decide +kernel)) (by decide +kernel)
  · have hentries : EntriesOk crowded := by decide +kernel
    exact hentries.snapshotable (StoreForest.carriedOver rfl rfl)
      (run_modelsIndexed (by decide +kernel))
  · intro h
    exact absurd (h.restore_eq (by decide +kernel)) (by decide +kernel)
  · have hentries : EntriesOk misfiled := by decide +kernel
    refine hentries.snapshotable
      ((storeForest_empty StoreLimits.default 1).of_sameNodes rfl rfl rfl rfl) ?_
    intro id m hm
    change ((∅ : ExtTreeMap ModelId Model).insert 1 (Model.new 2 ⟨0, 1⟩ 0))[id]? = some m at hm
    rw [getElem?_put] at hm
    split at hm
    · rw [← Option.some.inj hm]
      exact indexed_new 2 ⟨0, 1⟩ 0
    · simp at hm
  · intro h
    exact absurd (h.restore_eq (by decide +kernel)) (by decide +kernel)

end Srui.Sessiond.SnapshotRoundTrip

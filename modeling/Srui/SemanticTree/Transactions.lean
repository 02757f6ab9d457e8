import Srui.SemanticTree.Operations

/-!
Transaction envelopes, their validated delivery forms, and the entry points
that apply them to a store.
-/

namespace Srui.SemanticTree.Transactions

open Basic.Machine SemanticTree.Values SemanticTree.Limits SemanticTree.Models SemanticTree.Stores
open SemanticTree.Operations

structure Transaction where
  baseRevision : Revision
  newRevision : Revision
  operations : List Operation
  priority : Nat
deriving DecidableEq

inductive TxnError where
  | staleBaseRevision (expected actual : Revision)
  | invalidNewRevision (expected actual : Revision)
  | revisionExhausted (base : Revision)
  | maxOperationsExceeded (limit actual : Nat)
  | opFailed (opIndex : Nat) (source : StoreError)
  | wireError (message : String)
deriving DecidableEq, Repr

/-- `Revision::checked_next`. -/
def checkedNext (revision : Revision) : Option Revision := checkedAdd revision 1

/-- `Transaction::is_coalesceable`. -/
def isCoalesceable (txn : Transaction) : Bool :=
  !txn.operations.isEmpty && txn.operations.all fun op =>
    match op with
    | .setProperty _ _ value => value.isScalar
    | _ => false

/-- `AuthoritativeCommit::validate`. -/
def validateCommit (txn : Transaction) : Except TxnError Unit :=
  match checkedNext txn.baseRevision with
  | none => .error (.revisionExhausted txn.baseRevision)
  | some expected =>
    if txn.newRevision ≠ expected then .error (.invalidNewRevision expected txn.newRevision)
    else .ok ()

/-- `CoalescedScalarDelta::validate`. -/
def validateDelta (txn : Transaction) : Except TxnError Unit :=
  match checkedNext txn.baseRevision with
  | none => .error (.revisionExhausted txn.baseRevision)
  | some expected =>
    if txn.newRevision ≤ txn.baseRevision ∨ isCoalesceable txn = false then
      .error (.invalidNewRevision expected txn.newRevision)
    else .ok ()

/-- The check of `ResyncSnapshot::try_from`. -/
def validateSnapshot (txn : Transaction) : Except TxnError Unit :=
  if txn.baseRevision ≠ 0 then .error (.staleBaseRevision 0 txn.baseRevision) else .ok ()

structure AuthoritativeCommit where
  txn : Transaction
  valid : validateCommit txn = .ok ()

theorem validateCommit_next {txn : Transaction} (h : validateCommit txn = .ok ()) :
    checkedNext txn.baseRevision = some txn.newRevision := by
  rw [validateCommit] at h
  split at h
  · simp at h
  · rename_i next hnext
    split at h
    · simp at h
    · rename_i heq
      rw [hnext, not_not.mp heq]

/-- A run of committed scalar updates collapsed into one delivery envelope. -/
structure CoalescedScalarDelta where
  txn : Transaction
  valid : validateDelta txn = .ok ()

structure ResyncSnapshot where
  txn : Transaction
  valid : validateSnapshot txn = .ok ()

inductive DeliveredTransaction where
  | commit (commit : AuthoritativeCommit)
  | delta (delta : CoalescedScalarDelta)

/-- `DeliveredTransaction::try_from`: classification by shape. -/
def classify (txn : Transaction) : Except TxnError DeliveredTransaction :=
  match hnext : checkedNext txn.baseRevision with
  | none => .error (.revisionExhausted txn.baseRevision)
  | some next =>
    if heq : txn.newRevision = next then
      .ok (.commit ⟨txn, by simp [validateCommit, hnext, heq]⟩)
    else
      match hdelta : validateDelta txn with
      | .ok () => .ok (.delta ⟨txn, hdelta⟩)
      | .error e => .error e

/-- How an operation failure surfaces from a staging loop at `opIndex`. -/
def opFault (opIndex : Nat) : Fault StoreError → Fault TxnError
  | .error source => .error (.opFailed opIndex source)
  | .panicked => .panicked
  | .diverges => .diverges

/-- The staging loop: applies the operations in order to a private copy, which
is dropped at the first failure. -/
def stage (applyOp : Operation → SemanticStore → Mutation SemanticStore) (staged : SemanticStore) :
    Nat → List Operation → Outcome TxnError SemanticStore
  | _, [] => .ok staged
  | opIndex, op :: rest =>
    match applyOp op staged with
    | (_, .error f) => .error (opFault opIndex f)
    | (staged, .ok ()) => stage applyOp staged (opIndex + 1) rest

/-- `SemanticStore::commit_staging`. -/
def commitStaging (s staged : SemanticStore) (newRevision : Revision) : SemanticStore :=
  { s with nodes := staged.nodes, roots := staged.roots, usedIds := staged.usedIds,
           models := staged.models, usedModelIds := staged.usedModelIds,
           revision := newRevision }

abbrev TxnResult := SemanticStore × Outcome TxnError Revision

/-- Body of `apply_staged` and `apply_staged_owned`, which differ in whether
they borrow the operations. -/
def applyStagedWith (applyOp : Operation → SemanticStore → Mutation SemanticStore)
    (s : SemanticStore) (ops : List Operation) (newRevision : Revision) : TxnResult :=
  if ops.length > s.limits.maxTransactionOperations then
    (s, err (.maxOperationsExceeded s.limits.maxTransactionOperations ops.length))
  else
    match stage applyOp s 0 ops with
    | .error f => (s, .error f)
    | .ok staged => (commitStaging s staged newRevision, .ok newRevision)

/-- `SemanticStore::apply_staged`. -/
def applyStaged (s : SemanticStore) (ops : List Operation) (newRevision : Revision) : TxnResult :=
  applyStagedWith apply s ops newRevision

/-- `SemanticStore::apply_staged_owned`. -/
def applyStagedOwned (s : SemanticStore) (ops : List Operation) (newRevision : Revision) :
    TxnResult :=
  applyStagedWith applyOwned s ops newRevision

/-- `SemanticStore::check_base_revision`. -/
def checkBaseRevision (s : SemanticStore) (baseRevision : Revision) : Except TxnError Unit :=
  if baseRevision ≠ s.revision then .error (.staleBaseRevision s.revision baseRevision)
  else .ok ()

/-- `SemanticStore::apply_transaction`. -/
def applyTransaction (s : SemanticStore) (baseRevision : Revision) (ops : List Operation) :
    TxnResult :=
  match checkBaseRevision s baseRevision with
  | .error e => (s, err e)
  | .ok () =>
    match checkedNext baseRevision with
    | none => (s, err (.revisionExhausted baseRevision))
    | some newRevision => applyStagedOwned s ops newRevision

/-- `SemanticStore::apply_transaction_record`. -/
def applyTransactionRecord (s : SemanticStore) (txn : Transaction) : TxnResult :=
  match validateCommit txn with
  | .error e => (s, err e)
  | .ok () =>
    match checkBaseRevision s txn.baseRevision with
    | .error e => (s, err e)
    | .ok () => applyStaged s txn.operations txn.newRevision

/-- The two steps `apply_authoritative` and `apply_coalesced_delta` share. -/
def applyValidated (s : SemanticStore) (txn : Transaction) : TxnResult :=
  match checkBaseRevision s txn.baseRevision with
  | .error e => (s, err e)
  | .ok () => applyStaged s txn.operations txn.newRevision

/-- `SemanticStore::apply_authoritative`. -/
def applyAuthoritative (s : SemanticStore) (commit : AuthoritativeCommit) : TxnResult :=
  applyValidated s commit.txn

/-- `SemanticStore::apply_coalesced_delta`. -/
def applyCoalescedDelta (s : SemanticStore) (delta : CoalescedScalarDelta) : TxnResult :=
  applyValidated s delta.txn

/-- `SemanticStore::replace_from_snapshot`. -/
def replaceFromSnapshot (s : SemanticStore) (snapshot : ResyncSnapshot) : TxnResult :=
  if snapshot.txn.newRevision < s.revision then
    (s, err (.invalidNewRevision s.revision snapshot.txn.newRevision))
  else if snapshot.txn.operations.length > s.limits.maxTransactionOperations then
    (s, err (.maxOperationsExceeded s.limits.maxTransactionOperations
      snapshot.txn.operations.length))
  else
    match stage apply (SemanticStore.withLimitsAndRevision s.limits 0) 0
        snapshot.txn.operations with
    | .error f => (s, .error f)
    | .ok staged =>
      (commitStaging (SemanticStore.withLimitsAndRevision s.limits 0) staged
        snapshot.txn.newRevision, .ok snapshot.txn.newRevision)

/-- A transaction applied to a private copy, ready for an infallible commit. -/
structure StagedCommit where
  staged : SemanticStore
  baseRevision : Revision
  newRevision : Revision

/-- `SemanticStore::prepare_commit`. -/
def prepareCommit (s : SemanticStore) (commit : AuthoritativeCommit) :
    Outcome TxnError StagedCommit :=
  match checkBaseRevision s commit.txn.baseRevision with
  | .error e => err e
  | .ok () =>
    if commit.txn.operations.length > s.limits.maxTransactionOperations then
      err (.maxOperationsExceeded s.limits.maxTransactionOperations
        commit.txn.operations.length)
    else
      match stage apply s 0 commit.txn.operations with
      | .error f => .error f
      | .ok staged =>
        .ok { staged := staged, baseRevision := commit.txn.baseRevision,
              newRevision := commit.txn.newRevision }

/-- `SemanticStore::commit_prepared`, with its debug assertion. -/
def commitPrepared (s : SemanticStore) (staged : StagedCommit) : Outcome TxnError SemanticStore :=
  if s.revision ≠ staged.baseRevision then .error .panicked
  else .ok (commitStaging s staged.staged staged.newRevision)

/-- `prepare_commit` followed by `commit_prepared`. -/
def prepareAndCommit (s : SemanticStore) (commit : AuthoritativeCommit) : TxnResult :=
  match prepareCommit s commit with
  | .error f => (s, .error f)
  | .ok staged =>
    match commitPrepared s staged with
    | .error f => (s, .error f)
    | .ok s' => (s', .ok staged.newRevision)

end Srui.SemanticTree.Transactions

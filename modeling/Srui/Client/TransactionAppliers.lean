import Srui.Basic.Runs
import Srui.Client.ReplicaStores

/-!
The client's transactional gateway to its replica, under any number of concurrent
callers. A call of `prepareResyncSnapshot` reads under the lock, rebuilds without it, and
the result may be published any time later; every other call is one critical section.
-/

namespace Srui.Client.TransactionAppliers

open Basic.Machine Basic.Runs SemanticTree.Values
open SemanticTree.Limits (StoreLimits)
open SemanticTree.Stores (SemanticStore)
open Client.ReplicaModels Client.ReplicaStores

inductive TxnError where
  | staleBaseRevision (expected actual : Revision)
  | invalidNewRevision (expected actual : Revision)
  | revisionExhausted (base : Revision)
  | maxOperationsExceeded (limit actual : Nat)
  | opFailed (opIndex : Nat) (source : StoreError)
  | wireError (message : String)
deriving DecidableEq, Repr

structure Transaction where
  baseRevision : Revision
  newRevision : Revision
  operations : List StoreOperation
  priority : Nat := 0
deriving DecidableEq

/-- `Revision.checkedNext`. -/
def checkedNext (revision : Revision) : Option Revision :=
  if revision = u64Max then none else some (revision + 1)

def isScalarSetProperty : StoreOperation → Bool
  | .setProperty _ _ value => value.isScalar
  | _ => false

def isCoalesceable (record : Transaction) : Bool :=
  !record.operations.isEmpty && record.operations.all isScalarSetProperty

structure TransactionSnapshot where
  store : SemanticStore
  revision : Revision

structure PreparedResyncSnapshot where
  store : SemanticStore
  revision : Revision

structure TransactionApplier where
  store : SemanticStore
  lastAppliedRevision : Revision

/-- `TransactionApplier.init(store:)`. -/
def TransactionApplier.init (store : SemanticStore) : TransactionApplier :=
  ⟨store, store.revision⟩

def currentSnapshot (applier : TransactionApplier) : TransactionSnapshot :=
  ⟨applier.store, applier.lastAppliedRevision⟩

/-- `SemanticStore.commitStaging` with a new revision. -/
def commitStaging (store staged : SemanticStore) (newRevision : Revision) : SemanticStore :=
  { store with
    nodes := staged.nodes
    roots := staged.roots
    usedIds := staged.usedIds
    models := staged.models
    usedModelIds := staged.usedModelIds
    revision := newRevision }

def opFault (opIndex : Nat) : Fault StoreError → Fault TxnError
  | .error source => .error (.opFailed opIndex source)
  | .panicked => .panicked
  | .diverges => .diverges

def stage (staged : SemanticStore) : Nat → List StoreOperation → Outcome TxnError SemanticStore
  | _, [] => .ok staged
  | idx, op :: rest =>
    match applyTo staged op with
    | .error fault => .error (opFault idx fault)
    | .ok staged => stage staged (idx + 1) rest

abbrev Call (α : Type) := TransactionApplier × Outcome TxnError α

def applyStaged (applier : TransactionApplier) (operations : List StoreOperation)
    (newRevision : Revision) : Call Revision :=
  if applier.store.limits.maxTransactionOperations < operations.length then
    (applier, err (.maxOperationsExceeded applier.store.limits.maxTransactionOperations
      operations.length))
  else
    match stage applier.store 0 operations with
    | .error fault => (applier, .error fault)
    | .ok staged => (⟨commitStaging applier.store staged newRevision, newRevision⟩, .ok newRevision)

/-- `apply(baseRevision:operations:)`. -/
def apply (applier : TransactionApplier) (baseRevision : Revision)
    (operations : List StoreOperation) : Call Revision :=
  if baseRevision ≠ applier.store.revision then
    (applier, err (.staleBaseRevision applier.store.revision baseRevision))
  else
    match checkedNext baseRevision with
    | none => (applier, err (.revisionExhausted baseRevision))
    | some newRevision => applyStaged applier operations newRevision

def applyValidated (applier : TransactionApplier) (record : Transaction) :
    Call TransactionSnapshot :=
  if record.baseRevision ≠ applier.store.revision then
    (applier, err (.staleBaseRevision applier.store.revision record.baseRevision))
  else
    match applyStaged applier record.operations record.newRevision with
    | (applier, .error fault) => (applier, .error fault)
    | (applier, .ok _) => (applier, .ok (currentSnapshot applier))

def applyCommitted (applier : TransactionApplier) (record : Transaction) :
    Call TransactionSnapshot :=
  match checkedNext record.baseRevision with
  | none => (applier, err (.revisionExhausted record.baseRevision))
  | some expected =>
    if record.newRevision ≠ expected then
      (applier, err (.invalidNewRevision expected record.newRevision))
    else applyValidated applier record

/-- A frame of the live stream is a commit or a delta of scalar writes. -/
def applyDelivered (applier : TransactionApplier) (record : Transaction) :
    Call TransactionSnapshot :=
  match checkedNext record.baseRevision with
  | none => (applier, err (.revisionExhausted record.baseRevision))
  | some expected =>
    if record.newRevision = expected ∨
        (expected < record.newRevision ∧ isCoalesceable record = true) then
      applyValidated applier record
    else (applier, err (.invalidNewRevision expected record.newRevision))

/-- `prepareResyncSnapshot` once it has read the limits and the revision. -/
def rebuild (limits : StoreLimits) (lastAppliedRevision : Revision) (record : Transaction) :
    Outcome TxnError PreparedResyncSnapshot :=
  if record.baseRevision ≠ 0 then err (.staleBaseRevision 0 record.baseRevision)
  else if record.newRevision < lastAppliedRevision then
    err (.invalidNewRevision lastAppliedRevision record.newRevision)
  else if limits.maxTransactionOperations < record.operations.length then
    err (.maxOperationsExceeded limits.maxTransactionOperations record.operations.length)
  else
    match stage (.withLimitsAndRevision limits 0) 0 record.operations with
    | .error fault => .error fault
    | .ok staged =>
      .ok ⟨commitStaging (.withLimitsAndRevision limits 0) staged record.newRevision,
        record.newRevision⟩

def publishResyncSnapshot (applier : TransactionApplier) (prepared : PreparedResyncSnapshot) :
    Call TransactionSnapshot :=
  if prepared.revision < applier.lastAppliedRevision then
    (applier, err (.invalidNewRevision applier.lastAppliedRevision prepared.revision))
  else
    let published : TransactionApplier := ⟨prepared.store, prepared.revision⟩
    (published, .ok (currentSnapshot published))

/-- A call of `prepareResyncSnapshot` between its two steps. -/
structure Rebuilding where
  record : Transaction
  limits : StoreLimits
  lastAppliedRevision : Revision

/-- The applier, the snapshots being rebuilt, and those its callers hold. -/
structure System where
  applier : TransactionApplier
  rebuilding : List Rebuilding
  prepared : List PreparedResyncSnapshot

inductive Input where
  | apply (baseRevision : Revision) (operations : List StoreOperation)
  | applyCommitted (record : Transaction)
  | applyDelivered (record : Transaction)
  | readForSnapshot (record : Transaction)
  | rebuildSnapshot (place : Nat)
  | publishResyncSnapshot (place : Nat)

inductive Reply where
  | revision (revision : Revision)
  | snapshot (snapshot : TransactionSnapshot)
  | prepared
  | none

def perform (s : System) : Input → System × Outcome TxnError Reply
  | .apply baseRevision operations =>
    let call := TransactionAppliers.apply s.applier baseRevision operations
    ({ s with applier := call.1 }, call.2.map .revision)
  | .applyCommitted record =>
    let call := TransactionAppliers.applyCommitted s.applier record
    ({ s with applier := call.1 }, call.2.map .snapshot)
  | .applyDelivered record =>
    let call := TransactionAppliers.applyDelivered s.applier record
    ({ s with applier := call.1 }, call.2.map .snapshot)
  | .readForSnapshot record =>
    ({ s with rebuilding := s.rebuilding ++
        [⟨record, s.applier.store.limits, s.applier.lastAppliedRevision⟩] }, .ok .none)
  | .rebuildSnapshot place =>
    match s.rebuilding[place]? with
    | none => (s, .ok .none)
    | some call =>
      let others := s.rebuilding.eraseIdx place
      match rebuild call.limits call.lastAppliedRevision call.record with
      | .error fault => ({ s with rebuilding := others }, .error fault)
      | .ok prepared =>
        ({ s with rebuilding := others, prepared := s.prepared ++ [prepared] }, .ok .prepared)
  | .publishResyncSnapshot place =>
    match s.prepared[place]? with
    | none => (s, .ok .none)
    | some prepared =>
      let call := TransactionAppliers.publishResyncSnapshot s.applier prepared
      ({ s with applier := call.1 }, call.2.map .snapshot)

def step (s : System) (input : Input) : System := (perform s input).1

def opened (store : SemanticStore) : System := ⟨.init store, [], []⟩

variable {applier : TransactionApplier}

/-- What a critical section may do: fail and leave the applier, or move it on to a
revision that is no lower and that its store is at. -/
def Advances {α : Type} (applier : TransactionApplier) (call : Call α) : Prop :=
  (∃ fault, call = (applier, .error fault)) ∨
    ∃ applier' result, call = (applier', .ok result) ∧
      applier'.store.revision = applier'.lastAppliedRevision ∧
      applier.lastAppliedRevision ≤ applier'.lastAppliedRevision

theorem applyStaged_advances (operations : List StoreOperation) {newRevision : Revision}
    (hle : applier.lastAppliedRevision ≤ newRevision) :
    Advances applier (applyStaged applier operations newRevision) := by
  rw [applyStaged]
  split
  · exact .inl ⟨_, rfl⟩
  split
  · exact .inl ⟨_, rfl⟩
  · exact .inr ⟨_, _, rfl, rfl, hle⟩

theorem checkedNext_eq_some {revision next : Revision} (h : checkedNext revision = some next) :
    next = revision + 1 := by
  rw [checkedNext] at h
  split at h
  · exact absurd h nofun
  · exact (Option.some.inj h).symm

theorem apply_advances (haligned : applier.store.revision = applier.lastAppliedRevision)
    (baseRevision : Revision) (operations : List StoreOperation) :
    Advances applier (apply applier baseRevision operations) := by
  rw [apply]
  split
  · exact .inl ⟨_, rfl⟩
  rename_i hbase
  split
  · exact .inl ⟨_, rfl⟩
  rename_i newRevision hnext
  apply applyStaged_advances
  rw [checkedNext_eq_some hnext, not_not.mp hbase, haligned]
  exact Nat.le_succ _

def Returns (call : Call TransactionSnapshot) : Prop :=
  ∀ snapshot, call.2 = .ok snapshot → snapshot = currentSnapshot call.1

section

variable (haligned : applier.store.revision = applier.lastAppliedRevision)

include haligned

theorem applyValidated_advances {record : Transaction}
    (hlater : record.baseRevision ≤ record.newRevision) :
    Advances applier (applyValidated applier record) ∧ Returns (applyValidated applier record) := by
  rw [applyValidated]
  split
  · exact ⟨.inl ⟨_, rfl⟩, nofun⟩
  rename_i hbase
  have hle : applier.lastAppliedRevision ≤ record.newRevision := by
    rw [← haligned, ← not_not.mp hbase]
    exact hlater
  rcases applyStaged_advances record.operations hle with
    ⟨fault, hfault⟩ | ⟨applier', result, hok, hrevision, hle'⟩
  · rw [hfault]
    exact ⟨.inl ⟨_, rfl⟩, nofun⟩
  · rw [hok]
    refine ⟨.inr ⟨applier', _, rfl, hrevision, hle'⟩, ?_⟩
    rintro snapshot ⟨⟩
    rfl

theorem applyCommitted_advances (record : Transaction) :
    Advances applier (applyCommitted applier record) ∧ Returns (applyCommitted applier record) := by
  rw [applyCommitted]
  split
  · exact ⟨.inl ⟨_, rfl⟩, nofun⟩
  rename_i expected hnext
  split
  · exact ⟨.inl ⟨_, rfl⟩, nofun⟩
  rename_i hnew
  apply applyValidated_advances haligned
  rw [not_not.mp hnew, checkedNext_eq_some hnext]
  exact Nat.le_succ _

theorem applyDelivered_advances (record : Transaction) :
    Advances applier (applyDelivered applier record) ∧ Returns (applyDelivered applier record) := by
  rw [applyDelivered]
  split
  · exact ⟨.inl ⟨_, rfl⟩, nofun⟩
  rename_i expected hnext
  have hexpected := checkedNext_eq_some hnext
  split
  · rename_i hform
    apply applyValidated_advances haligned
    have hbase : record.baseRevision ≤ expected := hexpected ▸ Nat.le_succ _
    rcases hform with heq | ⟨hlt, -⟩
    · exact heq ▸ hbase
    · exact hbase.trans hlt.le
  · exact ⟨.inl ⟨_, rfl⟩, nofun⟩

end

variable {prepared : PreparedResyncSnapshot}

theorem publishResyncSnapshot_advances (applier : TransactionApplier)
    (hprepared : prepared.store.revision = prepared.revision) :
    Advances applier (publishResyncSnapshot applier prepared) ∧
      Returns (publishResyncSnapshot applier prepared) := by
  rw [publishResyncSnapshot]
  split
  · exact ⟨.inl ⟨_, rfl⟩, nofun⟩
  · rename_i hle
    refine ⟨.inr ⟨_, _, rfl, hprepared, Nat.le_of_not_lt hle⟩, ?_⟩
    rintro snapshot ⟨⟩
    rfl

theorem rebuild_revision {limits : StoreLimits} {revision : Revision} {record : Transaction}
    (h : rebuild limits revision record = .ok prepared) :
    prepared.store.revision = prepared.revision := by
  rw [rebuild] at h
  split at h
  · exact absurd h nofun
  split at h
  · exact absurd h nofun
  split at h
  · exact absurd h nofun
  split at h
  · exact absurd h nofun
  · rw [← Except.ok.inj h]
    rfl

/-- The applier's store and every prepared one are at the revision recorded for them. -/
def Aligned (s : System) : Prop :=
  s.applier.store.revision = s.applier.lastAppliedRevision ∧
    ∀ prepared ∈ s.prepared, prepared.store.revision = prepared.revision

structure Follows (s : System) (input : Input) : Prop where
  aligned : Aligned (step s input)
  monotone : s.applier.lastAppliedRevision ≤ (step s input).applier.lastAppliedRevision
  failing : ∀ fault, (perform s input).2 = .error fault → (step s input).applier = s.applier
  returning : ∀ snapshot, (perform s input).2 = .ok (.snapshot snapshot) →
    snapshot = currentSnapshot (step s input).applier

variable {s : System}

theorem follows_of_call {α : Type} (h : Aligned s) {input : Input} {call : Call α}
    {reply : α → Reply}
    (hperform : perform s input = ({ s with applier := call.1 }, call.2.map reply))
    (hadvances : Advances s.applier call)
    (hreturns : ∀ result snapshot, call.2 = .ok result → reply result = .snapshot snapshot →
      snapshot = currentSnapshot call.1) : Follows s input := by
  have hstep : step s input = { s with applier := call.1 } := congrArg Prod.fst hperform
  rcases hadvances with ⟨fault, rfl⟩ | ⟨applier', result, rfl, hrevision, hle⟩
  · refine ⟨hstep ▸ h, by rw [hstep], fun _ _ => by rw [hstep], ?_⟩
    intro snapshot hsnapshot
    rw [hperform] at hsnapshot
    exact absurd hsnapshot nofun
  · refine ⟨hstep ▸ ⟨hrevision, h.2⟩, by rw [hstep]; exact hle, ?_, ?_⟩
    · intro fault hfault
      rw [hperform] at hfault
      exact absurd hfault nofun
    · intro snapshot hsnapshot
      rw [hperform] at hsnapshot
      rw [hstep]
      exact hreturns result snapshot rfl (Except.ok.inj hsnapshot)

theorem follows_of_same {input : Input} (s' : System)
    (result : Outcome TxnError Reply)
    (hperform : perform s input = (s', result)) (haligned : Aligned s')
    (hsame : s'.applier = s.applier) (hnone : ∀ snapshot, result ≠ .ok (.snapshot snapshot)) :
    Follows s input := by
  have hstep : step s input = s' := congrArg Prod.fst hperform
  refine ⟨hstep ▸ haligned, by rw [hstep, hsame], fun _ _ => by rw [hstep, hsame], ?_⟩
  intro snapshot hsnapshot
  rw [hperform] at hsnapshot
  exact absurd hsnapshot (hnone snapshot)

theorem step_follows (h : Aligned s) (input : Input) : Follows s input := by
  have hreturned : ∀ {call : Call TransactionSnapshot}, Returns call →
      ∀ result snapshot, call.2 = .ok result → Reply.snapshot result = .snapshot snapshot →
        snapshot = currentSnapshot call.1 := by
    intro call hreturns result snapshot hok heq
    exact Reply.snapshot.inj heq ▸ hreturns result hok
  rcases input with ⟨baseRevision, operations⟩ | record | record | record | place | place
  · exact follows_of_call h rfl (apply_advances h.1 baseRevision operations) nofun
  · obtain ⟨hadvances, hreturns⟩ := applyCommitted_advances h.1 record
    exact follows_of_call h rfl hadvances (hreturned hreturns)
  · obtain ⟨hadvances, hreturns⟩ := applyDelivered_advances h.1 record
    exact follows_of_call h rfl hadvances (hreturned hreturns)
  · exact follows_of_same _ _ rfl h rfl nofun
  · rcases hcall : s.rebuilding[place]? with _ | call
    · refine follows_of_same s (.ok .none) ?_ h rfl nofun
      rw [perform, hcall]
    · rcases hrebuild : rebuild call.limits call.lastAppliedRevision call.record with
        fault | prepared
      · refine follows_of_same { s with rebuilding := s.rebuilding.eraseIdx place }
          (.error fault) ?_ h rfl nofun
        simp only [perform, hcall, hrebuild]
      · refine follows_of_same { s with
            rebuilding := s.rebuilding.eraseIdx place
            prepared := s.prepared ++ [prepared] } (.ok .prepared) ?_ ?_ rfl nofun
        · simp only [perform, hcall, hrebuild]
        · refine ⟨h.1, fun other hother => ?_⟩
          rcases List.mem_append.mp hother with hold | hnew
          · exact h.2 other hold
          · rw [List.mem_singleton.mp hnew]
            exact rebuild_revision hrebuild
  · rcases hcall : s.prepared[place]? with _ | prepared
    · refine follows_of_same s (.ok .none) ?_ h rfl nofun
      rw [perform, hcall]
    · obtain ⟨hadvances, hreturns⟩ := publishResyncSnapshot_advances s.applier
        (h.2 prepared (List.mem_of_getElem? hcall))
      refine follows_of_call h ?_ hadvances (hreturned hreturns)
      simp only [perform, hcall]

theorem run_aligned (store : SemanticStore) (inputs : List Input) :
    Aligned (run step (opened store) inputs) := by
  have hopened : Aligned (opened store) := ⟨rfl, fun prepared hmem => absurd hmem (by simp [opened])⟩
  have hstep : ∀ s input, Aligned s → Aligned (step s input) := fun s input h =>
    (step_follows h input).aligned
  exact run_invariant hstep hopened inputs

theorem run_monotone (h : Aligned s) (inputs : List Input) :
    s.applier.lastAppliedRevision ≤ (run step s inputs).applier.lastAppliedRevision := by
  have hboth : Aligned (run step s inputs) ∧
      s.applier.lastAppliedRevision ≤ (run step s inputs).applier.lastAppliedRevision := by
    refine run_invariant (P := fun t => Aligned t ∧
      s.applier.lastAppliedRevision ≤ t.applier.lastAppliedRevision) ?_ ⟨h, Nat.le_refl _⟩ inputs
    rintro t input ⟨haligned, hle⟩
    have hfollows := step_follows haligned input
    exact ⟨hfollows.aligned, hle.trans hfollows.monotone⟩
  exact hboth.2

theorem publish_refused
    (h : prepared.revision < applier.lastAppliedRevision) :
    publishResyncSnapshot applier prepared =
      (applier, err (.invalidNewRevision applier.lastAppliedRevision prepared.revision)) := by
  rw [publishResyncSnapshot, if_pos h]

/-- From any state callers can reach: the store is at the revision that was last applied;
revisions never go down; a step that fails leaves the applier; a returned snapshot is what
its call committed; and a snapshot prepared before a commit to a higher revision can no
longer be published. -/
theorem replica_steps (store : SemanticStore) (before during : List Input) :
    (run step (opened store) before).applier.store.revision =
      (run step (opened store) before).applier.lastAppliedRevision ∧
    (run step (opened store) before).applier.lastAppliedRevision ≤
      (run step (opened store) (before ++ during)).applier.lastAppliedRevision ∧
    (∀ input fault, (perform (run step (opened store) before) input).2 = .error fault →
      (perform (run step (opened store) before) input).1.applier =
        (run step (opened store) before).applier) ∧
    (∀ input snapshot,
      (perform (run step (opened store) before) input).2 = .ok (.snapshot snapshot) →
      snapshot = currentSnapshot (perform (run step (opened store) before) input).1.applier) ∧
    ∀ prepared ∈ (run step (opened store) before).prepared,
      prepared.revision <
        (run step (opened store) (before ++ during)).applier.lastAppliedRevision →
      ∀ later,
        publishResyncSnapshot (run step (opened store) (before ++ during ++ later)).applier
            prepared =
          ((run step (opened store) (before ++ during ++ later)).applier,
            err (.invalidNewRevision
              (run step (opened store) (before ++ during ++ later)).applier.lastAppliedRevision
              prepared.revision)) := by
  have haligned := run_aligned store before
  refine ⟨haligned.1, ?_, ?_, ?_, ?_⟩
  · rw [run_append]
    exact run_monotone haligned during
  · intro input fault hfault
    exact (step_follows haligned input).failing fault hfault
  · intro input snapshot hsnapshot
    exact (step_follows haligned input).returning snapshot hsnapshot
  · intro prepared _ hlower later
    apply publish_refused
    rw [run_append (opened store) (before ++ during) later]
    exact hlower.trans_le (run_monotone (run_aligned store (before ++ during)) later)

end Srui.Client.TransactionAppliers

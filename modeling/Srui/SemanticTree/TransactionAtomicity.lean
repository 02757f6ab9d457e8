import Srui.SemanticTree.PropertyVisits
import Srui.SemanticTree.WireRoundTrip

/-!
Every way to apply a transaction is all or nothing and moves the revision
forward by the span its form allows, in whatever order the properties of the
items are visited.
-/

namespace Srui.SemanticTree.TransactionAtomicity

open Basic.Machine SemanticTree.Values SemanticTree.Limits SemanticTree.Models SemanticTree.Stores
open SemanticTree.Operations SemanticTree.Transactions SemanticTree.Wire SemanticTree.WireRoundTrip
open SemanticTree.PropertyVisits

inductive TransactionCall where
  | applyTransaction (baseRevision : Revision) (ops : List Operation)
  | applyTransactionRecord (txn : Transaction)
  | applyWireTransaction (wire : WireTransaction)
  | applyDeliveredTransaction (wire : WireTransaction)
  | prepareAndCommit (commit : AuthoritativeCommit)
  | replaceFromSnapshot (snapshot : ResyncSnapshot)

def perform (s : SemanticStore) : TransactionCall → TxnResult
  | .applyTransaction baseRevision ops => applyTransaction s baseRevision ops
  | .applyTransactionRecord txn => applyTransactionRecord s txn
  | .applyWireTransaction wire => applyWireTransaction s wire
  | .applyDeliveredTransaction wire => applyDeliveredTransaction s wire
  | .prepareAndCommit commit => prepareAndCommit s commit
  | .replaceFromSnapshot snapshot => replaceFromSnapshot s snapshot

/-- The steps after the checks of a commit or a delta. -/
def applyCheckedIn (visit : Visit) (s : SemanticStore) (txn : Transaction) : TxnResult :=
  match checkBaseRevision s txn.baseRevision with
  | .error e => (s, err e)
  | .ok () => applyStagedWith (applyIn visit) s txn.operations txn.newRevision

/-- `perform` where the properties of the items are visited in the order `visit`. -/
def performIn (visit : Visit) (s : SemanticStore) : TransactionCall → TxnResult
  | .applyTransaction baseRevision ops =>
    match checkBaseRevision s baseRevision with
    | .error e => (s, err e)
    | .ok () =>
      match checkedNext baseRevision with
      | none => (s, err (.revisionExhausted baseRevision))
      | some newRevision => applyStagedWith (applyIn visit) s ops newRevision
  | .applyTransactionRecord txn =>
    match validateCommit txn with
    | .error e => (s, err e)
    | .ok () => applyCheckedIn visit s txn
  | .applyWireTransaction wire =>
    match decodeTransaction wire with
    | .error e => (s, err e)
    | .ok txn =>
      match validateCommit txn with
      | .error e => (s, err e)
      | .ok () => applyCheckedIn visit s txn
  | .applyDeliveredTransaction wire =>
    match decodeTransaction wire with
    | .error e => (s, err e)
    | .ok txn =>
      match classify txn with
      | .error e => (s, err e)
      | .ok (.commit commit) => applyCheckedIn visit s commit.txn
      | .ok (.delta delta) => applyCheckedIn visit s delta.txn
  | .prepareAndCommit commit =>
    match checkBaseRevision s commit.txn.baseRevision with
    | .error e => (s, err e)
    | .ok () =>
      if commit.txn.operations.length > s.limits.maxTransactionOperations then
        (s, err (.maxOperationsExceeded s.limits.maxTransactionOperations
          commit.txn.operations.length))
      else
        match stage (applyIn visit) s 0 commit.txn.operations with
        | .error f => (s, .error f)
        | .ok staged =>
          match commitPrepared s ⟨staged, commit.txn.baseRevision, commit.txn.newRevision⟩ with
          | .error f => (s, .error f)
          | .ok s' => (s', .ok commit.txn.newRevision)
  | .replaceFromSnapshot snapshot =>
    if snapshot.txn.newRevision < s.revision then
      (s, err (.invalidNewRevision s.revision snapshot.txn.newRevision))
    else if snapshot.txn.operations.length > s.limits.maxTransactionOperations then
      (s, err (.maxOperationsExceeded s.limits.maxTransactionOperations
        snapshot.txn.operations.length))
    else
      match stage (applyIn visit) (SemanticStore.withLimitsAndRevision s.limits 0) 0
          snapshot.txn.operations with
      | .error f => (s, .error f)
      | .ok staged =>
        (commitStaging (SemanticStore.withLimitsAndRevision s.limits 0) staged
          snapshot.txn.newRevision, .ok snapshot.txn.newRevision)

def declared : TransactionCall → Option Transaction
  | .applyTransaction baseRevision ops => some ⟨baseRevision, baseRevision + 1, ops, 0⟩
  | .applyTransactionRecord txn => some txn
  | .applyWireTransaction wire => (decodeTransaction wire).toOption
  | .applyDeliveredTransaction wire => (decodeTransaction wire).toOption
  | .prepareAndCommit commit => some commit.txn
  | .replaceFromSnapshot snapshot => some snapshot.txn

/-- The span of revisions a call may cover. A commit takes the one step that
exists below `u64::MAX`, a delivered delta any forward span of scalar updates,
and a snapshot never goes back. -/
def SpanAllowed (before : Revision) (txn : Transaction) : TransactionCall → Prop
  | .applyDeliveredTransaction _ =>
    txn.baseRevision = before ∧ before < u64Max ∧ before < txn.newRevision ∧
      (txn.newRevision = before + 1 ∨ isCoalesceable txn = true)
  | .replaceFromSnapshot _ => before ≤ txn.newRevision
  | _ => txn.baseRevision = before ∧ before < u64Max ∧ txn.newRevision = before + 1

/-- A call either leaves the store alone or commits `txn`. -/
inductive Settled (s : SemanticStore) (txn : Transaction) : TxnResult → Prop where
  | refused (f : Fault TxnError) : Settled s txn (s, .error f)
  | committed (s' : SemanticStore) (h : s'.revision = txn.newRevision) :
      Settled s txn (s', .ok txn.newRevision)

variable {s : SemanticStore} {txn : Transaction}

variable {r : TxnResult}

theorem Settled.unchanged (h : Settled s txn r) {f : Fault TxnError} (hf : r.2 = .error f) :
    r.1 = s := by
  cases h with
  | refused _ => rfl
  | committed s' _ => simp at hf

theorem Settled.revision (h : Settled s txn r) {revision : Revision} (hok : r.2 = .ok revision) :
    revision = txn.newRevision ∧ r.1.revision = txn.newRevision := by
  cases h with
  | refused _ => simp at hok
  | committed s' hs' => exact ⟨(Except.ok.inj hok).symm, hs'⟩

theorem applyStagedWith_settled
    (applyOp : Operation → SemanticStore → Mutation SemanticStore) :
    Settled s txn (applyStagedWith applyOp s txn.operations txn.newRevision) := by
  unfold applyStagedWith
  split
  · exact .refused _
  split
  · exact .refused _
  · exact .committed _ rfl

theorem checkedNext_eq_some {base next : Revision} (h : checkedNext base = some next) :
    base < u64Max ∧ next = base + 1 := by
  obtain ⟨hfits, heq⟩ := checkedAdd_eq_some.mp h
  exact ⟨Nat.lt_of_succ_le hfits, heq⟩

theorem validateCommit_ok (h : validateCommit txn = .ok ()) :
    txn.baseRevision < u64Max ∧ txn.newRevision = txn.baseRevision + 1 := by
  unfold validateCommit at h
  split at h
  · simp at h
  · rename_i next hnext
    split at h
    · simp at h
    · rename_i heq
      obtain ⟨hlt, rfl⟩ := checkedNext_eq_some hnext
      exact ⟨hlt, not_not.mp heq⟩

theorem validateDelta_ok (h : validateDelta txn = .ok ()) :
    txn.baseRevision < u64Max ∧ txn.baseRevision < txn.newRevision ∧
      isCoalesceable txn = true := by
  unfold validateDelta at h
  split at h
  · simp at h
  · rename_i next hnext
    split at h
    · simp at h
    · rename_i hshape
      rw [not_or] at hshape
      exact ⟨(checkedNext_eq_some hnext).1, Nat.lt_of_not_le hshape.1, by simpa using hshape.2⟩

theorem checkBaseRevision_ok {base : Revision} (h : checkBaseRevision s base = .ok ()) :
    base = s.revision := by
  unfold checkBaseRevision at h
  split at h
  · simp at h
  · rename_i heq
    exact not_not.mp heq

theorem applyValidated_settled (s : SemanticStore) (txn : Transaction) :
    Settled s txn (applyValidated s txn) := by
  unfold applyValidated
  split
  · exact .refused _
  · exact applyStagedWith_settled apply

theorem applyTransactionRecord_settled (s : SemanticStore) (txn : Transaction) :
    Settled s txn (applyTransactionRecord s txn) := by
  unfold applyTransactionRecord
  split
  · exact .refused _
  split
  · exact .refused _
  · exact applyStagedWith_settled apply

theorem applyTransactionRecord_span {r : Revision}
    (hok : (applyTransactionRecord s txn).2 = .ok r) :
    txn.baseRevision = s.revision ∧ s.revision < u64Max ∧ txn.newRevision = s.revision + 1 := by
  rw [applyTransactionRecord] at hok
  split at hok
  · simp [err] at hok
  rename_i hvalid
  split at hok
  · simp [err] at hok
  rename_i hbase
  have heq := checkBaseRevision_ok hbase
  exact heq ▸ ⟨rfl, validateCommit_ok hvalid⟩

theorem replaceFromSnapshot_settled (s : SemanticStore) (snapshot : ResyncSnapshot) :
    Settled s snapshot.txn (replaceFromSnapshot s snapshot) := by
  unfold replaceFromSnapshot
  split
  · exact .refused _
  split
  · exact .refused _
  split
  · exact .refused _
  · exact .committed _ rfl

theorem prepareAndCommit_eq (s : SemanticStore) (commit : AuthoritativeCommit) :
    prepareAndCommit s commit = applyTransactionRecord s commit.txn := by
  unfold prepareAndCommit prepareCommit applyTransactionRecord
  rw [commit.valid]
  cases hbase : checkBaseRevision s commit.txn.baseRevision with
  | error e => rfl
  | ok _ =>
    dsimp only
    unfold applyStaged applyStagedWith
    by_cases hlimit : commit.txn.operations.length > s.limits.maxTransactionOperations
    · rw [if_pos hlimit, if_pos hlimit]
    · rw [if_neg hlimit, if_neg hlimit]
      cases hstage : stage apply s 0 commit.txn.operations with
      | error f => rfl
      | ok staged =>
        have hrevision := checkBaseRevision_ok hbase
        simp [commitPrepared, hrevision]

theorem applyWireTransaction_encoded {wire : WireTransaction}
    (h : decodeTransaction wire = .ok txn) :
    applyWireTransaction s (encodeTransaction txn) = applyTransactionRecord s txn := by
  rw [applyWireTransaction, decodeTransaction_stable h, applyTransactionRecord]
  dsimp only
  rw [applyStagedOwned, applyOwned_eq_apply]
  rfl

theorem classify_commit {commit : AuthoritativeCommit} (h : classify txn = .ok (.commit commit)) :
    commit.txn = txn := by
  unfold classify at h
  split at h
  · simp at h
  · split at h
    · injection h with h
      injection h with h
      rw [← h]
    · split at h
      · simp at h
      · simp at h

theorem classify_delta {delta : CoalescedScalarDelta} (h : classify txn = .ok (.delta delta)) :
    delta.txn = txn := by
  unfold classify at h
  split at h
  · simp at h
  · split at h
    · simp at h
    · split at h
      · injection h with h
        injection h with h
        rw [← h]
      · simp at h

theorem perform_settled (s : SemanticStore) (call : TransactionCall) :
    (∃ e, perform s call = (s, err e)) ∨
      ∃ txn, declared call = some txn ∧ Settled s txn (perform s call) ∧
        (∀ r, (perform s call).2 = .ok r → SpanAllowed s.revision txn call) := by
  cases call with
  | applyTransaction baseRevision ops =>
    cases hbase : checkBaseRevision s baseRevision with
    | error e => exact Or.inl ⟨e, by simp [perform, applyTransaction, hbase]⟩
    | ok _ =>
      cases hnext : checkedNext baseRevision with
      | none => exact Or.inl ⟨.revisionExhausted baseRevision,
          by simp [perform, applyTransaction, hbase, hnext]⟩
      | some next =>
        obtain ⟨hlt, rfl⟩ := checkedNext_eq_some hnext
        have heq := checkBaseRevision_ok hbase
        have hperform : perform s (.applyTransaction baseRevision ops) =
            applyStagedOwned s ops (baseRevision + 1) := by
          simp [perform, applyTransaction, hbase, hnext]
        refine Or.inr ⟨⟨baseRevision, baseRevision + 1, ops, 0⟩, rfl, ?_, ?_⟩
        · have hsettled : Settled s ⟨baseRevision, baseRevision + 1, ops, 0⟩
              (applyStagedOwned s ops (baseRevision + 1)) :=
            applyStagedWith_settled applyOwned
          rw [hperform]
          exact hsettled
        · intro r _
          exact heq ▸ ⟨rfl, hlt, rfl⟩
  | applyTransactionRecord txn =>
    refine Or.inr ⟨txn, rfl, applyTransactionRecord_settled s txn, ?_⟩
    intro r hok
    exact applyTransactionRecord_span hok
  | applyWireTransaction wire =>
    cases hdecode : decodeTransaction wire with
    | error e => exact Or.inl ⟨e, by simp [perform, applyWireTransaction, hdecode]⟩
    | ok txn =>
      have hperform : perform s (.applyWireTransaction wire) = applyTransactionRecord s txn := by
        rw [perform, applyWireTransaction, hdecode, applyTransactionRecord]
        dsimp only
        rw [applyStagedOwned, applyOwned_eq_apply]
        rfl
      refine Or.inr ⟨txn, by simp [declared, hdecode, Except.toOption], ?_, ?_⟩
      · rw [hperform]
        exact applyTransactionRecord_settled s txn
      · intro r hok
        rw [hperform] at hok
        exact applyTransactionRecord_span hok
  | applyDeliveredTransaction wire =>
    cases hdecode : decodeTransaction wire with
    | error e => exact Or.inl ⟨e, by simp [perform, applyDeliveredTransaction, hdecode]⟩
    | ok txn =>
      cases hclass : classify txn with
      | error e => exact Or.inl ⟨e, by simp [perform, applyDeliveredTransaction, hdecode, hclass]⟩
      | ok delivered =>
        have hperform : perform s (.applyDeliveredTransaction wire) = applyValidated s txn := by
          cases delivered with
          | commit commit =>
            simp [perform, applyDeliveredTransaction, hdecode, hclass, applyAuthoritative,
              classify_commit hclass]
          | delta delta =>
            simp [perform, applyDeliveredTransaction, hdecode, hclass, applyCoalescedDelta,
              classify_delta hclass]
        refine Or.inr ⟨txn, by simp [declared, hdecode, Except.toOption], ?_, ?_⟩
        · rw [hperform]
          exact applyValidated_settled s txn
        · intro r hok
          rw [hperform, applyValidated] at hok
          split at hok
          · simp [err] at hok
          rename_i hbase
          have heq := checkBaseRevision_ok hbase
          cases delivered with
          | commit commit =>
            have hvalid := commit.valid
            rw [classify_commit hclass] at hvalid
            obtain ⟨hlt, hnew⟩ := validateCommit_ok hvalid
            exact heq ▸ ⟨rfl, hlt, hnew ▸ Nat.lt_succ_self _, Or.inl hnew⟩
          | delta delta =>
            have hvalid := delta.valid
            rw [classify_delta hclass] at hvalid
            obtain ⟨hlt, hforward, hscalar⟩ := validateDelta_ok hvalid
            exact heq ▸ ⟨rfl, hlt, hforward, Or.inr hscalar⟩
  | prepareAndCommit commit =>
    have hperform : perform s (.prepareAndCommit commit) =
        applyTransactionRecord s commit.txn := prepareAndCommit_eq s commit
    refine Or.inr ⟨commit.txn, rfl, ?_, ?_⟩
    · rw [hperform]
      exact applyTransactionRecord_settled s commit.txn
    · intro r hok
      rw [hperform] at hok
      exact applyTransactionRecord_span hok
  | replaceFromSnapshot snapshot =>
    refine Or.inr ⟨snapshot.txn, rfl, replaceFromSnapshot_settled s snapshot, ?_⟩
    intro r hok
    rw [perform, replaceFromSnapshot] at hok
    split at hok
    · simp [err] at hok
    rename_i hforward
    exact Nat.le_of_not_lt hforward

/-! ### Visiting orders -/

theorem performIn_ascending (s : SemanticStore) (call : TransactionCall) :
    performIn .ascending s call = perform s call := by
  cases call with
  | prepareAndCommit commit =>
    rw [perform, prepareAndCommit, prepareCommit, performIn, applyIn_ascending]
    cases checkBaseRevision s commit.txn.baseRevision with
    | error e => rfl
    | ok _ =>
      dsimp only
      by_cases hlimit : commit.txn.operations.length > s.limits.maxTransactionOperations
      · rw [if_pos hlimit, if_pos hlimit]
      · rw [if_neg hlimit, if_neg hlimit]
        cases stage apply s 0 commit.txn.operations <;> rfl
  | applyTransaction baseRevision ops =>
    rw [perform, applyTransaction, performIn, applyIn_ascending, ← applyOwned_eq_apply]
    rfl
  | applyWireTransaction wire =>
    rw [perform, applyWireTransaction]
    simp only [performIn, applyCheckedIn, applyIn_ascending, ← applyOwned_eq_apply]
    rfl
  | _ =>
    simp only [performIn, applyCheckedIn, applyIn_ascending]
    rfl

variable {visit visit' : Visit}

/-- Two results that leave one store and differ in the reported violation at most. -/
def Alike (r r' : TxnResult) : Prop := r.1 = r'.1 ∧ SameEnd r.2 r'.2

theorem Alike.refl (r : TxnResult) : Alike r r := ⟨rfl, .same _⟩

theorem applyCheckedIn_alike (s : SemanticStore) (txn : Transaction) :
    Alike (applyCheckedIn visit s txn) (applyCheckedIn visit' s txn) := by
  unfold applyCheckedIn
  split
  · exact .refl _
  · exact applyStagedWith_agrees visit visit' s _ _

theorem performIn_alike (visit visit' : Visit) (s : SemanticStore) (call : TransactionCall) :
    Alike (performIn visit s call) (performIn visit' s call) := by
  cases call with
  | applyTransaction baseRevision ops =>
    rw [performIn, performIn]
    split
    · exact .refl _
    split
    · exact .refl _
    · exact applyStagedWith_agrees visit visit' s _ _
  | applyTransactionRecord txn =>
    rw [performIn, performIn]
    split
    · exact .refl _
    · exact applyCheckedIn_alike s txn
  | applyWireTransaction wire =>
    rw [performIn, performIn]
    split
    · exact .refl _
    split
    · exact .refl _
    · exact applyCheckedIn_alike s _
  | applyDeliveredTransaction wire =>
    rw [performIn, performIn]
    split
    · exact .refl _
    split
    · exact .refl _
    · exact applyCheckedIn_alike s _
    · exact applyCheckedIn_alike s _
  | prepareAndCommit commit =>
    rw [performIn, performIn]
    split
    · exact .refl _
    split
    · exact .refl _
    have hstage := stage_agrees visit visit' s 0 commit.txn.operations
    generalize stage (applyIn visit) s 0 commit.txn.operations = staged at hstage
    generalize stage (applyIn visit') s 0 commit.txn.operations = staged' at hstage
    cases hstage with
    | same r => exact .refl _
    | opFailed opIndex source source' => exact ⟨rfl, .opFailed opIndex source source'⟩
  | replaceFromSnapshot snapshot =>
    rw [performIn, performIn]
    split
    · exact .refl _
    split
    · exact .refl _
    have hstage := stage_agrees visit visit' (SemanticStore.withLimitsAndRevision s.limits 0) 0
      snapshot.txn.operations
    generalize stage (applyIn visit) _ 0 snapshot.txn.operations = staged at hstage
    generalize stage (applyIn visit') _ 0 snapshot.txn.operations = staged' at hstage
    cases hstage with
    | same r => exact .refl _
    | opFailed opIndex source source' => exact ⟨rfl, .opFailed opIndex source source'⟩

theorem performIn_alike_perform (visit : Visit) (s : SemanticStore) (call : TransactionCall) :
    Alike (performIn visit s call) (perform s call) :=
  performIn_ascending s call ▸ performIn_alike visit .ascending s call

theorem Alike.refused {r' : TxnResult} (h : Alike r r') {f : Fault TxnError} (hf : r.2 = .error f) :
    ∃ f', r'.2 = .error f' := by
  obtain ⟨-, hend⟩ := h
  generalize r.2 = outcome at hend hf
  generalize r'.2 = outcome' at hend ⊢
  cases hend with
  | same _ => exact ⟨f, hf⟩
  | opFailed opIndex source source' => exact ⟨_, rfl⟩

theorem Alike.committed {r' : TxnResult} (h : Alike r r') {revision : Revision}
    (hok : r.2 = .ok revision) : r' = r := by
  obtain ⟨hstore, hend⟩ := h
  refine Prod.ext hstore.symm ?_
  generalize r.2 = outcome at hend hok ⊢
  generalize r'.2 = outcome' at hend ⊢
  cases hend with
  | same _ => rfl
  | opFailed opIndex source source' => cases hok

theorem performIn_wire {visit : Visit} {wire : WireTransaction}
    (hdecode : decodeTransaction wire = .ok txn) :
    performIn visit s (.applyWireTransaction (encodeTransaction txn)) =
      performIn visit s (.applyTransactionRecord txn) := by
  simp only [performIn, decodeTransaction_stable hdecode]

theorem performIn_prepared (visit : Visit) (valid : validateCommit txn = .ok ()) :
    performIn visit s (.prepareAndCommit ⟨txn, valid⟩) =
      performIn visit s (.applyTransactionRecord txn) := by
  rw [performIn, performIn, valid]
  dsimp only
  rw [applyCheckedIn]
  cases hbase : checkBaseRevision s txn.baseRevision with
  | error e => rfl
  | ok _ =>
    dsimp only
    unfold applyStagedWith
    by_cases hlimit : txn.operations.length > s.limits.maxTransactionOperations
    · rw [if_pos hlimit, if_pos hlimit]
    · rw [if_neg hlimit, if_neg hlimit]
      cases hstage : stage (applyIn visit) s 0 txn.operations with
      | error f => rfl
      | ok staged =>
        have hrevision := checkBaseRevision_ok hbase
        simp [commitPrepared, hrevision]

/-- In whatever order the properties of the items are visited: on every failure
the store is the one before the call; on success its revision is the declared
one, within the span the form of the call allows. For a decoded commit the
borrowed, the owned and the prepared path, each visiting in an order of its own,
leave the same store and end the same way, down to the index of a failing
operation; in one order they report the same error too. -/
theorem transaction_atomicity (s : SemanticStore) (visit : Visit) :
    (∀ call f, (performIn visit s call).2 = .error f → (performIn visit s call).1 = s) ∧
    (∀ call revision, (performIn visit s call).2 = .ok revision →
      ∃ txn, declared call = some txn ∧ revision = txn.newRevision ∧
        (performIn visit s call).1.revision = txn.newRevision ∧
        SpanAllowed s.revision txn call) ∧
    ∀ wire txn, decodeTransaction wire = .ok txn → ∀ valid : validateCommit txn = .ok (),
      (∀ owned prepared : Visit,
        Alike (performIn owned s (.applyWireTransaction (encodeTransaction txn)))
            (performIn visit s (.applyTransactionRecord txn)) ∧
          Alike (performIn prepared s (.prepareAndCommit ⟨txn, valid⟩))
            (performIn visit s (.applyTransactionRecord txn))) ∧
        performIn visit s (.applyWireTransaction (encodeTransaction txn)) =
          performIn visit s (.applyTransactionRecord txn) ∧
        performIn visit s (.prepareAndCommit ⟨txn, valid⟩) =
          performIn visit s (.applyTransactionRecord txn) := by
  refine ⟨?_, ?_, ?_⟩
  · intro call f hf
    have halike := performIn_alike_perform visit s call
    obtain ⟨f', hf'⟩ := halike.refused hf
    rw [halike.1]
    rcases perform_settled s call with ⟨e, heq⟩ | ⟨txn, -, hsettled, -⟩
    · rw [heq]
    · exact hsettled.unchanged hf'
  · intro call revision hok
    have hsame := (performIn_alike_perform visit s call).committed hok
    rw [← hsame] at hok ⊢
    rcases perform_settled s call with ⟨e, heq⟩ | ⟨txn, hdeclared, hsettled, hspan⟩
    · rw [heq] at hok
      simp [err] at hok
    · obtain ⟨hrevision, hstore⟩ := hsettled.revision hok
      exact ⟨txn, hdeclared, hrevision, hstore, hspan revision hok⟩
  · intro wire txn hdecode valid
    refine ⟨?_, performIn_wire hdecode, performIn_prepared visit valid⟩
    intro owned prepared
    rw [performIn_wire hdecode, performIn_prepared prepared valid]
    exact ⟨performIn_alike owned visit s _, performIn_alike prepared visit s _⟩

def failingCommit : Transaction :=
  ⟨0, 1, [.createNode 1 ⟨0, 1⟩ none none [], .deleteNode 7], 0⟩

theorem failingCommit_atomic :
    (performIn .ascending (SemanticStore.withLimits StoreLimits.default)
        (.applyWireTransaction (encodeTransaction failingCommit))).2 =
      err (.opFailed 1 (.nodeNotFound 7)) ∧
    (performIn .ascending (SemanticStore.withLimits StoreLimits.default)
        (.applyWireTransaction (encodeTransaction failingCommit))).1 =
      SemanticStore.withLimits StoreLimits.default := by
  have hresult : (performIn .ascending (SemanticStore.withLimits StoreLimits.default)
      (.applyWireTransaction (encodeTransaction failingCommit))).2 =
        err (.opFailed 1 (.nodeNotFound 7)) := by
    decide +kernel
  exact ⟨hresult, (transaction_atomicity _ .ascending).1 _ _ hresult⟩

def descending : Visit :=
  ⟨fun item => item.properties.toList.reverse, fun _ => List.reverse_perm _⟩

/-- No string may be longer than nothing, and the inserted item has two that are. -/
def longLabels : Transaction :=
  ⟨0, 1, [.createModel 1 ⟨0, 1⟩ 0, .modelInsert 1 0 [⟨7, .null,
    collectProperties [(⟨0, 1⟩, .scalar (.string "a")), (⟨0, 2⟩, .scalar (.string "bb"))]⟩]], 0⟩

/-- The two paths meet the labels in opposite orders and report different ones. -/
theorem longLabels_reported : ¬ ∀ (s : SemanticStore) (borrowed owned : Visit)
    (wire : WireTransaction) (txn : Transaction), decodeTransaction wire = .ok txn →
      validateCommit txn = .ok () →
        performIn owned s (.applyWireTransaction (encodeTransaction txn)) =
          performIn borrowed s (.applyTransactionRecord txn) := by
  intro hall
  have hsame := hall (SemanticStore.withLimits { StoreLimits.default with maxStringLength := 0 })
    .ascending descending (encodeTransaction longLabels) longLabels (by decide +kernel)
    (by decide +kernel)
  exact absurd (congrArg Prod.snd hsame) (by decide +kernel)

end Srui.SemanticTree.TransactionAtomicity

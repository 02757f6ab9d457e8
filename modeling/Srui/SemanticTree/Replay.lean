import Srui.SemanticTree.OperationEffects
import Srui.SemanticTree.WireRoundTrip

/-!
Operations that apply in order without a failure, and what a replica makes of
them when they are delivered as a transaction.
-/

namespace Srui.SemanticTree.Replay

open Basic.Machine Basic.Runs SemanticTree.Values SemanticTree.Stores SemanticTree.Operations
open SemanticTree.OperationEffects SemanticTree.Transactions SemanticTree.Wire
open SemanticTree.WireRoundTrip

/-- Applying the operations in order succeeds and ends in `s'`. -/
def Applies : SemanticStore → List Operation → SemanticStore → Prop
  | s, [], s' => s' = s
  | s, op :: rest, s' => (apply op s).2 = .ok () ∧ Applies (apply op s).1 rest s'

variable {s s' : SemanticStore} {ops : List Operation}

theorem Applies.append {s'' : SemanticStore} {ops' : List Operation}
    (h : Applies s ops s') (h' : Applies s' ops' s'') : Applies s (ops ++ ops') s'' := by
  induction ops generalizing s with
  | nil =>
    rw [Applies] at h
    exact h ▸ h'
  | cons op rest ih => exact ⟨h.1, ih h.2⟩

theorem Applies.staged (h : Applies s ops s')
    (opIndex : Nat) : stage apply s opIndex ops = .ok s' := by
  induction ops generalizing s opIndex with
  | nil =>
    rw [Applies] at h
    rw [h]
    rfl
  | cons op rest ih =>
    obtain ⟨hok, hrest⟩ := h
    rw [stage]
    generalize apply op s = result at hok hrest
    obtain ⟨staged, outcome⟩ := result
    subst hok
    exact ih hrest (opIndex + 1)

theorem Applies.eq_run (h : Applies s ops s') :
    s' = run applyStep s ops := by
  induction ops generalizing s with
  | nil => exact h
  | cons op rest ih => exact ih h.2

theorem applies_of_staged {opIndex : Nat}
    (h : stage apply s opIndex ops = .ok s') : Applies s ops s' := by
  induction ops generalizing s opIndex with
  | nil => exact (Except.ok.inj h).symm
  | cons op rest ih =>
    rw [stage] at h
    cases hop : apply op s with
    | mk staged result =>
      cases result with
      | error f => simp [hop] at h
      | ok _ =>
        rw [hop] at h
        refine ⟨by rw [hop], ?_⟩
        rw [hop]
        exact ih h

theorem stage_images (hsafe : ∀ op ∈ ops, WireSafe op) (s : SemanticStore)
    (opIndex : Nat) : stage apply s opIndex (ops.map wireImage) = stage apply s opIndex ops := by
  induction ops generalizing s opIndex with
  | nil => rfl
  | cons op rest ih =>
    rw [List.map_cons, stage, stage, apply_wireImage (hsafe op List.mem_cons_self)]
    have hrest := ih fun other hother => hsafe other (List.mem_cons_of_mem op hother)
    simp only [hrest]

variable {txn : Transaction}

theorem classify_commit
    (h : checkedNext txn.baseRevision = some txn.newRevision) :
    ∃ delivered, classify txn = .ok delivered := by
  unfold classify
  split
  · rename_i hnone
    rw [h] at hnone
    simp at hnone
  · rename_i next hnext
    rw [h] at hnext
    rw [dif_pos (Option.some.inj hnext)]
    exact ⟨_, rfl⟩

theorem classify_delta {next : Revision}
    (hnext : checkedNext txn.baseRevision = some next) (hlt : next < txn.newRevision)
    (hscalar : isCoalesceable txn = true) : ∃ delivered, classify txn = .ok delivered := by
  obtain ⟨-, rfl⟩ := checkedAdd_eq_some.mp hnext
  have hvalid : validateDelta txn = .ok () := by
    rw [validateDelta, hnext]
    simp only
    rw [if_neg]
    rintro (hle | hnot)
    · exact absurd hlt (Nat.not_lt.mpr (Nat.le_succ_of_le hle))
    · simp [hscalar] at hnot
  unfold classify
  split
  · rename_i hnone
    rw [hnext] at hnone
    simp at hnone
  · rename_i other hother
    rw [hnext] at hother
    rw [dif_neg (by rw [← Option.some.inj hother]; exact Nat.ne_of_gt hlt)]
    split
    · exact ⟨_, rfl⟩
    · rename_i e he
      rw [hvalid] at he
      simp at he

theorem classify_forward {delivered : DeliveredTransaction}
    (h : classify txn = .ok delivered) :
    checkedNext txn.baseRevision = some (txn.baseRevision + 1) ∧
      txn.baseRevision < txn.newRevision := by
  unfold classify at h
  split at h
  · simp at h
  rename_i next hnext
  obtain ⟨-, rfl⟩ := checkedAdd_eq_some.mp hnext
  refine ⟨hnext, ?_⟩
  split at h
  · rename_i hnew
    rw [hnew]
    exact Nat.lt_succ_self _
  · split at h
    · rename_i hdelta
      rw [validateDelta, hnext] at hdelta
      simp only at hdelta
      split at hdelta
      · simp at hdelta
      · rename_i hvalid
        exact Nat.not_le.mp fun hle => hvalid (Or.inl hle)
    · simp at h

variable {wire : WireTransaction}

theorem applyDelivered_of_classified {delivered : DeliveredTransaction}
    (hdecode : decodeTransaction wire = .ok txn) (hclass : classify txn = .ok delivered) :
    applyDeliveredTransaction s wire = applyValidated s txn := by
  rw [applyDeliveredTransaction, hdecode]
  simp only [hclass]
  unfold classify at hclass
  split at hclass
  · simp at hclass
  split at hclass
  · rw [← Except.ok.inj hclass]
    rfl
  · split at hclass
    · rw [← Except.ok.inj hclass]
      rfl
    · simp at hclass

def landed (s : SemanticStore) (newRevision : Revision) :
    Outcome TxnError SemanticStore → TxnResult
  | .error f => (s, .error f)
  | .ok staged => (commitStaging s staged newRevision, .ok newRevision)

theorem applyValidated_eq (s : SemanticStore) (txn : Transaction)
    (hbase : txn.baseRevision = s.revision)
    (hlength : txn.operations.length ≤ s.limits.maxTransactionOperations) :
    applyValidated s txn =
      landed s txn.newRevision (stage apply s 0 txn.operations) := by
  have hfits : ¬ txn.operations.length > s.limits.maxTransactionOperations := by omega
  rw [applyValidated, checkBaseRevision, if_neg (not_not.mpr hbase)]
  simp only [applyStaged, applyStagedWith, if_neg hfits]
  rfl

theorem applyDelivered_encoded
    (hclass : ∃ delivered, classify (imageTransaction txn) = .ok delivered)
    (hbase : txn.baseRevision = s.revision)
    (hsafe : ∀ op ∈ txn.operations, WireSafe op)
    (hlength : txn.operations.length ≤ s.limits.maxTransactionOperations) :
    applyDeliveredTransaction s (encodeTransaction txn) =
      landed s txn.newRevision (stage apply s 0 txn.operations) := by
  obtain ⟨delivered, hclass⟩ := hclass
  have hfits : (imageTransaction txn).operations.length ≤ s.limits.maxTransactionOperations := by
    rw [imageTransaction, List.length_map]
    exact hlength
  rw [applyDelivered_of_classified (decodeTransaction_encodeTransaction txn) hclass,
    applyValidated_eq s (imageTransaction txn) hbase hfits]
  simp only [imageTransaction, stage_images hsafe]

variable {revision : Revision}

theorem applyValidated_ok
    (h : applyValidated s txn = (s', .ok revision)) :
    txn.baseRevision = s.revision ∧ revision = txn.newRevision ∧
      ∃ staged, Applies s txn.operations staged ∧ s' = commitStaging s staged txn.newRevision := by
  rw [applyValidated, checkBaseRevision] at h
  split at h
  · simp at h
  rename_i hcheck
  split at hcheck
  · simp at hcheck
  rename_i hbase
  rw [applyStaged, applyStagedWith] at h
  split at h
  · simp at h
  split at h
  · simp at h
  rename_i staged hstage
  obtain ⟨rfl, hrevision⟩ := Prod.mk.inj h
  exact ⟨not_not.mp hbase, (Except.ok.inj hrevision).symm, staged, applies_of_staged hstage, rfl⟩

theorem applyValidated_length
    (h : applyValidated s txn = (s', .ok revision)) :
    txn.operations.length ≤ s.limits.maxTransactionOperations := by
  by_contra hlong
  have hexceeds : txn.operations.length > s.limits.maxTransactionOperations := Nat.not_le.mp hlong
  rw [applyValidated] at h
  split at h
  · simp at h
  · simp [applyStaged, applyStagedWith, hexceeds] at h

theorem applyDelivered_ok
    (h : applyDeliveredTransaction s wire = (s', .ok revision)) :
    ∃ txn staged, decodeTransaction wire = .ok txn ∧ txn.baseRevision = s.revision ∧
      checkedNext txn.baseRevision = some (txn.baseRevision + 1) ∧
      txn.baseRevision < txn.newRevision ∧ revision = txn.newRevision ∧
      Applies s txn.operations staged ∧ s' = commitStaging s staged txn.newRevision := by
  cases hdecode : decodeTransaction wire with
  | error e => simp [applyDeliveredTransaction, hdecode] at h
  | ok txn =>
    cases hclass : classify txn with
    | error e => simp [applyDeliveredTransaction, hdecode, hclass] at h
    | ok delivered =>
      obtain ⟨hnext, hforward⟩ := classify_forward hclass
      rw [applyDelivered_of_classified hdecode hclass] at h
      obtain ⟨hbase, hrevision, staged, happlies, hs'⟩ := applyValidated_ok h
      exact ⟨txn, staged, rfl, hbase, hnext, hforward, hrevision, happlies, hs'⟩

theorem applyDelivered_commit_iff (txn : Transaction)
    (hbase : txn.baseRevision = s.revision)
    (hnext : checkedNext txn.baseRevision = some txn.newRevision)
    (hsafe : ∀ op ∈ txn.operations, WireSafe op)
    (hlength : txn.operations.length ≤ s.limits.maxTransactionOperations) :
    applyDeliveredTransaction s (encodeTransaction txn) =
        (commitStaging s (run applyStep s txn.operations) txn.newRevision,
          .ok txn.newRevision) ↔
      Applies s txn.operations (run applyStep s txn.operations) := by
  have hclass : ∃ delivered, classify (imageTransaction txn) = .ok delivered :=
    classify_commit hnext
  rw [applyDelivered_encoded hclass hbase hsafe hlength]
  constructor
  · intro h
    cases hstage : stage apply s 0 txn.operations with
    | error f => simp [hstage, landed] at h
    | ok result =>
      have happlies := applies_of_staged hstage
      exact happlies.eq_run ▸ happlies
  · intro h
    rw [h.staged 0, landed]

theorem applyAuthoritative_delivered {commit : AuthoritativeCommit}
    (h : applyAuthoritative s commit = (s', .ok revision))
    (hsafe : ∀ op ∈ commit.txn.operations, WireSafe op) :
    applyDeliveredTransaction s (encodeTransaction commit.txn) =
      (s', .ok commit.txn.newRevision) := by
  rw [applyAuthoritative] at h
  obtain ⟨hbase, -, staged, happlies, rfl⟩ := applyValidated_ok h
  have hclass : ∃ delivered, classify (imageTransaction commit.txn) = .ok delivered :=
    classify_commit (validateCommit_next commit.valid)
  rw [applyDelivered_encoded hclass hbase hsafe (applyValidated_length h), happlies.staged 0]
  rfl

theorem decodeTransaction_revisions
    (h : decodeTransaction wire = .ok txn) :
    txn.baseRevision = wire.baseRevision ∧ txn.newRevision = wire.newRevision := by
  rw [decodeTransaction] at h
  split at h
  · simp at h
  · rw [← Except.ok.inj h]
    exact ⟨rfl, rfl⟩

theorem applyDelivered_revisions {tx : WireTransaction} {r : Revision}
    (h : applyDeliveredTransaction s tx = (s', .ok r)) :
    tx.baseRevision = s.revision ∧ s.revision < tx.newRevision ∧ s'.revision = tx.newRevision := by
  obtain ⟨txn, staged, hdecode, hbase, -, hforward, -, -, rfl⟩ := applyDelivered_ok h
  obtain ⟨hbase', hnew'⟩ := decodeTransaction_revisions hdecode
  rw [hbase', hnew'] at hforward
  rw [hbase'] at hbase
  exact ⟨hbase, hbase ▸ hforward, hnew'⟩

/-!
Stores found by their revision.
-/

def storeAt (history : List SemanticStore) (revision : Revision) : Option SemanticStore :=
  history.find? fun s => s.revision = revision

theorem storeAt_mem {history : List SemanticStore}
    (hordered : history.Pairwise fun a b => a.revision < b.revision)
    (hs : s ∈ history) : storeAt history s.revision = some s := by
  induction history with
  | nil => simp at hs
  | cons first rest ih =>
    rw [List.pairwise_cons] at hordered
    rw [storeAt, List.find?_cons]
    rcases List.mem_cons.mp hs with rfl | hrest
    · simp
    · have hne : first.revision ≠ s.revision := Nat.ne_of_lt (hordered.1 s hrest)
      simp only [hne, decide_false]
      exact ih hordered.2 hrest

end Srui.SemanticTree.Replay

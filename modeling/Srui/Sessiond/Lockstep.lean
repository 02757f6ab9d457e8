import Srui.SemanticTree.Replay
import Srui.Sessiond.Sessions

/-!
A session's store and journal: when the journaled transaction, encoded and
decoded, takes a replica of the store to the store that was committed.
-/

namespace Srui.Sessiond.Lockstep

open Basic.Machine Basic.Runs SemanticTree.Values SemanticTree.Limits SemanticTree.Stores
open SemanticTree.Operations SemanticTree.OperationEffects SemanticTree.Transactions
open SemanticTree.Wire SemanticTree.WireRoundTrip SemanticTree.Replay Journal.TransactionJournals
open Sdk.UiTransactions Sessiond.Sessions

def operationOf : UiCall → Operation
  | .createNode id nodeType parentId childIndex properties =>
    .createNode id nodeType parentId childIndex properties
  | .set node prop val => .setProperty node prop val
  | .clear node prop => .clearProperty node prop
  | .delete node => .deleteNode node
  | .moveNode node newParentId newChildIndex => .moveNode node newParentId newChildIndex
  | .reorderChildren parent newOrder => .reorderChildren parent newOrder
  | .applyOp op => op

/-- `record_op` admits the next call. -/
def Admits (ui : UiTransaction) : Prop := ui.opCount + 1 ≤ ui.maxOps

variable {ui : UiTransaction} {τ : Type}

variable {α : Type}

theorem recorded_refused (h : ¬ Admits ui) (op : Operation)
    (mutate : SemanticStore → SemanticStore × Outcome StoreError α) :
    (ui.recorded op mutate).1 = { ui with opCount := ui.opCount + 1 } := by
  have hcount : ui.opCount + 1 > ui.maxOps := Nat.not_le.mp h
  simp [UiTransaction.recorded, UiTransaction.recordOp, hcount]

theorem recorded_admitted (h : Admits ui) (op : Operation)
    (mutate : SemanticStore → SemanticStore × Outcome StoreError α) :
    ui.recorded op mutate =
      ({ ui with opCount := ui.opCount + 1
                 operations := ui.operations ++ [op]
                 staged := (mutate ui.staged).1 }, (mutate ui.staged).2) := by
  have hcount : ¬ ui.opCount + 1 > ui.maxOps := Nat.not_lt.mpr h
  simp [UiTransaction.recorded, UiTransaction.recordOp, hcount]

def advanced (ui : UiTransaction) (op : Operation) : UiTransaction :=
  { ui with opCount := ui.opCount + 1
            operations := ui.operations ++ [op]
            staged := applyStep ui.staged op }

theorem settle_fst (s : SemanticStore)
    (r : Outcome StoreError (SemanticStore × α)) : (settle s r).1 = (commitFst s r).1 := by
  rcases r with f | ⟨s', a⟩ <;> rfl

theorem perform_admitted (h : Admits ui) (c : UiCall) :
    (ui.perform c).1 = advanced ui (operationOf c) := by
  cases c with
  | createNode id nodeType parentId childIndex properties =>
    simp only [UiTransaction.perform, answer, UiTransaction.createNode, recorded_admitted h]
    rfl
  | set node prop val =>
    simp only [UiTransaction.perform, answer, UiTransaction.set, recorded_admitted h, settle_fst]
    rfl
  | clear node prop =>
    simp only [UiTransaction.perform, answer, UiTransaction.clear, recorded_admitted h,
      settle_fst]
    rfl
  | delete node =>
    simp only [UiTransaction.perform, answer, UiTransaction.delete, recorded_admitted h,
      settle_fst]
    rfl
  | moveNode node newParentId newChildIndex =>
    simp only [UiTransaction.perform, answer, UiTransaction.moveNode, recorded_admitted h]
    rfl
  | reorderChildren parent newOrder =>
    simp only [UiTransaction.perform, answer, UiTransaction.reorderChildren, recorded_admitted h]
    rfl
  | applyOp op =>
    simp only [UiTransaction.perform, answer, UiTransaction.applyOp, recorded_admitted h]
    rfl

theorem perform_refused (h : ¬ Admits ui) (c : UiCall) :
    (ui.perform c).1 = { ui with opCount := ui.opCount + 1 } := by
  cases c <;>
    simp only [UiTransaction.perform, answer, UiTransaction.createNode, UiTransaction.set,
      UiTransaction.clear, UiTransaction.delete, UiTransaction.moveNode,
      UiTransaction.reorderChildren, UiTransaction.applyOp, recorded_refused h]

def EveryCall (P : UiTransaction → UiCall → Prop) : UiClosure τ → UiTransaction → Prop
  | .finish _, _ => True
  | .panic, _ => True
  | .call c next, ui =>
    P ui c ∧
      match ui.perform c with
      | (ui, .ok reply) => EveryCall P (next ui (.ok reply)) ui
      | (ui, .error (.error e)) => EveryCall P (next ui (.error e)) ui
      | (_, .error .panicked) => True
      | (_, .error .diverges) => True

def Travels (ui : UiTransaction) (c : UiCall) : Prop := Admits ui → WireSafe (operationOf c)

def Succeeds (ui : UiTransaction) (c : UiCall) : Prop :=
  Admits ui → (apply (operationOf c) ui.staged).2 = .ok ()

/-- What a closure that was run from `ui` to `ui'` recorded, and how the
recorded operations relate to the calls it made. -/
def Recorded (f : UiClosure τ) (ui ui' : UiTransaction) : Prop :=
  ∃ written, ui'.operations = ui.operations ++ written ∧
    (EveryCall Travels f ui → ∀ op ∈ written, WireSafe op) ∧
    ui'.staged = run applyStep ui.staged written ∧
    (EveryCall Succeeds f ui ↔ Applies ui.staged written ui'.staged) ∧
    (ui.operations.length ≤ ui.opCount → ui.operations.length ≤ ui.maxOps →
      ui'.operations.length ≤ ui.maxOps)

theorem Recorded.call {c : UiCall} {next : UiTransaction → Except StoreError Reply → UiClosure τ}
    {g : UiClosure τ} {ui' : UiTransaction}
    (hstep : ∀ P, EveryCall P (.call c next) ui ↔ P ui c ∧ EveryCall P g (ui.perform c).1)
    (h : Recorded g (ui.perform c).1 ui') : Recorded (.call c next) ui ui' := by
  obtain ⟨written, hoperations, htravels, hstaged, hsucceeds, hlength⟩ := h
  by_cases hadmits : Admits ui
  · have hui := perform_admitted hadmits c
    rw [hui] at hoperations htravels hstaged hsucceeds hlength hstep
    refine ⟨operationOf c :: written, ?_, ?_, hstaged, ?_, ?_⟩
    · rw [hoperations]
      exact List.append_assoc _ _ _
    · rw [hstep]
      rintro ⟨hcall, hrest⟩ op hop
      rcases List.mem_cons.mp hop with rfl | hop
      · exact hcall hadmits
      · exact htravels hrest op hop
    · rw [hstep, hsucceeds]
      exact and_congr ⟨fun hcall => hcall hadmits, fun hcall _ => hcall⟩ Iff.rfl
    · intro hcount hmax
      refine hlength ?_ ?_
      · simp only [advanced, List.length_append, List.length_singleton]
        omega
      · have hroom : ui.opCount + 1 ≤ ui.maxOps := hadmits
        simp only [advanced, List.length_append, List.length_singleton]
        omega
  · have hui := perform_refused hadmits c
    rw [hui] at hoperations htravels hstaged hsucceeds hlength hstep
    refine ⟨written, hoperations, ?_, hstaged, ?_, ?_⟩
    · rw [hstep]
      exact fun hcalls => htravels hcalls.2
    · rw [hstep, ← hsucceeds]
      exact ⟨fun hcalls => hcalls.2, fun hrest => ⟨fun hcall => absurd hcall hadmits, hrest⟩⟩
    · intro hcount hmax
      exact hlength (Nat.le_succ_of_le hcount) hmax

theorem runClosure_recorded {f : UiClosure τ} {ui' : UiTransaction} {value : τ}
    (h : runClosure f ui = (ui', .ok value)) : Recorded f ui ui' := by
  induction f generalizing ui with
  | finish result =>
    cases result with
    | error e => simp [runClosure] at h
    | ok result =>
      obtain ⟨rfl, -⟩ := Prod.mk.inj h
      refine ⟨[], by simp, by simp, rfl, ?_, fun _ hmax => hmax⟩
      simp [EveryCall, Applies]
  | panic => simp [runClosure] at h
  | call c next ih =>
    rw [runClosure] at h
    split at h
    · rename_i ui₁ reply hperform
      refine Recorded.call (g := next ui₁ (.ok reply)) ?_ ?_
      · intro P
        rw [EveryCall, hperform]
      · rw [hperform]
        exact ih ui₁ (.ok reply) h
    · rename_i ui₁ e hperform
      refine Recorded.call (g := next ui₁ (.error e)) ?_ ?_
      · intro P
        rw [EveryCall, hperform]
      · rw [hperform]
        exact ih ui₁ (.error e) h
    · simp at h
    · simp at h

/-- A replica of the store before a call accepts the transaction of the call,
and it becomes the store after the call. -/
def InLockstep (before after : SemanticStore) (tx : WireTransaction) : Prop :=
  applyDeliveredTransaction before tx = (after, .ok tx.newRevision)

def opening (session : Session) : UiTransaction :=
  UiTransaction.new session.store session.store.limits.maxTransactionOperations

theorem append_getLast {journal journal' : TransactionJournal} {permit : JournalPermit}
    (h : append journal permit = .ok journal') : journal'.entries.getLast? = some permit.tx := by
  rw [append] at h
  split at h
  · rw [← Except.ok.inj h]
    simp
  · simp at h

theorem transactionWithResult_ok {session session' : Session}
    {f : Revision → Revision → UiClosure τ} {value : τ} {tx : WireTransaction}
    (h : transactionWithResult session f = (session', .ok (value, tx))) :
    ∃ ui, checkedNext session.store.revision = some (session.store.revision + 1) ∧
      runClosure (f session.store.revision (session.store.revision + 1)) (opening session) =
        (ui, .ok value) ∧
      tx = encodeTransaction
        ⟨session.store.revision, session.store.revision + 1, ui.operations, 0⟩ ∧
      session'.store = commitStaging session.store ui.staged (session.store.revision + 1) ∧
      session'.journal.entries.getLast? = some tx := by
  unfold transactionWithResult at h
  split at h
  · simp at h
  rename_i committed hnext
  obtain ⟨-, rfl⟩ := checkedAdd_eq_some.mp hnext
  split at h
  · rename_i ui result hrun
    split at h
    · simp at h
    rename_i permit hprepare
    split at h
    · simp at h
    rename_i journal happend
    obtain ⟨htx, -⟩ := append_of_prepare hprepare
    obtain ⟨rfl, hresult⟩ := Prod.mk.inj h
    obtain ⟨rfl, rfl⟩ := Prod.mk.inj (Except.ok.inj hresult)
    exact ⟨ui, hnext, hrun, htx, rfl, append_getLast happend⟩
  · simp at h
  · simp at h
  · simp at h

/-- The transaction a session journals and publishes is in lockstep with the
store it commits exactly when every call that was recorded succeeded, as long as
the recorded operations can travel on the wire. -/
theorem transaction_lockstep (session session' : Session)
    (f : Revision → Revision → UiClosure τ) (value : τ) (tx : WireTransaction)
    (h : transactionWithResult session f = (session', .ok (value, tx)))
    (htravels : EveryCall Travels (f session.store.revision (session.store.revision + 1))
      (opening session)) :
    session'.journal.entries.getLast? = some tx ∧
      (InLockstep session.store session'.store tx ↔
        EveryCall Succeeds (f session.store.revision (session.store.revision + 1))
          (opening session)) := by
  obtain ⟨ui, hnext, hrun, rfl, hstore, hjournal⟩ := transactionWithResult_ok h
  obtain ⟨written, hoperations, hsafe, hstaged, hsucceeds, hlength⟩ := runClosure_recorded hrun
  refine ⟨hjournal, ?_⟩
  have hwritten : ui.operations = written := hoperations
  have hfits : ui.operations.length ≤ session.store.limits.maxTransactionOperations :=
    hlength (Nat.zero_le _) (Nat.zero_le _)
  change ui.staged = run applyStep session.store written at hstaged
  rw [hsucceeds, InLockstep, hstore, hstaged, ← hwritten]
  exact applyDelivered_commit_iff
    ⟨session.store.revision, session.store.revision + 1, ui.operations, 0⟩ rfl hnext
    (by rw [hwritten]; exact hsafe htravels) hfits

def freshSession : Session :=
  ⟨SemanticStore.withLimits StoreLimits.default, withInitialRevision 8 0⟩

def buildClosure : UiClosure Unit :=
  .call (.createNode 1 ⟨0, 1⟩ none none []) fun _ _ =>
    .call (.createNode 2 ⟨0, 3⟩ (some 1) (some 0) []) fun _ result =>
      match result with
      | .error e => .finish (.error e)
      | .ok _ => .call (.set 2 ⟨0, 1⟩ .null) fun _ _ => .finish (.ok ())

theorem buildClosure_lockstep :
    ∃ session' tx, transactionWithResult freshSession (fun _ _ => buildClosure) =
      (session', .ok ((), tx)) ∧ InLockstep freshSession.store session'.store tx := by
  have htravels : EveryCall Travels buildClosure (opening freshSession) :=
    ⟨fun _ => ⟨by simp, by simp⟩, fun _ => ⟨by simp, by simp [u32Max]⟩, fun _ => trivial, trivial⟩
  have hsucceeds : EveryCall Succeeds buildClosure (opening freshSession) :=
    ⟨fun _ => by decide +kernel, fun _ => by decide +kernel, fun _ => by decide +kernel, trivial⟩
  refine ⟨_, encodeTransaction ⟨0, 1, [.createNode 1 ⟨0, 1⟩ none none [],
    .createNode 2 ⟨0, 3⟩ (some 1) (some 0) [], .setProperty 2 ⟨0, 1⟩ .null], 0⟩, rfl, ?_⟩
  exact (transaction_lockstep freshSession _ (fun _ _ => buildClosure) () _ rfl htravels).2.mpr
    hsucceeds

def ignoringClosure : UiClosure Unit :=
  .call (.set 9 ⟨0, 1⟩ .null) fun _ _ => .finish (.ok ())

def zeroSession : Session :=
  ⟨applyStep (SemanticStore.withLimits StoreLimits.default) (.createNode 0 ⟨0, 1⟩ none none []),
    withInitialRevision 8 0⟩

def childOfZero : UiClosure Unit :=
  .call (.createNode 1 ⟨0, 3⟩ (some 0) none []) fun _ _ => .finish (.ok ())

/-- What the session journals is not accepted, or makes another store of the
replica. -/
theorem ignoredFailure_out_of_lockstep :
    (∃ session' tx, transactionWithResult freshSession (fun _ _ => ignoringClosure) =
      (session', .ok ((), tx)) ∧ ¬ InLockstep freshSession.store session'.store tx) ∧
    (∃ session' tx, transactionWithResult zeroSession (fun _ _ => childOfZero) =
      (session', .ok ((), tx)) ∧ ¬ InLockstep zeroSession.store session'.store tx) := by
  refine ⟨⟨_, ⟨0, 1, [.setProperty 9 (some ⟨0, 1⟩) (some (encodeValue .null))], 0⟩, rfl, ?_⟩,
    ⟨_, ⟨0, 1, [encodeOperation (.createNode 1 ⟨0, 3⟩ (some 0) none [])], 0⟩, rfl, ?_⟩⟩
  · intro h
    exact absurd (congrArg Prod.snd h) (by decide +kernel)
  · intro h
    have hroots := congrArg (fun result => result.1.roots) h
    exact absurd hroots (by decide +kernel)

end Srui.Sessiond.Lockstep

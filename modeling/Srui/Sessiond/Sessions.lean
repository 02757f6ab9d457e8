import Srui.Journal.TransactionJournals
import Srui.Sdk.UiTransactions

/-!
The session's store and journal, and the transaction call that advances both.
-/

namespace Srui.Sessiond.Sessions

open Basic.Machine SemanticTree.Values SemanticTree.Limits SemanticTree.Stores
open SemanticTree.Operations SemanticTree.Transactions SemanticTree.Wire Journal.TransactionJournals
open Sdk.UiTransactions

/-- The `SessionError` values the modelled calls return. -/
inductive SessionError where
  | store (e : StoreError)
  | transaction (e : TxnError)
  | journal (e : JournalError)
  | panicked
  | outboundClosed
  | invalidConfiguration (message : String)
  | snapshotUnrepresentable (limit actual : Nat)
deriving DecidableEq, Repr

/-- The part of `SessionInner` that a transaction changes. -/
structure Session where
  store : SemanticStore
  journal : TransactionJournal

/-- `AuthoritativeCommit::new`, at a base revision that has a successor. -/
def AuthoritativeCommit.new {base next : Revision} (hnext : checkedNext base = some next)
    (operations : List Operation) : AuthoritativeCommit where
  txn := ⟨base, next, operations, 0⟩
  valid := by simp [validateCommit, hnext]

/-- `Session::transaction_with_result`; the wire transaction it returns is the
one it journals and publishes. -/
def transactionWithResult {τ : Type} (session : Session)
    (f : Revision → Revision → UiClosure τ) : Session × Outcome SessionError
    (τ × WireTransaction) :=
  match hnext : checkedNext session.store.revision with
  | none => (session, err (.transaction (.revisionExhausted session.store.revision)))
  | some committed =>
    match runClosure (f session.store.revision committed)
        (UiTransaction.new session.store session.store.limits.maxTransactionOperations) with
    | (ui, .ok value) =>
      match prepare session.journal (AuthoritativeCommit.new hnext ui.operations) with
      | .error e => (session, err (.journal e))
      | .ok permit =>
        match append session.journal permit with
        | .error _ =>
          ({ session with store := commitStaging session.store ui.staged committed },
            .error .panicked)
        | .ok journal =>
          (⟨commitStaging session.store ui.staged committed, journal⟩,
            .ok (value, permit.tx))
    | (_, .error (.error e)) => (session, err (.store e))
    | (_, .error .panicked) => (session, err .panicked)
    | (_, .error .diverges) => (session, .error .diverges)

/-- `TryFrom<srui_protocol::Transaction> for AuthoritativeCommit`. -/
def decodeCommit (tx : WireTransaction) : Except TxnError AuthoritativeCommit :=
  match decodeTransaction tx with
  | .error e => .error e
  | .ok txn =>
    match hvalid : validateCommit txn with
    | .error e => .error e
    | .ok () => .ok ⟨txn, hvalid⟩

def transactionFault : Fault TxnError → Fault SessionError
  | .error e => .error (.transaction e)
  | .panicked => .panicked
  | .diverges => .diverges

/-- `Session::commit_transaction`: all that can fail comes before the store and
the journal advance. -/
def commitTransaction (session : Session) (tx : WireTransaction) :
    Session × Outcome SessionError WireTransaction :=
  match decodeCommit tx with
  | .error e => (session, err (.transaction e))
  | .ok commit =>
    match prepareCommit session.store commit with
    | .error f => (session, .error (transactionFault f))
    | .ok staged =>
      match prepare session.journal commit with
      | .error e => (session, err (.journal e))
      | .ok permit =>
        match commitPrepared session.store staged with
        | .error _ => (session, .error .panicked)
        | .ok store =>
          match append session.journal permit with
          | .error _ => ({ session with store := store }, .error .panicked)
          | .ok journal => (⟨store, journal⟩, .ok permit.tx)

end Srui.Sessiond.Sessions

import Srui.SemanticTree.Wire

/-!
The bounded log of committed transactions that reconnecting clients are served
from.
-/

namespace Srui.Journal.TransactionJournals

open Basic.Machine SemanticTree.Transactions SemanticTree.Wire

inductive JournalError where
  | invalidRevisionRange (base new : Nat)
  | nonContiguousRevision (expected actual : Nat)
deriving DecidableEq, Repr

structure JournalPermit where
  tx : WireTransaction

/-- Ring buffer of the latest committed transactions, oldest first. -/
structure TransactionJournal where
  maxEntries : Nat
  entries : List WireTransaction
  earliestRevision : Nat
  latestRevision : Nat

/-- `TransactionJournal::new`. -/
def TransactionJournal.new (maxEntries : Nat) : TransactionJournal where
  maxEntries := max maxEntries 1
  entries := []
  earliestRevision := 0
  latestRevision := 0

/-- `TransactionJournal::with_initial_revision`. -/
def withInitialRevision (maxEntries initialRevision : Nat) : TransactionJournal where
  maxEntries := max maxEntries 1
  entries := []
  earliestRevision := initialRevision
  latestRevision := initialRevision

/-- `TransactionJournal::check_contiguity`. -/
def checkContiguity (journal : TransactionJournal) (tx : WireTransaction) :
    Except JournalError Unit :=
  if journal.entries ≠ [] ∧ tx.baseRevision ≠ journal.latestRevision then
    .error (.nonContiguousRevision journal.latestRevision tx.baseRevision)
  else .ok ()

/-- `TransactionJournal::prepare`. -/
def prepare (journal : TransactionJournal) (commit : AuthoritativeCommit) :
    Except JournalError JournalPermit :=
  match checkContiguity journal (encodeTransaction commit.txn) with
  | .error e => .error e
  | .ok () => .ok ⟨encodeTransaction commit.txn⟩

/-- `TransactionJournal::append`, with its debug assertion. -/
def append (journal : TransactionJournal) (permit : JournalPermit) :
    Outcome JournalError TransactionJournal :=
  if journal.entries = [] ∨ permit.tx.baseRevision = journal.latestRevision then
    let journal :=
      if journal.entries = [] then { journal with earliestRevision := permit.tx.baseRevision }
      else journal
    let journal :=
      if journal.entries.length ≥ journal.maxEntries then
        match journal.entries with
        | [] => journal
        | oldest :: rest => { journal with entries := rest, earliestRevision := oldest.newRevision }
      else journal
    .ok { journal with latestRevision := permit.tx.newRevision
                       entries := journal.entries ++ [permit.tx] }
  else .error .panicked

/-- `TransactionJournal::record`. -/
def record (journal : TransactionJournal) (tx : WireTransaction) :
    TransactionJournal × Outcome JournalError Unit :=
  if tx.newRevision ≠ saturatingAdd tx.baseRevision 1 then
    (journal, err (.invalidRevisionRange tx.baseRevision tx.newRevision))
  else
    match checkContiguity journal tx with
    | .error e => (journal, err e)
    | .ok () =>
      match append journal ⟨tx⟩ with
      | .error f => (journal, .error f)
      | .ok journal => (journal, .ok ())

/-- `TransactionJournal::can_replay_from`. -/
def canReplayFrom (journal : TransactionJournal) (fromRevision : Nat) : Bool :=
  fromRevision ≥ journal.earliestRevision && fromRevision ≤ journal.latestRevision

/-- `TransactionJournal::iter_from`, as the entries it yields. -/
def iterFrom (journal : TransactionJournal) (fromRevision : Nat) :
    Option (List WireTransaction) :=
  if fromRevision > journal.latestRevision ∨ fromRevision < journal.earliestRevision then none
  else if fromRevision = journal.latestRevision then
    some (journal.entries.drop journal.entries.length)
  else
    let count := fromRevision - journal.earliestRevision
    if count > journal.entries.length then none else some (journal.entries.drop count)

/-- `TransactionJournal::replay_from`. -/
def replayFrom (journal : TransactionJournal) (fromRevision : Nat) :
    Option (List WireTransaction) := iterFrom journal fromRevision

theorem append_of_prepare {journal : TransactionJournal} {commit : AuthoritativeCommit}
    {permit : JournalPermit} (h : prepare journal commit = .ok permit) :
    permit.tx = encodeTransaction commit.txn ∧ ∃ journal', append journal permit = .ok journal' := by
  rw [prepare, checkContiguity] at h
  split at h
  · simp at h
  rename_i hcheck
  split at hcheck
  · simp at hcheck
  rename_i hcontiguous
  have hpermit := Except.ok.inj h
  subst hpermit
  refine ⟨rfl, ?_⟩
  have hhead : journal.entries = [] ∨
      (encodeTransaction commit.txn).baseRevision = journal.latestRevision := by
    by_contra hneither
    rw [not_or] at hneither
    exact hcontiguous hneither
  rw [append, if_pos hhead]
  exact ⟨_, rfl⟩

end Srui.Journal.TransactionJournals

import Srui.SemanticTree.NodeRuns
import Srui.Sessiond.JournalReplay
import Srui.Sessiond.Lockstep

/-!
What a session call that advances the store does, whichever call it is.
-/

namespace Srui.Sessiond.SessionCommits

open Std Basic.Machine Basic.Runs SemanticTree.Values SemanticTree.Stores SemanticTree.Operations
open SemanticTree.OperationEffects SemanticTree.NodeForest SemanticTree.NodeRuns
open SemanticTree.Transactions SemanticTree.TransactionAtomicity SemanticTree.Wire
open SemanticTree.Replay Journal.TransactionJournals Journal.ReplayWindows Sdk.UiTransactions
open Sessiond.Sessions Sessiond.Lockstep Sessiond.JournalReplay

structure Commits (session : Session) (ops : List Operation) (session' : Session) : Prop where
  next : checkedNext session.store.revision = some (session.store.revision + 1)
  fits : ops.length ≤ session.store.limits.maxTransactionOperations
  store : session'.store =
    commitStaging session.store (run applyStep session.store ops) (session.store.revision + 1)
  journal : ∃ priority, Appended session.journal (encodeTransaction
    ⟨session.store.revision, session.store.revision + 1, ops, priority⟩) session'.journal

variable {session session' : Session}

theorem prepared_commits {next : Revision}
    (hnext : checkedNext session.store.revision = some next) (ui : UiTransaction)
    (hstaged : ui.staged = run applyStep session.store ui.operations)
    (hfits : ui.operations.length ≤ session.store.limits.maxTransactionOperations)
    {permit : JournalPermit}
    (hprepare : prepare session.journal (AuthoritativeCommit.new hnext ui.operations) = .ok permit) :
    ∃ journal, append session.journal permit = .ok journal ∧
      Commits session ui.operations ⟨commitStaging session.store ui.staged next, journal⟩ := by
  obtain ⟨htx, journal, happend⟩ := append_of_prepare hprepare
  obtain ⟨-, rfl⟩ := checkedAdd_eq_some.mp hnext
  refine ⟨journal, happend, hnext, hfits, by rw [hstaged], 0, ?_⟩
  have happended := append_appended happend
  rw [htx] at happended
  exact happended

/-- `transaction_with_result` leaves the session alone or commits what its closure
recorded. -/
theorem transactionWithResult_cases {τ : Type} (session : Session)
    (f : Revision → Revision → UiClosure τ) :
    (∃ fault, transactionWithResult session f = (session, .error fault)) ∨
      ∃ session' value tx, transactionWithResult session f = (session', .ok (value, tx)) ∧
        Commits session (runClosure (f session.store.revision (session.store.revision + 1))
          (opening session)).1.operations session' := by
  unfold transactionWithResult
  split
  · exact .inl ⟨_, rfl⟩
  rename_i committed hnext
  have hcommitted := (checkedAdd_eq_some.mp hnext).2
  split
  · rename_i ui value hrun
    split
    · exact .inl ⟨_, rfl⟩
    rename_i permit hprepare
    obtain ⟨written, hoperations, -, hstaged, -, hlength⟩ := runClosure_recorded hrun
    have hwritten : ui.operations = written := hoperations
    rw [← hwritten] at hstaged
    obtain ⟨journal, happend, hcommits⟩ := prepared_commits hnext ui hstaged
      (hlength (Nat.zero_le _) (Nat.zero_le _)) hprepare
    refine .inr ⟨⟨commitStaging session.store ui.staged committed, journal⟩, value, permit.tx, ?_, ?_⟩
    · simp only [happend]
    · rw [hcommitted] at hrun
      change runClosure _ (opening session) = _ at hrun
      rw [hrun]
      exact hcommits
  all_goals exact .inl ⟨_, rfl⟩

theorem applyTransactionRecord_ok {s s' : SemanticStore} {txn : Transaction} {r : Revision}
    (h : applyTransactionRecord s txn = (s', .ok r)) :
    s' = commitStaging s (run applyStep s txn.operations) txn.newRevision ∧
      txn.operations.length ≤ s.limits.maxTransactionOperations := by
  rw [applyTransactionRecord] at h
  split at h
  · simp [err] at h
  split at h
  · simp [err] at h
  rw [applyStaged, applyStagedWith] at h
  split at h
  · simp [err] at h
  rename_i hfits
  split at h
  · simp at h
  rename_i staged hstaged
  rw [← (applies_of_staged hstaged).eq_run]
  exact ⟨(congrArg Prod.fst h).symm, Nat.not_lt.mp hfits⟩

def transactionOperations {τ : Type} (session : Session) (f : Revision → Revision → UiClosure τ) :
    List Operation :=
  match transactionWithResult session f with
  | (_, .ok _) =>
    (runClosure (f session.store.revision (session.store.revision + 1))
      (opening session)).1.operations
  | (_, .error _) => []

def wireOperations (session : Session) (tx : WireTransaction) : List Operation :=
  match decodeCommit tx, commitTransaction session tx with
  | .ok commit, (_, .ok _) => commit.txn.operations
  | _, _ => []

/-- A call that commits these operations, or none and leaves the session alone. -/
def CommitsOrKeeps (session : Session) (ops : List Operation) (session' : Session) : Prop :=
  (session' = session ∧ ops = []) ∨ Commits session ops session'

theorem transaction_commitsOrKeeps {τ : Type} (session : Session)
    (f : Revision → Revision → UiClosure τ) :
    CommitsOrKeeps session (transactionOperations session f)
      (transactionWithResult session f).1 := by
  rw [transactionOperations]
  rcases transactionWithResult_cases session f with
    ⟨fault, hkept⟩ | ⟨session', value, tx, hcommitted, hcommits⟩
  · rw [hkept]
    exact .inl ⟨rfl, rfl⟩
  · rw [hcommitted]
    exact .inr hcommits

theorem decodeCommit_of_decode {tx : WireTransaction} {commit : AuthoritativeCommit}
    (hdecode : decodeTransaction tx = .ok commit.txn) : decodeCommit tx = .ok commit := by
  rw [decodeCommit, hdecode]
  have hvalid := commit.valid
  split
  · rename_i he
    simp at he
  · rename_i txn htxn
    obtain rfl := Except.ok.inj htxn
    split
    · rename_i e he
      rw [hvalid] at he
      simp at he
    · rfl

theorem wire_commitsOrKeeps (session : Session) (tx : WireTransaction) :
    CommitsOrKeeps session (wireOperations session tx) (commitTransaction session tx).1 := by
  rw [wireOperations]
  rcases commitTransaction_cases session tx with
    ⟨fault, hkept⟩ | ⟨commit, store, hdecode, hcommit, haccepted, hcommitted⟩
  · rw [hkept]
    refine .inl ⟨rfl, ?_⟩
    split
    · rename_i hok
      simp at hok
    · rfl
  · rw [hcommitted, decodeCommit_of_decode hdecode]
    refine .inr ?_
    rw [prepareAndCommit_eq] at hcommit
    obtain ⟨hbase, hlast, hnew⟩ := applyTransactionRecord_span (congrArg Prod.snd hcommit)
    have htxn : commit.txn = ⟨session.store.revision, session.store.revision + 1,
        commit.txn.operations, commit.txn.priority⟩ := by
      rw [← hnew, ← hbase]
    refine ⟨checkedAdd_eq_some.mpr ⟨hlast, rfl⟩, (applyTransactionRecord_ok hcommit).2, ?_,
      commit.txn.priority, ?_⟩
    · rw [← hnew]
      exact (applyTransactionRecord_ok hcommit).1
    · rw [← htxn]
      rcases call_cases session.journal (.commit commit) with ⟨f, hrefused⟩ | ⟨-, happended⟩
      · rw [hrefused] at haccepted
        simp at haccepted
      · exact happended

variable {ops : List Operation}

theorem Commits.revision
    (h : Commits session ops session') :
    session'.store.revision = session.store.revision + 1 := by
  rw [h.store]
  rfl

theorem Commits.store_ne
    (h : Commits session ops session') : session'.store ≠ session.store := by
  intro heq
  have hrevision := h.revision
  rw [heq] at hrevision
  exact Nat.succ_ne_self _ hrevision.symm

/-- What a step does to the nodes of a well-formed store: identifiers stay on record, and
none comes back to life. -/
structure Outlives (store store' : SemanticStore) : Prop where
  forest : StoreForest store'
  used : ∀ n ∈ store.usedIds, n ∈ store'.usedIds
  live : ∀ n ∈ store.usedIds, store'.nodes.contains n = true → store.nodes.contains n = true

theorem Outlives.refl {store : SemanticStore} (h : StoreForest store) : Outlives store store :=
  ⟨h, fun _ hused => hused, fun _ _ hlive => hlive⟩

theorem Commits.outlives
    (h : Commits session ops session') (hforest : StoreForest session.store) :
    Outlives session.store session'.store := by
  have hstaged : StoreForest (run applyStep session.store ops) :=
    run_invariant (P := StoreForest) (fun _ op hs => apply_storeForest hs op) hforest ops
  have hlimits : (run applyStep session.store ops).limits = session.store.limits :=
    run_invariant (P := fun t : SemanticStore => t.limits = session.store.limits)
      (fun s op hs => (apply_limits s op).trans hs) rfl ops
  rw [h.store]
  refine ⟨hstaged.of_sameNodes rfl rfl rfl hlimits.symm, ?_, ?_⟩
  · exact fun n hused => run_used hused ops
  · intro n hused hlive
    by_contra hdead
    have hnone : session.store.nodes[n]? = none := by
      rw [ExtTreeMap.contains_eq_isSome_getElem?] at hdead
      simpa using hdead
    have hretired := (run_retired ⟨hused, hnone⟩ ops).2
    change (run applyStep session.store ops).nodes.contains n = true at hlive
    rw [ExtTreeMap.contains_eq_isSome_getElem?, hretired] at hlive
    simp at hlive

theorem CommitsOrKeeps.outlives
    (h : CommitsOrKeeps session ops session') (hforest : StoreForest session.store) :
    Outlives session.store session'.store := by
  rcases h with ⟨rfl, -⟩ | hcommits
  · exact .refl hforest
  · exact hcommits.outlives hforest

/-- The journal's head is the store's revision, and a transaction may have an
operation. -/
structure Headed (session : Session) : Prop where
  head : session.journal.entries = [] ∨
    session.journal.latestRevision = session.store.revision
  admits : 0 < session.store.limits.maxTransactionOperations
  bounded : session.store.revision ≤ u64Max

theorem Commits.headed
    (h : Commits session ops session') (hheaded : Headed session) : Headed session' := by
  obtain ⟨priority, happended⟩ := h.journal
  refine ⟨.inr ?_, ?_, ?_⟩
  · rw [happended.latest, h.revision]
    rfl
  · rw [h.store]
    exact hheaded.admits
  · rw [h.revision]
    exact (checkedAdd_eq_some.mp h.next).1

theorem CommitsOrKeeps.headed
    (h : CommitsOrKeeps session ops session') (hheaded : Headed session) : Headed session' := by
  rcases h with ⟨rfl, -⟩ | hcommits
  · exact hheaded
  · exact hcommits.headed hheaded

theorem Headed.prepares (h : Headed session) {next : Revision}
    (hnext : checkedNext session.store.revision = some next) (ops : List Operation) :
    ∃ permit, prepare session.journal (AuthoritativeCommit.new hnext ops) = .ok permit := by
  have hcontiguous : checkContiguity session.journal
      (encodeTransaction (AuthoritativeCommit.new hnext ops).txn) = .ok () := by
    rw [checkContiguity, if_neg]
    rintro ⟨hentries, hbase⟩
    rcases h.head with hempty | hlatest
    · exact hentries hempty
    · exact hbase hlatest.symm
  rw [prepare, hcontiguous]
  exact ⟨_, rfl⟩

theorem Headed.checkedNext_eq (h : Headed session) :
    checkedNext session.store.revision =
      if session.store.revision = u64Max then none else some (session.store.revision + 1) := by
  have hbounded : session.store.revision ≤ u64Max := h.bounded
  split
  · rename_i hlast
    exact checkedAdd_eq_none.mpr (by rw [hlast]; exact Nat.lt_succ_self _)
  · rename_i hmore
    exact checkedAdd_eq_some.mpr ⟨Nat.succ_le_of_lt (Nat.lt_of_le_of_ne hbounded hmore), rfl⟩

end Srui.Sessiond.SessionCommits

import Srui.Basic.Traces
import Srui.Journal.ReplayWindows
import Srui.SemanticTree.TransactionAtomicity
import Srui.SemanticTree.Replay
import Srui.Sessiond.Sessions

/-!
The journal of a session replays, from any revision it retains, to the store of
the session.
-/

namespace Srui.Sessiond.JournalReplay

open Basic.Machine Basic.Runs Basic.Spans Basic.Traces SemanticTree.Limits SemanticTree.Values
open SemanticTree.Stores SemanticTree.Operations SemanticTree.Transactions SemanticTree.Wire
open SemanticTree.Replay SemanticTree.TransactionAtomicity Journal.TransactionJournals
open Journal.ReplayWindows Sessiond.Sessions

/-- How `commit_transaction` ends: refused with nothing changed, or with store and
journal advanced by the same commit. -/
theorem commitTransaction_cases (session : Session) (tx : WireTransaction) :
    (∃ f, commitTransaction session tx = (session, .error f)) ∨
      ∃ commit store, decodeTransaction tx = .ok commit.txn ∧
        prepareAndCommit session.store commit = (store, .ok commit.txn.newRevision) ∧
        (call session.journal (.commit commit)).2 = .ok () ∧
        commitTransaction session tx =
          (⟨store, step session.journal (.commit commit)⟩,
            .ok (encodeTransaction commit.txn)) := by
  unfold commitTransaction
  split
  · exact Or.inl ⟨_, rfl⟩
  rename_i commit hdecode
  split
  · exact Or.inl ⟨_, rfl⟩
  rename_i staged hstaged
  split
  · exact Or.inl ⟨_, rfl⟩
  rename_i permit hprepare
  split
  · exact Or.inl ⟨_, rfl⟩
  rename_i store hstore
  obtain ⟨hpermit, journal, happend⟩ := append_of_prepare hprepare
  have hcall : call session.journal (.commit commit) = (journal, .ok ()) := by
    simp only [call, hprepare, happend]
  have hdecoded : decodeTransaction tx = .ok commit.txn := by
    rw [decodeCommit] at hdecode
    split at hdecode
    · simp at hdecode
    rename_i txn htxn
    split at hdecode
    · simp at hdecode
    · rw [← Except.ok.inj hdecode]
      exact htxn
  have hnew : staged.newRevision = commit.txn.newRevision := by
    rw [prepareCommit] at hstaged
    split at hstaged
    · simp at hstaged
    split at hstaged
    · simp at hstaged
    split at hstaged
    · simp at hstaged
    · rw [← Except.ok.inj hstaged]
  refine Or.inr ⟨commit, store, hdecoded, ?_, by rw [hcall], ?_⟩
  · simp only [prepareAndCommit, hstaged, hstore, hnew]
  · rw [happend, hpermit, step, hcall]

/-- `apply_wire_transaction` over a list of transactions, up to the first it
refuses. -/
def replay : SemanticStore → List WireTransaction → Outcome TxnError SemanticStore
  | s, [] => .ok s
  | s, tx :: rest =>
    match applyWireTransaction s tx with
    | (s, .ok _) => replay s rest
    | (_, .error f) => .error f

structure Committed where
  session : Session
  history : List SemanticStore

def commitStep (sys : Committed) (tx : WireTransaction) : Committed :=
  match commitTransaction sys.session tx with
  | (session, .ok _) => ⟨session, sys.history ++ [session.store]⟩
  | (session, .error _) => ⟨session, sys.history⟩

/-- Store and journal are at the same revision, and the journal replays from
every revision it retains to the current store. -/
structure Agrees (sys : Committed) : Prop where
  latest : sys.session.journal.latestRevision = sys.session.store.revision
  replays : ∀ r, canReplayFrom sys.session.journal r = true →
    ∃ s txs, storeAt sys.history r = some s ∧ replayFrom sys.session.journal r = some txs ∧
      replay s txs = .ok sys.session.store

def Replays (s : SemanticStore) (tx : WireTransaction) (t : SemanticStore) : Prop :=
  applyWireTransaction s tx = (t, .ok tx.newRevision) ∧ t.revision = tx.newRevision

variable {s : SemanticStore}

theorem replay_of_trace {visits : SemanticStore → Prop} {t : SemanticStore}
    {txs : List WireTransaction} (h : Trace Replays visits s txs t) : replay s txs = .ok t := by
  induction txs generalizing s with
  | nil => exact congrArg Except.ok h
  | cons tx rest ih =>
    obtain ⟨middle, -, haccepts, hrest⟩ := h
    rw [replay, haccepts.1]
    exact ih hrest

theorem trace_revision {visits : SemanticStore → Prop} {t : SemanticStore}
    {txs : List WireTransaction} (h : Trace Replays visits s txs t) :
    t.revision = reach WireTransaction.newRevision s.revision txs := by
  induction txs generalizing s with
  | nil => exact congrArg SemanticStore.revision h.symm
  | cons tx rest ih =>
    obtain ⟨middle, -, haccepts, hrest⟩ := h
    rw [reach, ← haccepts.2]
    exact ih hrest

variable {tx : WireTransaction}

theorem committed_replays {s' : SemanticStore}
    {commit : AuthoritativeCommit} (hdecode : decodeTransaction tx = .ok commit.txn)
    (h : prepareAndCommit s commit = (s', .ok commit.txn.newRevision)) :
    Replays s (encodeTransaction commit.txn) s' ∧ commit.txn.baseRevision = s.revision ∧
      commit.txn.newRevision = commit.txn.baseRevision + 1 := by
  rw [prepareAndCommit_eq] at h
  have hspan := applyTransactionRecord_span (congrArg Prod.snd h)
  have hsettled := applyTransactionRecord_settled s commit.txn
  rw [h] at hsettled
  have hrevision : s'.revision = commit.txn.newRevision := (hsettled.revision rfl).2
  refine ⟨⟨?_, hrevision⟩, hspan.1, ?_⟩
  · rw [applyWireTransaction_encoded hdecode]
    exact h
  · rw [hspan.2.2, hspan.1]

/-- What a run keeps: the retained entries lead from a past store to the current
one. -/
structure Retains (sys : Committed) : Prop where
  latest : sys.session.journal.latestRevision = sys.session.store.revision
  sized : Sized sys.session.journal
  window : Window sys.session.journal
  ordered : sys.history.Pairwise fun a b => a.revision < b.revision
  bounded : ∀ s ∈ sys.history, s.revision ≤ sys.session.store.revision
  origin : ∃ s ∈ sys.history, s.revision = sys.session.journal.earliestRevision ∧
    Trace Replays (· ∈ sys.history) s sys.session.journal.entries sys.session.store

variable {sys : Committed}

theorem Retains.origin_step (h : Retains sys) {session : Session}
    (hbase : tx.baseRevision = sys.session.store.revision)
    (hreplays : Replays sys.session.store tx session.store)
    (happended : Appended sys.session.journal tx session.journal) :
    ∃ s ∈ sys.history ++ [session.store], s.revision = session.journal.earliestRevision ∧
      Trace Replays (· ∈ sys.history ++ [session.store]) s session.journal.entries
        session.store := by
  obtain ⟨dropped, kept, hentries, hentries', -, hearliest, -⟩ := happended.window
  have hstart : (if sys.session.journal.entries = [] then tx.baseRevision
      else sys.session.journal.earliestRevision) = sys.session.journal.earliestRevision := by
    split
    · rename_i hempty
      have hcount := h.window.count
      rw [hempty, h.latest] at hcount
      exact hbase.trans hcount
    · rfl
  obtain ⟨origin, horigin, hrevision, htrace⟩ := h.origin
  rw [hentries] at htrace
  obtain ⟨middle, hdropped, hkept⟩ := trace_append.mp htrace
  have hmono : ∀ s, s ∈ sys.history → s ∈ sys.history ++ [session.store] :=
    fun s hs => List.mem_append_left [session.store] hs
  refine ⟨middle, hmono middle (hdropped.visits_end horigin), ?_, ?_⟩
  · rw [hearliest, trace_revision hdropped, hrevision]
    exact congrArg (fun r => reach WireTransaction.newRevision r dropped) hstart.symm
  · rw [hentries']
    exact trace_append.mpr ⟨_, hkept.mono hmono, trace_single (by simp) hreplays⟩

theorem Retains.commit (h : Retains sys) {session : Session}
    (hbase : tx.baseRevision = sys.session.store.revision)
    (hunit : tx.newRevision = tx.baseRevision + 1)
    (hreplays : Replays sys.session.store tx session.store)
    (happended : Appended sys.session.journal tx session.journal) :
    Retains ⟨session, sys.history ++ [session.store]⟩ := by
  have hforward : sys.session.store.revision < session.store.revision := by
    rw [hreplays.2, hunit, hbase]
    exact Nat.lt_succ_self _
  refine ⟨happended.latest.trans hreplays.2.symm,
    happended.sized h.sized (Nat.le_of_eq hunit), happended.keeps_window h.sized h.window hunit,
    ?_, ?_, h.origin_step hbase hreplays happended⟩
  · rw [List.pairwise_append]
    refine ⟨h.ordered, List.pairwise_singleton _ _, ?_⟩
    intro a ha b hb
    obtain rfl := List.mem_singleton.mp hb
    exact Nat.lt_of_le_of_lt (h.bounded a ha) hforward
  · intro s hs
    rcases List.mem_append.mp hs with hold | hnew
    · exact Nat.le_of_lt (Nat.lt_of_le_of_lt (h.bounded s hold) hforward)
    · obtain rfl := List.mem_singleton.mp hnew
      exact Nat.le_refl _

theorem Retains.step (h : Retains sys) (tx : WireTransaction) :
    Retains (commitStep sys tx) := by
  unfold commitStep
  rcases commitTransaction_cases sys.session tx with
    ⟨f, hrefused⟩ | ⟨commit, store, hdecode, hcommit, haccepted, hcommitted⟩
  · rw [hrefused]
    exact h
  · rw [hcommitted]
    obtain ⟨hreplays, hbase, hunit⟩ := committed_replays hdecode hcommit
    rcases call_cases sys.session.journal (.commit commit) with ⟨f, hrefused⟩ | ⟨-, happended⟩
    · rw [hrefused] at haccepted
      simp at haccepted
    · exact h.commit hbase hunit hreplays happended

theorem Retains.agrees (h : Retains sys) : Agrees sys := by
  refine ⟨h.latest, ?_⟩
  intro r hcan
  obtain ⟨origin, horigin, hrevision, htrace⟩ := h.origin
  have hreplay := h.window.replay r
  have hinside : sys.session.journal.earliestRevision ≤ r ∧
      r ≤ sys.session.journal.latestRevision := by
    rw [canReplayFrom] at hcan
    simpa using hcan
  rw [if_pos hinside] at hreplay
  obtain ⟨k, rfl⟩ := Nat.exists_eq_add_of_le hinside.1
  rw [filter_eq_drop (h.window.units h.sized) h.window.chain k] at hreplay
  rw [← List.take_append_drop k sys.session.journal.entries] at htrace
  obtain ⟨middle, hbefore, hafter⟩ := trace_append.mp htrace
  have hmiddle : middle.revision = sys.session.journal.earliestRevision + k := by
    have hchain := h.window.chain
    rw [← List.take_append_drop k sys.session.journal.entries, Chained, abutting_append] at hchain
    have hunits : ∀ tx ∈ sys.session.journal.entries.take k,
        tx.newRevision = tx.baseRevision + 1 := fun tx htx =>
      h.window.units h.sized tx (List.mem_of_mem_take htx)
    rw [trace_revision hbefore, hrevision, reach_eq hunits hchain.1, List.length_take,
      Nat.min_eq_left]
    have hcount := h.window.count
    omega
  refine ⟨middle, _, ?_, hreplay, replay_of_trace hafter⟩
  rw [← hmiddle]
  exact storeAt_mem h.ordered (hbefore.visits_end horigin)

def freshSession (limits : StoreLimits) (revision : Revision) (maxEntries : Nat) : Committed :=
  ⟨⟨SemanticStore.withLimitsAndRevision limits revision, withInitialRevision maxEntries revision⟩,
    [SemanticStore.withLimitsAndRevision limits revision]⟩

/-- In every state of every run of `commit_transaction` calls, accepted or
refused, store and journal agree. -/
theorem store_journal_agree (limits : StoreLimits) (revision : Revision) (maxEntries : Nat)
    (txs : List WireTransaction) :
    EveryState commitStep Agrees (freshSession limits revision maxEntries) txs := by
  have hfresh : Retains (freshSession limits revision maxEntries) := by
    refine ⟨rfl, opened_sized maxEntries (some revision), opened_window maxEntries (some revision),
      List.pairwise_singleton _ _, ?_, ?_⟩
    · intro s hs
      obtain rfl := List.mem_singleton.mp hs
      exact Nat.le_refl _
    · exact ⟨_, List.mem_singleton.mpr rfl, rfl, rfl⟩
  have hany : EveryStep commitStep (fun _ _ => True) (freshSession limits revision maxEntries) txs :=
    everyStep_of_forall (fun _ _ => trivial) _ txs
  have hevery : EveryState commitStep Retains (freshSession limits revision maxEntries) txs :=
    hany.everyState (fun _ tx h _ => h.step tx) hfresh
  exact hevery.mono fun _ h => h.agrees

end Srui.Sessiond.JournalReplay

import Srui.Basic.Runs
import Srui.Basic.Spans
import Srui.Journal.TransactionJournals

/-!
The window of revisions a journal can replay from, over any run of recorded and
committed transactions.
-/

namespace Srui.Journal.ReplayWindows

open Basic.Machine Basic.Runs Basic.Spans SemanticTree.Transactions SemanticTree.Wire
open Journal.TransactionJournals

/-- What is asked of a journal: a recorded transaction, or an authoritative
commit that is prepared and then appended. -/
inductive Call where
  | record (tx : WireTransaction)
  | commit (commit : AuthoritativeCommit)

def Call.transaction : Call → WireTransaction
  | .record tx => tx
  | .commit authoritative => encodeTransaction authoritative.txn

def call (journal : TransactionJournal) : Call → TransactionJournal × Outcome JournalError Unit
  | .record tx => record journal tx
  | .commit commit =>
    match prepare journal commit with
    | .error e => (journal, err e)
    | .ok permit =>
      match append journal permit with
      | .error f => (journal, .error f)
      | .ok journal => (journal, .ok ())

def step (journal : TransactionJournal) (c : Call) : TransactionJournal := (call journal c).1

def opened (maxEntries : Nat) : Option Nat → TransactionJournal
  | none => TransactionJournal.new maxEntries
  | some initialRevision => withInitialRevision maxEntries initialRevision

abbrev Chained (r : Nat) (txs : List WireTransaction) : Prop :=
  Abutting WireTransaction.baseRevision WireTransaction.newRevision r txs

/-- The retained entries cover the revisions from the earliest to the latest, one
entry a revision, and replay starts at any of these. -/
structure Window (journal : TransactionJournal) : Prop where
  chain : Chained journal.earliestRevision journal.entries
  latest : journal.latestRevision =
    reach WireTransaction.newRevision journal.earliestRevision journal.entries
  count : journal.latestRevision = journal.earliestRevision + journal.entries.length
  bounded : journal.entries.length ≤ journal.maxEntries
  replay : ∀ r, replayFrom journal r =
    if journal.earliestRevision ≤ r ∧ r ≤ journal.latestRevision then
      some (journal.entries.filter fun tx => r ≤ tx.baseRevision)
    else none
  canReplay : ∀ r, canReplayFrom journal r = true ↔ (replayFrom journal r).isSome

/-- A refused call changes nothing; an accepted one adds its transaction at the
end and drops at most the oldest entry. -/
def Keeps (journal : TransactionJournal) (c : Call) : Prop :=
  match (call journal c).2 with
  | .error _ => step journal c = journal
  | .ok () => ∃ dropped, dropped.length ≤ 1 ∧
      journal.entries ++ [c.transaction] = dropped ++ (step journal c).entries

/-- A recorded transaction at the last revision of all, which the shape check lets
through because its addition saturates. -/
def Saturates (journal : TransactionJournal) : Call → Prop
  | .record tx => u64Max ≤ tx.baseRevision ∧ tx.newRevision = u64Max ∧
      (journal.entries = [] ∨ tx.baseRevision = journal.latestRevision)
  | .commit _ => False

structure Appended (journal : TransactionJournal) (tx : WireTransaction)
    (journal' : TransactionJournal) : Prop where
  head : journal.entries = [] ∨ tx.baseRevision = journal.latestRevision
  maxEntries : journal'.maxEntries = journal.maxEntries
  latest : journal'.latestRevision = tx.newRevision
  window : ∃ dropped kept, journal.entries = dropped ++ kept ∧ journal'.entries = kept ++ [tx] ∧
    dropped.length ≤ 1 ∧
    journal'.earliestRevision = reach WireTransaction.newRevision
      (if journal.entries = [] then tx.baseRevision else journal.earliestRevision) dropped ∧
    (dropped ≠ [] ↔ journal.maxEntries ≤ journal.entries.length ∧ journal.entries ≠ [])

variable {journal journal' : TransactionJournal}

theorem append_appended {permit : JournalPermit}
    (h : append journal permit = .ok journal') : Appended journal permit.tx journal' := by
  obtain ⟨maxEntries, entries, earliest, latest⟩ := journal
  rw [append] at h
  split at h
  case isFalse => simp at h
  rename_i hhead
  rw [← Except.ok.inj h]
  cases entries with
  | nil =>
    refine ⟨hhead, ?_, rfl, [], [], rfl, ?_, by simp, ?_, by simp⟩
    · simp
    · simp
    · simp [reach]
  | cons oldest rest =>
    rcases Nat.lt_or_ge (rest.length + 1) maxEntries with hroom | hfull
    · have hroom' : ¬ maxEntries ≤ rest.length + 1 := Nat.not_le.mpr hroom
      refine ⟨hhead, ?_, rfl, [], oldest :: rest, rfl, ?_, by simp, ?_, by simp [hroom']⟩
      · simp [hroom']
      · simp [hroom']
      · simp [hroom', reach]
    · refine ⟨hhead, ?_, rfl, [oldest], rest, rfl, ?_, by simp, ?_, by simp [hfull]⟩
      · simp [hfull]
      · simp [hfull]
      · simp [hfull, reach]

theorem call_cases (journal : TransactionJournal) (c : Call) :
    (∃ f, call journal c = (journal, .error f)) ∨
      ((call journal c).2 = .ok () ∧ Appended journal c.transaction (step journal c)) := by
  cases c with
  | record tx =>
    rw [step, call, record]
    split
    · exact Or.inl ⟨_, rfl⟩
    split
    · exact Or.inl ⟨_, rfl⟩
    split
    · exact Or.inl ⟨_, rfl⟩
    · rename_i happend
      exact Or.inr ⟨rfl, append_appended happend⟩
  | commit commit =>
    rw [step, call]
    split
    · exact Or.inl ⟨_, rfl⟩
    rename_i permit hprepare
    split
    · exact Or.inl ⟨_, rfl⟩
    · rename_i happend
      rw [Call.transaction, ← (append_of_prepare hprepare).1]
      exact Or.inr ⟨rfl, append_appended happend⟩

theorem keeps (journal : TransactionJournal) (c : Call) : Keeps journal c := by
  rcases call_cases journal c with ⟨f, hrefused⟩ | ⟨haccepted, happended⟩
  · simp only [Keeps, step, hrefused]
  · obtain ⟨dropped, kept, hentries, hentries', hlength, -⟩ := happended.window
    simp only [Keeps, haccepted]
    exact ⟨dropped, hlength, by rw [hentries, hentries', List.append_assoc]⟩

theorem accepted_shape {c : Call}
    (h : (call journal c).2 = .ok ()) :
    c.transaction.newRevision ≤ c.transaction.baseRevision + 1 ∧
      (c.transaction.newRevision = c.transaction.baseRevision + 1 ∨ Saturates journal c) := by
  cases c with
  | record tx =>
    have happended : journal.entries = [] ∨ tx.baseRevision = journal.latestRevision := by
      rcases call_cases journal (.record tx) with ⟨f, hrefused⟩ | ⟨-, happended⟩
      · rw [hrefused] at h
        simp at h
      · exact happended.head
    rw [call, record] at h
    split at h
    · simp [err] at h
    rename_i hshape
    rw [not_not, saturatingAdd] at hshape
    simp only [Call.transaction, Saturates]
    rcases Nat.lt_or_ge tx.baseRevision u64Max with hlow | hhigh
    · exact ⟨by omega, Or.inl (by omega)⟩
    · exact ⟨by omega, Or.inr ⟨hhigh, by omega, happended⟩⟩
  | commit commit =>
    have hnext := validateCommit_next commit.valid
    obtain ⟨-, heq⟩ := checkedAdd_eq_some.mp hnext
    have hunit : (encodeTransaction commit.txn).newRevision =
        (encodeTransaction commit.txn).baseRevision + 1 := heq
    exact ⟨Nat.le_of_eq hunit, Or.inl hunit⟩

structure Sized (journal : TransactionJournal) : Prop where
  room : 1 ≤ journal.maxEntries
  steps : ∀ tx ∈ journal.entries, tx.newRevision ≤ tx.baseRevision + 1

theorem opened_sized (maxEntries : Nat) (initialRevision : Option Nat) :
    Sized (opened maxEntries initialRevision) := by
  cases initialRevision with
  | none => exact ⟨Nat.le_max_right _ _, by simp [opened, TransactionJournal.new]⟩
  | some r => exact ⟨Nat.le_max_right _ _, by simp [opened, withInitialRevision]⟩

variable {tx : WireTransaction}

theorem Appended.sized
    (happended : Appended journal tx journal') (h : Sized journal)
    (hstep : tx.newRevision ≤ tx.baseRevision + 1) : Sized journal' := by
  refine ⟨happended.maxEntries ▸ h.room, ?_⟩
  obtain ⟨dropped, kept, hentries, hentries', -⟩ := happended.window
  rw [hentries']
  intro other hother
  rcases List.mem_append.mp hother with hkept | hnew
  · exact h.steps other (by rw [hentries]; exact List.mem_append_right dropped hkept)
  · obtain rfl := List.mem_singleton.mp hnew
    exact hstep

theorem step_sized (h : Sized journal) (c : Call) :
    Sized (step journal c) := by
  rcases call_cases journal c with ⟨f, hrefused⟩ | ⟨haccepted, happended⟩
  · rw [step, hrefused]
    exact h
  · exact happended.sized h (accepted_shape haccepted).1

theorem window_of_units
    (hchain : Chained journal.earliestRevision journal.entries)
    (hunit : ∀ tx ∈ journal.entries, tx.newRevision = tx.baseRevision + 1)
    (hlatest : journal.latestRevision =
      reach WireTransaction.newRevision journal.earliestRevision journal.entries)
    (hbounded : journal.entries.length ≤ journal.maxEntries) : Window journal := by
  have hcount : journal.latestRevision = journal.earliestRevision + journal.entries.length :=
    hlatest.trans (reach_eq hunit hchain)
  have hreplay : ∀ r, replayFrom journal r =
      if journal.earliestRevision ≤ r ∧ r ≤ journal.latestRevision then
        some (journal.entries.filter fun tx => r ≤ tx.baseRevision)
      else none := by
    intro r
    rw [replayFrom, iterFrom]
    rcases em (journal.earliestRevision ≤ r ∧ r ≤ journal.latestRevision) with hinside | houtside
    · have hdrop := filter_eq_drop hunit hchain (r - journal.earliestRevision)
      rw [Nat.add_sub_cancel' hinside.1] at hdrop
      rw [if_pos hinside, if_neg (by omega), hdrop]
      rcases eq_or_ne r journal.latestRevision with hlast | hbefore
      · rw [if_pos hlast, hlast, hcount, Nat.add_sub_cancel_left]
      · rw [if_neg hbefore, if_neg (by omega)]
    · rw [if_neg houtside, if_pos (by omega)]
  refine ⟨hchain, hlatest, hcount, hbounded, hreplay, ?_⟩
  intro r
  rw [hreplay, canReplayFrom]
  split <;> simp <;> omega

theorem Window.units (h : Window journal) (hsized : Sized journal) :
    ∀ tx ∈ journal.entries, tx.newRevision = tx.baseRevision + 1 :=
  unit_of_reach hsized.steps h.chain (h.latest.symm.trans h.count)

theorem opened_window (maxEntries : Nat) (initialRevision : Option Nat) :
    Window (opened maxEntries initialRevision) := by
  cases initialRevision with
  | none =>
    exact window_of_units trivial (by simp [opened, TransactionJournal.new]) rfl
      (Nat.zero_le _)
  | some r =>
    exact window_of_units trivial (by simp [opened, withInitialRevision]) rfl (Nat.zero_le _)

theorem Appended.chain
    (happended : Appended journal tx journal') (h : Window journal) :
    ∃ dropped kept, journal.entries = dropped ++ kept ∧ journal'.entries = kept ++ [tx] ∧
      Chained journal'.earliestRevision kept ∧
      reach WireTransaction.newRevision journal'.earliestRevision kept = tx.baseRevision ∧
      kept.length + 1 ≤ max 1 journal'.maxEntries := by
  obtain ⟨dropped, kept, hentries, hentries', hlength, hearliest, hdropped⟩ := happended.window
  refine ⟨dropped, kept, hentries, hentries', ?_⟩
  rw [happended.maxEntries]
  cases hcase : journal.entries with
  | nil =>
    rw [hcase] at hentries hearliest
    obtain ⟨rfl, rfl⟩ := List.append_eq_nil_iff.mp hentries.symm
    rw [if_pos rfl] at hearliest
    exact ⟨trivial, hearliest, by simp⟩
  | cons first rest =>
    have hne : journal.entries ≠ [] := by simp [hcase]
    rw [if_neg hne] at hearliest
    have hchain := h.chain
    have hlatest := h.latest
    rw [hentries, Chained, abutting_append] at hchain
    rw [hentries, reach_append, ← hearliest] at hlatest
    rw [← hearliest] at hchain
    refine ⟨hchain.2, ?_, ?_⟩
    · rw [← hlatest]
      exact (happended.head.resolve_left hne).symm
    · have hbounded := h.bounded
      have hsum : journal.entries.length = dropped.length + kept.length := by
        rw [hentries, List.length_append]
      rcases List.eq_nil_or_concat dropped with rfl | ⟨_, _, rfl⟩
      · have hroom : journal.entries.length < journal.maxEntries :=
          Nat.not_le.mp fun hfull => (hdropped.mpr ⟨hfull, hne⟩) rfl
        rw [List.length_nil, Nat.zero_add] at hsum
        rw [← hsum]
        exact Nat.le_trans hroom (Nat.le_max_right _ _)
      · rw [List.concat_eq_append, List.length_append, List.length_singleton] at hsum
        exact Nat.le_trans (by omega) (Nat.le_max_right _ _)

theorem Appended.keeps_window
    (happended : Appended journal tx journal') (hsized : Sized journal) (h : Window journal)
    (hunit : tx.newRevision = tx.baseRevision + 1) : Window journal' := by
  obtain ⟨dropped, kept, hentries, hentries', hchain, hreach, hlength⟩ := happended.chain h
  have hroom := (happended.sized hsized (Nat.le_of_eq hunit)).room
  have hchain' : Chained journal'.earliestRevision journal'.entries := by
    rw [hentries']
    exact abutting_append.mpr ⟨hchain, hreach.symm, trivial⟩
  refine window_of_units hchain' ?_ ?_ ?_
  · rw [hentries']
    intro other hother
    rcases List.mem_append.mp hother with hkept | hnew
    · exact h.units hsized other (by rw [hentries]; exact List.mem_append_right dropped hkept)
    · obtain rfl := List.mem_singleton.mp hnew
      exact hunit
  · rw [hentries', reach_append, happended.latest]
    rfl
  · rw [hentries', List.length_append]
    simp only [List.length_cons, List.length_nil]
    omega

theorem step_window_iff (hsized : Sized journal)
    (h : Window journal) (c : Call) : Window (step journal c) ↔ ¬ Saturates journal c := by
  constructor
  · intro hwindow hsaturates
    cases c with
    | commit commit => exact hsaturates
    | record tx =>
      obtain ⟨hhigh, hnew, hhead⟩ := hsaturates
      have hshape : tx.newRevision = saturatingAdd tx.baseRevision 1 := by
        rw [saturatingAdd]
        omega
      have hcontiguous : checkContiguity journal tx = .ok () := by
        rw [checkContiguity, if_neg]
        rintro ⟨hne, hother⟩
        exact hhead.elim hne hother
      have haccepted : (call journal (.record tx)).2 = .ok () := by
        simp [call, record, hshape, hcontiguous, append, hhead]
      rcases call_cases journal (.record tx) with ⟨f, hrefused⟩ | ⟨-, happended⟩
      · rw [hrefused] at haccepted
        simp at haccepted
      obtain ⟨dropped, kept, hentries, hentries', hchain, hreach, -⟩ := happended.chain h
      have hsteps : ∀ old ∈ kept, old.newRevision ≤ old.baseRevision + 1 := fun old hold =>
        hsized.steps old (by rw [hentries]; exact List.mem_append_right dropped hold)
      have hle := reach_le hsteps hchain
      have hcount := hwindow.count
      rw [hentries', happended.latest, List.length_append] at hcount
      simp only [Call.transaction] at hcount hreach
      simp only [List.length_cons, List.length_nil] at hcount
      omega
  · intro hsafe
    rcases call_cases journal c with ⟨f, hrefused⟩ | ⟨haccepted, happended⟩
    · rw [step, hrefused]
      exact h
    · exact happended.keeps_window hsized h
        ((accepted_shape haccepted).2.resolve_right hsafe)

/-- Every state of a run has its window, with refused calls leaving the journal
alone and only the oldest entries dropped, exactly when no call of the run is a
saturated one. -/
theorem journal_window_iff (maxEntries : Nat) (initialRevision : Option Nat)
    (calls : List Call) :
    (EveryState step Window (opened maxEntries initialRevision) calls ∧
      EveryStep step Keeps (opened maxEntries initialRevision) calls) ↔
      EveryStep step (fun journal c => ¬ Saturates journal c)
        (opened maxEntries initialRevision) calls := by
  have hany : EveryStep step (fun _ _ => True) (opened maxEntries initialRevision) calls :=
    everyStep_of_forall (fun _ _ => trivial) _ calls
  have hiff : EveryState step Window (opened maxEntries initialRevision) calls ↔
      EveryStep step (fun journal c => ¬ Saturates journal c)
        (opened maxEntries initialRevision) calls :=
    everyState_iff_everyStep_of
      (fun (journal : TransactionJournal) c (hsized : Sized journal) _ => step_sized hsized c)
      (fun journal c hsized _ h => step_window_iff hsized h c)
      (opened_sized maxEntries initialRevision) (opened_window maxEntries initialRevision) hany
  rw [hiff, and_iff_left (everyStep_of_forall keeps _ calls)]

/-- At the last revision the same transaction is recorded again and again. -/
theorem lastRevision_no_window :
    ¬ EveryState step Window (opened 4 none) [.record ⟨u64Max, u64Max, [], 0⟩] := by
  rintro ⟨-, h⟩
  have hcount := h.count
  exact absurd hcount (by decide +kernel)

end Srui.Journal.ReplayWindows

import Srui.EventDedupe.EventRecords
import Srui.Sessiond.EventCalls

/-!
Agreement on the outcome of an event. Beside the session runs an account for each
client and event: what happened since the event was last admitted as fresh, that is
how often its handlers ran to their end, which outcomes its window took on record and
which outcomes calls returned for it.
-/

namespace Srui.Sessiond.OutcomeAgreement

open Std Basic.Machine Basic.Runs EventDedupe.Windows EventDedupe.Deduplicators
open EventDedupe.Representation EventDedupe.EventRecords SemanticTree.Limits SemanticTree.Events
open SemanticTree.Wire Sessiond.Sessions
open Sessiond.TextEditTrackers hiding Input step opened
open Sessiond.EventProcessing Sessiond.EventCalls

/-- What happened to an event since it was last admitted as fresh. -/
structure Account where
  completions : Nat
  recorded : List EventOutcomeRecord
  returned : List EventOutcome

/-- A session whose mutex is sound, with the account of each client and event. -/
structure Observed where
  system : EventSystem
  account : Bytes → Bytes → Account

/-- The outcome a step took on record, if it did. -/
def newlyRecorded (before after : Option EventRecord) : List EventOutcomeRecord :=
  match after with
  | some (.settled seq ty outcome) =>
    if before = some (.settled seq ty outcome) then [] else [outcome]
  | _ => []

/-- The account after a step, opened anew when the step admits the event as fresh. -/
def Account.next (account : Account) (fresh completed : Bool) (before after : Option EventRecord)
    (returned : List EventOutcome) : Account :=
  let opened := if fresh then ⟨0, [], []⟩ else account
  ⟨opened.completions + completed.toNat, newlyRecorded before after ++ opened.recorded,
    returned ++ opened.returned⟩

variable (env : Externals)

/-- Whether an admission answers `Fresh`. -/
def isFresh : Except EventSequenceError RecordOutcome → Bool
  | .ok (.fresh _) => true
  | _ => false

/-- Whether a step admits the event `id` of client `c` as fresh. -/
def admitsFresh (s : EventSystem) (input : Input) (c id : Bytes) : Bool :=
  match input with
  | .processEvent event =>
    let identity := admissionIdentity env event
    decide (identity.clientInstanceId = c ∧ identity.eventId = id) &&
      isFresh (admitEvent s.inner.dedupe identity).2
  | _ => false

/-- Whether a step settles handlers of the event that ran to their end. -/
def completes (s : EventSystem) (input : Input) (c id : Bytes) : Bool :=
  match input with
  | .dispatched place dispatch =>
    match s.attempts[place]?, dispatch with
    | some ⟨_, .dispatching _⟩, .panicked _ => false
    | some ⟨event, .dispatching _⟩, _ =>
      decide (event.clientInstanceId = c ∧ event.eventId = id)
    | _, _ => false
  | _ => false

/-- The outcome a step returns for the event, if it returns one. -/
def returnedFor (ended : Option Return) (c id : Bytes) : List EventOutcome :=
  match ended with
  | some ⟨identity, .ok outcome⟩ =>
    if identity.clientInstanceId = c ∧ identity.eventId = id then [outcome] else []
  | _ => []

/-- One critical section, with what it adds to the accounts. -/
def observe (s : Observed) (input : Input) : Observed where
  system := step env s.system input
  account := fun c id =>
    (s.account c id).next (admitsFresh env s.system input c id) (completes s.system input c id)
      (recordOf s.system.inner.dedupe c id)
      (recordOf (step env s.system input).inner.dedupe c id)
      (returnedFor (stepWith env s.system input).2 c id)

def started (limits : StoreLimits) (capacity maxEntries maxWindows maxStreams : Nat) :
    Observed where
  system := opened limits capacity maxEntries maxWindows maxStreams
  account := fun _ _ => ⟨0, [], []⟩

/-- The accepted flag and the revision of a terminal outcome. -/
def verdict : EventOutcome → Option (Bool × Nat)
  | .processed revision _ => some (true, revision)
  | .pending _ => none
  | .duplicate accepted revision _ _ => some (accepted, revision)
  | .rejected _ revision _ => some (false, revision)

def EventOutcomeRecord.verdict (record : EventOutcomeRecord) : Bool × Nat :=
  (record.accepted, record.revisionAfterEffect)

/-- The handlers of an event ran at most once to their end since it was admitted, at most
one outcome went on record, it is the one its window holds as long as it holds one, and
every terminal outcome that was returned says the same. -/
structure Agrees (record : Option EventRecord) (account : Account) : Prop where
  once : account.completions ≤ 1
  one : account.recorded.length ≤ 1
  retained : ∀ seq ty outcome, record = some (.settled seq ty outcome) →
    account.recorded = [outcome]
  same : ∀ outcome ∈ account.returned, ∀ v, verdict outcome = some v →
    ∃ recorded, account.recorded = [recorded] ∧ v = EventOutcomeRecord.verdict recorded

/-- The session behind its mutex, with the accounts. -/
structure GuardedObserved where
  system : GuardedSystem
  account : Bytes → Bytes → Account

/-- A section that finds the mutex poisoned admits nothing. -/
def admitsGuarded (s : GuardedSystem) (c id : Bytes) : GuardedInput → Bool
  | .queryPanicked => false
  | .critical input => !s.poisoned && admitsFresh env s.system input c id

/-- Handlers end before the section that settles them asks for the mutex. -/
def completesGuarded (s : GuardedSystem) (c id : Bytes) : GuardedInput → Bool
  | .queryPanicked => false
  | .critical input => completes s.system input c id

/-- One section behind the mutex, with what it adds to the accounts. -/
def observeGuarded (s : GuardedObserved) (input : GuardedInput) : GuardedObserved where
  system := (guardedStepWith env s.system input).1
  account := fun c id =>
    (s.account c id).next (admitsGuarded env s.system c id input)
      (completesGuarded s.system c id input)
      (recordOf s.system.system.inner.dedupe c id)
      (recordOf (guardedStepWith env s.system input).1.system.inner.dedupe c id)
      (returnedFor (guardedStepWith env s.system input).2 c id)

def startedGuarded (limits : StoreLimits) (capacity maxEntries maxWindows maxStreams : Nat) :
    GuardedObserved where
  system := ⟨opened limits capacity maxEntries maxWindows maxStreams, false⟩
  account := fun _ _ => ⟨0, [], []⟩

/-- Only an event that its window holds no record of is admitted as fresh. -/
def AdmitsForgotten (s : GuardedObserved) (input : GuardedInput) : Prop :=
  ∀ c id, admitsGuarded env s.system c id input = true →
    recordOf s.system.system.inner.dedupe c id = none

/-- An event whose ordinary handlers panicked is neither in flight nor settled, and is
admitted again as fresh. -/
def RetriesAfterPanic (s : GuardedObserved) (input : GuardedInput) : Prop :=
  ∀ place message event, input = .critical (.dispatched place (.panicked message)) →
    s.system.system.attempts[place]? = some ⟨event, .dispatching .ordinary⟩ →
      recordOf (observeGuarded env s input).system.system.inner.dedupe event.clientInstanceId
          event.eventId = none ∧
        ∃ last, (admitEvent (observeGuarded env s input).system.system.inner.dedupe
          (admissionIdentity env event)).2 = .ok (.fresh last)

/-- A panic of ordinary handlers is settled while the mutex is sound. -/
def PanicsUnpoisoned (s : GuardedObserved) (input : GuardedInput) : Prop :=
  ∀ place message event, input = .critical (.dispatched place (.panicked message)) →
    s.system.system.attempts[place]? = some ⟨event, .dispatching .ordinary⟩ →
      s.system.poisoned = false

variable {env}

/-- Nothing happened yet that counts. -/
structure Blank (account : Account) : Prop where
  completions : account.completions = 0
  recorded : account.recorded = []
  returned : ∀ outcome ∈ account.returned, verdict outcome = none

/-- An account agrees with the record, and is blank while the event is in flight. -/
structure Balanced (record : Option EventRecord) (account : Account) : Prop where
  agrees : Agrees record account
  blank : ∀ seq ty, record = some (.inFlight seq ty) → Blank account

variable {account : Account}

theorem Blank.agrees (h : Blank account) {record : Option EventRecord}
    (hopen : ∀ seq ty outcome, record ≠ some (.settled seq ty outcome)) : Agrees record account where
  once := by
    rw [h.completions]
    exact Nat.zero_le 1
  one := by
    rw [h.recorded]
    exact Nat.zero_le 1
  retained := fun seq ty outcome hrecord => absurd hrecord (hopen seq ty outcome)
  same := by
    intro outcome houtcome v hv
    rw [h.returned outcome houtcome] at hv
    simp at hv

variable {before : Option EventRecord}

theorem newlyRecorded_fades {after : Option EventRecord} (h : Fades before after) :
    newlyRecorded before after = [] := by
  rcases h with rfl | ⟨rfl, -⟩
  · match after with
    | none => rfl
    | some (.inFlight _ _) => rfl
    | some (.settled _ _ _) => exact if_pos rfl
  · rfl

theorem Balanced.answer {after : Option EventRecord}
    (h : Balanced before account) (hfades : Fades before after) {returned : List EventOutcome}
    (hreturned : ∀ outcome ∈ returned, ∀ v, verdict outcome = some v →
      ∃ seq ty record, before = some (.settled seq ty record) ∧
        v = EventOutcomeRecord.verdict record) :
    Balanced after (account.next false false before after returned) := by
  have hrecorded : newlyRecorded before after ++ account.recorded = account.recorded := by
    rw [newlyRecorded_fades hfades, List.nil_append]
  refine ⟨⟨h.agrees.once, ?_, ?_, ?_⟩, ?_⟩
  · change (newlyRecorded before after ++ account.recorded).length ≤ 1
    rw [hrecorded]
    exact h.agrees.one
  · intro seq ty outcome hafter
    change newlyRecorded before after ++ account.recorded = [outcome]
    rw [hrecorded]
    rcases hfades with rfl | ⟨hnone, -⟩
    · exact h.agrees.retained seq ty outcome hafter
    · rw [hnone] at hafter
      simp at hafter
  · intro outcome houtcome v hv
    change ∃ recorded, newlyRecorded before after ++ account.recorded = [recorded] ∧ _
    rw [hrecorded]
    rcases List.mem_append.mp houtcome with hnew | hold
    · obtain ⟨seq, ty, record, hbefore, hverdict⟩ := hreturned outcome hnew v hv
      exact ⟨record, h.agrees.retained seq ty record hbefore, hverdict⟩
    · exact h.agrees.same outcome hold v hv
  · intro seq ty hafter
    have hbefore : before = some (.inFlight seq ty) := by
      rcases hfades with rfl | ⟨hnone, -⟩
      · exact hafter
      · rw [hnone] at hafter
        simp at hafter
    have hblank := h.blank seq ty hbefore
    refine ⟨hblank.completions, hrecorded.trans hblank.recorded, ?_⟩
    intro outcome houtcome
    rcases List.mem_append.mp houtcome with hnew | hold
    · cases hv : verdict outcome with
      | none => rfl
      | some v =>
        obtain ⟨_, _, record, hsettled, -⟩ := hreturned outcome hnew v hv
        rw [hbefore] at hsettled
        simp at hsettled
    · exact hblank.returned outcome hold

theorem Blank.settle (h : Blank account)
    (hopen : ∀ seq ty outcome, before ≠ some (.settled seq ty outcome)) {seq : Nat}
    {ty : EventType} {outcome : EventOutcomeRecord} (completed : Bool)
    {returned : List EventOutcome}
    (hreturned : ∀ o ∈ returned, ∀ v, verdict o = some v →
      v = EventOutcomeRecord.verdict outcome) :
    Balanced (some (.settled seq ty outcome))
      (account.next false completed before (some (.settled seq ty outcome)) returned) := by
  have hrecorded : newlyRecorded before (some (.settled seq ty outcome)) ++ account.recorded =
      [outcome] := by
    rw [h.recorded, List.append_nil]
    exact if_neg (hopen seq ty outcome)
  refine ⟨⟨?_, ?_, ?_, ?_⟩, ?_⟩
  · change account.completions + completed.toNat ≤ 1
    rw [h.completions, Nat.zero_add]
    exact Bool.toNat_le completed
  · change (newlyRecorded before (some (.settled seq ty outcome)) ++ account.recorded).length ≤ 1
    rw [hrecorded]
    exact Nat.le_refl 1
  · intro seq' ty' outcome' hsame
    simp only [Option.some.injEq, EventRecord.settled.injEq] at hsame
    rw [← hsame.2.2]
    exact hrecorded
  · intro o ho v hv
    refine ⟨outcome, hrecorded, ?_⟩
    rcases List.mem_append.mp ho with hnew | hold
    · exact hreturned o hnew v hv
    · have hnone := h.returned o hold
      rw [hnone] at hv
      simp at hv
  · intro seq' ty' hsame
    simp at hsame

theorem next_fresh (account : Account) (completed : Bool) (before after : Option EventRecord)
    (returned : List EventOutcome) :
    account.next true completed before after returned =
      Account.next ⟨0, [], []⟩ false completed before after returned := rfl

theorem blank_new : Blank ⟨0, [], []⟩ := ⟨rfl, rfl, fun _ h => by simp at h⟩

theorem Balanced.admit (account : Account) (before : Option EventRecord) (seq : Nat)
    (ty : EventType) :
    Balanced (some (.inFlight seq ty))
      (account.next true false before (some (.inFlight seq ty)) []) where
  agrees := blank_new.agrees (by simp)
  blank := fun _ _ _ => blank_new

theorem Balanced.abandon (h : Blank account) :
    Balanced none (account.next false false before none []) where
  agrees := Blank.agrees ⟨h.completions, h.recorded, h.returned⟩ (by simp)
  blank := by simp

/-- A call holds the event: it decodes and is in flight. -/
structure Underway (d : EventDeduplicator) (event : WireEvent) : Prop where
  decodes : ∃ domain, decodeEvent event = .ok domain
  inFlight : recordOf d event.clientInstanceId event.eventId =
    some (.inFlight (identityOf event).eventSeq (identityOf event).eventType)

/-- The client and the event that an attempt is for. -/
def eventOf (attempt : Attempt) : Option (Bytes × Bytes) :=
  some (attempt.event.clientInstanceId, attempt.event.eventId)

/-- The invariant while the mutex is sound. -/
structure Consistent (s : Observed) : Prop where
  core : Core s.system.inner.dedupe
  underway : ∀ attempt ∈ s.system.attempts, Underway s.system.inner.dedupe attempt.event
  distinct : (s.system.attempts.filterMap eventOf).Nodup
  accounts : ∀ c id, Balanced (recordOf s.system.inner.dedupe c id) (s.account c id)

variable {d' dedupe : EventDeduplicator} {event : WireEvent}

theorem Underway.fades {d : EventDeduplicator} (h : Underway d event)
    (hfades : Fades (recordOf d event.clientInstanceId event.eventId)
      (recordOf d' event.clientInstanceId event.eventId)) : Underway d' event :=
  ⟨h.decodes, hfades.inFlight h.inFlight⟩

variable {place last : Nat} {s : Observed}

theorem Consistent.others (h : Consistent s) {attempt : Attempt}
    (hplace : s.system.attempts[place]? = some attempt)
    (hrecords : ∀ c id,
      ¬ (attempt.event.clientInstanceId = c ∧ attempt.event.eventId = id) →
        Fades (recordOf s.system.inner.dedupe c id) (recordOf d' c id)) :
    ∀ other ∈ s.system.attempts.eraseIdx place, Underway d' other.event := by
  intro other hother
  refine (h.underway other ((List.eraseIdx_sublist _ _).mem hother)).fades (hrecords _ _ ?_)
  intro hsame
  refine held_by_one eventOf hplace rfl h.distinct (List.mem_filterMap.mpr ⟨other, hother, ?_⟩)
  rw [eventOf, hsame.1, hsame.2]

theorem Consistent.rest_distinct (h : Consistent s) (place : Nat) :
    ((s.system.attempts.eraseIdx place).filterMap eventOf).Nodup :=
  ((List.eraseIdx_sublist _ _).filterMap eventOf).nodup h.distinct

theorem Consistent.distinct_cons (h : Consistent s)
    (habsent : recordOf s.system.inner.dedupe event.clientInstanceId event.eventId = none)
    (phase : Phase) : ((⟨event, phase⟩ :: s.system.attempts).filterMap eventOf).Nodup := by
  refine List.nodup_cons.mpr ⟨?_, h.distinct⟩
  intro hmem
  obtain ⟨other, hother, hsame⟩ := List.mem_filterMap.mp hmem
  simp only [eventOf, Option.some.injEq, Prod.mk.injEq] at hsame
  have hflight := (h.underway other hother).inFlight
  rw [hsame.1, hsame.2, habsent] at hflight
  simp at hflight

def Observed.accountAfter (env : Externals) (s : Observed) (input : Input)
    (system : EventSystem) (ended : Option Return) (c id : Bytes) : Account :=
  (s.account c id).next (admitsFresh env s.system input c id) (completes s.system input c id)
    (recordOf s.system.inner.dedupe c id) (recordOf system.inner.dedupe c id)
    (returnedFor ended c id)

variable {input : Input} {system : EventSystem} {ended : Option Return}

theorem Consistent.of_step (hstep : stepWith env s.system input = (system, ended))
    (hcore : Core system.inner.dedupe)
    (hunderway : ∀ attempt ∈ system.attempts, Underway system.inner.dedupe attempt.event)
    (hdistinct : (system.attempts.filterMap eventOf).Nodup)
    (haccounts : ∀ c id, Balanced (recordOf system.inner.dedupe c id)
      (s.accountAfter env input system ended c id)) : Consistent (observe env s input) := by
  have hobserve : observe env s input =
      ⟨system, s.accountAfter env input system ended⟩ := by
    rw [observe, step, hstep]
    rfl
  rw [hobserve]
  exact ⟨hcore, hunderway, hdistinct, haccounts⟩

/-- The step neither admits the event nor completes or returns anything for it. -/
structure Quiet (env : Externals) (s : EventSystem) (input : Input) (ended : Option Return)
    (c id : Bytes) : Prop where
  fresh : admitsFresh env s input c id = false
  completed : completes s input c id = false
  returned : returnedFor ended c id = []

variable {c id : Bytes}

theorem Consistent.quiet (h : Consistent s) (hquiet : Quiet env s.system input ended c id)
    (hfades : Fades (recordOf s.system.inner.dedupe c id) (recordOf system.inner.dedupe c id)) :
    Balanced (recordOf system.inner.dedupe c id)
      (s.accountAfter env input system ended c id) := by
  rw [Observed.accountAfter, hquiet.fresh, hquiet.completed, hquiet.returned]
  exact (h.accounts c id).answer hfades (by simp)

theorem Consistent.idle (h : Consistent s) (hstep : stepWith env s.system input = (system, ended))
    (hdedupe : system.inner.dedupe = s.system.inner.dedupe)
    (hunderway : ∀ attempt ∈ system.attempts, Underway s.system.inner.dedupe attempt.event)
    (hdistinct : (system.attempts.filterMap eventOf).Nodup)
    (hquiet : ∀ c id, Quiet env s.system input ended c id) :
    Consistent (observe env s input) := by
  refine .of_step hstep (hdedupe ▸ h.core) (hdedupe ▸ hunderway) hdistinct ?_
  intro c id
  refine h.quiet (hquiet c id) ?_
  rw [hdedupe]
  exact .refl _

/-!
The first critical section.
-/

theorem receive_quiet {s : EventSystem}
    (hended : ∀ r, ended = some r → r.identity = admissionIdentity env event)
    (hother : ¬ ((admissionIdentity env event).clientInstanceId = c ∧
      (admissionIdentity env event).eventId = id)) :
    Quiet env s (.processEvent event) ended c id where
  fresh := by
    rw [admitsFresh]
    simp only [hother, decide_false, Bool.false_and]
  completed := rfl
  returned := by
    match ended, hended with
    | none, _ => rfl
    | some ⟨identity, .error fault⟩, _ => rfl
    | some ⟨identity, .ok outcome⟩, hended =>
      have hidentity := hended _ rfl
      simp only at hidentity
      exact if_neg (hidentity ▸ hother)

theorem admitsFresh_own {s : EventSystem}
    {result : Except EventSequenceError RecordOutcome}
    (h : admitEvent s.inner.dedupe (admissionIdentity env event) = (dedupe, result)) :
    admitsFresh env s (.processEvent event) (admissionIdentity env event).clientInstanceId
      (admissionIdentity env event).eventId = isFresh result := by
  simp only [admitsFresh, h, and_self, decide_true, Bool.true_and]

theorem returnedFor_own (identity : Event) (outcome : EventOutcome) :
    returnedFor (some ⟨identity, .ok outcome⟩) identity.clientInstanceId identity.eventId =
      [outcome] := if_pos ⟨rfl, rfl⟩

variable {inner : SessionInner}

theorem Consistent.answered (h : Consistent s) {result : Except EventSequenceError RecordOutcome}
    {ended : Outcome ProcessError EventOutcome}
    (hadmits : admitEvent s.system.inner.dedupe (admissionIdentity env event) =
      (inner.dedupe, result)) (hresult : isFresh result = false)
    (hrecords : ∀ c id, recordOf inner.dedupe c id = recordOf s.system.inner.dedupe c id)
    (hverdict : ∀ outcome, ended = .ok outcome → ∀ v, verdict outcome = some v →
      ∃ seq ty record, recordOf s.system.inner.dedupe
        (admissionIdentity env event).clientInstanceId (admissionIdentity env event).eventId =
          some (.settled seq ty record) ∧ v = EventOutcomeRecord.verdict record)
    (hstep : stepWith env s.system (.processEvent event) =
      finish s.system.attempts inner (admissionIdentity env event) ended) :
    Consistent (observe env s (.processEvent event)) := by
  have hcore := h.core.admitEvent (admissionIdentity env event)
  rw [hadmits] at hcore
  have hfades : ∀ c id, Fades (recordOf s.system.inner.dedupe c id) (recordOf inner.dedupe c id) :=
    fun c id => .inl (hrecords c id)
  refine .of_step hstep hcore (fun attempt hmem => (h.underway attempt hmem).fades (hfades _ _))
    h.distinct ?_
  intro c id
  rcases Classical.em ((admissionIdentity env event).clientInstanceId = c ∧
    (admissionIdentity env event).eventId = id) with ⟨rfl, rfl⟩ | hother
  · rw [Observed.accountAfter, admitsFresh_own hadmits, hresult]
    refine (h.accounts _ _).answer (hfades _ _) ?_
    intro outcome houtcome
    cases ended with
    | error fault => simp [returnedFor] at houtcome
    | ok outcome' =>
      rw [returnedFor_own, List.mem_singleton] at houtcome
      exact hverdict outcome (congrArg Except.ok houtcome.symm)
  · refine h.quiet (receive_quiet ?_ hother) (hfades c id)
    intro r hr
    rw [← Option.some.inj hr]

/-- What the deduplicator has made of an event that it admits as fresh. -/
structure Admitted (s : Observed) (identity : Event) (dedupe : EventDeduplicator) : Prop where
  core : Core dedupe
  named : identity.eventId ≠ []
  absent : recordOf s.system.inner.dedupe identity.clientInstanceId identity.eventId = none
  inFlight : recordOf dedupe identity.clientInstanceId identity.eventId =
    some (.inFlight identity.eventSeq identity.eventType)
  others : ∀ c id, ¬ (identity.clientInstanceId = c ∧ identity.eventId = id) →
    Fades (recordOf s.system.inner.dedupe c id) (recordOf dedupe c id)

variable {identity : Event}

theorem Consistent.admitted (h : Consistent s)
    (hadmits : admitEvent s.system.inner.dedupe identity = (dedupe, .ok (.fresh last))) :
    Admitted s identity dedupe := by
  have hcore := h.core.admitEvent identity
  have hadmission := admitEvent_admission h.core identity
  rw [hadmits] at hcore hadmission
  cases hadmission with
  | fresh hnamed habsent hinFlight hothers => exact ⟨hcore, hnamed, habsent, hinFlight, hothers⟩

theorem Admitted.underway
    (hadmitted : Admitted s identity dedupe) (h : Consistent s)
    (hlater : ∀ c id, ¬ (identity.clientInstanceId = c ∧ identity.eventId = id) →
      recordOf d' c id = recordOf dedupe c id) :
    ∀ attempt ∈ s.system.attempts, Underway d' attempt.event := by
  intro attempt hmem
  have hunderway := h.underway attempt hmem
  have hother : ¬ (identity.clientInstanceId = attempt.event.clientInstanceId ∧
      identity.eventId = attempt.event.eventId) := by
    rintro ⟨hclient, hid⟩
    have habsent := hadmitted.absent
    rw [hclient, hid, hunderway.inFlight] at habsent
    simp at habsent
  refine hunderway.fades ?_
  rw [hlater _ _ hother]
  exact hadmitted.others _ _ hother

/-- The accounts after an admission whose call has returned no outcome yet. -/
theorem Consistent.balanced_admitted (h : Consistent s)
    (hadmits : admitEvent s.system.inner.dedupe (admissionIdentity env event) =
      (system.inner.dedupe, .ok (.fresh last)))
    (hended : ∀ r, ended = some r → r.identity = admissionIdentity env event)
    (hnone : ∀ c id, returnedFor ended c id = []) (c id : Bytes) :
    Balanced (recordOf system.inner.dedupe c id)
      (s.accountAfter env (.processEvent event) system ended c id) := by
  have hadmitted := h.admitted hadmits
  rcases Classical.em ((admissionIdentity env event).clientInstanceId = c ∧
    (admissionIdentity env event).eventId = id) with ⟨rfl, rfl⟩ | hother
  · rw [Observed.accountAfter, admitsFresh_own hadmits, hnone, hadmitted.inFlight]
    exact Balanced.admit _ _ _ _
  · exact h.quiet (receive_quiet hended hother) (hadmitted.others c id hother)

variable {phase : Phase}

theorem Consistent.takeUp (h : Consistent s) {domain : DomainEvent}
    (hadmits : admitEvent s.system.inner.dedupe (admissionIdentity env event) =
      (inner.dedupe, .ok (.fresh last))) (hdecode : decodeEvent event = .ok domain)
    (hstep : stepWith env s.system (.processEvent event) =
      goOn s.system.attempts inner ⟨event, phase⟩) :
    Consistent (observe env s (.processEvent event)) := by
  have hadmitted := h.admitted hadmits
  have hidentity : admissionIdentity env event = identityOf event :=
    admissionIdentity_of_ok env hdecode
  refine .of_step hstep hadmitted.core ?_ ?_ ?_
  · intro attempt hmem
    rcases List.mem_cons.mp hmem with rfl | hold
    · refine ⟨⟨domain, hdecode⟩, ?_⟩
      have hinFlight := hadmitted.inFlight
      rw [hidentity] at hinFlight
      exact hinFlight
    · exact hadmitted.underway h (fun _ _ _ => rfl) attempt hold
  · have habsent := hadmitted.absent
    rw [hidentity] at habsent
    exact h.distinct_cons habsent phase
  · exact h.balanced_admitted hadmits (by simp) (fun _ _ => rfl)

theorem Consistent.rejectAtOnce (h : Consistent s) {frontier : Nat}
    {record : EventOutcomeRecord} {outcome : EventOutcome}
    (hadmits : admitEvent s.system.inner.dedupe (admissionIdentity env event) =
      (dedupe, .ok (.fresh last)))
    (hsettle : settleEvent dedupe (admissionIdentity env event) record = (inner.dedupe, frontier))
    (hverdict : verdict outcome = some (EventOutcomeRecord.verdict record))
    (hstep : stepWith env s.system (.processEvent event) =
      finish s.system.attempts inner (admissionIdentity env event) (.ok outcome)) :
    Consistent (observe env s (.processEvent event)) := by
  have hadmitted := h.admitted hadmits
  have honly := settleEvent_onlyWindow hadmitted.core (admissionIdentity env event) record
  have hrecords := recordOf_settle hadmitted.core _ hadmitted.named hadmitted.inFlight record
  rw [hsettle] at honly hrecords
  have hlater : ∀ c id, ¬ ((admissionIdentity env event).clientInstanceId = c ∧
      (admissionIdentity env event).eventId = id) →
        recordOf inner.dedupe c id = recordOf dedupe c id :=
    fun c id hother => (hrecords c id).trans (if_neg hother)
  refine .of_step hstep honly.core (hadmitted.underway h hlater) h.distinct ?_
  intro c id
  rcases Classical.em ((admissionIdentity env event).clientInstanceId = c ∧
    (admissionIdentity env event).eventId = id) with ⟨rfl, rfl⟩ | hother
  · have hown := (hrecords (admissionIdentity env event).clientInstanceId
      (admissionIdentity env event).eventId).trans (if_pos ⟨rfl, rfl⟩)
    change Balanced (recordOf inner.dedupe _ _) _
    rw [Observed.accountAfter, admitsFresh_own hadmits, hadmitted.absent, returnedFor_own]
    change Balanced (recordOf inner.dedupe _ _) (Account.next _ true false _
      (recordOf inner.dedupe _ _) _)
    rw [hown, next_fresh]
    refine blank_new.settle (by simp) false ?_
    intro o ho v hv
    rw [List.mem_singleton.mp ho, hverdict] at hv
    exact (Option.some.inj hv).symm
  · refine h.quiet (receive_quiet ?_ hother) ?_
    · intro r hr
      rw [← Option.some.inj hr]
    · change Fades _ (recordOf inner.dedupe c id)
      rw [hlater c id hother]
      exact hadmitted.others c id hother

theorem Consistent.stuckAtOnce (h : Consistent s)
    (hadmits : admitEvent s.system.inner.dedupe (admissionIdentity env event) =
      (inner.dedupe, .ok (.fresh last)))
    (hstep : stepWith env s.system (.processEvent event) =
      finish s.system.attempts inner (admissionIdentity env event) (.error .panicked)) :
    Consistent (observe env s (.processEvent event)) := by
  have hadmitted := h.admitted hadmits
  refine .of_step hstep hadmitted.core (hadmitted.underway h fun _ _ _ => rfl) h.distinct ?_
  refine h.balanced_admitted hadmits ?_ (fun _ _ => rfl)
  intro r hr
  rw [← Option.some.inj hr]

theorem receive_consistent (h : Consistent s) (event : WireEvent) :
    Consistent (observe env s (.processEvent event)) := by
  have hbegins := beginEvent_begins env s.system.inner event
  have hadmission := admitEvent_admission h.core (admissionIdentity env event)
  generalize hresult : beginEvent env s.system.inner event = result at hbegins
  obtain ⟨inner, outcome⟩ := result
  simp only at hbegins
  have hstep : stepWith env s.system (.processEvent event) = receive env s.system event := rfl
  rw [receive, hresult] at hstep
  cases hbegins with
  | refused hadmits =>
    rw [hadmits] at hadmission
    cases hadmission with
    | refused hrecords => exact h.answered hadmits rfl hrecords (by simp) hstep
  | duplicate hadmits =>
    rw [hadmits] at hadmission
    cases hadmission with
    | duplicate hown hrecords =>
      refine h.answered hadmits rfl hrecords ?_ hstep
      intro outcome houtcome v hv
      rw [← Except.ok.inj houtcome] at hv
      exact ⟨_, _, _, hown, (Option.some.inj hv).symm⟩
  | pending hadmits =>
    rw [hadmits] at hadmission
    cases hadmission with
    | pending hrecords =>
      refine h.answered hadmits rfl hrecords ?_ hstep
      intro outcome houtcome v hv
      rw [← Except.ok.inj houtcome] at hv
      simp [verdict] at hv
  | rejected hadmits hreclaimed hsettle => exact h.rejectAtOnce hadmits hsettle rfl hstep
  | stuck hadmits hreclaimed => exact h.stuckAtOnce hadmits hstep
  | deciding hadmits hdecode hnode hreclaimed hreserve | dispatching hadmits hdecode =>
    exact h.takeUp hadmits hdecode hstep

/-!
The end of a call.
-/

/-- The step admits nothing, and completes handlers of the given event only. -/
structure EndsCall (env : Externals) (s : EventSystem) (input : Input) (event : WireEvent) :
    Prop where
  fresh : ∀ c id, admitsFresh env s input c id = false
  completed : ∀ c id, ¬ (event.clientInstanceId = c ∧ event.eventId = id) →
    completes s input c id = false

theorem EndsCall.quiet {s : EventSystem}
    (h : EndsCall env s input event) {ended : Outcome ProcessError EventOutcome}
    (hother : ¬ (event.clientInstanceId = c ∧ event.eventId = id)) :
    Quiet env s input (some ⟨identityOf event, ended⟩) c id where
  fresh := h.fresh c id
  completed := h.completed c id hother
  returned := by
    cases ended with
    | error fault => rfl
    | ok outcome => exact if_neg hother

section

variable (h : Consistent s)

include h

/-- A call of the event ends, and only the event's own record becomes another. -/
theorem Consistent.endAt (hplace : s.system.attempts[place]? = some ⟨event, phase⟩)
    (hcore : Core inner.dedupe) {own : Option EventRecord}
    (hrecords : ∀ c id, recordOf inner.dedupe c id =
      if event.clientInstanceId = c ∧ event.eventId = id then own
      else recordOf s.system.inner.dedupe c id)
    {ended : Outcome ProcessError EventOutcome} (hends : EndsCall env s.system input event)
    (hstep : stepWith env s.system input =
      finish (s.system.attempts.eraseIdx place) inner (identityOf event) ended)
    (hown : Balanced own ((s.account event.clientInstanceId event.eventId).next false
      (completes s.system input event.clientInstanceId event.eventId)
      (recordOf s.system.inner.dedupe event.clientInstanceId event.eventId) own
      (returnedFor (some ⟨identityOf event, ended⟩) event.clientInstanceId event.eventId))) :
    Consistent (observe env s input) := by
  have hothers : ∀ c id, ¬ (event.clientInstanceId = c ∧ event.eventId = id) →
      Fades (recordOf s.system.inner.dedupe c id) (recordOf inner.dedupe c id) :=
    fun c id hother => .inl ((hrecords c id).trans (if_neg hother))
  refine .of_step hstep hcore (h.others hplace hothers) (h.rest_distinct place) ?_
  intro c id
  rcases Classical.em (event.clientInstanceId = c ∧ event.eventId = id) with ⟨rfl, rfl⟩ | hother
  · change Balanced (recordOf inner.dedupe _ _) _
    rw [Observed.accountAfter, hends.fresh]
    change Balanced (recordOf inner.dedupe _ _) (Account.next _ _ _ _ (recordOf inner.dedupe _ _) _)
    rw [hrecords, if_pos ⟨rfl, rfl⟩]
    exact hown
  · exact h.quiet (hends.quiet hother) (hothers c id hother)

theorem Consistent.settleAt (hplace : s.system.attempts[place]? = some ⟨event, phase⟩)
    {record : EventOutcomeRecord}
    (hdedupe : inner.dedupe = (settleEvent s.system.inner.dedupe (identityOf event) record).1)
    {ended : Outcome ProcessError EventOutcome}
    (hverdict : ∀ outcome, ended = .ok outcome → ∀ v, verdict outcome = some v →
      v = EventOutcomeRecord.verdict record) (hends : EndsCall env s.system input event)
    (hstep : stepWith env s.system input =
      finish (s.system.attempts.eraseIdx place) inner (identityOf event) ended) :
    Consistent (observe env s input) := by
  have hunderway := h.underway _ (List.mem_of_getElem? hplace)
  obtain ⟨domain, hdecode⟩ := hunderway.decodes
  have hrecords := recordOf_settle h.core (identityOf event) (decodeEvent_eventId hdecode)
    hunderway.inFlight record
  have honly := settleEvent_onlyWindow h.core (identityOf event) record
  rw [← hdedupe] at hrecords honly
  refine h.endAt hplace honly.core hrecords hends hstep ?_
  rw [hunderway.inFlight]
  refine ((h.accounts _ _).blank _ _ hunderway.inFlight).settle (by simp) _ ?_
  intro outcome houtcome
  cases ended with
  | error fault => simp [returnedFor] at houtcome
  | ok outcome' =>
    rw [returnedFor, if_pos ⟨rfl, rfl⟩, List.mem_singleton] at houtcome
    exact hverdict outcome (congrArg Except.ok houtcome.symm)

theorem Consistent.abandonAt (hplace : s.system.attempts[place]? = some ⟨event, phase⟩)
    (hdedupe : inner.dedupe = abandonEvent s.system.inner.dedupe (identityOf event))
    {fault : Fault ProcessError} (hends : EndsCall env s.system input event)
    (hcompleted : completes s.system input event.clientInstanceId event.eventId = false)
    (hstep : stepWith env s.system input =
      finish (s.system.attempts.eraseIdx place) inner (identityOf event) (.error fault)) :
    Consistent (observe env s input) := by
  have hunderway := h.underway _ (List.mem_of_getElem? hplace)
  obtain ⟨domain, hdecode⟩ := hunderway.decodes
  have hrecords := recordOf_abandon h.core (identityOf event) (decodeEvent_eventId hdecode)
    hunderway.inFlight
  have honly := abandonEvent_onlyWindow h.core (identityOf event)
  rw [← hdedupe] at hrecords honly
  refine h.endAt hplace honly.core hrecords hends hstep ?_
  rw [hcompleted]
  exact Balanced.abandon ((h.accounts _ _).blank _ _ hunderway.inFlight)

theorem Consistent.goOnAt {phase' : Phase}
    (hplace : s.system.attempts[place]? = some ⟨event, phase⟩)
    (hquiet : ∀ c id, admitsFresh env s.system input c id = false ∧
      completes s.system input c id = false) (hstep : stepWith env s.system input =
      goOn (s.system.attempts.eraseIdx place) inner ⟨event, phase'⟩)
    (hdedupe : inner.dedupe = s.system.inner.dedupe) : Consistent (observe env s input) := by
  have hunderway := h.underway _ (List.mem_of_getElem? hplace)
  refine h.idle hstep hdedupe ?_ ?_ fun c id => ⟨(hquiet c id).1, (hquiet c id).2, rfl⟩
  · intro attempt hmem
    rcases List.mem_cons.mp hmem with rfl | hold
    · exact hunderway
    · exact h.underway attempt ((List.eraseIdx_sublist _ _).mem hold)
  · exact List.nodup_cons.mpr
      ⟨held_by_one eventOf hplace rfl h.distinct, h.rest_distinct place⟩

theorem Consistent.failAt {fault : Fault ProcessError}
    (hquiet : ∀ c id, admitsFresh env s.system input c id = false ∧
      completes s.system input c id = false) (hstep : stepWith env s.system input =
      finish (s.system.attempts.eraseIdx place) inner identity (.error fault))
    (hdedupe : inner.dedupe = s.system.inner.dedupe) : Consistent (observe env s input) :=
  h.idle hstep hdedupe
    (fun attempt hmem => h.underway attempt ((List.eraseIdx_sublist _ _).mem hmem))
    (h.rest_distinct place) fun c id => ⟨(hquiet c id).1, (hquiet c id).2, rfl⟩

theorem Consistent.skip (hquiet : ∀ c id, admitsFresh env s.system input c id = false ∧
      completes s.system input c id = false)
    (hstep : stepWith env s.system input = (s.system, none)) :
    Consistent (observe env s input) :=
  h.idle hstep rfl h.underway h.distinct fun c id => ⟨(hquiet c id).1, (hquiet c id).2, rfl⟩

theorem decide_consistent (place : Nat) (decision : TextEditDecision) :
    Consistent (observe env s (.decided place decision)) := by
  have hstep : stepWith env s.system (.decided place decision) =
      decideCall env s.system place decision := rfl
  have hquiet : ∀ c id, admitsFresh env s.system (.decided place decision) c id = false ∧
      completes s.system (.decided place decision) c id = false := fun _ _ => ⟨rfl, rfl⟩
  rw [decideCall] at hstep
  match hplace : s.system.attempts[place]? with
  | none =>
    rw [hplace] at hstep
    exact h.skip hquiet hstep
  | some ⟨event, .dispatching kind⟩ =>
    rw [hplace] at hstep
    exact h.skip hquiet hstep
  | some ⟨event, .deciding request generation⟩ =>
    have hends : EndsCall env s.system (.decided place decision) event :=
      ⟨fun _ _ => rfl, fun _ _ _ => rfl⟩
    have hdecides := commitTextEditDecision_decides env s.system.inner event request generation
      decision
    generalize hresult : commitTextEditDecision env s.system.inner event request generation
      decision = result at hdecides
    obtain ⟨inner, outcome⟩ := result
    simp only [hplace, hresult] at hdecides hstep
    cases hdecides with
    | late hlate =>
      have hinFlight := (h.underway _ (List.mem_of_getElem? hplace)).inFlight
      rw [isInFlight, ← recordOf, hinFlight] at hlate
      simp at hlate
    | rejected hsettle | declined hpublishes hsettle =>
      refine h.settleAt hplace (congrArg Prod.fst hsettle).symm ?_ hends hstep
      intro outcome houtcome v hv
      rw [← Except.ok.inj houtcome] at hv
      exact (Option.some.inj hv).symm
    | faulted | stuck hpublishes => exact h.failAt hquiet hstep rfl
    | accepted hpublishes => exact h.goOnAt hplace hquiet hstep rfl

theorem abandon_consistent (place : Nat) (message : String) :
    Consistent (observe env s (.policyPanicked place message)) := by
  have hstep : stepWith env s.system (.policyPanicked place message) =
      abandonCall s.system place message := rfl
  have hquiet : ∀ c id, admitsFresh env s.system (.policyPanicked place message) c id = false ∧
      completes s.system (.policyPanicked place message) c id = false := fun _ _ => ⟨rfl, rfl⟩
  rw [abandonCall] at hstep
  match hplace : s.system.attempts[place]? with
  | none =>
    rw [hplace] at hstep
    exact h.skip hquiet hstep
  | some ⟨event, .dispatching kind⟩ =>
    rw [hplace] at hstep
    exact h.skip hquiet hstep
  | some ⟨event, .deciding request generation⟩ =>
    rw [hplace] at hstep
    exact h.abandonAt hplace rfl ⟨fun _ _ => rfl, fun _ _ _ => rfl⟩ rfl hstep

end

theorem completes_other (env : Externals) {s : EventSystem}
    {kind : HandlerDispatchKind} (hplace : s.attempts[place]? = some ⟨event, .dispatching kind⟩)
    (dispatch : Dispatch) : EndsCall env s (.dispatched place dispatch) event where
  fresh := fun _ _ => rfl
  completed := by
    intro c id hother
    simp only [completes, hplace]
    cases dispatch with
    | panicked message => rfl
    | ok | failed message => exact decide_eq_false hother

theorem settle_consistent (h : Consistent s) (place : Nat) (dispatch : Dispatch) :
    Consistent (observe env s (.dispatched place dispatch)) := by
  have hstep : stepWith env s.system (.dispatched place dispatch) =
      settleCall env s.system place dispatch := rfl
  rw [settleCall] at hstep
  match hplace : s.system.attempts[place]? with
  | none =>
    rw [hplace] at hstep
    refine h.skip (fun c id => ⟨rfl, ?_⟩) hstep
    simp only [completes, hplace]
  | some ⟨event, .deciding request generation⟩ =>
    rw [hplace] at hstep
    refine h.skip (fun c id => ⟨rfl, ?_⟩) hstep
    simp only [completes, hplace]
  | some ⟨event, .dispatching kind⟩ =>
    rw [hplace] at hstep
    have hends := completes_other env hplace dispatch
    have hverdict : ∀ {recorded : EventOutcomeRecord} {settled : EventOutcome},
        verdict settled = some (EventOutcomeRecord.verdict recorded) → ∀ outcome,
          (.ok settled : Outcome ProcessError EventOutcome) = .ok outcome → ∀ v,
            verdict outcome = some v → v = EventOutcomeRecord.verdict recorded := by
      intro recorded settled hsettled outcome houtcome v hv
      rw [← Except.ok.inj houtcome, hsettled] at hv
      exact (Option.some.inj hv).symm
    cases kind with
    | ordinary =>
      cases dispatch with
      | ok | failed message => exact h.settleAt hplace rfl (hverdict rfl) hends hstep
      | panicked message =>
        refine h.abandonAt hplace rfl hends ?_ hstep
        simp only [completes, hplace]
    | committedTextEdit =>
      cases dispatch with
      | ok => exact h.settleAt hplace rfl (hverdict rfl) hends hstep
      | failed message | panicked message => exact h.settleAt hplace rfl (by simp [err]) hends hstep

theorem observe_consistent (h : Consistent s) (input : Input) :
    Consistent (observe env s input) := by
  cases input with
  | processEvent event => exact receive_consistent h event
  | decided place decision => exact decide_consistent h place decision
  | policyPanicked place message => exact abandon_consistent h place message
  | dispatched place dispatch => exact settle_consistent h place dispatch
  | transaction f | commitTransaction tx =>
    exact h.idle rfl rfl h.underway h.distinct fun _ _ => ⟨rfl, rfl, rfl⟩

theorem started_consistent (limits : StoreLimits)
    (capacity maxEntries maxWindows maxStreams : Nat) :
    Consistent (started limits capacity maxEntries maxWindows maxStreams) where
  core := core_withLimits maxEntries maxWindows
  underway := by
    intro attempt hmem
    simp [started, opened] at hmem
  distinct := List.nodup_nil
  accounts := by
    intro c id
    have hnone : recordOf (EventDeduplicator.withLimits maxEntries maxWindows) c id = none :=
      recordOf_none (by simp [EventDeduplicator.withLimits]) id
    change Balanced (recordOf (EventDeduplicator.withLimits maxEntries maxWindows) c id) _
    rw [hnone]
    exact ⟨blank_new.agrees (by simp), by simp⟩

theorem abandoned_retried (h : Consistent s) {message : String}
    (hplace : s.system.attempts[place]? = some ⟨event, .dispatching .ordinary⟩) :
    recordOf (step env s.system (.dispatched place (.panicked message))).inner.dedupe
        event.clientInstanceId event.eventId = none ∧
      ∃ last, (admitEvent (step env s.system (.dispatched place (.panicked message))).inner.dedupe
        (admissionIdentity env event)).2 = .ok (.fresh last) := by
  have hunderway := h.underway _ (List.mem_of_getElem? hplace)
  obtain ⟨domain, hdecode⟩ := hunderway.decodes
  have hid := decodeEvent_eventId hdecode
  have hdedupe : (step env s.system (.dispatched place (.panicked message))).inner.dedupe =
      abandonEvent s.system.inner.dedupe (identityOf event) := by
    simp only [step, stepWith, settleCall, hplace]
    rfl
  rw [hdedupe, admissionIdentity_of_ok env hdecode]
  refine ⟨?_, abandoned_fresh h.core (identityOf event) hid hunderway.inFlight⟩
  exact (recordOf_abandon h.core (identityOf event) hid hunderway.inFlight _ _).trans
    (if_pos ⟨rfl, rfl⟩)

theorem admits_forgotten (h : Consistent s)
    (hfresh : admitsFresh env s.system input c id = true) :
    recordOf s.system.inner.dedupe c id = none := by
  match input with
  | .processEvent event =>
    simp only [admitsFresh, Bool.and_eq_true, decide_eq_true_eq] at hfresh
    obtain ⟨⟨rfl, rfl⟩, hresult⟩ := hfresh
    have hadmission := admitEvent_admission h.core (admissionIdentity env event)
    generalize admitEvent s.system.inner.dedupe (admissionIdentity env event) = admitted
      at hresult hadmission
    obtain ⟨dedupe, result⟩ := admitted
    simp only at hresult hadmission
    cases hadmission with
    | refused hrecords | pending hrecords | duplicate hown hrecords => simp [isFresh] at hresult
    | fresh hnamed habsent hinFlight hothers => exact habsent

/-!
Behind a poisoned mutex.
-/

/-- The invariant once the mutex is poisoned: no event is settled any more, and the
handlers of one that a call still holds may end. -/
structure Halted (s : Observed) : Prop where
  underway : ∀ attempt ∈ s.system.attempts, Underway s.system.inner.dedupe attempt.event
  distinct : (s.system.attempts.filterMap eventOf).Nodup
  blank : ∀ attempt ∈ s.system.attempts,
    Blank (s.account attempt.event.clientInstanceId attempt.event.eventId)
  agrees : ∀ c id, Agrees (recordOf s.system.inner.dedupe c id) (s.account c id)

theorem Consistent.halted (h : Consistent s) : Halted s where
  underway := h.underway
  distinct := h.distinct
  blank := fun attempt hmem => (h.accounts _ _).blank _ _ (h.underway attempt hmem).inFlight
  agrees := fun c id => (h.accounts c id).agrees

/-- A refused section leaves the session alone, drops its call at most and returns no
outcome. -/
inductive Refused (s : EventSystem) : EventSystem × Option Return → Prop where
  | idle : Refused s (s, none)
  | ended (attempts : List Attempt) (hkept : attempts.Sublist s.attempts) (identity : Event) :
      Refused s (finish attempts s.inner identity (err .lockPoisoned))

theorem refuse_refused (env : Externals) (s : EventSystem) (input : Input) :
    Refused s (refuse env s input) := by
  have hcall : ∀ place, Refused s (refuse.refuseCall s place) := by
    intro place
    rw [refuse.refuseCall]
    split
    · exact .ended _ (List.eraseIdx_sublist _ _) _
    · exact .idle
  cases input with
  | processEvent event => exact .ended _ (List.Sublist.refl _) _
  | decided place decision => exact hcall place
  | policyPanicked place message => exact hcall place
  | dispatched place dispatch =>
    rw [refuse]
    split
    · exact .ended _ (List.eraseIdx_sublist _ _) _
    · exact .idle
  | transaction f => exact .idle
  | commitTransaction tx => exact .idle

theorem next_refused (account : Account) (completed : Bool) (record : Option EventRecord) :
    account.next false completed record record [] =
      { account with completions := account.completions + completed.toNat } := by
  have hnothing : newlyRecorded record record = [] := newlyRecorded_fades (.inl rfl)
  simp only [Account.next, hnothing, List.nil_append]
  rfl

theorem completes_place {s : EventSystem} (h : completes s input c id = true) :
    ∃ place dispatch event kind, input = .dispatched place dispatch ∧
      s.attempts[place]? = some ⟨event, .dispatching kind⟩ ∧ event.clientInstanceId = c ∧
      event.eventId = id := by
  match input with
  | .dispatched place dispatch =>
    match hplace : s.attempts[place]? with
    | none => simp [completes, hplace] at h
    | some ⟨event, .deciding request generation⟩ => simp [completes, hplace] at h
    | some ⟨event, .dispatching kind⟩ =>
      refine ⟨place, dispatch, event, kind, rfl, hplace, ?_⟩
      cases dispatch <;> simp [completes, hplace] at h <;> exact h

theorem Blank.complete (h : Blank account) (completed : Bool) {record : Option EventRecord}
    (hopen : ∀ seq ty outcome, record ≠ some (.settled seq ty outcome)) :
    Agrees record { account with completions := account.completions + completed.toNat } where
  once := by
    change account.completions + completed.toNat ≤ 1
    rw [h.completions, Nat.zero_add]
    exact Bool.toNat_le completed
  one := (h.agrees hopen).one
  retained := (h.agrees hopen).retained
  same := (h.agrees hopen).same

def Observed.refused (env : Externals) (s : Observed) (input : Input) : Observed where
  system := (refuse env s.system input).1
  account := fun c id =>
    { s.account c id with
      completions := (s.account c id).completions + (completes s.system input c id).toNat }

theorem Halted.refused (h : Halted s) (input : Input) : Halted (s.refused env input) := by
  have hkept : (refuse env s.system input).1.inner = s.system.inner ∧
      (refuse env s.system input).1.attempts.Sublist s.system.attempts := by
    have hrefused := refuse_refused env s.system input
    generalize refuse env s.system input = result at hrefused ⊢
    cases hrefused with
    | idle => exact ⟨rfl, List.Sublist.refl _⟩
    | ended attempts hkept identity => exact ⟨rfl, hkept⟩
  -- The call whose handlers ended is gone, and no other holds its event.
  have hgone : ∀ attempt ∈ (refuse env s.system input).1.attempts,
      completes s.system input attempt.event.clientInstanceId attempt.event.eventId = false := by
    intro attempt hmem
    refine Bool.eq_false_iff.mpr fun hcompletes => ?_
    obtain ⟨place, dispatch, event, kind, rfl, hplace, hclient, hid⟩ := completes_place hcompletes
    simp only [refuse, hplace, finish] at hmem
    refine held_by_one eventOf hplace rfl h.distinct (List.mem_filterMap.mpr ⟨attempt, hmem, ?_⟩)
    rw [eventOf, hclient, hid]
  refine ⟨?_, ?_, ?_, ?_⟩
  · intro attempt hmem
    change Underway (refuse env s.system input).1.inner.dedupe attempt.event
    rw [hkept.1]
    exact h.underway attempt (hkept.2.mem hmem)
  · exact (hkept.2.filterMap eventOf).nodup h.distinct
  · intro attempt hmem
    have hblank := h.blank attempt (hkept.2.mem hmem)
    refine ⟨?_, hblank.recorded, hblank.returned⟩
    change Account.completions _ + Bool.toNat _ = 0
    rw [hblank.completions, hgone attempt hmem]
    rfl
  · intro c id
    change Agrees (recordOf (refuse env s.system input).1.inner.dedupe c id) _
    rw [hkept.1]
    cases hcompletes : completes s.system input c id with
    | false =>
      have hsame := h.agrees c id
      rw [Observed.refused]
      simp only [hcompletes]
      exact hsame
    | true =>
      obtain ⟨place, dispatch, event, kind, rfl, hplace, rfl, rfl⟩ := completes_place hcompletes
      have hmem := List.mem_of_getElem? hplace
      refine (h.blank _ hmem).complete _ ?_
      intro seq ty outcome hsettled
      have hflight := (h.underway _ hmem).inFlight
      rw [hsettled] at hflight
      simp at hflight

def GuardedObserved.sound (s : GuardedObserved) : Observed := ⟨s.system.system, s.account⟩

/-- The invariant of the session behind its mutex. -/
structure Guarded (s : GuardedObserved) : Prop where
  consistent : s.system.poisoned = false → Consistent s.sound
  halted : Halted s.sound

theorem observeGuarded_sound {s : GuardedObserved} (hsound : s.system.poisoned = false)
    (input : Input) :
    (observeGuarded env s (.critical input)).sound = observe env s.sound input := by
  simp only [observeGuarded, guardedStepWith, admitsGuarded, completesGuarded, hsound,
    Bool.not_false, Bool.true_and]
  rfl

theorem observeGuarded_poisoned (env : Externals) {s : GuardedObserved} (hpoisoned : s.system.poisoned = true)
    (input : Input) :
    (observeGuarded env s (.critical input)).sound = s.sound.refused env input ∧
      (observeGuarded env s (.critical input)).system.poisoned = true := by
  have hrefused := refuse_refused env s.system.system input
  refine ⟨?_, by simp only [observeGuarded, guardedStepWith, hpoisoned]; rfl⟩
  simp only [GuardedObserved.sound, Observed.refused, observeGuarded, guardedStepWith,
    admitsGuarded, completesGuarded, hpoisoned, Bool.not_true, Bool.false_and, if_true]
  refine congrArg (Observed.mk _) ?_
  funext c id
  generalize refuse env s.system.system input = result at hrefused
  cases hrefused with
  | idle | ended attempts hkept identity => exact next_refused _ _ _

theorem observeGuarded_query (s : GuardedObserved) :
    (observeGuarded env s .queryPanicked).sound = s.sound := by
  refine congrArg (Observed.mk s.system.system) ?_
  funext c id
  exact next_refused _ false _

theorem observeGuarded_guarded {s : GuardedObserved} (h : Guarded s) (input : GuardedInput) :
    Guarded (observeGuarded env s input) := by
  cases input with
  | queryPanicked =>
    refine ⟨fun hsound => ?_, ?_⟩
    · simp [observeGuarded, guardedStepWith] at hsound
    · rw [observeGuarded_query]
      exact h.halted
  | critical input =>
    cases hmutex : s.system.poisoned with
    | false =>
      have hnext : Consistent (observe env s.sound input) :=
        observe_consistent (h.consistent hmutex) input
      rw [← observeGuarded_sound hmutex input] at hnext
      exact ⟨fun _ => hnext, hnext.halted⟩
    | true =>
      obtain ⟨hrefused, hstays⟩ := observeGuarded_poisoned env hmutex input
      refine ⟨fun hsound => ?_, hrefused ▸ h.halted.refused input⟩
      rw [hstays] at hsound
      simp at hsound

theorem startedGuarded_guarded (limits : StoreLimits)
    (capacity maxEntries maxWindows maxStreams : Nat) :
    Guarded (startedGuarded limits capacity maxEntries maxWindows maxStreams) where
  consistent := fun _ => started_consistent limits capacity maxEntries maxWindows maxStreams
  halted := (started_consistent limits capacity maxEntries maxWindows maxStreams).halted

theorem guarded_forgotten {s : GuardedObserved} (h : Guarded s) (input : GuardedInput) :
    AdmitsForgotten env s input := by
  intro c id hadmits
  cases input with
  | queryPanicked => simp [admitsGuarded] at hadmits
  | critical input =>
    simp only [admitsGuarded, Bool.and_eq_true, Bool.not_eq_true'] at hadmits
    exact admits_forgotten (h.consistent hadmits.1) hadmits.2

theorem guarded_retries {s : GuardedObserved} (h : Guarded s) (input : GuardedInput) :
    RetriesAfterPanic env s input ↔ PanicsUnpoisoned s input := by
  constructor
  · intro hretries place message event hinput hplace
    refine Bool.eq_false_iff.mpr fun hpoisoned => ?_
    subst hinput
    have habsent := (hretries place message event rfl hplace).1
    have hflight := (h.halted.underway _ (List.mem_of_getElem? hplace)).inFlight
    simp only [observeGuarded, guardedStepWith, hpoisoned, refuse, hplace, if_true, finish]
      at habsent
    have hstays := habsent.symm.trans hflight
    simp at hstays
  · rintro hunpoisoned place message event rfl hplace
    have hsound := hunpoisoned place message event rfl hplace
    have hsystem : (observeGuarded env s (.critical (.dispatched place
        (.panicked message)))).system.system =
          step env s.system.system (.dispatched place (.panicked message)) := by
      simp only [observeGuarded, guardedStepWith, hsound]
      rfl
    rw [hsystem]
    exact abandoned_retried (h.consistent hsound) hplace

/-- In every run of a session with any number of concurrent calls, the outcomes of each
event agree in every state, and only an event without a record is admitted as fresh,
which opens its account anew. Every event whose ordinary handlers panic is left to be
admitted again just when no such panic is settled behind a poisoned mutex. -/
theorem event_outcomes_agree (env : Externals) (limits : StoreLimits)
    (capacity maxEntries maxWindows maxStreams : Nat) (inputs : List GuardedInput) :
    EveryState (observeGuarded env)
        (fun s => ∀ c id, Agrees (recordOf s.system.system.inner.dedupe c id) (s.account c id))
        (startedGuarded limits capacity maxEntries maxWindows maxStreams) inputs ∧
      EveryStep (observeGuarded env) (AdmitsForgotten env)
        (startedGuarded limits capacity maxEntries maxWindows maxStreams) inputs ∧
      (EveryStep (observeGuarded env) (RetriesAfterPanic env)
          (startedGuarded limits capacity maxEntries maxWindows maxStreams) inputs ↔
        EveryStep (observeGuarded env) PanicsUnpoisoned
          (startedGuarded limits capacity maxEntries maxWindows maxStreams) inputs) := by
  have hinit := startedGuarded_guarded limits capacity maxEntries maxWindows maxStreams
  have hrun : ∀ ok, EveryStep (observeGuarded env) ok
      (startedGuarded limits capacity maxEntries maxWindows maxStreams) inputs →
        ∀ ok', (∀ s input, Guarded s → ok s input → ok' s input) →
          EveryStep (observeGuarded env) ok' _ inputs := fun ok h ok' himp =>
    EveryStep.of_invariant (P := Guarded) (fun s input hs _ => observeGuarded_guarded hs input)
      himp h hinit
  have hall : EveryStep (observeGuarded env) (fun _ _ => True)
      (startedGuarded limits capacity maxEntries maxWindows maxStreams) inputs :=
    everyStep_of_forall (fun _ _ => trivial) _ _
  refine ⟨?_, ?_, ?_, ?_⟩
  · have hguarded : EveryState (observeGuarded env) Guarded _ inputs :=
      hall.everyState (fun s input h _ => observeGuarded_guarded h input) hinit
    exact hguarded.mono fun s h => h.halted.agrees
  · exact hrun _ hall _ fun s input h _ => guarded_forgotten h input
  · intro hretries
    exact hrun _ hretries _ fun s input h hok => (guarded_retries h input).mp hok
  · intro hunpoisoned
    exact hrun _ hunpoisoned _ fun s input h hok => (guarded_retries h input).mpr hok

def silent : Externals :=
  ⟨fun _ => "", fun _ => "", fun _ => "", fun _ => "", fun _ => []⟩

def press : WireEvent :=
  ⟨[65], 1, [1], 1, 1, some ⟨0, 1⟩, [], 0⟩

/-- The handlers of `press` panic in a query of the store. -/
def queryPanics : List GuardedInput :=
  [.critical (.commitTransaction (encodeTransaction
      ⟨0, 1, [.createNode 1 ⟨0, 1⟩ none none []], 0⟩)),
    .critical (.processEvent press), .queryPanicked, .critical (.dispatched 0 (.panicked "query"))]

/-- The panic is settled behind the mutex it poisoned, and the event stays in flight. -/
theorem queryPanics_inFlight :
    ¬ ((EveryState (observeGuarded silent)
        (fun s => ∀ c id, Agrees (recordOf s.system.system.inner.dedupe c id) (s.account c id))
        (startedGuarded .default 8 8 1 8) queryPanics) ∧
      EveryStep (observeGuarded silent) (AdmitsForgotten silent)
        (startedGuarded .default 8 8 1 8) queryPanics ∧
      EveryStep (observeGuarded silent) (RetriesAfterPanic silent)
        (startedGuarded .default 8 8 1 8) queryPanics) := by
  rintro ⟨-, -, -, -, -, hretries, -⟩
  have habsent := (hretries 0 "query" press rfl rfl).1
  exact absurd habsent (by decide +kernel)

end Srui.Sessiond.OutcomeAgreement

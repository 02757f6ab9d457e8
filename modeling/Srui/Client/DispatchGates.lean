import Srui.Client.TransactionLanes

/-!
The gate of event dispatch: the locked sections of a session controller that move its phase and
its flags, with the calls that are suspended between them.
-/

namespace Srui.Client.DispatchGates

open Basic.Runs
open Client.TransactionLanes (ProtocolPhase allowsDataPlane)

/-- Where the `start` of the current lifecycle is. -/
inductive StartProgress where
  | none
  | binding
  | announced
deriving DecidableEq

/-- The call that tears the lifecycle down: a `stop`, or a `start` that has failed. -/
inductive Teardown where
  | none
  | stop
  | failedStart
deriving DecidableEq

inductive ReceiveLoop where
  | none
  | awaitingMessage
  | welcome (initialRevision : Nat)
  | resumeOk (generation lifecycleGeneration : Nat)
  | resyncRequired
deriving DecidableEq

/-- Where a transaction in `handleTransaction` is. -/
inductive TransactionProgress where
  | handling (isResyncSnapshot : Bool)
  | completing (generation : Option Nat) (lifecycleGeneration : Nat)
  | released (generation : Option Nat) (lifecycleGeneration : Nat)
deriving DecidableEq

/-- A transaction in `handleTransaction`: the lifecycle it came under, and whether a failure has
not yet taken it off the queue. -/
structure HandledTransaction where
  lifecycleGeneration : Nat
  queued : Bool := true
  progress : TransactionProgress
deriving DecidableEq

structure SessionController where
  isRunning : Bool := false
  isStopping : Bool := false
  isDiverged : Bool := false
  eventDispatchEnabled : Bool := false
  pendingResync : Bool := false
  phase : ProtocolPhase := .idle
  lifecycleGeneration : Nat := 0
  resumeGeneration : Option Nat := Option.none
  starting : StartProgress := .none
  teardown : Teardown := .none
  receiveLoop : ReceiveLoop := .none
  transactions : List HandledTransaction := []

/-- A locked section. A transaction is named by its place among those being handled. -/
inductive Section where
  | start
  | adoptResume (generation : Nat)
  | adoptPhase (resumes : Bool)
  | adoptReceiveLoop
  | failStart
  | cleanUpFailedStart
  | receiveWelcome (initialRevision : Nat)
  | handleWelcome
  | receiveResumeOk
  | finalizeResumeOk
  | receiveResyncRequired
  | enterAwaitingSnapshot
  | dropMessage
  | endReceiveLoop
  | handleTransaction
  | completeSnapshotCatchUp (place : Nat)
  | releaseSnapshot (place : Nat)
  | reopenDispatch (place : Nat)
  | abandonSnapshot (place : Nat)
  | finishTransaction (place : Nat)
  | markFailure
  | stop
  | clearSessionStateAfterStop
deriving DecidableEq

namespace SessionController

def start (s : SessionController) : SessionController :=
  if !s.isRunning && !s.isStopping then
    { s with
      lifecycleGeneration := s.lifecycleGeneration + 1
      isRunning := true
      eventDispatchEnabled := false
      phase := .idle
      starting := .binding }
  else s

/-- The guard of the sections of `start`. A later lifecycle has forgotten the call. -/
def ownsRunningLifecycle (s : SessionController) : Bool :=
  s.isRunning && !s.isStopping

def adoptResume (s : SessionController) (generation : Nat) : SessionController :=
  if s.starting = .binding ∧ s.ownsRunningLifecycle then
    { s with resumeGeneration := some generation }
  else s

def adoptPhase (s : SessionController) (resumes : Bool) : SessionController :=
  if s.starting = .binding ∧ s.ownsRunningLifecycle then
    { s with
      phase := if resumes then .awaitingResume else .awaitingWelcome
      starting := .announced }
  else s

def adoptReceiveLoop (s : SessionController) : SessionController :=
  if s.starting = .announced ∧ s.ownsRunningLifecycle then
    { s with starting := .none, receiveLoop := .awaitingMessage }
  else s

/-- The first section of `cleanUpFailedStart`. -/
def failStart (s : SessionController) : SessionController :=
  if s.starting ≠ .none ∧ !s.isStopping then
    { s with
      isStopping := true
      eventDispatchEnabled := false
      starting := .none
      teardown := .failedStart }
  else s

/-- Its last section, which leaves the failure and the resync latch as they are. -/
def cleanUpFailedStart (s : SessionController) : SessionController :=
  if s.teardown = .failedStart then
    { s with
      resumeGeneration := Option.none
      eventDispatchEnabled := false
      phase := .idle
      isRunning := false
      isStopping := false
      teardown := .none }
  else s

/-- A `WELCOME` in another phase is reported as a failure. -/
def receiveWelcome (s : SessionController) (initialRevision : Nat) : SessionController :=
  if s.receiveLoop = .awaitingMessage ∧ (s.phase = .idle ∨ s.phase = .awaitingWelcome) then
    { s with receiveLoop := .welcome initialRevision }
  else s

/-- The state that `handleWelcome` commits after its suspensions. -/
def handleWelcome (s : SessionController) : SessionController :=
  match s.receiveLoop with
  | .welcome initialRevision =>
    if 0 < initialRevision then
      { s with
        resumeGeneration := Option.none
        pendingResync := true
        eventDispatchEnabled := false
        phase := .awaitingSnapshot
        receiveLoop := .awaitingMessage }
    else
      { s with
        resumeGeneration := Option.none
        phase := .active
        eventDispatchEnabled := s.isRunning && !s.isDiverged
        receiveLoop := .awaitingMessage }
  | _ => s

/-- No transaction is on the queue, as the loop awaits before a message that replaces the
replica. -/
def laneIdle (s : SessionController) : Bool :=
  s.transactions.all (!·.queued)

def receiveResumeOk (s : SessionController) : SessionController :=
  match s.resumeGeneration with
  | some generation =>
    if s.receiveLoop = .awaitingMessage ∧ s.phase = .awaitingResume ∧ s.laneIdle then
      { s with receiveLoop := .resumeOk generation s.lifecycleGeneration }
    else s
  | Option.none => s

/-- The guard of `finalizeResumeAttempt`. -/
def mayFinalize (s : SessionController) (lifecycleGeneration : Nat) : Bool :=
  s.lifecycleGeneration = lifecycleGeneration && s.isRunning && !s.isStopping && !s.isDiverged

def finalizeResumeOk (s : SessionController) : SessionController :=
  match s.receiveLoop with
  | .resumeOk _ lifecycleGeneration =>
    if s.mayFinalize lifecycleGeneration then
      { s with
        resumeGeneration := Option.none
        phase := .active
        eventDispatchEnabled := !s.isDiverged
        receiveLoop := .awaitingMessage }
    else { s with receiveLoop := .awaitingMessage }
  | _ => s

def receiveResyncRequired (s : SessionController) : SessionController :=
  if s.receiveLoop = .awaitingMessage ∧ s.laneIdle ∧
      (s.phase = .awaitingResume ∨ s.phase = .active ∨ s.phase = .awaitingSnapshot) then
    { s with receiveLoop := .resyncRequired }
  else s

def enterAwaitingSnapshot (s : SessionController) : SessionController :=
  if s.receiveLoop = .resyncRequired then
    { s with
      pendingResync := true
      eventDispatchEnabled := false
      phase := .awaitingSnapshot
      receiveLoop := .awaitingMessage }
  else s

/-- A handler that returns, with or without a failure reported, and commits nothing. -/
def dropMessage (s : SessionController) : SessionController :=
  if s.receiveLoop = .none then s else { s with receiveLoop := .awaitingMessage }

def endReceiveLoop (s : SessionController) : SessionController :=
  if s.receiveLoop = .awaitingMessage then { s with receiveLoop := .none } else s

/-- A queued transaction gets to its handler, one at a time and never while the loop is at a
message that replaces the replica. -/
def handleTransaction (s : SessionController) : SessionController :=
  match s.receiveLoop with
  | .resumeOk _ _ | .resyncRequired => s
  | _ =>
    if s.isRunning ∧ s.laneIdle ∧ allowsDataPlane s.phase then
      { s with transactions := s.transactions ++ [{
          lifecycleGeneration := s.lifecycleGeneration
          progress := .handling s.pendingResync }] }
    else s

def withProgress (s : SessionController) (place : Nat) (t : HandledTransaction)
    (progress : TransactionProgress) : List HandledTransaction :=
  s.transactions.set place { t with progress := progress }

/-- The first section of `completeSnapshotCatchUp`. -/
def completeSnapshotCatchUp (s : SessionController) (place : Nat) : SessionController :=
  match s.transactions[place]? with
  | some t =>
    if t.progress = .handling true then
      { s with
        transactions :=
          s.withProgress place t (.completing s.resumeGeneration s.lifecycleGeneration) }
    else s
  | Option.none => s

def releaseSnapshot (s : SessionController) (place : Nat) : SessionController :=
  match s.transactions[place]? with
  | some t =>
    match t.progress with
    | .completing generation lifecycleGeneration =>
      { s with
        pendingResync := false
        transactions := s.withProgress place t (.released generation lifecycleGeneration) }
    | _ => s
  | Option.none => s

def caughtUp (phase : ProtocolPhase) : ProtocolPhase :=
  if phase = .awaitingSnapshot then .active else phase

/-- The last section of `completeSnapshotCatchUp`: a resumed connection finalizes its attempt, any
other opens dispatch without that guard. -/
def reopenDispatch (s : SessionController) (place : Nat) : SessionController :=
  match s.transactions[place]? with
  | some t =>
    match t.progress with
    | .released (some _) lifecycleGeneration =>
      if s.mayFinalize lifecycleGeneration then
        { s with
          resumeGeneration := Option.none
          eventDispatchEnabled := true
          phase := caughtUp s.phase
          transactions := s.transactions.eraseIdx place }
      else { s with transactions := s.transactions.eraseIdx place }
    | .released Option.none _ =>
      { s with
        eventDispatchEnabled := s.isRunning && !s.isDiverged
        phase := caughtUp s.phase
        transactions := s.transactions.eraseIdx place }
    | _ => s
  | Option.none => s

/-- A snapshot that cannot be mounted gives up its latch before the failure is reported. -/
def abandonSnapshot (s : SessionController) (place : Nat) : SessionController :=
  match s.transactions[place]? with
  | some t => if t.progress = .handling true then { s with pendingResync := false } else s
  | Option.none => s

def finishTransaction (s : SessionController) (place : Nat) : SessionController :=
  { s with transactions := s.transactions.eraseIdx place }

def markFailure (s : SessionController) : SessionController :=
  if !s.isDiverged then
    { s with
      isDiverged := true
      eventDispatchEnabled := false
      phase := .failed
      transactions := s.transactions.map fun t => { t with queued := false } }
  else s

def stop (s : SessionController) : SessionController :=
  if s.isRunning && !s.isStopping then
    { s with
      lifecycleGeneration := s.lifecycleGeneration + 1
      isStopping := true
      eventDispatchEnabled := false
      starting := .none
      teardown := .stop }
  else s

/-- The last section of `stop`, after the loop and the queue have been awaited. -/
def clearSessionStateAfterStop (s : SessionController) : SessionController :=
  if s.teardown = .stop ∧ s.receiveLoop = .none ∧ s.laneIdle then
    { s with
      isDiverged := false
      pendingResync := false
      resumeGeneration := Option.none
      eventDispatchEnabled := false
      phase := .idle
      isRunning := false
      isStopping := false
      teardown := .none }
  else s

def step (s : SessionController) : Section → SessionController
  | .start => s.start
  | .adoptResume generation => s.adoptResume generation
  | .adoptPhase resumes => s.adoptPhase resumes
  | .adoptReceiveLoop => s.adoptReceiveLoop
  | .failStart => s.failStart
  | .cleanUpFailedStart => s.cleanUpFailedStart
  | .receiveWelcome initialRevision => s.receiveWelcome initialRevision
  | .handleWelcome => s.handleWelcome
  | .receiveResumeOk => s.receiveResumeOk
  | .finalizeResumeOk => s.finalizeResumeOk
  | .receiveResyncRequired => s.receiveResyncRequired
  | .enterAwaitingSnapshot => s.enterAwaitingSnapshot
  | .dropMessage => s.dropMessage
  | .endReceiveLoop => s.endReceiveLoop
  | .handleTransaction => s.handleTransaction
  | .completeSnapshotCatchUp place => s.completeSnapshotCatchUp place
  | .releaseSnapshot place => s.releaseSnapshot place
  | .reopenDispatch place => s.reopenDispatch place
  | .abandonSnapshot place => s.abandonSnapshot place
  | .finishTransaction place => s.finishTransaction place
  | .markFailure => s.markFailure
  | .stop => s.stop
  | .clearSessionStateAfterStop => s.clearSessionStateAfterStop

/-- Dispatch is open only on a live session without a snapshot to come. -/
def Gate (s : SessionController) : Prop :=
  s.eventDispatchEnabled = true →
    s.isRunning = true ∧ s.isStopping = false ∧ s.isDiverged = false ∧ s.phase = .active ∧
      s.pendingResync = false

/-- A failed phase is left only by the end of a stop or by a new start. -/
def FailureStays (s : SessionController) (action : Section) : Prop :=
  s.phase = .failed → action = .start ∨ action = .clearSessionStateAfterStop ∨
    (s.step action).phase = .failed

instance : DecidablePred Gate := fun _ => inferInstanceAs (Decidable (_ → _))

instance (s : SessionController) (action : Section) : Decidable (s.FailureStays action) :=
  inferInstanceAs (Decidable (_ → _))

/-- What `finalizeResumeAttempt` asks for, of the sections that do not ask. -/
def Guarded (s : SessionController) : Prop :=
  s.isRunning = true ∧ s.isStopping = false ∧ s.isDiverged = false

/-- The sections that open dispatch or move the phase unguarded run only where the guard would
have let them, and a transaction that outlives its connection does not complete a later one's
catch-up. -/
def Careful (s : SessionController) : Section → Prop
  | .adoptPhase _ => s.isDiverged = false
  | .cleanUpFailedStart => s.isDiverged = false
  | .handleWelcome => s.Guarded
  | .enterAwaitingSnapshot => s.Guarded
  | .completeSnapshotCatchUp place => ∀ t, s.transactions[place]? = some t →
      s.isRunning = true → s.isStopping = false → t.lifecycleGeneration = s.lifecycleGeneration
  | .reopenDispatch place => ∀ t lifecycleGeneration, s.transactions[place]? = some t →
      t.progress = .released Option.none lifecycleGeneration →
        s.Guarded ∧ s.lifecycleGeneration = lifecycleGeneration
  | _ => True

variable {s : SessionController}

structure HandledSoundly (s : SessionController) (t : HandledTransaction) : Prop where
  dataPlane : t.queued = true → allowsDataPlane s.phase = true
  released : t.queued = true → ∀ generation lifecycleGeneration,
    t.progress = .released generation lifecycleGeneration → s.pendingResync = false
  bounded : t.lifecycleGeneration ≤ s.lifecycleGeneration
  current : t.queued = false → s.Guarded → t.lifecycleGeneration ≠ s.lifecycleGeneration
  captured : ∀ generation lifecycleGeneration,
    t.progress = .completing generation lifecycleGeneration ∨
      t.progress = .released generation lifecycleGeneration →
    lifecycleGeneration ≤ s.lifecycleGeneration ∧
      (s.isRunning = true → s.isStopping = false → lifecycleGeneration = s.lifecycleGeneration →
        t.lifecycleGeneration = lifecycleGeneration)

/-- What holds at a message that changes the phase. -/
def LoopSound (s : SessionController) : ReceiveLoop → Prop
  | .welcome _ => s.pendingResync = false ∧ s.laneIdle = true ∧
      (s.phase = .idle ∨ s.phase = .awaitingWelcome ∨ s.phase = .failed)
  | .resumeOk _ _ => s.pendingResync = false ∧ s.laneIdle = true ∧
      (s.phase = .awaitingResume ∨ s.phase = .failed)
  | .resyncRequired => s.laneIdle = true
  | .none | .awaitingMessage => True

structure Sound (s : SessionController) : Prop where
  gate : s.Gate
  pending : s.pendingResync = true → s.phase = .awaitingSnapshot ∨ s.phase = .failed
  failed : s.phase = .failed → s.isDiverged = true
  teardown : s.teardown ≠ .none ↔ s.isStopping = true
  quiet : s.isRunning = false ∨ s.starting ≠ .none ∨ s.teardown = .failedStart →
    s.pendingResync = false ∧ s.eventDispatchEnabled = false ∧ s.receiveLoop = .none ∧
      s.laneIdle = true ∧ allowsDataPlane s.phase = false
  loop : s.LoopSound s.receiveLoop
  transactions : ∀ t ∈ s.transactions, s.HandledSoundly t

variable {t : HandledTransaction}

theorem not_queued (h : s.laneIdle = true) (ht : t ∈ s.transactions) :
    t.queued = false := by
  have hall := List.all_eq_true.mp h t ht
  rwa [Bool.not_eq_true'] at hall

theorem laneIdle_of (transactions : List HandledTransaction)
    (h : ∀ t ∈ transactions, t.queued = false) :
    ({ s with transactions := transactions } : SessionController).laneIdle = true := by
  refine List.all_eq_true.mpr fun t ht => ?_
  rw [Bool.not_eq_true']
  exact h t ht

theorem guarded_of_mayFinalize {lifecycleGeneration : Nat}
    (h : s.mayFinalize lifecycleGeneration = true) :
    s.lifecycleGeneration = lifecycleGeneration ∧ s.Guarded := by
  rw [mayFinalize, Bool.and_eq_true, Bool.and_eq_true, Bool.and_eq_true, Bool.not_eq_true',
    Bool.not_eq_true'] at h
  exact ⟨of_decide_eq_true h.1.1.1, h.1.1.2, h.1.2, h.2⟩

variable {s' : SessionController}

theorem HandledSoundly.congr (h : s.HandledSoundly t)
    (hphase : t.queued = true → allowsDataPlane s'.phase = true)
    (hpending : t.queued = true → s'.pendingResync = true → s.pendingResync = true)
    (hgeneration : s'.lifecycleGeneration = s.lifecycleGeneration)
    (hguarded : s'.Guarded → s.Guarded) (hruns : s'.isRunning = true → s'.isStopping = false →
      s.isRunning = true ∧ s.isStopping = false) : s'.HandledSoundly t where
  dataPlane := hphase
  released := by
    intro hqueued generation lifecycleGeneration hprogress
    have hnone := h.released hqueued generation lifecycleGeneration hprogress
    rw [Bool.eq_false_iff] at hnone ⊢
    exact fun hsome => hnone (hpending hqueued hsome)
  bounded := hgeneration ▸ h.bounded
  current := by
    rw [hgeneration]
    exact fun hqueued hguard => h.current hqueued (hguarded hguard)
  captured := by
    intro generation lifecycleGeneration hprogress
    obtain ⟨hbound, hsame⟩ := h.captured generation lifecycleGeneration hprogress
    rw [hgeneration]
    exact ⟨hbound, fun hrunning hopen => hsame (hruns hrunning hopen).1 (hruns hrunning hopen).2⟩

theorem HandledSoundly.later (h : s.HandledSoundly t)
    (hphase : t.queued = true → allowsDataPlane s'.phase = true)
    (hpending : t.queued = true → s'.pendingResync = true → s.pendingResync = true)
    (hgeneration : s.lifecycleGeneration < s'.lifecycleGeneration) : s'.HandledSoundly t where
  dataPlane := hphase
  released := by
    intro hqueued generation lifecycleGeneration hprogress
    have hnone := h.released hqueued generation lifecycleGeneration hprogress
    rw [Bool.eq_false_iff] at hnone ⊢
    exact fun hsome => hnone (hpending hqueued hsome)
  bounded := h.bounded.trans hgeneration.le
  current := fun _ _ => (lt_of_le_of_lt h.bounded hgeneration).ne
  captured := by
    intro generation lifecycleGeneration hprogress
    have hbound := (h.captured generation lifecycleGeneration hprogress).1
    have hless := lt_of_le_of_lt hbound hgeneration
    exact ⟨hless.le, fun _ _ heq => absurd heq hless.ne⟩

theorem LoopSound.congr {loop : ReceiveLoop} (h : s.LoopSound loop)
    (hpending : s'.pendingResync = true → s.pendingResync = true)
    (hidle : s.laneIdle = true → s'.laneIdle = true)
    (hphase : s'.phase = s.phase ∨ s'.phase = .failed ∨ s.phase = .awaitingSnapshot) :
    s'.LoopSound loop := by
  have hnone (hfalse : s.pendingResync = false) : s'.pendingResync = false := by
    rw [Bool.eq_false_iff] at hfalse ⊢
    exact fun hsome => hfalse (hpending hsome)
  cases loop with
  | none => trivial
  | awaitingMessage => trivial
  | welcome initialRevision =>
    refine ⟨hnone h.1, hidle h.2.1, ?_⟩
    rcases hphase with heq | heq | heq
    · rw [heq]
      exact h.2.2
    · exact .inr (.inr heq)
    · have hphase := h.2.2
      rw [heq] at hphase
      exact absurd hphase (by decide)
  | resumeOk generation lifecycleGeneration =>
    refine ⟨hnone h.1, hidle h.2.1, ?_⟩
    rcases hphase with heq | heq | heq
    · rw [heq]
      exact h.2.2
    · exact .inr heq
    · have hphase := h.2.2
      rw [heq] at hphase
      exact absurd hphase (by decide)
  | resyncRequired => exact hidle h

namespace Sound

section

variable (h : s.Sound)

include h

theorem start : s.start.Sound := by
  unfold SessionController.start
  split_ifs with hguard
  · rw [Bool.and_eq_true, Bool.not_eq_true', Bool.not_eq_true'] at hguard
    obtain ⟨hpending, -, hloop, hidle, -⟩ := h.quiet (.inl hguard.1)
    refine ⟨?_, ?_, ?_, h.teardown, fun _ => ⟨hpending, rfl, hloop, hidle, rfl⟩, ?_, ?_⟩
    · rintro ⟨⟩
    · intro hsome
      exact absurd (hpending.symm.trans hsome) Bool.false_ne_true
    · rintro ⟨⟩
    · change LoopSound _ s.receiveLoop
      rw [hloop]
      trivial
    · intro t ht
      refine (h.transactions t ht).later ?_ (fun _ => id) (Nat.lt_succ_self _)
      intro hqueued
      exact absurd ((not_queued hidle ht).symm.trans hqueued) Bool.false_ne_true
  · exact h

theorem adoptResume (generation : Nat) : (s.adoptResume generation).Sound := by
  unfold SessionController.adoptResume
  split_ifs
  · refine ⟨h.gate, h.pending, h.failed, h.teardown, h.quiet,
      h.loop.congr id id (.inl rfl), ?_⟩
    intro t ht
    have hsound := h.transactions t ht
    exact hsound.congr hsound.dataPlane (fun _ => id) rfl id fun hrunning hopen =>
      ⟨hrunning, hopen⟩
  · exact h

theorem adoptPhase (resumes : Bool) : (s.adoptPhase resumes).Sound := by
  unfold SessionController.adoptPhase
  by_cases hguard : s.starting = .binding ∧ s.ownsRunningLifecycle = true
  · rw [if_pos hguard]
    obtain ⟨hpending, hdispatch, hloop, hidle, -⟩ :=
      h.quiet (.inr (.inl (by rw [hguard.1]; exact StartProgress.noConfusion)))
    have hclosed : allowsDataPlane (if resumes then .awaitingResume else .awaitingWelcome) =
        false := by
      cases resumes <;> rfl
    refine ⟨?_, ?_, ?_, h.teardown, fun _ => ⟨hpending, hdispatch, hloop, hidle, hclosed⟩, ?_,
      ?_⟩
    · intro hopen
      exact absurd (hdispatch.symm.trans hopen) Bool.false_ne_true
    · intro hsome
      exact absurd (hpending.symm.trans hsome) Bool.false_ne_true
    · cases resumes <;> rintro ⟨⟩
    · change LoopSound _ s.receiveLoop
      rw [hloop]
      trivial
    · intro t ht
      refine (h.transactions t ht).congr ?_ (fun _ => id) rfl id fun hrunning hopen =>
        ⟨hrunning, hopen⟩
      intro hqueued
      exact absurd ((not_queued hidle ht).symm.trans hqueued) Bool.false_ne_true
  · rw [if_neg hguard]
    exact h

theorem adoptReceiveLoop : s.adoptReceiveLoop.Sound := by
  unfold SessionController.adoptReceiveLoop
  split_ifs with hguard
  · rw [ownsRunningLifecycle, Bool.and_eq_true, Bool.not_eq_true'] at hguard
    refine ⟨h.gate, h.pending, h.failed, h.teardown, ?_, trivial, ?_⟩
    · rintro (hidle | hnone | hfailed)
      · exact absurd (hidle.symm.trans hguard.2.1) Bool.false_ne_true
      · exact absurd rfl hnone
      · have hstopping := h.teardown.mp (by rw [hfailed]; exact Teardown.noConfusion)
        exact absurd (hguard.2.2.symm.trans hstopping) Bool.false_ne_true
    · intro t ht
      have hsound := h.transactions t ht
      exact hsound.congr hsound.dataPlane (fun _ => id) rfl id fun hrunning hopen =>
        ⟨hrunning, hopen⟩
  · exact h

theorem failStart : s.failStart.Sound := by
  unfold SessionController.failStart
  split_ifs with hguard
  · obtain ⟨hpending, -, hloop, hidle, hclosed⟩ := h.quiet (.inr (.inl hguard.1))
    refine ⟨?_, h.pending, h.failed, ?_, fun _ => ⟨hpending, rfl, hloop, hidle, hclosed⟩,
      h.loop.congr id id (.inl rfl), ?_⟩
    · rintro ⟨⟩
    · exact ⟨fun _ => rfl, fun _ => Teardown.noConfusion⟩
    · intro t ht
      have hsound := h.transactions t ht
      refine hsound.congr hsound.dataPlane (fun _ => id) rfl ?_ ?_
      · rintro ⟨-, ⟨⟩, -⟩
      · rintro - ⟨⟩
  · exact h

theorem cleanUpFailedStart : s.cleanUpFailedStart.Sound := by
  unfold SessionController.cleanUpFailedStart
  split_ifs with hguard
  · obtain ⟨hpending, -, hloop, hidle, -⟩ := h.quiet (.inr (.inr hguard))
    refine ⟨?_, ?_, ?_, ?_, fun _ => ⟨hpending, rfl, hloop, hidle, rfl⟩, ?_, ?_⟩
    · rintro ⟨⟩
    · intro hsome
      exact absurd (hpending.symm.trans hsome) Bool.false_ne_true
    · rintro ⟨⟩
    · exact ⟨fun hne => absurd rfl hne, fun hstopping => absurd hstopping Bool.false_ne_true⟩
    · change LoopSound _ s.receiveLoop
      rw [hloop]
      trivial
    · intro t ht
      refine (h.transactions t ht).congr ?_ (fun _ => id) rfl ?_ ?_
      · intro hqueued
        exact absurd ((not_queued hidle ht).symm.trans hqueued) Bool.false_ne_true
      · rintro ⟨⟨⟩, -⟩
      · rintro ⟨⟩
  · exact h

theorem stop : s.stop.Sound := by
  unfold SessionController.stop
  split_ifs with hguard
  · rw [Bool.and_eq_true, Bool.not_eq_true'] at hguard
    refine ⟨?_, h.pending, h.failed, ?_, ?_, h.loop.congr id id (.inl rfl), ?_⟩
    · rintro ⟨⟩
    · exact ⟨fun _ => rfl, fun _ => Teardown.noConfusion⟩
    · rintro (hidle | hnone | hfailed)
      · exact absurd (hidle.symm.trans hguard.1) Bool.false_ne_true
      · exact absurd rfl hnone
      · cases hfailed
    · intro t ht
      have hsound := h.transactions t ht
      exact hsound.later hsound.dataPlane (fun _ => id) (Nat.lt_succ_self _)
  · exact h

theorem clearSessionStateAfterStop : s.clearSessionStateAfterStop.Sound := by
  unfold SessionController.clearSessionStateAfterStop
  split_ifs with hguard
  · obtain ⟨-, hloop, hidle⟩ := hguard
    refine ⟨?_, ?_, ?_, ?_, fun _ => ⟨rfl, rfl, hloop, hidle, rfl⟩, ?_, ?_⟩
    · rintro ⟨⟩
    · rintro ⟨⟩
    · rintro ⟨⟩
    · exact ⟨fun hne => absurd rfl hne, fun hstopping => absurd hstopping Bool.false_ne_true⟩
    · change LoopSound _ s.receiveLoop
      rw [hloop]
      trivial
    · intro t ht
      refine (h.transactions t ht).congr ?_ ?_ rfl ?_ ?_
      · intro hqueued
        exact absurd ((not_queued hidle ht).symm.trans hqueued) Bool.false_ne_true
      · rintro - ⟨⟩
      · rintro ⟨⟨⟩, -⟩
      · rintro ⟨⟩
  · exact h

theorem markFailure : s.markFailure.Sound := by
  unfold SessionController.markFailure
  split_ifs with hguard
  · have hdequeued : ∀ t ∈ s.transactions.map fun t => { t with queued := false },
        t.queued = false := by
      intro t ht
      obtain ⟨t', -, rfl⟩ := List.mem_map.mp ht
      rfl
    have hidle := laneIdle_of (s := s) _ hdequeued
    refine ⟨?_, fun _ => .inr rfl, fun _ => rfl, h.teardown, ?_,
      h.loop.congr id (fun _ => hidle) (.inr (.inl rfl)), ?_⟩
    · rintro ⟨⟩
    · intro hquiet
      obtain ⟨hpending, -, hloop, -, -⟩ := h.quiet hquiet
      exact ⟨hpending, rfl, hloop, hidle, rfl⟩
    · intro t ht
      obtain ⟨t', ht', rfl⟩ := List.mem_map.mp ht
      have hsound := h.transactions t' ht'
      refine ⟨?_, ?_, hsound.bounded, ?_, hsound.captured⟩
      · rintro ⟨⟩
      · rintro ⟨⟩
      · rintro - ⟨-, -, ⟨⟩⟩
  · exact h

theorem pending_false (hsnapshot : s.phase ≠ .awaitingSnapshot) (hfailed : s.phase ≠ .failed) :
    s.pendingResync = false :=
  Bool.eq_false_iff.mpr fun hpending => (h.pending hpending).elim hsnapshot hfailed

theorem laneIdle_of_phase (hphase : allowsDataPlane s.phase = false) :
    s.laneIdle = true := by
  refine laneIdle_of s.transactions fun t ht => Bool.eq_false_iff.mpr fun hqueued => ?_
  exact absurd (hphase.symm.trans ((h.transactions t ht).dataPlane hqueued)) Bool.false_ne_true

theorem not_quiet (hloop : s.receiveLoop ≠ .none) :
    ¬(s.isRunning = false ∨ s.starting ≠ .none ∨ s.teardown = .failedStart) :=
  fun hquiet => hloop (h.quiet hquiet).2.2.1

theorem reloop (hbusy : s.receiveLoop ≠ .none) {loop : ReceiveLoop} (hloop : s.LoopSound loop) :
    ({ s with receiveLoop := loop } : SessionController).Sound := by
  refine ⟨h.gate, h.pending, h.failed, h.teardown, fun hquiet => absurd hquiet (h.not_quiet hbusy),
    ?_, ?_⟩
  · exact hloop.congr id id (.inl rfl)
  · intro t ht
    have hsound := h.transactions t ht
    exact hsound.congr hsound.dataPlane (fun _ => id) rfl id fun hrunning hopen =>
      ⟨hrunning, hopen⟩

theorem receiveWelcome (initialRevision : Nat) :
    (s.receiveWelcome initialRevision).Sound := by
  unfold SessionController.receiveWelcome
  split_ifs with hguard
  · obtain ⟨hloop, hphase⟩ := hguard
    have hsnapshot : s.phase ≠ .awaitingSnapshot := by
      rcases hphase with heq | heq <;> rw [heq] <;> decide
    have hfailed : s.phase ≠ .failed := by
      rcases hphase with heq | heq <;> rw [heq] <;> decide
    have hclosed : allowsDataPlane s.phase = false := by
      rcases hphase with heq | heq <;> rw [heq] <;> rfl
    refine h.reloop (by rw [hloop]; decide) ⟨h.pending_false hsnapshot hfailed,
      h.laneIdle_of_phase hclosed, ?_⟩
    rcases hphase with heq | heq
    · exact .inl heq
    · exact .inr (.inl heq)
  · exact h

theorem receiveResumeOk : s.receiveResumeOk.Sound := by
  unfold SessionController.receiveResumeOk
  split
  · split_ifs with hguard
    · obtain ⟨hloop, hphase, hidle⟩ := hguard
      refine h.reloop (by rw [hloop]; decide) ⟨h.pending_false ?_ ?_, hidle, .inl hphase⟩
      · rw [hphase]
        decide
      · rw [hphase]
        decide
    · exact h
  · exact h

theorem receiveResyncRequired : s.receiveResyncRequired.Sound := by
  unfold SessionController.receiveResyncRequired
  split_ifs with hguard
  · obtain ⟨hloop, hidle, -⟩ := hguard
    exact h.reloop (by rw [hloop]; decide) hidle
  · exact h

theorem dropMessage : s.dropMessage.Sound := by
  unfold SessionController.dropMessage
  split_ifs with hloop
  · exact h
  · exact h.reloop hloop trivial

theorem endReceiveLoop : s.endReceiveLoop.Sound := by
  unfold SessionController.endReceiveLoop
  split_ifs with hloop
  · exact h.reloop (by rw [hloop]; decide) trivial
  · exact h

end

variable {pending : Bool}

theorem moved (h : s.Sound) (hbusy : s.receiveLoop ≠ .none) (hidle : s.laneIdle = true)
    (hguarded : s.Guarded) {dispatch : Bool} {phase : ProtocolPhase}
    (hgate : dispatch = true → phase = .active ∧ pending = false)
    (hpending : pending = true → phase = .awaitingSnapshot) (hfailed : phase ≠ .failed)
    (resumeGeneration : Option Nat) :
    ({ s with
      eventDispatchEnabled := dispatch
      pendingResync := pending
      phase := phase
      resumeGeneration := resumeGeneration
      receiveLoop := .awaitingMessage } : SessionController).Sound := by
  refine ⟨?_, fun hsome => .inl (hpending hsome), fun heq => absurd heq hfailed, h.teardown,
    fun hquiet => absurd hquiet (h.not_quiet hbusy), trivial, ?_⟩
  · intro hopen
    obtain ⟨hactive, hnone⟩ := hgate hopen
    exact ⟨hguarded.1, hguarded.2.1, hguarded.2.2, hactive, hnone⟩
  · intro t ht
    have hqueued : t.queued ≠ true := by
      rw [not_queued hidle ht]
      exact Bool.false_ne_true
    exact (h.transactions t ht).congr (fun heq => absurd heq hqueued)
      (fun heq => absurd heq hqueued) rfl id fun hrunning hopen => ⟨hrunning, hopen⟩

theorem handleWelcome (h : s.Sound) (hguarded : s.Guarded) : s.handleWelcome.Sound := by
  unfold SessionController.handleWelcome
  split
  · rename_i initialRevision hloop
    have hbusy : s.receiveLoop ≠ .none := by
      rw [hloop]
      exact ReceiveLoop.noConfusion
    have hwelcome := h.loop
    rw [hloop] at hwelcome
    split_ifs
    · exact h.moved hbusy hwelcome.2.1 hguarded (fun hopen => absurd hopen Bool.false_ne_true)
        (fun _ => rfl) (by decide) none
    · have hnone : s.pendingResync ≠ true := Bool.eq_false_iff.mp hwelcome.1
      exact h.moved hbusy hwelcome.2.1 hguarded (fun _ => ⟨rfl, hwelcome.1⟩)
        (fun hsome => absurd hsome hnone) (by decide) none
  · exact h

theorem finalizeResumeOk (h : s.Sound) : s.finalizeResumeOk.Sound := by
  unfold SessionController.finalizeResumeOk
  split
  · rename_i generation lifecycleGeneration hloop
    have hbusy : s.receiveLoop ≠ .none := by
      rw [hloop]
      exact ReceiveLoop.noConfusion
    have hresume := h.loop
    rw [hloop] at hresume
    have hnone : s.pendingResync ≠ true := Bool.eq_false_iff.mp hresume.1
    split_ifs with hfinalize
    · exact h.moved hbusy hresume.2.1 (guarded_of_mayFinalize hfinalize).2
        (fun _ => ⟨rfl, hresume.1⟩) (fun hsome => absurd hsome hnone) (by decide) none
    · exact h.reloop hbusy trivial
  · exact h

theorem enterAwaitingSnapshot (h : s.Sound) (hguarded : s.Guarded) :
    s.enterAwaitingSnapshot.Sound := by
  unfold SessionController.enterAwaitingSnapshot
  split_ifs with hloop
  · have hresync := h.loop
    rw [hloop] at hresync
    exact h.moved (by rw [hloop]; exact ReceiveLoop.noConfusion) hresync hguarded
      (fun hopen => absurd hopen Bool.false_ne_true) (fun _ => rfl) (by decide) s.resumeGeneration
  · exact h

theorem handleTransaction (h : s.Sound) : s.handleTransaction.Sound := by
  have hbegin (hguard : s.isRunning = true ∧ s.laneIdle = true ∧ allowsDataPlane s.phase = true)
      (hloop : ∀ t, LoopSound ({ s with transactions := s.transactions ++ [t] }) s.receiveLoop) :
      ({ s with transactions := s.transactions ++ [{
          lifecycleGeneration := s.lifecycleGeneration
          progress := .handling s.pendingResync }] } : SessionController).Sound := by
    refine ⟨h.gate, h.pending, h.failed, h.teardown, ?_, hloop _, ?_⟩
    · intro hquiet
      have hclosed := (h.quiet hquiet).2.2.2.2
      exact absurd (hclosed.symm.trans hguard.2.2) Bool.false_ne_true
    · intro t ht
      rcases List.mem_append.mp ht with ht | ht
      · have hsound := h.transactions t ht
        exact hsound.congr hsound.dataPlane (fun _ => id) rfl id fun hrunning hopen =>
          ⟨hrunning, hopen⟩
      · rw [List.mem_singleton.mp ht]
        refine ⟨fun _ => hguard.2.2, ?_, le_rfl, ?_, ?_⟩
        · rintro - generation lifecycleGeneration ⟨⟩
        · rintro ⟨⟩
        · rintro generation lifecycleGeneration (⟨⟨⟩⟩ | ⟨⟨⟩⟩)
  unfold SessionController.handleTransaction
  split
  · exact h
  · exact h
  · rename_i hresumeOk hresync
    split_ifs with hguard
    · refine hbegin hguard fun t => ?_
      have hloop := h.loop
      cases hcase : s.receiveLoop with
      | none => trivial
      | awaitingMessage => trivial
      | welcome initialRevision =>
        rw [hcase] at hloop
        have hphase := hloop.2.2
        have hopen := hguard.2.2
        rcases hphase with heq | heq | heq <;> rw [heq] at hopen <;> cases hopen
      | resumeOk generation lifecycleGeneration =>
        exact absurd hcase (hresumeOk generation lifecycleGeneration)
      | resyncRequired => exact absurd hcase hresync
    · exact h

variable {place : Nat} {t : HandledTransaction}

variable (h : s.Sound)

include h

theorem withTransactions {transactions : List HandledTransaction}
    (hpending : pending = true → s.pendingResync = true)
    (hunqueued : s.laneIdle = true → ∀ t ∈ transactions, t.queued = false)
    (hsound : ∀ t ∈ transactions, ({ s with
      pendingResync := pending
      transactions := transactions } : SessionController).HandledSoundly t) :
    ({ s with
      pendingResync := pending
      transactions := transactions } : SessionController).Sound := by
  have hnone (hfalse : s.pendingResync = false) : pending = false := by
    rw [Bool.eq_false_iff] at hfalse ⊢
    exact fun hsome => hfalse (hpending hsome)
  have hidle (hidle : s.laneIdle = true) :
      ({ s with
        pendingResync := pending
        transactions := transactions } : SessionController).laneIdle = true :=
    laneIdle_of (s := { s with pendingResync := pending }) _ (hunqueued hidle)
  refine ⟨?_, fun hsome => h.pending (hpending hsome), h.failed, h.teardown, ?_,
    h.loop.congr hpending hidle (.inl rfl), hsound⟩
  · intro hopen
    obtain ⟨hrunning, hstopping, hdiverged, hactive, hclosed⟩ := h.gate hopen
    exact ⟨hrunning, hstopping, hdiverged, hactive, hnone hclosed⟩
  · intro hquiet
    obtain ⟨hclosed, hdispatch, hloop, hlane, hphase⟩ := h.quiet hquiet
    exact ⟨hnone hclosed, hdispatch, hloop, hidle hlane, hphase⟩

theorem withProgress (ht : s.transactions[place]? = some t) {progress : TransactionProgress}
    (hpending : pending = true → s.pendingResync = true)
    (hreleased : ∀ generation lifecycleGeneration,
      progress = .released generation lifecycleGeneration → pending = false)
    (hcaptured : ∀ generation lifecycleGeneration,
      progress = .completing generation lifecycleGeneration ∨
        progress = .released generation lifecycleGeneration →
      lifecycleGeneration ≤ s.lifecycleGeneration ∧
        (s.isRunning = true → s.isStopping = false → lifecycleGeneration = s.lifecycleGeneration →
          t.lifecycleGeneration = lifecycleGeneration)) :
    ({ s with
      pendingResync := pending
      transactions := s.withProgress place t progress } : SessionController).Sound := by
  have hmem : t ∈ s.transactions := List.mem_of_getElem? ht
  refine h.withTransactions hpending ?_ ?_
  · intro hidle t' ht'
    have hunqueued := not_queued hidle hmem
    rcases List.mem_or_eq_of_mem_set ht' with hold | rfl
    · exact not_queued hidle hold
    · exact hunqueued
  · intro t' ht'
    rcases List.mem_or_eq_of_mem_set ht' with hold | rfl
    · have hsound := h.transactions t' hold
      exact hsound.congr hsound.dataPlane (fun _ => hpending) rfl id fun hrunning hopen =>
        ⟨hrunning, hopen⟩
    · have hsound := h.transactions t hmem
      exact ⟨hsound.dataPlane, fun _ => hreleased, hsound.bounded, hsound.current, hcaptured⟩

theorem completeSnapshotCatchUp (hcareful : s.Careful (.completeSnapshotCatchUp place)) :
    (s.completeSnapshotCatchUp place).Sound := by
  unfold SessionController.completeSnapshotCatchUp
  split
  · rename_i t ht
    split_ifs
    · refine h.withProgress ht id ?_ ?_
      · rintro generation lifecycleGeneration ⟨⟩
      · rintro generation lifecycleGeneration (heq | ⟨⟨⟩⟩)
        obtain ⟨-, rfl⟩ := TransactionProgress.completing.inj heq
        exact ⟨le_rfl, fun hrunning hopen _ => hcareful t ht hrunning hopen⟩
    · exact h
  · exact h

theorem releaseSnapshot (place : Nat) : (s.releaseSnapshot place).Sound := by
  unfold SessionController.releaseSnapshot
  split
  · rename_i t ht
    split
    · rename_i generation lifecycleGeneration hprogress
      have hsound := h.transactions t (List.mem_of_getElem? ht)
      refine h.withProgress ht (fun hsome => absurd hsome Bool.false_ne_true) (fun _ _ _ => rfl) ?_
      rintro generation' lifecycleGeneration' (⟨⟨⟩⟩ | heq)
      obtain ⟨rfl, rfl⟩ := TransactionProgress.released.inj heq
      exact hsound.captured generation lifecycleGeneration (.inl hprogress)
    · exact h
  · exact h

theorem withoutTransactions {transactions : List HandledTransaction}
    (hsub : ∀ t ∈ transactions, t ∈ s.transactions)
    (hpending : pending = true → s.pendingResync = true) :
    ({ s with
      pendingResync := pending
      transactions := transactions } : SessionController).Sound := by
  refine h.withTransactions hpending (fun hidle t ht => not_queued hidle (hsub t ht)) ?_
  intro t ht
  have hsound := h.transactions t (hsub t ht)
  exact hsound.congr hsound.dataPlane (fun _ => hpending) rfl id fun hrunning hopen =>
    ⟨hrunning, hopen⟩

theorem abandonSnapshot (place : Nat) : (s.abandonSnapshot place).Sound := by
  unfold SessionController.abandonSnapshot
  split
  · split_ifs
    · exact h.withoutTransactions (fun _ => id) fun hsome => absurd hsome Bool.false_ne_true
    · exact h
  · exact h

theorem finishTransaction (place : Nat) : (s.finishTransaction place).Sound :=
  h.withoutTransactions (fun _ => List.mem_of_mem_eraseIdx) id

theorem queued_of_released (ht : t ∈ s.transactions) {generation : Option Nat}
    (hprogress : t.progress = .released generation s.lifecycleGeneration) (hguarded : s.Guarded) :
    t.queued = true := by
  by_contra hqueued
  have hsound := h.transactions t ht
  refine hsound.current (Bool.eq_false_iff.mpr hqueued) hguarded ?_
  exact (hsound.captured generation s.lifecycleGeneration (.inr hprogress)).2 hguarded.1
    hguarded.2.1 rfl

theorem reopened (ht : t ∈ s.transactions) {generation : Option Nat}
    (hprogress : t.progress = .released generation s.lifecycleGeneration) (hguarded : s.Guarded)
    (dispatch : Bool) (resumeGeneration : Option Nat) :
    ({ s with
      eventDispatchEnabled := dispatch
      phase := caughtUp s.phase
      resumeGeneration := resumeGeneration
      transactions := s.transactions.eraseIdx place } : SessionController).Sound := by
  have hqueued := h.queued_of_released ht hprogress hguarded
  have hsound := h.transactions t ht
  have hpending := hsound.released hqueued generation s.lifecycleGeneration hprogress
  have hactive : caughtUp s.phase = .active := by
    have hopen := hsound.dataPlane hqueued
    unfold caughtUp
    cases hphase : s.phase <;> rw [hphase] at hopen <;> first | rfl | cases hopen
  have hlane : s.laneIdle ≠ true := fun hidle =>
    absurd ((not_queued hidle ht).symm.trans hqueued) Bool.false_ne_true
  refine ⟨?_, ?_, ?_, h.teardown, ?_, ?_, ?_⟩
  · exact fun _ => ⟨hguarded.1, hguarded.2.1, hguarded.2.2, hactive, hpending⟩
  · intro hsome
    exact absurd (hpending.symm.trans hsome) Bool.false_ne_true
  · intro hfailed
    have hphase : ProtocolPhase.active = .failed := hactive.symm.trans hfailed
    cases hphase
  · exact fun hquiet => absurd (h.quiet hquiet).2.2.2.1 hlane
  · have hloop := h.loop
    change LoopSound _ s.receiveLoop
    cases hcase : s.receiveLoop with
    | none => trivial
    | awaitingMessage => trivial
    | welcome initialRevision | resumeOk generation lifecycleGeneration =>
      rw [hcase] at hloop
      exact absurd hloop.2.1 hlane
    | resyncRequired =>
      rw [hcase] at hloop
      exact absurd hloop hlane
  · intro t' ht'
    refine (h.transactions t' (List.mem_of_mem_eraseIdx ht')).congr ?_ (fun _ => id) rfl id
      fun hrunning hopen => ⟨hrunning, hopen⟩
    intro _
    change allowsDataPlane (caughtUp s.phase) = true
    rw [hactive]
    rfl

theorem reopenDispatch (hcareful : s.Careful (.reopenDispatch place)) :
    (s.reopenDispatch place).Sound := by
  unfold SessionController.reopenDispatch
  split
  · rename_i t ht
    have hmem := List.mem_of_getElem? ht
    split
    · rename_i generation lifecycleGeneration hprogress
      split_ifs with hfinalize
      · obtain ⟨rfl, hguarded⟩ := guarded_of_mayFinalize hfinalize
        exact h.reopened hmem hprogress hguarded true none
      · exact h.finishTransaction place
    · rename_i lifecycleGeneration hprogress
      obtain ⟨hguarded, rfl⟩ := hcareful t lifecycleGeneration ht hprogress
      exact h.reopened hmem hprogress hguarded _ s.resumeGeneration
    · exact h
  · exact h

theorem step {action : Section} (hcareful : s.Careful action) :
    (s.step action).Sound := by
  cases action with
  | start => exact h.start
  | adoptResume generation => exact h.adoptResume generation
  | adoptPhase resumes => exact h.adoptPhase resumes
  | adoptReceiveLoop => exact h.adoptReceiveLoop
  | failStart => exact h.failStart
  | cleanUpFailedStart => exact h.cleanUpFailedStart
  | receiveWelcome initialRevision => exact h.receiveWelcome initialRevision
  | handleWelcome => exact h.handleWelcome hcareful
  | receiveResumeOk => exact h.receiveResumeOk
  | finalizeResumeOk => exact h.finalizeResumeOk
  | receiveResyncRequired => exact h.receiveResyncRequired
  | enterAwaitingSnapshot => exact h.enterAwaitingSnapshot hcareful
  | dropMessage => exact h.dropMessage
  | endReceiveLoop => exact h.endReceiveLoop
  | handleTransaction => exact h.handleTransaction
  | completeSnapshotCatchUp place => exact h.completeSnapshotCatchUp hcareful
  | releaseSnapshot place => exact h.releaseSnapshot place
  | reopenDispatch place => exact h.reopenDispatch hcareful
  | abandonSnapshot place => exact h.abandonSnapshot place
  | finishTransaction place => exact h.finishTransaction place
  | markFailure => exact h.markFailure
  | stop => exact h.stop
  | clearSessionStateAfterStop => exact h.clearSessionStateAfterStop

theorem failureStays {action : Section} (hcareful : s.Careful action) :
    s.FailureStays action := by
  intro hfailed
  have hdiverged := h.failed hfailed
  have hcannot : s.isDiverged ≠ false := by
    rw [hdiverged]
    exact Bool.noConfusion
  have hkeeps : caughtUp s.phase = .failed := by
    rw [hfailed]
    rfl
  cases action with
  | start => exact .inl rfl
  | clearSessionStateAfterStop => exact .inr (.inl rfl)
  | adoptPhase resumes | cleanUpFailedStart => exact absurd hcareful hcannot
  | handleWelcome | enterAwaitingSnapshot => exact absurd hcareful.2.2 hcannot
  | adoptResume generation =>
    refine .inr (.inr ?_)
    change (s.adoptResume generation).phase = .failed
    unfold SessionController.adoptResume
    split_ifs <;> exact hfailed
  | adoptReceiveLoop =>
    refine .inr (.inr ?_)
    change s.adoptReceiveLoop.phase = .failed
    unfold SessionController.adoptReceiveLoop
    split_ifs <;> exact hfailed
  | failStart =>
    refine .inr (.inr ?_)
    change s.failStart.phase = .failed
    unfold SessionController.failStart
    split_ifs <;> exact hfailed
  | receiveWelcome initialRevision =>
    refine .inr (.inr ?_)
    change (s.receiveWelcome initialRevision).phase = .failed
    unfold SessionController.receiveWelcome
    split_ifs <;> exact hfailed
  | receiveResumeOk =>
    refine .inr (.inr ?_)
    change s.receiveResumeOk.phase = .failed
    unfold SessionController.receiveResumeOk
    split
    · split_ifs <;> exact hfailed
    · exact hfailed
  | finalizeResumeOk =>
    refine .inr (.inr ?_)
    change s.finalizeResumeOk.phase = .failed
    unfold SessionController.finalizeResumeOk
    split
    · split_ifs with hfinalize
      · exact absurd (guarded_of_mayFinalize hfinalize).2.2.2 hcannot
      · exact hfailed
    · exact hfailed
  | receiveResyncRequired =>
    refine .inr (.inr ?_)
    change s.receiveResyncRequired.phase = .failed
    unfold SessionController.receiveResyncRequired
    split_ifs <;> exact hfailed
  | dropMessage =>
    refine .inr (.inr ?_)
    change s.dropMessage.phase = .failed
    unfold SessionController.dropMessage
    split_ifs <;> exact hfailed
  | endReceiveLoop =>
    refine .inr (.inr ?_)
    change s.endReceiveLoop.phase = .failed
    unfold SessionController.endReceiveLoop
    split_ifs <;> exact hfailed
  | handleTransaction =>
    refine .inr (.inr ?_)
    change s.handleTransaction.phase = .failed
    unfold SessionController.handleTransaction
    split
    · exact hfailed
    · exact hfailed
    · split_ifs <;> exact hfailed
  | completeSnapshotCatchUp place =>
    refine .inr (.inr ?_)
    change (s.completeSnapshotCatchUp place).phase = .failed
    unfold SessionController.completeSnapshotCatchUp
    split
    · split_ifs <;> exact hfailed
    · exact hfailed
  | releaseSnapshot place =>
    refine .inr (.inr ?_)
    change (s.releaseSnapshot place).phase = .failed
    unfold SessionController.releaseSnapshot
    split
    · split <;> exact hfailed
    · exact hfailed
  | reopenDispatch place =>
    refine .inr (.inr ?_)
    change (s.reopenDispatch place).phase = .failed
    unfold SessionController.reopenDispatch
    split
    · split
      · split_ifs
        · exact hkeeps
        · exact hfailed
      · exact hkeeps
      · exact hfailed
    · exact hfailed
  | abandonSnapshot place =>
    refine .inr (.inr ?_)
    change (s.abandonSnapshot place).phase = .failed
    unfold SessionController.abandonSnapshot
    split
    · split_ifs <;> exact hfailed
    · exact hfailed
  | finishTransaction place => exact .inr (.inr hfailed)
  | markFailure =>
    refine .inr (.inr ?_)
    change s.markFailure.phase = .failed
    unfold SessionController.markFailure
    split_ifs
    · rfl
    · exact hfailed
  | stop =>
    refine .inr (.inr ?_)
    change s.stop.phase = .failed
    unfold SessionController.stop
    split_ifs <;> exact hfailed

end Sound

theorem sound_initial : ({} : SessionController).Sound where
  gate := fun hopen => absurd hopen Bool.false_ne_true
  pending := fun hsome => absurd hsome Bool.false_ne_true
  failed := fun hfailed => nomatch hfailed
  teardown := ⟨fun hne => absurd rfl hne, fun hstopping => absurd hstopping Bool.false_ne_true⟩
  quiet := fun _ => ⟨rfl, rfl, rfl, rfl, rfl⟩
  loop := trivial
  transactions := fun _ ht => absurd ht List.not_mem_nil

end SessionController

open SessionController in
/-- In a run of careful sections dispatch is open only on a live session without a snapshot to
come, and a failure stays until the end of a stop or a new start. -/
theorem gate_holds_of_careful (sections : List Section)
    (hrun : EveryStep step Careful {} sections) :
    EveryState step Gate {} sections ∧ EveryStep step FailureStays {} sections := by
  have hstep : ∀ (s : SessionController) action, s.Sound → s.Careful action →
      (s.step action).Sound := fun _ _ h hcareful => h.step hcareful
  constructor
  · exact (hrun.everyState hstep sound_initial).mono fun _ h => h.gate
  · exact hrun.of_invariant hstep (fun _ _ h hcareful => h.failureStays hcareful) sound_initial

def caughtUpAndFailed : List Section :=
  [.start, .adoptPhase false, .adoptReceiveLoop, .receiveWelcome 3, .handleWelcome,
    .handleTransaction, .completeSnapshotCatchUp 0, .releaseSnapshot 0, .reopenDispatch 0,
    .markFailure, .stop, .endReceiveLoop, .clearSessionStateAfterStop]

theorem caughtUpAndFailed_gated :
    EveryState SessionController.step SessionController.Gate {} caughtUpAndFailed ∧
      EveryStep SessionController.step SessionController.FailureStays {} caughtUpAndFailed := by
  have hcatchUp : ∀ t, (run SessionController.step {} (caughtUpAndFailed.take 6)).transactions[0]? =
      some t → t.lifecycleGeneration = 1 := by
    rintro t ⟨⟩
    rfl
  have hreopen : ∀ t lifecycleGeneration,
      (run SessionController.step {} (caughtUpAndFailed.take 8)).transactions[0]? = some t →
        t.progress = .released none lifecycleGeneration → 1 = lifecycleGeneration := by
    rintro t lifecycleGeneration ⟨⟩ ⟨⟩
    rfl
  exact gate_holds_of_careful caughtUpAndFailed
    ⟨trivial, rfl, trivial, trivial, ⟨rfl, rfl, rfl⟩, trivial, fun t ht _ _ => hcatchUp t ht,
      trivial, fun t lifecycleGeneration ht hprogress =>
        ⟨⟨rfl, rfl, rfl⟩, hreopen t lifecycleGeneration ht hprogress⟩,
      trivial, trivial, trivial, trivial, trivial⟩

/-- A `WELCOME` that commits after a `stop`, and one that commits after a failure. -/
def lateWelcome (between : Section) : List Section :=
  [.start, .adoptPhase false, .adoptReceiveLoop, .receiveWelcome 0, between, .handleWelcome]

theorem late_welcome_opens :
    ¬EveryState SessionController.step SessionController.Gate {} (lateWelcome .stop) ∧
      ¬EveryStep SessionController.step SessionController.FailureStays {}
        (lateWelcome .markFailure) := by
  decide

end Srui.Client.DispatchGates

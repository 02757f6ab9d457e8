import Srui.Client.OwnershipFences

/-!
Terminal frames of the receive loop beside the snapshots of the transaction lane: the session
incarnation of the controller and that of the shared context move in two steps, and a frame
pairs the two in two reads.
-/

namespace Srui.Client.TerminalFences

open Basic.Runs Client.OwnershipFences

/-- `TerminalData` and `TerminalResyncRequired`, with what is applied of each. -/
inductive TerminalFrame where
  | data (streamID byteOffset : Nat) (data : List UInt8)
  | resyncRequired (streamID requestedOffset retainedFromOffset resumeAtOffset reason : Nat)
deriving DecidableEq

inductive ReceiveLoop where
  | idle
  | handling (frame : TerminalFrame)
  | owned (frame : TerminalFrame) (ownership : Ownership)
  | leased (frame : TerminalFrame) (ownership : Ownership)
  | rejected (ownership : Ownership)
  | releasing (ownership : Ownership)
deriving DecidableEq

inductive SnapshotLane where
  | idle
  | committing (ownership : Ownership)
  | adopted (previous next : Ownership)
  | draining (previous next : Ownership)
deriving DecidableEq

/-- What the two lanes of one connection share. `received` and `handed` record the frames that
came and those that reached `TerminalSession`. -/
structure TerminalConnection where
  context : SessionContinuityContext
  outboxConnectionBinding : Option Nat
  outboxSessionIncarnation : Option Nat
  hasRenderer : Bool
  receiveLoop : ReceiveLoop := .idle
  snapshotLane : SnapshotLane := .idle
  received : List TerminalFrame := []
  handed : List TerminalFrame := []
  failureReported : Bool := false

/-- One section of either lane. A frame is admitted in a phase that has negotiated the terminal
profile; `TerminalSession` may reject what it is handed. -/
inductive Section where
  | receive (frame : TerminalFrame) (admitted : Bool)
  | readOwnership
  | acquireMutation
  | apply (rejects : Bool)
  | reportRejection
  | releaseMutation
  | readSnapshotOwnership
  | adoptFullResyncInteractionBoundary (sessionIncarnation : Nat)
  | advanceSessionIncarnation
  | finishAdvance
deriving DecidableEq

namespace TerminalConnection

/-- `currentSharedOwnership`, which the lane of transactions reads in the same way. -/
def currentSharedOwnership (s : TerminalConnection) : Option Ownership :=
  match s.outboxConnectionBinding, s.outboxSessionIncarnation with
  | some binding, some sessionIncarnation => some ⟨binding, sessionIncarnation⟩
  | _, _ => none

/-- `handleIncomingMessage` for a terminal envelope, up to the guard on the renderer. -/
def receive (s : TerminalConnection) (frame : TerminalFrame) (admitted : Bool) :
    TerminalConnection :=
  if s.receiveLoop ≠ .idle then s
  else if !admitted then
    { s with received := s.received ++ [frame], failureReported := true }
  else if s.hasRenderer then
    { s with received := s.received ++ [frame], receiveLoop := .handling frame }
  else { s with received := s.received ++ [frame] }

def readOwnership (s : TerminalConnection) : TerminalConnection :=
  match s.receiveLoop with
  | .handling frame =>
    match s.currentSharedOwnership with
    | some ownership => { s with receiveLoop := .owned frame ownership }
    | none => { s with receiveLoop := .idle }
  | _ => s

def acquireMutation (s : TerminalConnection) : TerminalConnection :=
  match s.receiveLoop with
  | .owned frame ownership =>
    match s.context.acquireMutation ownership with
    | some context => { s with context := context, receiveLoop := .leased frame ownership }
    | none => { s with receiveLoop := .idle }
  | _ => s

def apply (s : TerminalConnection) (rejects : Bool) : TerminalConnection :=
  match s.receiveLoop with
  | .leased frame ownership =>
    { s with
      handed := s.handed ++ [frame]
      receiveLoop := if rejects then .rejected ownership else .releasing ownership }
  | _ => s

def reportRejection (s : TerminalConnection) : TerminalConnection :=
  match s.receiveLoop with
  | .rejected ownership =>
    { s with
      failureReported := s.failureReported || s.context.isActive ownership
      receiveLoop := .releasing ownership }
  | _ => s

def releaseMutation (s : TerminalConnection) : TerminalConnection :=
  match s.receiveLoop with
  | .releasing ownership =>
    { s with context := (s.context.releaseMutation ownership).1, receiveLoop := .idle }
  | _ => s

/-- `handleTransaction` with a snapshot: the ownership it is delivered under. -/
def readSnapshotOwnership (s : TerminalConnection) : TerminalConnection :=
  match s.snapshotLane with
  | .idle =>
    match s.currentSharedOwnership with
    | some ownership => { s with snapshotLane := .committing ownership }
    | none => { s with failureReported := true }
  | _ => s

def adoptFullResyncInteractionBoundary (s : TerminalConnection) (sessionIncarnation : Nat) :
    TerminalConnection :=
  match s.snapshotLane with
  | .committing ownership =>
    { s with
      outboxSessionIncarnation := some sessionIncarnation
      snapshotLane := .adopted ownership ⟨ownership.binding, sessionIncarnation⟩ }
  | _ => s

/-- The shared context follows, unless its ownership is no longer the snapshot's. -/
def advanceSessionIncarnation (s : TerminalConnection) : TerminalConnection :=
  match s.snapshotLane with
  | .adopted previous next =>
    if previous = next then
      { s with
        snapshotLane := .idle
        failureReported := s.failureReported || !s.context.isActive next }
    else if s.context.activeOwnership = some previous then
      { s with
        context := s.context.advance previous next
        snapshotLane := .draining previous next }
    else { s with snapshotLane := .idle, failureReported := true }
  | _ => s

/-- The last section of the advance, once no lease of the previous ownership is out. -/
def finishAdvance (s : TerminalConnection) : TerminalConnection :=
  match s.snapshotLane with
  | .draining previous next =>
    if s.context.mutationCounts previous = none then
      { s with
        context := s.context.drained {previous}
        snapshotLane := .idle
        failureReported := s.failureReported || !s.context.isActive next }
    else s
  | _ => s

def step (s : TerminalConnection) : Section → TerminalConnection
  | .receive frame admitted => s.receive frame admitted
  | .readOwnership => s.readOwnership
  | .acquireMutation => s.acquireMutation
  | .apply rejects => s.apply rejects
  | .reportRejection => s.reportRejection
  | .releaseMutation => s.releaseMutation
  | .readSnapshotOwnership => s.readSnapshotOwnership
  | .adoptFullResyncInteractionBoundary sessionIncarnation =>
    s.adoptFullResyncInteractionBoundary sessionIncarnation
  | .advanceSessionIncarnation => s.advanceSessionIncarnation
  | .finishAdvance => s.finishAdvance

end TerminalConnection

def ReceiveLoop.pending : ReceiveLoop → List TerminalFrame
  | .handling frame => [frame]
  | .owned frame _ => [frame]
  | .leased frame _ => [frame]
  | _ => []

@[simp] theorem ReceiveLoop.pending_idle : ReceiveLoop.idle.pending = [] := rfl

namespace TerminalConnection

/-- Every frame received is handed over once and in order, or a failure has been reported. -/
def Delivered (s : TerminalConnection) : Prop :=
  s.failureReported = true ∨ s.handed ++ s.receiveLoop.pending = s.received

instance : DecidablePred Delivered :=
  fun s => inferInstanceAs (Decidable (s.failureReported = true ∨ _))

/-- What a step of the receive loop needs: a renderer, an ownership to read, and that the
ownership read is the active one when the lease is asked for. -/
def Paired (s : TerminalConnection) : Section → Prop
  | .receive _ admitted =>
    s.failureReported = true ∨ s.receiveLoop ≠ .idle ∨ admitted = false ∨ s.hasRenderer = true
  | .readOwnership =>
    s.failureReported = true ∨
      ∀ frame, s.receiveLoop = .handling frame → s.currentSharedOwnership ≠ none
  | .acquireMutation =>
    s.failureReported = true ∨ ∀ frame ownership, s.receiveLoop = .owned frame ownership →
      s.context.activeOwnership = some ownership
  | _ => True

variable {s : TerminalConnection}

theorem Delivered.congr {t : TerminalConnection} (h : s.Delivered)
    (hfailure : s.failureReported = true → t.failureReported = true)
    (hframes : t.handed ++ t.receiveLoop.pending = s.handed ++ s.receiveLoop.pending)
    (hreceived : t.received = s.received) : t.Delivered := by
  rcases h with hreported | hdelivered
  · exact .inl (hfailure hreported)
  · right
    rw [hframes, hdelivered, hreceived]

theorem not_delivered_of_dropped (frame : TerminalFrame) (hfailure : s.failureReported ≠ true)
    (hreceived : s.received = s.handed ++ s.receiveLoop.pending ++ [frame]) : ¬s.Delivered := by
  rintro (hreported | hdelivered)
  · exact hfailure hreported
  · have hlength := congrArg List.length (hdelivered.trans hreceived)
    rw [@List.length_append _ _ [frame]] at hlength
    exact absurd hlength.symm (Nat.succ_ne_self _)

theorem Delivered.receive_iff (h : s.Delivered) (frame : TerminalFrame) (admitted : Bool) :
    (s.receive frame admitted).Delivered ↔ s.Paired (.receive frame admitted) := by
  unfold receive Paired
  split_ifs with hidle hadmitted hrenderer
  · exact iff_of_true h (.inr (.inl hidle))
  · exact iff_of_true (.inl rfl) (.inr (.inr (.inl (by simpa using hadmitted))))
  · refine iff_of_true ?_ (.inr (.inr (.inr hrenderer)))
    rcases h with hreported | hdelivered
    · exact .inl hreported
    · right
      rw [not_not.mp hidle, ReceiveLoop.pending_idle, List.append_nil] at hdelivered
      change s.handed ++ [frame] = s.received ++ [frame]
      rw [hdelivered]
  · by_cases hreported : s.failureReported = true
    · exact iff_of_true (.inl hreported) (.inl hreported)
    · refine iff_of_false (not_delivered_of_dropped frame hreported ?_) ?_
      · exact congrArg (· ++ [frame]) (h.resolve_left hreported).symm
      · rintro (hfailed | hbusy | hrefused | hhas)
        · exact hreported hfailed
        · exact hidle hbusy
        · exact hadmitted (by simp [hrefused])
        · exact hrenderer hhas

theorem Delivered.readOwnership_iff (h : s.Delivered) :
    s.readOwnership.Delivered ↔ s.Paired .readOwnership := by
  unfold readOwnership Paired
  split
  · rename_i frame hloop
    by_cases hreported : s.failureReported = true
    · refine iff_of_true (.inl ?_) (.inl hreported)
      split <;> exact hreported
    have hall := h.resolve_left hreported
    rw [hloop, ReceiveLoop.pending] at hall
    split
    · rename_i ownership hownership
      refine iff_of_true (.inr hall) (.inr fun _ _ => ?_)
      rw [hownership]
      exact Option.some_ne_none ownership
    · rename_i hnone
      refine iff_of_false (not_delivered_of_dropped frame hreported ?_) ?_
      · change s.received = s.handed ++ [] ++ [frame]
        rw [List.append_nil, hall]
      · rintro (hfailed | hbound)
        · exact hreported hfailed
        · exact hbound frame hloop hnone
  · rename_i hother
    exact iff_of_true h (.inr fun frame hloop => absurd hloop (hother frame))

theorem Delivered.acquireMutation_iff (h : s.Delivered) :
    s.acquireMutation.Delivered ↔ s.Paired .acquireMutation := by
  unfold acquireMutation Paired SessionContinuityContext.acquireMutation
  split
  · rename_i frame ownership hloop
    by_cases hreported : s.failureReported = true
    · refine iff_of_true (.inl ?_) (.inl hreported)
      split_ifs <;> exact hreported
    have hall := h.resolve_left hreported
    rw [hloop, ReceiveLoop.pending] at hall
    split_ifs with hactive
    · refine iff_of_true (.inr hall) (.inr fun frame' ownership' hloop' => ?_)
      rw [hloop, ReceiveLoop.owned.injEq] at hloop'
      exact hloop'.2 ▸ hactive
    · refine iff_of_false (not_delivered_of_dropped frame hreported ?_) ?_
      · change s.received = s.handed ++ [] ++ [frame]
        rw [List.append_nil, hall]
      · rintro (hfailed | hpaired)
        · exact hreported hfailed
        · exact hactive (hpaired frame ownership hloop)
  · rename_i hother
    exact iff_of_true h (.inr fun frame ownership hloop => absurd hloop (hother frame ownership))

theorem Delivered.step_iff (h : s.Delivered) (action : Section) :
    (s.step action).Delivered ↔ s.Paired action := by
  cases action with
  | receive frame admitted => exact h.receive_iff frame admitted
  | readOwnership => exact h.readOwnership_iff
  | acquireMutation => exact h.acquireMutation_iff
  | apply rejects =>
    refine iff_of_true ?_ trivial
    change (s.apply rejects).Delivered
    unfold apply
    split
    · rename_i frame ownership hloop
      refine h.congr id ?_ rfl
      rw [hloop]
      cases rejects <;> exact List.append_nil _
    · exact h
  | reportRejection =>
    refine iff_of_true ?_ trivial
    change s.reportRejection.Delivered
    unfold reportRejection
    split
    · rename_i ownership hloop
      refine h.congr (fun hreported => ?_) (by rw [hloop]; rfl) rfl
      rw [hreported, Bool.true_or]
    · exact h
  | releaseMutation =>
    refine iff_of_true ?_ trivial
    change s.releaseMutation.Delivered
    unfold releaseMutation
    split
    · rename_i ownership hloop
      exact h.congr id (by rw [hloop]; rfl) rfl
    · exact h
  | readSnapshotOwnership =>
    refine iff_of_true ?_ trivial
    change s.readSnapshotOwnership.Delivered
    unfold readSnapshotOwnership
    split
    · split
      · exact h.congr id rfl rfl
      · exact .inl rfl
    · exact h
  | adoptFullResyncInteractionBoundary sessionIncarnation =>
    refine iff_of_true ?_ trivial
    change (s.adoptFullResyncInteractionBoundary sessionIncarnation).Delivered
    unfold adoptFullResyncInteractionBoundary
    split
    · exact h.congr id rfl rfl
    · exact h
  | advanceSessionIncarnation =>
    refine iff_of_true ?_ trivial
    change s.advanceSessionIncarnation.Delivered
    unfold advanceSessionIncarnation
    split
    · split_ifs
      · refine h.congr (fun hreported => ?_) rfl rfl
        rw [hreported, Bool.true_or]
      · exact h.congr id rfl rfl
      · exact .inl rfl
    · exact h
  | finishAdvance =>
    refine iff_of_true ?_ trivial
    change s.finishAdvance.Delivered
    unfold finishAdvance
    split
    · split_ifs
      · refine h.congr (fun hreported => ?_) rfl rfl
        rw [hreported, Bool.true_or]
      · exact h
    · exact h

end TerminalConnection

def opened (context : SessionContinuityContext)
    (outboxConnectionBinding outboxSessionIncarnation : Option Nat) (hasRenderer : Bool) :
    TerminalConnection where
  context := context
  outboxConnectionBinding := outboxConnectionBinding
  outboxSessionIncarnation := outboxSessionIncarnation
  hasRenderer := hasRenderer

open TerminalConnection in
/-- Along a run no frame is dropped without a report exactly when every frame finds a renderer, an
ownership, and that ownership still active when it asks for its lease. -/
theorem everyState_delivered_iff (context : SessionContinuityContext)
    (binding sessionIncarnation : Option Nat) (hasRenderer : Bool) (inputs : List Section) :
    EveryState step Delivered (opened context binding sessionIncarnation hasRenderer) inputs ↔
      EveryStep step Paired (opened context binding sessionIncarnation hasRenderer) inputs := by
  have hstart : (opened context binding sessionIncarnation hasRenderer).Delivered := .inr rfl
  have hall : EveryStep step (fun _ _ => True)
      (opened context binding sessionIncarnation hasRenderer) inputs :=
    everyStep_of_forall (fun _ _ => trivial) _ inputs
  exact everyState_iff_everyStep_of (J := fun _ => True) (fun _ _ _ _ => trivial)
    (fun _ action _ _ h => h.step_iff action) trivial hstart hall

def connected : TerminalConnection :=
  opened { activeOwnership := some ⟨0, 0⟩ } (some 0) (some 0) true

/-- A frame handled after a snapshot was adopted and before the context has moved on. -/
def overtaken : List Section :=
  [.readSnapshotOwnership, .adoptFullResyncInteractionBoundary 1, .receive (.data 7 0 [65]) true,
    .readOwnership, .acquireMutation, .advanceSessionIncarnation, .finishAdvance,
    .receive (.data 7 1 [66]) true, .readOwnership, .acquireMutation, .apply false]

theorem overtaken_drops :
    ¬EveryState TerminalConnection.step TerminalConnection.Delivered connected overtaken ∧
      (run TerminalConnection.step connected overtaken).failureReported = false ∧
      (run TerminalConnection.step connected overtaken).received =
        [.data 7 0 [65], .data 7 1 [66]] ∧
      (run TerminalConnection.step connected overtaken).handed = [.data 7 1 [66]] := by
  decide

end Srui.Client.TerminalFences

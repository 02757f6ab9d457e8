import Srui.Sessiond.ConnectionWriters

/-!
The order in which a connection writes its terminal frames and its acknowledgements, and that
it writes every acknowledgement it accepted once its reader has finished.
-/

namespace Srui.Sessiond.ConnectionWriters

open Basic.Runs Scheduling.LogicalChannels Sessiond.Outbound

variable {α : Type} {handshake : List α}

def Envelope.ack? : Envelope α → Option α
  | .serverEventAck ack => some ack
  | _ => none

def Envelope.terminal? : Envelope α → Option α
  | .terminal message => some message
  | _ => none

def Phase.inFlight : Phase α → List (Envelope α)
  | .sending envelope _ | .sendDisconnected envelope => [envelope]
  | _ => []

namespace Writer

variable {w : Writer α}

def acksWritten (w : Writer α) : List α := w.written.filterMap Envelope.ack?

def terminalsWritten (w : Writer α) : List α := w.written.filterMap Envelope.terminal?

structure Accounts (handshake : List α) (w : Writer α) : Prop where
  terminals : w.isOpen = true →
    w.terminalsWritten ++ (w.phase.inFlight.filterMap Envelope.terminal? ++
      (w.catchUp.map Prod.snd ++ (w.pendingTerminalHigh.toList ++ w.terminalHigh))) =
        handshake ++ w.sentLive
  acks : w.isOpen = true →
    w.acksWritten ++ (w.phase.inFlight.filterMap Envelope.ack? ++
      (w.pendingAck.toList ++ w.control)) = w.accepted
  terminalsInOrder : w.terminalsWritten <+: handshake ++ w.sentLive
  acksInOrder : w.acksWritten <+: w.accepted
  gated : w.catchUpReleased = false → w.sentLive = [] ∧ w.ringRead = false ∧
    w.pendingTerminalHigh = none ∧ w.terminalHigh = [] ∧
    ∀ pump ∈ w.pumps, pump = .gated ∨ pump = .ended
  released : w.catchUpReleased = true → w.catchUp = [] ∧ handshake <+: w.terminalsWritten
  normal : w.pendingTerminalNormal = none ∧ w.terminalNormal = []
  closed : w.controlClosed = true → w.readFinished = true ∧ w.control = []

def MayTake (w : Writer α) : LogicalChannelClass → Prop
  | .control => w.pendingAck.isSome = true
  | .input => False
  | .ui | .resource => w.readFinished = false
  | .terminalHigh => w.readFinished = false ∧ (w.catchUpFront .terminalHigh = true ∨
      w.catchUp = [] ∧ w.pendingTerminalHigh.isSome = true)
  | .terminalNormal => w.readFinished = false ∧ (w.catchUpFront .terminalNormal = true ∨
      w.catchUp = [] ∧ w.pendingTerminalNormal.isSome = true)

def PhaseOk (w : Writer α) : Phase α → Prop
  | .selecting readFinished _ => readFinished = w.readFinished
  | .taking logicalClass => w.MayTake logicalClass
  | .sendDisconnected _ | .waitDisconnected => w.readFinished = false
  | .returned _ => w.readFinished = true → w.shutdown = true ∨ w.sessionCancel = true ∨
      w.writeFailed = true ∨ w.acksWritten = w.accepted
  | .panicked _ => False
  | _ => True

structure Sound (handshake : List α) (w : Writer α) : Prop where
  accounts : w.Accounts handshake
  phaseOk : w.PhaseOk w.phase

namespace Accounts

variable (h : w.Accounts handshake)

include h in
theorem goto (hopen : w.isOpen = true) (phase : Phase α)
    (hsame : phase.inFlight = w.phase.inFlight) : (w.goto phase).Accounts handshake := by
  refine { h with terminals := ?_, acks := ?_ }
  · intro _
    change _ ++ (phase.inFlight.filterMap _ ++ _) = _
    rw [hsame]
    exact h.terminals hopen
  · intro _
    change _ ++ (phase.inFlight.filterMap _ ++ _) = _
    rw [hsame]
    exact h.acks hopen

include h in
theorem returns (result : Except ConnectionError Unit) :
    (w.returns result).Accounts handshake := by
  refine { h with terminals := ?_, acks := ?_ }
  all_goals
    intro hopen
    exact absurd hopen (by simp [Writer.returns, Writer.goto, isOpen])

include h in
theorem pollControl : w.pollControl.Accounts handshake := by
  unfold Writer.pollControl
  split
  · rename_i hfree
    have hnone : w.pendingAck = none := Option.isNone_iff_eq_none.mp hfree.1
    split
    · rename_i ack rest hcontrol
      refine { h with acks := ?_, closed := ?_ }
      · intro hopen
        have hacks := h.acks hopen
        rw [hnone, hcontrol] at hacks
        exact hacks
      · intro hclosed
        exact absurd hclosed (by simp [hfree.2])
    · rename_i hcontrol
      split
      · rename_i hfinished
        exact { h with closed := fun _ => ⟨hfinished, hcontrol⟩ }
      · exact h
  · exact h

include h in
theorem pollTerminalHigh : w.pollTerminalHigh.Accounts handshake := by
  unfold Writer.pollTerminalHigh
  split
  · rename_i hfree
    have hnone : w.pendingTerminalHigh = none := Option.isNone_iff_eq_none.mp hfree.1
    split
    · rename_i message rest hlane
      refine { h with terminals := ?_, gated := ?_ }
      · intro hopen
        have hterminals := h.terminals hopen
        rw [hnone, hlane] at hterminals
        exact hterminals
      · intro hgated
        have hempty := (h.gated hgated).2.2.2.1
        rw [hlane] at hempty
        cases hempty
    · split
      · exact { h with }
      · exact h
  · exact h

include h in
theorem pollTerminalNormal : w.pollTerminalNormal.Accounts handshake := by
  unfold Writer.pollTerminalNormal
  split
  · split
    · rename_i message rest hlane
      rw [h.normal.2] at hlane
      cases hlane
    · split
      · exact { h with }
      · exact h
  · exact h

include h in
theorem terminals_initial (hopen : w.isOpen = true) : w.terminalsWritten ++
    w.phase.inFlight.filterMap Envelope.terminal? <+: handshake ++ w.sentLive := by
  rw [← h.terminals hopen, ← List.append_assoc]
  exact List.prefix_append _ _

include h in
theorem acks_initial (hopen : w.isOpen = true) :
    w.acksWritten ++ w.phase.inFlight.filterMap Envelope.ack? <+: w.accepted := by
  rw [← h.acks hopen, ← List.append_assoc]
  exact List.prefix_append _ _

include h in
theorem sent {envelope : Envelope α} {drainingAfterRead : Bool}
    (hphase : w.phase = .sending envelope drainingAfterRead) :
    ({ w with written := w.written ++ [envelope] }.goto .releasing).Accounts handshake := by
  have hopen : w.isOpen = true := by
    unfold isOpen
    rw [hphase]
  have hterminals := h.terminals hopen
  have hacks := h.acks hopen
  have hterminalsPrefix := h.terminals_initial hopen
  have hacksPrefix := h.acks_initial hopen
  rw [hphase] at hterminals hacks hterminalsPrefix hacksPrefix
  have hwritten : ({ w with written := w.written ++ [envelope] }.goto .releasing :
      Writer α).terminalsWritten = w.terminalsWritten ++
        (Phase.sending envelope drainingAfterRead).inFlight.filterMap Envelope.terminal? :=
    List.filterMap_append
  have hwrittenAcks : ({ w with written := w.written ++ [envelope] }.goto .releasing :
      Writer α).acksWritten = w.acksWritten ++
        (Phase.sending envelope drainingAfterRead).inFlight.filterMap Envelope.ack? :=
    List.filterMap_append
  refine { h with terminals := ?_, acks := ?_, terminalsInOrder := ?_, acksInOrder := ?_,
                  released := ?_ }
  · intro _
    rw [hwritten, List.append_assoc]
    exact hterminals
  · intro _
    rw [hwrittenAcks, List.append_assoc]
    exact hacks
  · rw [hwritten]
    exact hterminalsPrefix
  · rw [hwrittenAcks]
    exact hacksPrefix
  · intro hreleased
    obtain ⟨hempty, hall⟩ := h.released hreleased
    rw [hwritten]
    exact ⟨hempty, hall.trans (List.prefix_append _ _)⟩

end Accounts

theorem isOpen_of_phase {phase : Phase α} (hphase : w.phase = phase)
    (hopen : (w.goto phase).isOpen = true) : w.isOpen = true := by
  unfold isOpen goto at *
  rw [hphase]
  exact hopen

namespace Sound

variable (h : w.Sound handshake)

include h in
theorem returns (result : Except ConnectionError Unit)
    (hdrained : w.readFinished = true → w.shutdown = true ∨ w.sessionCancel = true ∨
      w.writeFailed = true ∨ w.acksWritten = w.accepted) : (w.returns result).Sound handshake :=
  ⟨h.accounts.returns result, hdrained⟩

variable {phase : Phase α}

include h in
theorem goto (hopen : w.isOpen = true)
    (hsame : phase.inFlight = w.phase.inFlight) (hok : w.PhaseOk phase) :
    (w.goto phase).Sound handshake := by
  refine ⟨h.accounts.goto hopen phase hsame, ?_⟩
  change (w.goto phase).PhaseOk phase
  cases phase <;> exact hok

theorem takeAck (h : w.Sound handshake) (hphase : w.phase = .taking .control) {ack : α}
    (hack : w.pendingAck = some ack) :
    ({ w with pendingAck := none }.startSend (.serverEventAck ack)).Sound handshake := by
  have hopen := isOpen_of_phase hphase rfl
  have hterminals := h.accounts.terminals hopen
  have hacks := h.accounts.acks hopen
  rw [hphase] at hterminals hacks
  rw [hack] at hacks
  exact ⟨{ h.accounts with terminals := fun _ => hterminals, acks := fun _ => hacks }, trivial⟩

variable {logicalClass : LogicalChannelClass}

theorem takeOutbound (h : w.Sound handshake)
    (hphase : w.phase = .taking logicalClass) (subscriber : Subscriber α) (item : α) :
    ({ w with subscriber := subscriber }.startSend (.outbound item)).Sound handshake := by
  have hopen := isOpen_of_phase hphase rfl
  have hterminals := h.accounts.terminals hopen
  have hacks := h.accounts.acks hopen
  rw [hphase] at hterminals hacks
  exact ⟨{ h.accounts with terminals := fun _ => hterminals, acks := fun _ => hacks }, trivial⟩

theorem takeCatchUp (h : w.Sound handshake) {front : LogicalChannelClass}
    (hphase : w.phase = .taking logicalClass) {envelope : α}
    {rest : List (LogicalChannelClass × α)} (hcatchUp : w.catchUp = (front, envelope) :: rest) :
    ({ w with catchUp := rest }.startSend (.terminal envelope)).Sound handshake := by
  have hopen := isOpen_of_phase hphase rfl
  have hterminals := h.accounts.terminals hopen
  have hacks := h.accounts.acks hopen
  rw [hphase] at hterminals hacks
  rw [hcatchUp] at hterminals
  refine ⟨{ h.accounts with terminals := fun _ => hterminals, acks := fun _ => hacks,
                            released := ?_ }, trivial⟩
  intro hreleased
  have hempty := (h.accounts.released hreleased).1
  rw [hcatchUp] at hempty
  cases hempty

theorem takeLive (h : w.Sound handshake)
    (hphase : w.phase = .taking logicalClass) (hcatchUp : w.catchUp = []) {message : α}
    (hpending : w.pendingTerminalHigh = some message) :
    ({ w with pendingTerminalHigh := none }.startSend (.terminal message)).Sound handshake := by
  have hopen := isOpen_of_phase hphase rfl
  have hterminals := h.accounts.terminals hopen
  have hacks := h.accounts.acks hopen
  rw [hphase] at hterminals hacks
  rw [hcatchUp, hpending] at hterminals
  refine ⟨{ h.accounts with terminals := fun _ => ?_, acks := fun _ => hacks,
                            gated := ?_ }, trivial⟩
  · change w.terminalsWritten ++ ([message] ++ (w.catchUp.map Prod.snd ++ ([] ++ _))) = _
    rw [hcatchUp]
    exact hterminals
  · intro hgated
    have hnone := (h.accounts.gated hgated).2.2.1
    rw [hpending] at hnone
    cases hnone

theorem popClass (h : w.Sound handshake)
    (hphase : w.phase = .taking logicalClass) (hfinished : w.readFinished = false) :
    (match w.subscriber.popClass logicalClass with
      | (.ok (some item), subscriber) =>
        { w with subscriber := subscriber }.startSend (.outbound item)
      | (.ok none, _) => w.goto .checkCancelled
      | (.error (.lagged _), _) => w.returns (.error .laggedResyncRequired)
      | (.error .closed, _) =>
        { w with outboundIdle := true }.goto .checkCancelled).Sound handshake := by
  have hcontinue : (w.goto .checkCancelled).Sound handshake :=
    h.goto (isOpen_of_phase hphase rfl) (by rw [hphase]; rfl) trivial
  split
  · exact h.takeOutbound hphase _ _
  · exact hcontinue
  · refine h.returns _ fun hdone => ?_
    rw [hfinished] at hdone
    cases hdone
  · exact ⟨{ hcontinue.accounts with }, trivial⟩

theorem takeCatchUp_eq_none
    (h : w.takeCatchUp logicalClass = none) : w.catchUpFront logicalClass = false := by
  unfold Writer.takeCatchUp at h
  unfold catchUpFront
  split at h
  · rename_i front envelope rest hcatchUp
    rw [hcatchUp]
    split at h
    · cases h
    · rename_i hne
      simpa using hne
  · rename_i hcatchUp
    rw [hcatchUp]
    rfl

theorem takeCatchUp_eq_some {envelope : α}
    {taken : Writer α} (h : w.takeCatchUp logicalClass = some (envelope, taken)) :
    ∃ rest, w.catchUp = (logicalClass, envelope) :: rest ∧
      taken = { w with catchUp := rest } := by
  unfold Writer.takeCatchUp at h
  split at h
  · rename_i front message rest hcatchUp
    split at h
    · rename_i heq
      obtain ⟨rfl, rfl⟩ := Prod.mk.inj (Option.some.inj h)
      exact ⟨rest, heq ▸ hcatchUp, rfl⟩
    · cases h
  · cases h

theorem takeFrame (h : w.Sound handshake)
    (hphase : w.phase = .taking logicalClass) : (w.takeFrame logicalClass).Sound handshake := by
  have hmay : w.MayTake logicalClass := by
    have hok := h.phaseOk
    rw [hphase] at hok
    exact hok
  cases logicalClass with
  | control =>
    obtain ⟨ack, hack⟩ := Option.isSome_iff_exists.mp hmay
    unfold Writer.takeFrame
    simp only [hack]
    exact h.takeAck hphase hack
  | input => exact hmay.elim
  | ui | resource => exact h.popClass hphase hmay
  | terminalHigh =>
    unfold Writer.takeFrame
    simp only
    split
    · rename_i envelope taken _ htaken
      obtain ⟨rest, hcatchUp, rfl⟩ := takeCatchUp_eq_some htaken
      exact h.takeCatchUp hphase hcatchUp
    · rename_i message hnone hpending
      obtain ⟨-, hfront | ⟨hempty, -⟩⟩ := hmay
      · rw [takeCatchUp_eq_none hnone] at hfront
        cases hfront
      · exact h.takeLive hphase hempty hpending
    · rename_i hnone hpending
      obtain ⟨-, hfront | ⟨-, hsome⟩⟩ := hmay
      · rw [takeCatchUp_eq_none hnone] at hfront
        cases hfront
      · rw [hpending] at hsome
        cases hsome
  | terminalNormal =>
    unfold Writer.takeFrame
    simp only
    -- no pump sends to the normal lane, so only the catch-up is taken here
    have hlane := h.accounts.normal.1
    split
    · rename_i envelope taken _ htaken
      obtain ⟨rest, hcatchUp, rfl⟩ := takeCatchUp_eq_some htaken
      exact h.takeCatchUp hphase hcatchUp
    · rename_i message hnone hpending
      rw [hlane] at hpending
      cases hpending
    · rename_i hnone hpending
      obtain ⟨-, hfront | ⟨-, hsome⟩⟩ := hmay
      · rw [takeCatchUp_eq_none hnone] at hfront
        cases hfront
      · rw [hlane] at hsome
        cases hsome

theorem inspectSlot (h : w.Sound handshake) {slots : Nat}
    (hphase : w.phase = .selecting w.readFinished slots) :
    (w.inspectSlot w.readFinished slots).Sound handshake := by
  have hopen := isOpen_of_phase hphase rfl
  have hidle : w.phase.inFlight = [] := by rw [hphase]; rfl
  cases slots with
  | zero => exact h.goto hopen hidle.symm trivial
  | succ slots =>
    unfold Writer.inspectSlot
    simp only
    split
    · rename_i hready
      have htaking := h.accounts.goto hopen (.taking (serviceCycle w.scheduler.cursor))
        hidle.symm
      refine ⟨{ htaking with }, ?_⟩
      generalize serviceCycle w.scheduler.cursor = logicalClass at hready
      change Writer.MayTake _ logicalClass
      unfold ready at hready
      cases logicalClass <;> simp_all [MayTake, catchUpFront]
    · exact ⟨{ h.accounts.goto hopen (.selecting w.readFinished slots) hidle.symm with }, rfl⟩

theorem polled {polled : Writer α} (haccounts : polled.Accounts handshake)
    (hopen : polled.isOpen = true) (hidle : polled.phase.inFlight = [])
    (hphase : phase.inFlight = []) (hok : (polled.goto phase).PhaseOk phase) :
    (polled.goto phase).Sound handshake :=
  ⟨haccounts.goto hopen phase (hphase.trans hidle.symm), hok⟩

theorem pollControl_phase (w : Writer α) : w.pollControl.phase = w.phase := by
  unfold Writer.pollControl
  split
  · split
    · rfl
    · split <;> rfl
  · rfl

theorem pollTerminalHigh_phase (w : Writer α) : w.pollTerminalHigh.phase = w.phase := by
  unfold Writer.pollTerminalHigh
  split
  · split
    · rfl
    · split <;> rfl
  · rfl

theorem pollTerminalNormal_phase (w : Writer α) : w.pollTerminalNormal.phase = w.phase := by
  unfold Writer.pollTerminalNormal
  split
  · split
    · rfl
    · split <;> rfl
  · rfl

section

variable (h : w.Sound handshake)

include h

theorem release (hphase : w.phase = .releasing) :
    ({ w with catchUpReleased := w.catchUpReleased || w.catchUp.isEmpty }.goto
      .yielding).Sound handshake := by
  have hopen := isOpen_of_phase hphase rfl
  have hgoes := h.accounts.goto hopen .yielding (by rw [hphase]; rfl)
  refine ⟨{ hgoes with gated := ?_, released := ?_ }, trivial⟩
  · intro hgated
    exact h.accounts.gated (Bool.or_eq_false_iff.mp hgated).1
  · intro hreleased
    cases hbefore : w.catchUpReleased with
    | true => exact h.accounts.released hbefore
    | false =>
      change (w.catchUpReleased || w.catchUp.isEmpty) = true at hreleased
      rw [hbefore, Bool.false_or, List.isEmpty_iff] at hreleased
      obtain ⟨hlive, -, hpending, hlane, -⟩ := h.accounts.gated hbefore
      have hterminals := h.accounts.terminals hopen
      rw [hphase, hreleased, hpending, hlane, hlive] at hterminals
      refine ⟨hreleased, ?_⟩
      change handshake <+: w.terminalsWritten
      simp only [Phase.inFlight, List.filterMap_nil, List.map_nil, Option.toList_none,
        List.append_nil] at hterminals
      rw [hterminals]

theorem advance : w.advance.Sound handshake := by
  have hnever : w.readFinished = false → w.readFinished = true →
      w.shutdown = true ∨ w.sessionCancel = true ∨ w.writeFailed = true ∨
        w.acksWritten = w.accepted := by
    intro hfinished hdone
    rw [hfinished] at hdone
    cases hdone
  have hok := h.phaseOk
  unfold Writer.advance
  cases hphase : w.phase with
  | checkCancelled =>
    have hopen := isOpen_of_phase hphase rfl
    simp only
    split
    · rename_i hcancelled
      refine h.returns _ fun _ => ?_
      rcases hcancelled with hcancelled | hcancelled
      · exact .inr (.inl hcancelled)
      · exact .inl hcancelled
    · exact h.goto hopen (by rw [hphase]; rfl) trivial
  | checkTermination =>
    have hopen := isOpen_of_phase hphase rfl
    have hgoes : (w.goto .pollControl).Sound handshake :=
      h.goto hopen (by rw [hphase]; rfl) trivial
    simp only
    split
    · exact hgoes
    · rename_i hreading
      split
      · exact h.returns _ (hnever (Bool.eq_false_iff.mpr hreading))
      · exact hgoes
      · exact hgoes
  | pollControl =>
    have hsame := pollControl_phase w
    rw [hphase] at hsame
    exact polled h.accounts.pollControl (isOpen_of_phase hsame rfl) (by rw [hsame]; rfl) rfl
      trivial
  | pollTerminalHigh =>
    have hsame := pollTerminalHigh_phase w
    rw [hphase] at hsame
    exact polled h.accounts.pollTerminalHigh (isOpen_of_phase hsame rfl) (by rw [hsame]; rfl)
      rfl trivial
  | pollTerminalNormal =>
    have hsame := pollTerminalNormal_phase w
    rw [hphase] at hsame
    exact polled h.accounts.pollTerminalNormal (isOpen_of_phase hsame rfl)
      (by rw [hsame]; rfl) rfl trivial
  | checkDrained =>
    have hopen := isOpen_of_phase hphase rfl
    simp only
    split
    · rename_i hdrained
      refine h.returns _ fun _ => .inr (.inr (.inr ?_))
      have hacks := h.accounts.acks hopen
      rw [hphase, Option.isNone_iff_eq_none.mp hdrained.2,
        (h.accounts.closed hdrained.1).2] at hacks
      simpa [Phase.inFlight] using hacks
    · exact h.goto hopen (by rw [hphase]; rfl) rfl
  | selecting readFinished slots =>
    rw [hphase] at hok
    obtain rfl : readFinished = w.readFinished := hok
    exact h.inspectSlot hphase
  | taking logicalClass => exact h.takeFrame hphase
  | sendDisconnected envelope =>
    rw [hphase] at hok
    simp only
    split
    all_goals exact h.returns _ (hnever hok)
  | releasing => exact h.release hphase
  | yielding =>
    exact h.goto (isOpen_of_phase hphase rfl) (by rw [hphase]; rfl) trivial
  | checkIdle =>
    simp only
    split
    · rename_i hidle
      exact h.returns _ (hnever hidle.1)
    · exact h.goto (isOpen_of_phase hphase rfl) (by rw [hphase]; rfl) trivial
  | waitDisconnected =>
    rw [hphase] at hok
    have hgoes : (w.goto .checkCancelled).Sound handshake :=
      h.goto (isOpen_of_phase hphase rfl) (by rw [hphase]; rfl) trivial
    simp only
    split
    · exact h.returns _ (hnever hok)
    · exact h.returns _ (hnever hok)
    · exact ⟨{ hgoes.accounts with }, trivial⟩
  | sending _ _ | waiting | returned _ | panicked _ => exact h

theorem send (branch : SendBranch) : (w.send branch).Sound handshake := by
  unfold Writer.send
  split
  · rename_i envelope drainingAfterRead hphase
    have hopen := isOpen_of_phase hphase rfl
    have hfails : ∀ result, ({ w with writeFailed := true }.returns result).Sound handshake :=
      fun result => ⟨{ h.accounts.returns result with }, fun _ => .inr (.inr (.inl rfl))⟩
    cases branch with
    | sent => exact ⟨h.accounts.sent hphase, trivial⟩
    | failed => exact hfails _
    | timedOut => exact hfails _
    | shutdown =>
      simp only
      split
      · rename_i hshutdown
        exact h.returns _ fun _ => .inl hshutdown
      · exact h
    | readFinished =>
      simp only
      split
      · exact h.goto hopen (by rw [hphase]; rfl) trivial
      · exact h
    | disconnect =>
      simp only
      split
      · rename_i hdisconnected
        exact h.goto hopen (by rw [hphase]; rfl) hdisconnected.2.1
      · exact h
  · exact h

theorem wait (branch : WaitBranch) : (w.wait branch).Sound handshake := by
  unfold Writer.wait
  split
  · rename_i hphase
    have hopen := isOpen_of_phase hphase rfl
    have hidle : w.phase.inFlight = [] := by rw [hphase]; rfl
    have hgoes : ∀ phase : Phase α, phase.inFlight = [] → w.PhaseOk phase →
        (w.goto phase).Sound handshake := fun phase hempty hok =>
      h.goto hopen (hempty.trans hidle.symm) hok
    cases branch with
    | sessionCancel =>
      simp only
      split
      · rename_i hcancelled
        exact h.returns _ fun _ => .inr (.inl hcancelled)
      · exact h
    | shutdown =>
      simp only
      split
      · rename_i hshutdown
        exact h.returns _ fun _ => .inl hshutdown
      · exact h
    | readFinished =>
      simp only
      split
      · exact hgoes _ rfl trivial
      · exact h
    | disconnect =>
      simp only
      split
      · rename_i hdisconnected
        exact hgoes _ rfl hdisconnected.2.1
      · exact h
    | control =>
      simp only
      split
      · have hsame := pollControl_phase w
        rw [hphase] at hsame
        exact polled h.accounts.pollControl (isOpen_of_phase hsame rfl) (by rw [hsame]; rfl)
          rfl trivial
      · exact h
    | terminalHigh =>
      simp only
      split
      · have hsame := pollTerminalHigh_phase w
        rw [hphase] at hsame
        exact polled h.accounts.pollTerminalHigh (isOpen_of_phase hsame rfl)
          (by rw [hsame]; rfl) rfl trivial
      · exact h
    | terminalNormal =>
      simp only
      split
      · have hsame := pollTerminalNormal_phase w
        rw [hphase] at hsame
        exact polled h.accounts.pollTerminalNormal (isOpen_of_phase hsame rfl)
          (by rw [hsame]; rfl) rfl trivial
      · exact h
    | outbound =>
      simp only
      split
      · rename_i hreading
        split
        · refine h.returns _ fun hdone => ?_
          rw [hreading.2] at hdone
          cases hdone
        · split
          · exact hgoes _ rfl trivial
          · split
            · exact ⟨{ (hgoes .checkCancelled rfl trivial).accounts with }, trivial⟩
            · exact h
      · exact h
  · exact h

theorem accept (ack : α) : (w.accept ack).Sound handshake := by
  unfold Writer.accept
  split
  · rename_i hroom
    refine ⟨{ h.accounts with acks := ?_, acksInOrder := ?_, closed := ?_ }, ?_⟩
    · intro hopen
      have hacks := h.accounts.acks hopen
      change _ ++ (_ ++ (_ ++ (w.control ++ [ack]))) = w.accepted ++ [ack]
      rw [← hacks]
      simp only [List.append_assoc]
      rfl
    · exact h.accounts.acksInOrder.trans (List.prefix_append _ _)
    · intro hclosed
      have hfinished := (h.accounts.closed hclosed).1
      rw [hroom.2.1] at hfinished
      cases hfinished
    · have hok := h.phaseOk
      have hawaits := hroom.1
      unfold awaits at hawaits
      cases hphase : w.phase <;> rw [hphase] at hok hawaits <;> trivial
  · exact h

theorem readerReturns : w.readerReturns.Sound handshake := by
  unfold Writer.readerReturns
  split
  · rename_i hawaits
    refine ⟨{ h.accounts with closed := fun hclosed => ⟨rfl, (h.accounts.closed hclosed).2⟩ }, ?_⟩
    unfold awaits at hawaits
    cases hphase : w.phase <;> rw [hphase] at hawaits <;> trivial
  · exact h

theorem setPump (p : Nat) {pump : Pump α}
    (hpump : w.catchUpReleased = false → pump = .gated ∨ pump = .ended) :
    (w.setPump p pump).Sound handshake := by
  refine ⟨{ h.accounts with gated := ?_ }, h.phaseOk⟩
  intro hgated
  obtain ⟨hlive, hring, hpending, hlane, hpumps⟩ := h.accounts.gated hgated
  refine ⟨hlive, hring, hpending, hlane, fun other hother => ?_⟩
  rcases List.mem_or_eq_of_mem_set hother with hold | rfl
  · exact hpumps other hold
  · exact hpump hgated

theorem pump_released {p : Nat} {pump : Pump α} (hpump : w.pumps[p]? = some pump)
    (hgated : pump ≠ .gated) (hended : pump ≠ .ended) :
    w.catchUpReleased = true := by
  by_contra hclosed
  rw [Bool.not_eq_true] at hclosed
  rcases (h.accounts.gated hclosed).2.2.2.2 pump (List.mem_of_getElem? hpump) with heq | heq
  · exact hgated heq
  · exact hended heq

theorem pumpGate (p : Nat) : (w.pumpGate p).Sound handshake := by
  unfold Writer.pumpGate
  split
  · split
    · rename_i hreleased
      refine h.setPump p fun hgated => ?_
      rw [hreleased] at hgated
      cases hgated
    · exact h
  · exact h

theorem pumpReceive (p : Nat) (events : List (TerminalEvent α)) :
    (w.pumpReceive p events).Sound handshake := by
  unfold Writer.pumpReceive
  split
  · rename_i hpump
    have hreleased := h.pump_released hpump (by simp) (by simp)
    have hring : ({ w with ringRead := true } : Writer α).Sound handshake := by
      refine ⟨{ h.accounts with gated := fun hgated => ?_ }, h.phaseOk⟩
      rw [hreleased] at hgated
      cases hgated
    refine hring.setPump p fun hgated => ?_
    rw [hreleased] at hgated
    cases hgated
  · exact h

theorem pumpSend (p : Nat) : (w.pumpSend p).Sound handshake := by
  unfold Writer.pumpSend
  split
  · rename_i hpump
    have hreleased := h.pump_released hpump (by simp) (by simp)
    refine h.setPump p fun hgated => ?_
    rw [hreleased] at hgated
    cases hgated
  · rename_i event rest hpump
    have hreleased := h.pump_released hpump (by simp) (by simp)
    split
    · rename_i hopen
      split
      · rename_i hclass
        cases event <;> cases hclass
      · split
        · have hsent : ({ w with
              terminalHigh := w.terminalHigh ++ [eventToMessage event]
              sentLive := w.sentLive ++ [eventToMessage event] } : Writer α).Sound handshake := by
            refine ⟨{ h.accounts with terminals := ?_, terminalsInOrder := ?_, gated := ?_ },
              h.phaseOk⟩
            · intro _
              change _ ++ (_ ++ (_ ++ (_ ++ (w.terminalHigh ++ [eventToMessage event])))) =
                handshake ++ (w.sentLive ++ [eventToMessage event])
              rw [← List.append_assoc handshake, ← h.accounts.terminals hopen]
              simp only [List.append_assoc]
              rfl
            · refine h.accounts.terminalsInOrder.trans ?_
              change handshake ++ w.sentLive <+: handshake ++ (w.sentLive ++ [eventToMessage event])
              rw [← List.append_assoc]
              exact List.prefix_append _ _
            · intro hgated
              rw [hreleased] at hgated
              cases hgated
          refine hsent.setPump p fun hgated => ?_
          rw [hreleased] at hgated
          cases hgated
        · exact h
    · exact h.setPump p fun _ => .inr rfl
  · exact h

end

theorem cancelled {later : Writer α} (hok : w.PhaseOk phase)
    (hmay : ∀ logicalClass, w.MayTake logicalClass → later.MayTake logicalClass)
    (hfinished : later.readFinished = w.readFinished)
    (hcancelled : later.shutdown = true ∨ later.sessionCancel = true) : later.PhaseOk phase := by
  cases phase with
  | selecting readFinished slots => exact Eq.trans hok hfinished.symm
  | taking logicalClass => exact hmay logicalClass hok
  | sendDisconnected envelope | waitDisconnected => exact hfinished.trans hok
  | returned result =>
    intro _
    rcases hcancelled with hshutdown | hcancel
    · exact .inl hshutdown
    · exact .inr (.inl hcancel)
  | panicked message => exact hok
  | _ => trivial

theorem step (h : w.Sound handshake) (i : Section α) : (w.step i).Sound handshake := by
  cases i with
  | advance => exact h.advance
  | send branch => exact h.send branch
  | wait branch => exact h.wait branch
  | accept ack => exact h.accept ack
  | readerReturns => exact h.readerReturns
  | pumpGate p => exact h.pumpGate p
  | pumpReceive p events => exact h.pumpReceive p events
  | pumpSend p => exact h.pumpSend p
  | pumpEnd p => exact h.setPump p fun _ => .inr rfl
  | hub subscriber => exact ⟨{ h.accounts with }, h.phaseOk⟩
  | cancelShutdown =>
    exact ⟨{ h.accounts with }, cancelled h.phaseOk (fun _ hmay => hmay) rfl (.inl rfl)⟩
  | cancelSession =>
    exact ⟨{ h.accounts with }, cancelled h.phaseOk (fun _ hmay => hmay) rfl (.inr rfl)⟩

theorem new (scheduler : LogicalChannelScheduler) (subscriber : Subscriber α)
    (catchUp : List (LogicalChannelClass × α)) (live : Nat) :
    (Writer.new scheduler subscriber catchUp live).Sound (catchUp.map Prod.snd) := by
  refine ⟨⟨?_, ?_, ?_, ?_, ?_, ?_, ?_, ?_⟩, trivial⟩
  · intro _
    simp [Writer.new, terminalsWritten, Phase.inFlight]
  · intro _
    simp [Writer.new, acksWritten, Phase.inFlight]
  · exact List.nil_prefix
  · exact List.nil_prefix
  · intro _
    refine ⟨rfl, rfl, rfl, rfl, fun pump hpump => ?_⟩
    exact .inl (List.eq_of_mem_replicate hpump)
  · intro hreleased
    have hempty : catchUp = [] := List.isEmpty_iff.mp hreleased
    subst hempty
    exact ⟨rfl, List.nil_prefix⟩
  · exact ⟨rfl, rfl⟩
  · intro hclosed
    cases hclosed

end Sound

structure Delivers (handshake : List α) (w : Writer α) : Prop where
  terminals : w.terminalsWritten <+: handshake ++ w.sentLive
  gate : w.ringRead = true → handshake <+: w.terminalsWritten
  acks : w.acksWritten <+: w.accepted
  expects : ∀ message, w.phase ≠ .panicked message
  drained : ∀ result, w.phase = .returned result → w.readFinished = true →
    w.shutdown = false → w.sessionCancel = false → w.writeFailed = false →
    w.acksWritten = w.accepted

theorem Sound.delivers (h : w.Sound handshake) : w.Delivers handshake where
  terminals := h.accounts.terminalsInOrder
  gate := by
    intro hring
    cases hreleased : w.catchUpReleased with
    | true => exact (h.accounts.released hreleased).2
    | false =>
      rw [(h.accounts.gated hreleased).2.1] at hring
      cases hring
  acks := h.accounts.acksInOrder
  expects := by
    intro message hphase
    have hok := h.phaseOk
    rw [hphase] at hok
    exact hok
  drained := by
    intro result hphase hfinished hshutdown hcancel hfailed
    have hok := h.phaseOk
    rw [hphase] at hok
    rcases hok hfinished with hbad | hbad | hbad | hdone
    · rw [hshutdown] at hbad
      cases hbad
    · rw [hcancel] at hbad
      cases hbad
    · rw [hfailed] at hbad
      cases hbad
    · exact hdone

/-- In every run of writer, reader, pumps and hub: the terminal frames written are the catch-up
in order and then live frames as the pumps sent them; no pump reads its ring before the catch-up
is written; acknowledgements are written once each, in order; no expectation fails; and a writer
whose reader finished first has written them all when it returns, unless it was cancelled or a
write failed. -/
theorem writer_delivers (scheduler : LogicalChannelScheduler) (subscriber : Subscriber α)
    (catchUp : List (LogicalChannelClass × α)) (live : Nat) (sections : List (Section α)) :
    EveryState step (Delivers (catchUp.map Prod.snd))
      (Writer.new scheduler subscriber catchUp live) sections := by
  have hany : EveryStep step (fun _ _ => True) (Writer.new scheduler subscriber catchUp live)
      sections := everyStep_of_forall (fun _ _ => trivial) _ _
  have hevery : EveryState step (Sound (catchUp.map Prod.snd))
      (Writer.new scheduler subscriber catchUp live) sections :=
    hany.everyState (fun _ i h _ => h.step i) (Sound.new scheduler subscriber catchUp live)
  exact hevery.mono fun _ h => h.delivers

/-- An acknowledgement accepted while the catch-up is written; then the reader returns and the
subscription overflows. -/
def halfClosed : List (Section Nat) :=
  [List.replicate 19 .advance, [.accept 7, .readerReturns,
    .hub ⟨[], [], some "lagged", true, true⟩, .send .disconnect, .send .sent],
    List.replicate 10 .advance, [.send .sent], List.replicate 8 .advance].flatten

example : (run step (Writer.new ⟨0⟩ ⟨[], [], none, false, false⟩ [(.terminalNormal, 1)] 1)
    halfClosed).written = [.terminal 1, .serverEventAck 7] := by
  decide

end Writer

end Srui.Sessiond.ConnectionWriters

import Srui.Basic.Runs
import Srui.Scheduling.LogicalChannels
import Srui.Sessiond.Outbound

/-!
The writer of an active connection, with the reader's acknowledgements, the live terminal pumps
and the subscription it writes from.

Reader and writer are futures of one task, so the reader only runs where the writer awaits; the
pumps and the hub run at any time. Messages are left abstract.
-/

namespace Srui.Sessiond.ConnectionWriters

open Scheduling.LogicalChannels Sessiond.Outbound

variable {α : Type}

/-- `CONTROL_CHANNEL_CAPACITY`. -/
def controlChannelCapacity : Nat := 64

/-- `TERMINAL_LANE_CAPACITY`. -/
def terminalLaneCapacity : Nat := 64

/-- A subscription as its receiver sees it: its two lanes, how it ended, and its token. -/
structure Subscriber (α : Type) where
  ui : List α
  resources : List α
  staleReason : Option String
  isClosed : Bool
  disconnected : Bool

namespace Subscriber

/-- `OutboundReceiver::termination`. -/
def termination (sub : Subscriber α) : Option OutboundRecvError :=
  match sub.staleReason with
  | some reason => some (.lagged reason)
  | none => if sub.isClosed then some .closed else none

/-- `OutboundReceiver::class_ready`. -/
def classReady (sub : Subscriber α) : LogicalChannelClass → Bool
  | .ui => !sub.ui.isEmpty
  | .resource => !sub.resources.isEmpty
  | .control | .input | .terminalHigh | .terminalNormal => false

def ended (sub : Subscriber α) : Except OutboundRecvError (Option α) :=
  if sub.isClosed then .error .closed else .ok none

/-- `OutboundReceiver::pop_class`. -/
def popClass (sub : Subscriber α) (logicalClass : LogicalChannelClass) :
    Except OutboundRecvError (Option α) × Subscriber α :=
  match sub.staleReason with
  | some reason => (.error (.lagged reason), sub)
  | none =>
    match logicalClass, sub.ui, sub.resources with
    | .ui, item :: rest, _ => (.ok (some item), { sub with ui := rest })
    | .resource, _, item :: rest => (.ok (some item), { sub with resources := rest })
    | _, _, _ => (sub.ended, sub)

end Subscriber

inductive TerminalEvent (α : Type) where
  | data (message : α)
  | resync (message : α)

def eventToMessage : TerminalEvent α → α
  | .data message | .resync message => message

def liveClassForEvent : TerminalEvent α → LogicalChannelClass
  | .data _ | .resync _ => .terminalHigh

/-- A live pump: before the gate, waiting for its ring, sending what it took, or over. -/
inductive Pump (α : Type) where
  | gated
  | receiving
  | sending (events : List (TerminalEvent α))
  | ended

inductive Envelope (α : Type) where
  | serverEventAck (ack : α)
  | outbound (item : α)
  | terminal (message : α)
deriving DecidableEq

/-- The `ConnectionError` values a writer returns. -/
inductive ConnectionError where
  | framing
  | writeTimeout
  | laggedResyncRequired
deriving DecidableEq, Repr

/-- Where the writer is in a round of its loop. It awaits while sending, waiting and yielding. -/
inductive Phase (α : Type) where
  | checkCancelled
  | checkTermination
  | pollControl
  | pollTerminalHigh
  | pollTerminalNormal
  | checkDrained
  | selecting (readFinished : Bool) (slots : Nat)
  | taking (logicalClass : LogicalChannelClass)
  | sending (envelope : Envelope α) (drainingAfterRead : Bool)
  | sendDisconnected (envelope : Envelope α)
  | releasing
  | yielding
  | checkIdle
  | waiting
  | waitDisconnected
  | returned (result : Except ConnectionError Unit)
  | panicked (message : String)

inductive SendBranch where
  | sent
  | failed
  | timedOut
  | shutdown
  | readFinished
  | disconnect
deriving DecidableEq

inductive WaitBranch where
  | sessionCancel
  | shutdown
  | readFinished
  | disconnect
  | control
  | terminalHigh
  | terminalNormal
  | outbound
deriving DecidableEq

/-- An active connection. The channels hold what was sent and not received yet; the last five
record what was written, accepted by the control channel and sent by the pumps, whether a ring
was read, and whether a write failed. -/
structure Writer (α : Type) where
  phase : Phase α := .checkCancelled
  subscriber : Subscriber α
  scheduler : LogicalChannelScheduler
  pendingAck : Option α := none
  pendingTerminalHigh : Option α := none
  pendingTerminalNormal : Option α := none
  controlClosed : Bool := false
  terminalHighClosed : Bool := false
  terminalNormalClosed : Bool := false
  outboundIdle : Bool := false
  catchUp : List (LogicalChannelClass × α)
  catchUpReleased : Bool
  control : List α := []
  terminalHigh : List α := []
  terminalNormal : List α := []
  pumps : List (Pump α)
  shutdown : Bool := false
  sessionCancel : Bool := false
  readFinished : Bool := false
  written : List (Envelope α) := []
  accepted : List α := []
  sentLive : List α := []
  ringRead : Bool := false
  writeFailed : Bool := false

/-- One step of the writer, of the reader, of a pump, or of what surrounds them. -/
inductive Section (α : Type) where
  | advance
  | send (branch : SendBranch)
  | wait (branch : WaitBranch)
  | accept (ack : α)
  | readerReturns
  | pumpGate (pump : Nat)
  | pumpReceive (pump : Nat) (events : List (TerminalEvent α))
  | pumpSend (pump : Nat)
  | pumpEnd (pump : Nat)
  | hub (subscriber : Subscriber α)
  | cancelShutdown
  | cancelSession

/-- `Writer::new`, with the pumps that `spawn_terminal_live_pumps` starts. -/
def Writer.new (scheduler : LogicalChannelScheduler) (subscriber : Subscriber α)
    (catchUp : List (LogicalChannelClass × α)) (live : Nat) : Writer α where
  subscriber := subscriber
  scheduler := scheduler
  catchUp := catchUp
  catchUpReleased := catchUp.isEmpty
  pumps := List.replicate live .gated

namespace Writer

variable (w : Writer α)

def goto (phase : Phase α) : Writer α := { w with phase := phase }

def returns (result : Except ConnectionError Unit) : Writer α := w.goto (.returned result)

def pumpsEnded : Bool := w.pumps.all fun pump => match pump with
  | .ended => true
  | _ => false

def pollControl : Writer α :=
  if w.pendingAck.isNone ∧ w.controlClosed = false then
    match w.control with
    | ack :: rest => { w with pendingAck := some ack, control := rest }
    | [] => if w.readFinished then { w with controlClosed := true } else w
  else w

def pollTerminalHigh : Writer α :=
  if w.pendingTerminalHigh.isNone ∧ w.terminalHighClosed = false then
    match w.terminalHigh with
    | message :: rest => { w with pendingTerminalHigh := some message, terminalHigh := rest }
    | [] => if w.pumpsEnded then { w with terminalHighClosed := true } else w
  else w

def pollTerminalNormal : Writer α :=
  if w.pendingTerminalNormal.isNone ∧ w.terminalNormalClosed = false then
    match w.terminalNormal with
    | message :: rest => { w with pendingTerminalNormal := some message, terminalNormal := rest }
    | [] => if w.pumpsEnded then { w with terminalNormalClosed := true } else w
  else w

def catchUpFront (logicalClass : LogicalChannelClass) : Bool :=
  w.catchUp.head?.any fun front => front.1 = logicalClass

def ready (readFinished : Bool) : LogicalChannelClass → Bool
  | .control => w.pendingAck.isSome
  | .input => false
  | .terminalHigh => !readFinished &&
      (w.catchUpFront .terminalHigh || (w.catchUp.isEmpty && w.pendingTerminalHigh.isSome))
  | .terminalNormal => !readFinished &&
      (w.catchUpFront .terminalNormal || (w.catchUp.isEmpty && w.pendingTerminalNormal.isSome))
  | .ui => !readFinished && w.subscriber.classReady .ui
  | .resource => !readFinished && w.subscriber.classReady .resource

/-- One slot of `LogicalChannelScheduler::select_next`. -/
def inspectSlot (readFinished : Bool) : Nat → Writer α
  | 0 => w.goto .checkIdle
  | slots + 1 =>
    let logicalClass := serviceCycle w.scheduler.cursor
    { w with
      scheduler := ⟨w.scheduler.cursor + 1⟩
      phase := if w.ready readFinished logicalClass then .taking logicalClass
        else .selecting readFinished slots }

/-- `send_message_with_read_state` begins. -/
def startSend (envelope : Envelope α) : Writer α := w.goto (.sending envelope w.readFinished)

/-- `Writer::take_catch_up`. -/
def takeCatchUp (logicalClass : LogicalChannelClass) : Option (α × Writer α) :=
  match w.catchUp with
  | (front, envelope) :: rest =>
    if front = logicalClass then some (envelope, { w with catchUp := rest }) else none
  | [] => none

def takeFrame (logicalClass : LogicalChannelClass) : Writer α :=
  match logicalClass with
  | .control =>
    match w.pendingAck with
    | some ack => { w with pendingAck := none }.startSend (.serverEventAck ack)
    | none => w.goto
        (.panicked "control selected only when an acknowledgement is pending")
  | .ui | .resource =>
    match w.subscriber.popClass logicalClass with
    | (.ok (some item), subscriber) =>
      { w with subscriber := subscriber }.startSend (.outbound item)
    | (.ok none, _) => w.goto .checkCancelled
    | (.error (.lagged _), _) => w.returns (.error .laggedResyncRequired)
    | (.error .closed, _) => { w with outboundIdle := true }.goto .checkCancelled
  | .terminalHigh =>
    match w.takeCatchUp .terminalHigh, w.pendingTerminalHigh with
    | some (envelope, rest), _ => rest.startSend (.terminal envelope)
    | none, some message => { w with pendingTerminalHigh := none }.startSend (.terminal message)
    | none, none => w.goto
        (.panicked "terminalHigh selected only when a live/resync frame is pending")
  | .terminalNormal =>
    match w.takeCatchUp .terminalNormal, w.pendingTerminalNormal with
    | some (envelope, rest), _ => rest.startSend (.terminal envelope)
    | none, some message =>
      { w with pendingTerminalNormal := none }.startSend (.terminal message)
    | none, none => w.goto
        (.panicked "terminalNormal selected only when a replay frame is pending")
  | .input => w.goto .checkCancelled

/-- What the writer does between two awaits, one access to what it shares at a time. -/
def advance : Writer α :=
  match w.phase with
  | .checkCancelled =>
    if w.sessionCancel ∨ w.shutdown then w.returns (.ok ()) else w.goto .checkTermination
  | .checkTermination =>
    if w.readFinished then w.goto .pollControl
    else
      match w.subscriber.termination with
      | some (.lagged _) => w.returns (.error .laggedResyncRequired)
      | some .closed | none => w.goto .pollControl
  | .pollControl => w.pollControl.goto .pollTerminalHigh
  | .pollTerminalHigh => w.pollTerminalHigh.goto .pollTerminalNormal
  | .pollTerminalNormal => w.pollTerminalNormal.goto .checkDrained
  | .checkDrained =>
    if w.controlClosed ∧ w.pendingAck.isNone then w.returns (.ok ())
    else w.goto (.selecting w.readFinished 24)
  | .selecting readFinished slots => w.inspectSlot readFinished slots
  | .taking logicalClass => w.takeFrame logicalClass
  | .sendDisconnected _ =>
    match w.subscriber.termination with
    | some .closed => w.returns (.ok ())
    | some (.lagged _) | none => w.returns (.error .laggedResyncRequired)
  | .releasing =>
    { w with catchUpReleased := w.catchUpReleased || w.catchUp.isEmpty }.goto .yielding
  | .yielding => w.goto .checkCancelled
  | .checkIdle =>
    if w.readFinished = false ∧ w.pendingAck.isNone ∧
        (w.outboundIdle ∨ w.subscriber.isClosed) ∧
        w.subscriber.classReady .ui = false ∧ w.subscriber.classReady .resource = false then
      w.returns (.ok ())
    else w.goto .waiting
  | .waitDisconnected =>
    match w.subscriber.termination with
    | some (.lagged _) | none => w.returns (.error .laggedResyncRequired)
    | some .closed =>
      { w with outboundIdle :=
          !w.subscriber.classReady .ui && !w.subscriber.classReady .resource }.goto
        .checkCancelled
  | .sending _ _ | .waiting | .returned _ | .panicked _ => w

/-- One branch of the select around a write; the end of the reader goes before a disconnect. -/
def send (branch : SendBranch) : Writer α :=
  match w.phase with
  | .sending envelope drainingAfterRead =>
    match branch with
    | .sent => { w with written := w.written ++ [envelope] }.goto .releasing
    | .failed => { w with writeFailed := true }.returns (.error .framing)
    | .timedOut => { w with writeFailed := true }.returns (.error .writeTimeout)
    | .shutdown => if w.shutdown then w.returns (.ok ()) else w
    | .readFinished =>
      if w.readFinished then w.goto (.sending envelope true) else w
    | .disconnect =>
      if drainingAfterRead = false ∧ w.readFinished = false ∧ w.subscriber.disconnected then
        w.goto (.sendDisconnected envelope)
      else w
  | _ => w

/-- One branch of the select of an idle writer; the end of the reader goes before all that
follows it. -/
def wait (branch : WaitBranch) : Writer α :=
  match w.phase with
  | .waiting =>
    match branch with
    | .sessionCancel => if w.sessionCancel then w.returns (.ok ()) else w
    | .shutdown => if w.shutdown then w.returns (.ok ()) else w
    | .readFinished => if w.readFinished then w.goto .checkCancelled else w
    | .disconnect =>
      if w.outboundIdle = false ∧ w.readFinished = false ∧ w.subscriber.disconnected then
        w.goto .waitDisconnected
      else w
    | .control =>
      if w.readFinished = false ∧ w.control ≠ [] then w.pollControl.goto .checkCancelled else w
    | .terminalHigh =>
      if w.readFinished = false ∧ (w.terminalHigh ≠ [] ∨ w.pumpsEnded) then
        w.pollTerminalHigh.goto .checkCancelled
      else w
    | .terminalNormal =>
      if w.readFinished = false ∧ (w.terminalNormal ≠ [] ∨ w.pumpsEnded) then
        w.pollTerminalNormal.goto .checkCancelled
      else w
    | .outbound =>
      if w.outboundIdle = false ∧ w.readFinished = false then
        match w.subscriber.staleReason with
        | some _ => w.returns (.error .laggedResyncRequired)
        | none =>
          if w.subscriber.classReady .ui ∨ w.subscriber.classReady .resource then
            w.goto .yielding
          else if w.subscriber.isClosed then
            { w with outboundIdle := true }.goto .checkCancelled
          else w
      else w
  | _ => w

def awaits : Bool :=
  match w.phase with
  | .sending _ _ | .yielding | .waiting => true
  | _ => false

def isOpen : Bool :=
  match w.phase with
  | .returned _ | .panicked _ => false
  | _ => true

def accept (ack : α) : Writer α :=
  if w.awaits ∧ w.readFinished = false ∧ w.control.length < controlChannelCapacity then
    { w with control := w.control ++ [ack], accepted := w.accepted ++ [ack] }
  else w

/-- The reader returns, and `run_active_session` cancels `read_finished` before the writer runs
again. -/
def readerReturns : Writer α := if w.awaits then { w with readFinished := true } else w

def setPump (p : Nat) (pump : Pump α) : Writer α := { w with pumps := w.pumps.set p pump }

def pumpGate (p : Nat) : Writer α :=
  match w.pumps[p]? with
  | some .gated => if w.catchUpReleased then w.setPump p .receiving else w
  | _ => w

/-- `TerminalSubscription::recv` gives a pump what its ring holds. -/
def pumpReceive (p : Nat) (events : List (TerminalEvent α)) : Writer α :=
  match w.pumps[p]? with
  | some .receiving => { w with ringRead := true }.setPump p (.sending events)
  | _ => w

def pumpSend (p : Nat) : Writer α :=
  match w.pumps[p]? with
  | some (.sending []) => w.setPump p .receiving
  | some (.sending (event :: rest)) =>
    if w.isOpen then
      match liveClassForEvent event with
      | .terminalNormal =>
        if w.terminalNormal.length < terminalLaneCapacity then
          { w with
            terminalNormal := w.terminalNormal ++ [eventToMessage event]
            sentLive := w.sentLive ++ [eventToMessage event] }.setPump p (.sending rest)
        else w
      | _ =>
        if w.terminalHigh.length < terminalLaneCapacity then
          { w with
            terminalHigh := w.terminalHigh ++ [eventToMessage event]
            sentLive := w.sentLive ++ [eventToMessage event] }.setPump p (.sending rest)
        else w
    else w.setPump p .ended
  | _ => w

def step : Section α → Writer α
  | .advance => w.advance
  | .send branch => w.send branch
  | .wait branch => w.wait branch
  | .accept ack => w.accept ack
  | .readerReturns => w.readerReturns
  | .pumpGate p => w.pumpGate p
  | .pumpReceive p events => w.pumpReceive p events
  | .pumpSend p => w.pumpSend p
  | .pumpEnd p => w.setPump p .ended
  | .hub subscriber => { w with subscriber := subscriber }
  | .cancelShutdown => { w with shutdown := true }
  | .cancelSession => { w with sessionCancel := true }

end Writer

end Srui.Sessiond.ConnectionWriters

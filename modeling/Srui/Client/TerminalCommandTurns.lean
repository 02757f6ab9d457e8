import Srui.Basic.Runs
import Srui.Client.TerminalCommandPumps

/-!
The terminal command pump, turn by turn of its actor.

A drain takes one item at a time off the queue and is suspended while the installed sender has it;
other turns come in between. An item always fits a frame, so its encoding does not fail.
-/

namespace Srui.Client.TerminalCommandTurns

open Basic.Runs SemanticTree.Values TerminalCommandPumps

structure TerminalSize where
  columns : Nat
  rows : Nat
  pixelWidth : Nat
  pixelHeight : Nat
deriving DecidableEq

/-- A queued item, with the number of those queued before it. -/
structure Entry where
  serial : Nat
  item : Item

inductive Drain where
  | scheduled
  | sending
deriving DecidableEq

structure Handing (σ : Type) where
  sender : σ
  entry : Entry

/-- The pump, with the drains that exist. `issued` records every item ever queued, and `handed`
what was handed over, both in order. -/
structure Pump (σ α : Type) where
  queue : List Entry := []
  drainTask : Bool := false
  latestSize : NodeId → Option TerminalSize := fun _ => none
  connected : Bool := false
  sendIfAuthorized : Option σ := none
  authority : Option α := none
  drains : List Drain := []
  issued : List Item := []
  handed : List (Handing σ) := []

inductive SendResult where
  | sent
  | refused
  | failed

/-- One turn of the actor. The sizes are listed in the order that the dictionary happens to have. -/
inductive Turn (σ α : Type) where
  | attach (sender : σ) (authority : Option α) (order : List NodeId)
  | disconnect
  | resetForReplacementSession (sender : σ) (authority : Option α)
  | prune (retainedStreamIDs : Finset NodeId)
  | removeStream (streamID : NodeId)
  | enqueueInput (streamID : NodeId) (data : Bytes)
  | enqueueResize (streamID : NodeId) (size : TerminalSize)
  | startDrain (index : Nat)
  | sendReturns (index : Nat) (result : SendResult)

def resizeItem (streamID : NodeId) (size : TerminalSize) : Item :=
  .resize streamID size.columns size.rows size.pixelWidth size.pixelHeight

def isInput : Item → Bool
  | .input _ _ => true
  | .resize _ _ _ _ _ => false

def isResizeOf (streamID : NodeId) : Item → Bool
  | .input _ _ => false
  | .resize other _ _ _ _ => other = streamID

def streamOf : Item → NodeId
  | .input streamID _ => streamID
  | .resize streamID _ _ _ _ => streamID

namespace Pump

variable {σ α : Type} (pump : Pump σ α)

/-- `queue.append`, of each in turn. -/
def append (items : List Item) : Pump σ α :=
  { pump with
    queue := pump.queue ++ (items.zipIdx pump.issued.length).map fun p => ⟨p.2, p.1⟩
    issued := pump.issued ++ items }

/-- `queue.removeAll`. -/
def removeAll (p : Item → Bool) : Pump σ α :=
  { pump with queue := pump.queue.filter fun entry => !p entry.item }

def kick : Pump σ α :=
  if pump.drainTask then pump
  else { pump with drainTask := true, drains := pump.drains ++ [.scheduled] }

def queueSize (streamID : NodeId) (size : TerminalSize) : Pump σ α :=
  (pump.removeAll (isResizeOf streamID)).append [resizeItem streamID size]

def queueRetained (streamID : NodeId) : Pump σ α :=
  match pump.latestSize streamID with
  | some size => pump.queueSize streamID size
  | none => pump

def sameAuthority [DecidableEq α] (authority : Option α) : Bool :=
  pump.connected && authority.isSome && decide (authority = pump.authority)

def install (sender : σ) (authority : Option α) : Pump σ α :=
  { pump with sendIfAuthorized := some sender, authority := authority, connected := true }

def attach [DecidableEq α] (sender : σ) (authority : Option α) (order : List NodeId) :
    Pump σ α :=
  kick (if pump.sameAuthority authority then pump.install sender authority
    else order.foldl queueRetained (pump.install sender authority))

def disconnect : Pump σ α :=
  removeAll { pump with connected := false, sendIfAuthorized := none, authority := none } isInput

def resetForReplacementSession (sender : σ) (authority : Option α) : Pump σ α :=
  { pump with
    queue := []
    latestSize := fun _ => none
    sendIfAuthorized := some sender
    authority := authority }

def prune (retainedStreamIDs : Finset NodeId) : Pump σ α :=
  removeAll
    { pump with
      latestSize := fun streamID =>
        if streamID ∈ retainedStreamIDs then pump.latestSize streamID else none }
    fun item => decide (streamOf item ∉ retainedStreamIDs)

def removeStream (streamID : NodeId) : Pump σ α :=
  removeAll { pump with latestSize := Function.update pump.latestSize streamID none }
    fun item => decide (streamOf item = streamID)

def enqueueInput (streamID : NodeId) (data : Bytes) : Pump σ α :=
  if pump.connected = false ∨ data = [] then pump
  else (pump.append ((splitInput data).map (Item.input streamID))).kick

def enqueueResize (streamID : NodeId) (size : TerminalSize) : Pump σ α :=
  let retained : Pump σ α :=
    { pump with latestSize := Function.update pump.latestSize streamID (some size) }
  if pump.connected then (retained.queueSize streamID size).kick else retained

/-- The loop of `drain` over the queue, and whether a send suspends it. -/
def drainLoop : List Entry → Pump σ α × Bool
  | [] => ({ pump with queue := [] }, false)
  | entry :: rest =>
    if pump.connected then
      match pump.sendIfAuthorized with
      | some sender =>
        ({ pump with queue := rest, handed := pump.handed ++ [⟨sender, entry⟩] }, true)
      | none => drainLoop rest
    else ({ pump with queue := entry :: rest }, false)

def drain (index : Nat) : Pump σ α :=
  let (next, suspended) := pump.drainLoop pump.queue
  if suspended then { next with drains := next.drains.set index .sending }
  else { next with drainTask := false, drains := next.drains.eraseIdx index }

def step [DecidableEq α] (pump : Pump σ α) : Turn σ α → Pump σ α
  | .attach sender authority order => pump.attach sender authority order
  | .disconnect => pump.disconnect
  | .resetForReplacementSession sender authority =>
    pump.resetForReplacementSession sender authority
  | .prune retainedStreamIDs => pump.prune retainedStreamIDs
  | .removeStream streamID => pump.removeStream streamID
  | .enqueueInput streamID data => pump.enqueueInput streamID data
  | .enqueueResize streamID size => pump.enqueueResize streamID size
  | .startDrain index => if pump.drains[index]? = some .scheduled then pump.drain index else pump
  | .sendReturns index _ => if pump.drains[index]? = some .sending then pump.drain index else pump

/-- The order of an attach lists the retained sizes. -/
def Legal (pump : Pump σ α) : Turn σ α → Prop
  | .attach _ _ order =>
    order.Nodup ∧ ∀ streamID, streamID ∈ order ↔ (pump.latestSize streamID).isSome
  | _ => True

/-! ### Fields after a part of a turn -/

variable {pump} {items : List Item} {p : Item → Bool} {streamID : NodeId} {size : TerminalSize}

@[simp] theorem kick_queue : pump.kick.queue = pump.queue := by unfold kick; split <;> rfl

@[simp] theorem kick_latestSize : pump.kick.latestSize = pump.latestSize := by
  unfold kick; split <;> rfl

@[simp] theorem kick_connected : pump.kick.connected = pump.connected := by
  unfold kick; split <;> rfl

@[simp] theorem kick_sendIfAuthorized : pump.kick.sendIfAuthorized = pump.sendIfAuthorized := by
  unfold kick; split <;> rfl

@[simp] theorem kick_issued : pump.kick.issued = pump.issued := by unfold kick; split <;> rfl

@[simp] theorem kick_handed : pump.kick.handed = pump.handed := by unfold kick; split <;> rfl

@[simp] theorem kick_drainTask : pump.kick.drainTask = true := by
  unfold kick
  split
  · assumption
  · rfl

end Pump

end Srui.Client.TerminalCommandTurns

import Srui.Sessiond.TerminalSteps

/-!
The terminals a connection pumps, against those its client is shown.

A handshake subscribes under the session's lock and attaches the live streams afterwards, under
the lock of the PTY manager. Each stream is told from the others by the count of spawns at its
own; of a transaction only the terminal node it creates matters.
-/

namespace Srui.Sessiond.TerminalPumps

open SemanticTree.Values Sessiond.Sessions Sessiond.TerminalNodes

structure TerminalStream where
  nodeId : NodeId
  serial : Nat
deriving DecidableEq

/-- `TerminalAttach`, with the count of spawns before it. -/
structure TerminalAttach where
  spawned : Nat
  live : List TerminalStream
deriving DecidableEq

/-- A handshake that has subscribed: the terminal nodes in its catch-up state, those in the
transactions queued for it and popped from its receiver, and what its bootstrap returned. -/
structure Handshake where
  catchUp : List TerminalStream
  queued : List TerminalStream := []
  popped : List TerminalStream := []
  isOpen : Bool := true
  attached : Option TerminalAttach := none
deriving DecidableEq

/-- A session with its handshakes. `spawnOf` is the spawn that made the stream under an id,
`callSpawns` the spawn of a call and `created` the nodes created, each with the stream its call
has spawned. -/
structure PumpedSession where
  terminals : TerminalSession
  spawns : Nat := 0
  spawnOf : NodeId → Nat := fun _ => 0
  callSpawns : Nat → Nat := fun _ => 0
  created : List TerminalStream := []
  handshakes : List Handshake := []

/-- The sections of the calls on terminals and of the handshakes. A pop takes a transaction, which
may hold several creations, or none. -/
inductive PumpSection where
  | terminals (entered : TerminalSession.Section)
  | subscribe (connection : Nat)
  | attachTerminals (handshake : Nat)
  | pop (handshake creations : Nat)
  | endSubscription (handshake : Nat) (discards : Bool)

def spawnedBy (s : TerminalSession) : TerminalSession.Section → Option (Nat × NodeId)
  | .spawn call fails =>
    match s.calls call with
    | some c =>
      if c.stage = .prepared ∧ fails = false ∧ (s.spawn c.nodeId).isSome then
        some (call, c.nodeId)
      else none
    | none => none
  | _ => none

def committedBy (s : TerminalSession) : TerminalSession.Section → Option (Nat × NodeId)
  | .commit call fails =>
    match s.calls call with
    | some c =>
      if c.stage = .spawned ∧ fails = false then
        match (transactionWithResult s.session
          (TerminalSession.createNodeClosure c.nodeId c.parent c.typeRef)).2 with
        | .ok _ => some (call, c.nodeId)
        | .error _ => none
      else none
    | none => none
  | _ => none

namespace Handshake

def coming (handshake : Handshake) : List TerminalStream :=
  handshake.catchUp ++ handshake.queued ++ handshake.popped

def publish (handshake : Handshake) (stream : TerminalStream) : Handshake :=
  if handshake.isOpen then { handshake with queued := handshake.queued ++ [stream] } else handshake

def pop (handshake : Handshake) (creations : Nat) : Handshake :=
  if handshake.attached.isSome then
    { handshake with
      queued := handshake.queued.drop creations
      popped := handshake.popped ++ handshake.queued.take creations }
  else handshake

/-- An overflow, the end of the hub or a drop of the receiver; the first and the last discard
what is queued. -/
def endSubscription (handshake : Handshake) (discards : Bool) : Handshake :=
  { handshake with
    isOpen := false
    queued := if discards then [] else handshake.queued }

end Handshake

namespace PumpedSession

def initial (capabilities : ServerCapabilities) (journalCapacity : Nat) : PumpedSession where
  terminals := .withConfig capabilities journalCapacity

def recordSpawn (s : PumpedSession) (call : Nat) (nodeId : NodeId) : PumpedSession :=
  { s with
    spawns := s.spawns + 1
    spawnOf := Function.update s.spawnOf nodeId (s.spawns + 1)
    callSpawns := Function.update s.callSpawns call (s.spawns + 1) }

def recordCommit (s : PumpedSession) (call : Nat) (nodeId : NodeId) : PumpedSession :=
  { s with
    created := s.created ++ [⟨nodeId, s.callSpawns call⟩]
    handshakes := s.handshakes.map (·.publish ⟨nodeId, s.callSpawns call⟩) }

def enter (s : PumpedSession) (entered : TerminalSession.Section) : PumpedSession :=
  let next := { s with terminals := s.terminals.step entered }
  match spawnedBy s.terminals entered, committedBy s.terminals entered with
  | some (call, nodeId), _ => next.recordSpawn call nodeId
  | none, some (call, nodeId) => next.recordCommit call nodeId
  | none, none => next

def subscribe (s : PumpedSession) (connection : Nat) : PumpedSession :=
  match s.terminals.connections[connection]? with
  | some (some _) =>
    { s with
      terminals := s.terminals.step (.finishHandshake connection)
      handshakes := s.handshakes ++
        [{ catchUp := s.created.filter fun stream =>
            s.terminals.session.store.nodes.contains stream.nodeId }] }
  | _ => s

/-- `Session::attach_terminals` over `PTYManager::subscribe_all`. -/
def subscribeAll (s : PumpedSession) : TerminalAttach where
  spawned := s.spawns
  live := s.terminals.streams.map fun nodeId => ⟨nodeId, s.spawnOf nodeId⟩

def attachTerminals (s : PumpedSession) (handshake : Handshake) : Handshake :=
  match handshake.attached with
  | none => { handshake with attached := some s.subscribeAll }
  | some _ => handshake

def onHandshake (s : PumpedSession) (index : Nat) (f : Handshake → Handshake) : PumpedSession :=
  { s with handshakes := s.handshakes.modify index f }

def step (s : PumpedSession) : PumpSection → PumpedSession
  | .terminals entered => s.enter entered
  | .subscribe connection => s.subscribe connection
  | .attachTerminals handshake => s.onHandshake handshake s.attachTerminals
  | .pop handshake creations => s.onHandshake handshake (·.pop creations)
  | .endSubscription handshake discards => s.onHandshake handshake (·.endSubscription discards)

def Live (s : PumpedSession) (stream : TerminalStream) : Prop :=
  stream.nodeId ∈ s.terminals.streams ∧ s.spawnOf stream.nodeId = stream.serial

instance (s : PumpedSession) (stream : TerminalStream) : Decidable (s.Live stream) :=
  inferInstanceAs (Decidable (_ ∧ _))

/-- Every handshake that returned has one subscription, to the stream of its own, for each
terminal node that its client is shown and whose stream is live. -/
def Pumped (s : PumpedSession) : Prop :=
  ∀ handshake ∈ s.handshakes, ∀ attach ∈ handshake.attached,
    ∀ stream ∈ handshake.catchUp ++ handshake.popped, s.Live stream →
      attach.live.filter (fun subscribed => subscribed.nodeId = stream.nodeId) = [stream]

instance (s : PumpedSession) : Decidable s.Pumped :=
  inferInstanceAs (Decidable (∀ handshake ∈ s.handshakes, ∀ attach ∈ handshake.attached,
    ∀ stream ∈ handshake.catchUp ++ handshake.popped, s.Live stream →
      attach.live.filter (fun subscribed => subscribed.nodeId = stream.nodeId) = [stream]))

/-- A call that commits its node has spawned its stream before any open handshake attached. -/
def Careful (s : PumpedSession) : PumpSection → Prop
  | .terminals entered =>
    ∀ committed ∈ committedBy s.terminals entered, ∀ handshake ∈ s.handshakes,
      handshake.isOpen = true → ∀ attach ∈ handshake.attached,
        s.callSpawns committed.1 ≤ attach.spawned
  | _ => True

instance decidableCareful (s : PumpedSession) : ∀ i, Decidable (s.Careful i)
  | .terminals entered =>
    inferInstanceAs (Decidable (∀ committed ∈ committedBy s.terminals entered,
      ∀ handshake ∈ s.handshakes, handshake.isOpen = true → ∀ attach ∈ handshake.attached,
        s.callSpawns committed.1 ≤ attach.spawned))
  | .subscribe _ | .attachTerminals _ | .pop _ _ | .endSubscription _ _ => isTrue trivial

end PumpedSession

section Streams

variable {s : TerminalSession} {call : Nat} {nodeId : NodeId} {i : TerminalSession.Section}

theorem spawn_streams {nodeId : NodeId} {spawned : TerminalSession}
    (h : s.spawn nodeId = some spawned) :
    nodeId ∉ s.streams ∧ spawned.streams = s.streams ++ [nodeId] := by
  unfold TerminalSession.spawn at h
  split_ifs at h with hlive hfull
  cases h
  exact ⟨hlive, rfl⟩

theorem step_spawnedBy (h : spawnedBy s i = some (call, nodeId)) :
    nodeId ∉ s.streams ∧ (s.step i).streams = s.streams ++ [nodeId] := by
  unfold spawnedBy at h
  split at h
  · rename_i k fails
    split at h
    · rename_i c hcall
      split_ifs at h with hdue
      obtain ⟨hstage, rfl, hsome⟩ := hdue
      cases h
      obtain ⟨spawned, hspawned⟩ := Option.isSome_iff_exists.mp hsome
      obtain ⟨hfresh, hstreams⟩ := spawn_streams hspawned
      refine ⟨hfresh, ?_⟩
      change (s.spawnCall call false).streams = _
      unfold TerminalSession.spawnCall
      rw [hcall]
      dsimp only
      rw [if_pos hstage, if_neg Bool.false_ne_true, hspawned]
      exact hstreams
    · cases h
  · cases h

theorem step_streams (h : spawnedBy s i = none) : List.Sublist (s.step i).streams s.streams := by
  have hsame {t : TerminalSession} (h : t.streams = s.streams) :
      List.Sublist t.streams s.streams := by
    rw [h]
  cases i with
  | spawn call fails =>
    apply hsame
    change (s.spawnCall call fails).streams = _
    unfold spawnedBy at h
    dsimp only at h
    unfold TerminalSession.spawnCall
    rcases hcall : s.calls call with _ | c
    · rfl
    rw [hcall] at h
    dsimp only at h ⊢
    split_ifs with hstage hfails
    · rfl
    · -- A spawn that succeeds is one of a due call.
      rcases hspawned : s.spawn c.nodeId with _ | spawned
      · rfl
      · rw [if_pos ⟨hstage, Bool.eq_false_iff.mpr hfails, by rw [hspawned]; rfl⟩] at h
        cases h
    · rfl
  | close call =>
    rcases s.closeCall_cases call with heq | ⟨c, -, -, heq⟩
    · exact hsame (congrArg (·.streams) heq)
    · change List.Sublist (s.closeCall call).streams s.streams
      rw [heq]
      exact List.filter_sublist
  | closeMissing nodeId =>
    change List.Sublist (TerminalSession.streams (if nodeId ∈ s.closings then _ else s)) _
    split_ifs
    · exact List.filter_sublist
    · exact List.Sublist.refl _
  | shutdown =>
    change List.Sublist (TerminalSession.streams (if 0 < s.shutdowns then _ else s)) _
    split_ifs
    · exact List.nil_sublist _
    · exact List.Sublist.refl _
  | finishHandshake connection =>
    apply hsame
    rcases s.finishHandshake_cases connection with heq | ⟨table, -, heq⟩
    · exact congrArg (·.streams) heq
    · exact congrArg (·.streams) heq
  | _ =>
    apply hsame
    refine (TerminalSession.step_still ?_).2
    trivial

end Streams

end Srui.Sessiond.TerminalPumps

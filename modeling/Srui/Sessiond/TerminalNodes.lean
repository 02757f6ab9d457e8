import Srui.SemanticTree.NodeTypes
import Srui.Sessiond.SessionCommits

/-!
Terminal nodes of a session: their type in the namespace table, the PTY stream each is bound to,
and the calls that make, delete and shut them down.
-/

namespace Srui.Sessiond.TerminalNodes

open Basic.Machine SemanticTree.Values SemanticTree.Limits SemanticTree.Stores
open SemanticTree.Operations SemanticTree.Wire SemanticTree.NodeTypes Journal.TransactionJournals
open Sdk.UiTransactions Sessiond.Sessions Sessiond.SessionCommits

structure Profile where
  name : String
  version : Nat
deriving DecidableEq

/-- `Display` of a profile. -/
def Profile.display (profile : Profile) : String := profile.name ++ "/" ++ profile.version.repr

def Profile.standardWidgetsV1 : Profile := ⟨"org.srui.standard-widgets", 1⟩

def Profile.terminalV1 : Profile := ⟨"org.srui.terminal", 1⟩

def terminalProfileUri : String := "org.srui.terminal/1"

def terminalLocalTypeId : Nat := 1

structure ServerCapabilities where
  required : Finset Profile
  optional : Finset Profile
deriving DecidableEq

structure ExtensionNamespaceMapping where
  extensionUri : String
  namespaceId : Nat
deriving DecidableEq

def standardNamespaceMapping : ExtensionNamespaceMapping := ⟨"org.srui.standard-widgets", 0⟩

/-- Loop of `next_extension_namespace`, with so many candidates left from this one on. -/
def lowestUnused (used : List Nat) (candidate : Nat) : Nat → Except String Nat
  | 0 => .error "extension namespace space exhausted"
  | left + 1 =>
    if candidate ∈ used then lowestUnused used (candidate + 1) left else .ok candidate

def nextExtensionNamespace (existing : List ExtensionNamespaceMapping) : Except String Nat :=
  lowestUnused (existing.map (·.namespaceId)) 1 u32Max

def namespaceOf (table : List ExtensionNamespaceMapping) (uri : String) : Option Nat :=
  (table.find? fun mapping => mapping.extensionUri = uri).map (·.namespaceId)

structure TerminalTypeRollback where
  wasRequired : Bool
  wasOptional : Bool
  createdNamespace : Option Nat
deriving DecidableEq

/-- Where a call of `create_terminal_node` is: to spawn, to commit, to close the stream of a node
that was refused, or to roll back. -/
inductive Stage where
  | prepared
  | spawned
  | refused
  | failed
deriving DecidableEq

structure CreateCall where
  nodeId : NodeId
  parent : NodeId
  typeRef : TypeRef
  rollback : TerminalTypeRollback
  stage : Stage
deriving DecidableEq

/-- A session and its PTY manager, with the calls in progress: `closings` are the streams that
commits have listed and not yet closed, and each attached connection has the table its handshake
has read. `created` and `handed` record the nodes created and the mappings sent to clients. -/
structure TerminalSession where
  session : Session
  capabilities : ServerCapabilities
  terminalState : Bool := false
  extensionNamespaces : List ExtensionNamespaceMapping := [standardNamespaceMapping]
  hasNegotiated : Bool := false
  connections : List (Option (List ExtensionNamespaceMapping)) := []
  streams : List NodeId := []
  calls : Nat → Option CreateCall := fun _ => none
  closings : List NodeId := []
  shutdowns : Nat := 0
  created : List NodeId := []
  handed : List ExtensionNamespaceMapping := []

/-- `Session::with_config`. -/
def TerminalSession.withConfig (capabilities : ServerCapabilities) (journalCapacity : Nat) :
    TerminalSession where
  session := ⟨SemanticStore.withLimits StoreLimits.default, .new journalCapacity⟩
  capabilities := capabilities

/-- `PTYManagerConfig::default().max_streams`. -/
def maxStreams : Nat := 32

namespace TerminalSession

def attachedConnections (s : TerminalSession) : Nat := s.connections.length

/-- `Session::prepare_terminal_type`. -/
def prepareTerminalType (s : TerminalSession) :
    Except String (TypeRef × TerminalTypeRollback × TerminalSession) :=
  if 0 < s.attachedConnections ∨ s.hasNegotiated then
    .error ("v1 create_terminal_node must run before any client attaches or handshakes; " ++
      "live pumps and extension_namespaces are handshake-only")
  else
    -- the namespace is allocated before anything changes
    let allocated : Except String (Nat × Option Nat) :=
      match namespaceOf s.extensionNamespaces terminalProfileUri with
      | some namespaceId => .ok (namespaceId, none)
      | none =>
        match nextExtensionNamespace s.extensionNamespaces with
        | .error e => .error e
        | .ok namespaceId => .ok (namespaceId, some namespaceId)
    match allocated with
    | .error e => .error e
    | .ok (namespaceId, createdNamespace) =>
      .ok (⟨namespaceId, terminalLocalTypeId⟩,
        { wasRequired := decide (Profile.terminalV1 ∈ s.capabilities.required)
          wasOptional := decide (Profile.terminalV1 ∈ s.capabilities.optional)
          createdNamespace := createdNamespace },
        { s with
          capabilities :=
            { required := insert Profile.terminalV1 s.capabilities.required
              optional := s.capabilities.optional.erase Profile.terminalV1 }
          extensionNamespaces := s.extensionNamespaces ++
            createdNamespace.toList.map fun namespaceId => ⟨terminalProfileUri, namespaceId⟩ })

/-- `Session::rollback_terminal_type`. -/
def rollbackTerminalType (s : TerminalSession) (rollback : TerminalTypeRollback) :
    TerminalSession :=
  if 0 < s.attachedConnections ∨ s.hasNegotiated ∨ s.streams ≠ [] then s
  else
    { s with
      capabilities :=
        { required :=
            if rollback.wasRequired then s.capabilities.required
            else s.capabilities.required.erase Profile.terminalV1
          optional :=
            if rollback.wasOptional then insert Profile.terminalV1 s.capabilities.optional
            else s.capabilities.optional }
      extensionNamespaces :=
        match rollback.createdNamespace with
        | some namespaceId =>
          s.extensionNamespaces.filter fun mapping => mapping.namespaceId ≠ namespaceId
        | none => s.extensionNamespaces }

/-- `Session::register_optional_extension_profile`. -/
def registerOptionalExtensionProfile (s : TerminalSession) (profile : Profile) :
    Except String (Nat × TerminalSession) :=
  if profile = Profile.standardWidgetsV1 then
    .error "org.srui.standard-widgets/1 is permanently assigned to namespace 0"
  else if profile = Profile.terminalV1 then
    .error (terminalProfileUri ++ " must be registered through create_terminal_node")
  else if 0 < s.attachedConnections ∨ s.hasNegotiated then
    .error "extension profiles must be registered before any client attaches or handshakes"
  else if profile ∈ s.capabilities.required then
    .error ("profile " ++ profile.display ++
      " is already required and cannot also be optional")
  else
    let capabilities : ServerCapabilities :=
      { s.capabilities with optional := insert profile s.capabilities.optional }
    match namespaceOf s.extensionNamespaces profile.display with
    | some namespaceId => .ok (namespaceId, { s with capabilities := capabilities })
    | none =>
      match nextExtensionNamespace s.extensionNamespaces with
      | .error e => .error e
      | .ok namespaceId =>
        .ok (namespaceId, { s with
          capabilities := capabilities
          extensionNamespaces :=
            s.extensionNamespaces ++ [⟨profile.display, namespaceId⟩] })

def setCall (s : TerminalSession) (call : Nat) (state : Option CreateCall) : TerminalSession :=
  { s with calls := Function.update s.calls call state }

/-- `PTYManager::spawn`. -/
def spawn (s : TerminalSession) (nodeId : NodeId) : Option TerminalSession :=
  if nodeId ∈ s.streams then none
  else if maxStreams ≤ s.streams.length then none
  else some { s with streams := s.streams ++ [nodeId] }

/-- `PTYManager::close`; an unknown stream is no matter. -/
def close (s : TerminalSession) (nodeId : NodeId) : TerminalSession :=
  { s with streams := s.streams.filter (· ≠ nodeId) }

/-- The closure that `create_terminal_node` commits. -/
def createNodeClosure (nodeId parent : NodeId) (typeRef : TypeRef) :
    Revision → Revision → UiClosure TypeRef :=
  fun _ _ => .call (.createNode nodeId typeRef (some parent) none []) fun _ reply =>
    match reply with
    | .ok _ => .finish (.ok typeRef)
    | .error e => .finish (.error e)

def missingTerminals (s : TerminalSession) (deletesNodes : Bool) : List NodeId :=
  if deletesNodes then s.streams.filter fun id => !s.session.store.nodes.contains id else []

/-- What a commit does under the session's lock; the streams it lists are closed afterwards. -/
def committed (s : TerminalSession) (session : Session) (deletesNodes : Bool) : TerminalSession :=
  { s with
    session := session
    closings := s.closings ++ ({ s with session := session }).missingTerminals deletesNodes }

/-- `matches!(op.op, Some(Op::DeleteNode(_)))`. -/
def isWireDelete : WireOperation → Bool
  | .deleteNode _ => true
  | _ => false

/-- One critical section of a call. Spawning may fail for reasons of its own, and so may the
commit of a node. -/
inductive Section where
  | prepare (call : Nat) (nodeId parent : NodeId)
  | spawn (call : Nat) (fails : Bool)
  | commit (call : Nat) (fails : Bool)
  | close (call : Nat)
  | rollback (call : Nat)
  | registerOptional (profile : Profile)
  | transaction (f : Revision → Revision → UiClosure Unit)
  | commitTransaction (tx : WireTransaction)
  | closeMissing (nodeId : NodeId)
  | terminateOrExpire
  | shutdown
  | attach
  | detach (connection : Nat)
  | readTable (connection : Nat)
  | finishHandshake (connection : Nat)

def beginCall (s : TerminalSession) (call : Nat) (nodeId parent : NodeId) : TerminalSession :=
  match s.calls call, s.prepareTerminalType with
  | none, .ok (typeRef, rollback, prepared) =>
    prepared.setCall call (some ⟨nodeId, parent, typeRef, rollback, .prepared⟩)
  | _, _ => s

def spawnCall (s : TerminalSession) (call : Nat) (fails : Bool) : TerminalSession :=
  match s.calls call with
  | some c =>
    if c.stage = .prepared then
      match if fails then none else s.spawn c.nodeId with
      | some spawned => spawned.setCall call (some { c with stage := .spawned })
      | none => s.setCall call (some { c with stage := .failed })
    else s
  | none => s

def commitCall (s : TerminalSession) (call : Nat) (fails : Bool) : TerminalSession :=
  match s.calls call with
  | some c =>
    if c.stage = .spawned then
      match if fails then (s.session, err .panicked) else
        transactionWithResult s.session (createNodeClosure c.nodeId c.parent c.typeRef) with
      | (session, .ok _) =>
        ({ s with session := session, created := c.nodeId :: s.created }).setCall call none
      | (session, .error _) =>
        ({ s with session := session }).setCall call (some { c with stage := .refused })
    else s
  | none => s

def closeCall (s : TerminalSession) (call : Nat) : TerminalSession :=
  match s.calls call with
  | some c =>
    if c.stage = .refused then
      (s.close c.nodeId).setCall call (some { c with stage := .failed })
    else s
  | none => s

def rollbackCall (s : TerminalSession) (call : Nat) : TerminalSession :=
  match s.calls call with
  | some c =>
    if c.stage = .failed then (s.rollbackTerminalType c.rollback).setCall call none else s
  | none => s

def transaction (s : TerminalSession) (f : Revision → Revision → UiClosure Unit) :
    TerminalSession :=
  match transactionWithResult s.session f with
  | (session, .ok _) =>
    s.committed session ((transactionOperations s.session f).any isDeleteNode)
  | (session, .error _) => { s with session := session }

def commitTransaction (s : TerminalSession) (tx : WireTransaction) : TerminalSession :=
  match Sessions.commitTransaction s.session tx with
  | (session, .ok wire) => s.committed session (wire.operations.any isWireDelete)
  | (session, .error _) => { s with session := session }

def step (s : TerminalSession) : Section → TerminalSession
  | .prepare call nodeId parent => s.beginCall call nodeId parent
  | .spawn call fails => s.spawnCall call fails
  | .commit call fails => s.commitCall call fails
  | .close call => s.closeCall call
  | .rollback call => s.rollbackCall call
  | .registerOptional profile =>
    match s.registerOptionalExtensionProfile profile with
    | .ok (_, registered) => registered
    | .error _ => s
  | .transaction f => s.transaction f
  | .commitTransaction tx => s.commitTransaction tx
  | .closeMissing nodeId =>
    if nodeId ∈ s.closings then
      ({ s with closings := s.closings.erase nodeId }).close nodeId
    else s
  | .terminateOrExpire => { s with terminalState := true, shutdowns := s.shutdowns + 1 }
  | .shutdown =>
    if 0 < s.shutdowns then { s with streams := [], shutdowns := s.shutdowns - 1 } else s
  | .attach => if s.terminalState then s else { s with connections := s.connections ++ [none] }
  | .detach connection => { s with connections := s.connections.eraseIdx connection }
  | .readTable connection =>
    { s with connections := s.connections.set connection (some s.extensionNamespaces) }
  | .finishHandshake connection =>
    match s.connections[connection]? with
    | some (some table) =>
      { s with
        handed := s.handed ++ table
        hasNegotiated := true
        connections := s.connections.set connection none }
    | _ => s

end TerminalSession

end Srui.Sessiond.TerminalNodes

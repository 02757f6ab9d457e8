import Srui.Sessiond.Sessions

/-!
Export of a store as the one transaction that reconstructs it.

The encoded length of an item is computed by the protobuf runtime; it is a
parameter here, and nothing depends on what it returns.
-/

namespace Srui.Sessiond.Snapshots

open Std Basic.Machine SemanticTree.Values SemanticTree.Limits SemanticTree.Models
open SemanticTree.Stores SemanticTree.Wire Sessiond.Sessions

/-- `SNAPSHOT_MODEL_RANGE_MAX_BYTES`. -/
def snapshotModelRangeMaxBytes : Nat := 1048576

/-- `push_model_reset_range`. -/
def pushModelResetRange (ops : List WireOperation) (modelId startIndex : Nat)
    (items : List WireModelItem) : List WireOperation :=
  ops ++ [.modelResetRange modelId startIndex items 0]

/-- The operations so far and the items gathered for the next one. -/
structure ChunkState where
  ops : List WireOperation
  chunkStart : Nat
  chunk : List WireModelItem
  chunkBytes : Nat

def flushChunk (modelId : ModelId) (state : ChunkState) : ChunkState :=
  { state with ops := pushModelResetRange state.ops modelId state.chunkStart state.chunk
               chunk := []
               chunkBytes := 0 }

/-- Adds one item to the chunk, ending the chunk before it when the item would
outgrow the byte ceiling and after it when the item fills the operation. -/
def addItem (payloadLen : WireModelItem → Nat) (modelId : ModelId) (idx : Nat)
    (item : WireModelItem) (state : ChunkState) : ChunkState :=
  let state :=
    if state.chunk ≠ [] ∧ state.chunkBytes + payloadLen item > snapshotModelRangeMaxBytes then
      flushChunk modelId state
    else state
  let state := if state.chunk = [] then { state with chunkStart := idx } else state
  let state := { state with chunk := state.chunk ++ [item]
                            chunkBytes := state.chunkBytes + payloadLen item }
  if state.chunk.length = defaultMaxItemsPerModelOperation then flushChunk modelId state else state

def exportIndex (payloadLen : WireModelItem → Nat) (model : Model) (state : ChunkState)
    (idx : Nat) : ChunkState :=
  match model.items[idx]? with
  | some item => addItem payloadLen model.id idx (encodeItem item) state
  | none => if state.chunk ≠ [] then flushChunk model.id state else state

def exportRange (payloadLen : WireModelItem → Nat) (model : Model) (ops : List WireOperation)
    (range : CachedRange) : List WireOperation :=
  let state := (List.range' range.start range.length).foldl (exportIndex payloadLen model)
    ⟨ops, range.start, [], 0⟩
  if state.chunk ≠ [] then
    pushModelResetRange state.ops model.id state.chunkStart state.chunk
  else state.ops

def exportModel (payloadLen : WireModelItem → Nat) (ops : List WireOperation) (model : Model) :
    List WireOperation :=
  (cachedRanges model).foldl (exportRange payloadLen model)
    (ops ++ [.createModel model.id (some model.modelType) model.itemCount])

/-- `visit_node`, with as many nested calls as there are live nodes and one
more; `none` is a walk that never returns. -/
def visitNode (nodes : NodeMap) : Nat → NodeId → UInt32 → List WireOperation →
    Option (List WireOperation)
  | 0, _, _, _ => none
  | steps + 1, nodeId, childIndex, ops =>
    match nodes[nodeId]? with
    | none => some ops
    | some node =>
      node.orderedChildren.zipIdx.foldlM
        (fun ops entry => visitNode nodes steps entry.1 (UInt32.ofNat entry.2) ops)
        (ops ++ [.createNode (some ⟨node.id, some node.nodeType, node.parentId.getD 0,
          childIndex, encodeProperties node.properties.toList⟩)])

/-- `export_snapshot_transaction`. -/
def exportSnapshotTransaction (payloadLen : WireModelItem → Nat) (s : SemanticStore) :
    Outcome SessionError WireTransaction :=
  let ops := s.models.toList.foldl (fun ops entry => exportModel payloadLen ops entry.2) []
  match s.roots.zipIdx.foldlM
      (fun ops entry => visitNode s.nodes (s.nodes.size + 1) entry.1 (UInt32.ofNat entry.2) ops)
      ops with
  | none => .error .diverges
  | some ops =>
    if ops.length > s.limits.maxTransactionOperations then
      err (.snapshotUnrepresentable s.limits.maxTransactionOperations ops.length)
    else .ok { baseRevision := 0, newRevision := s.revision, operations := ops, priority := 0 }

end Srui.Sessiond.Snapshots

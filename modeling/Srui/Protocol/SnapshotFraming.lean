import Srui.Basic.Spans
import Srui.Basic.Varints
import Srui.SemanticTree.Wire

/-!
Delivery of one snapshot in several envelopes: the plan and the split on the
server's side, the staging on the replica's.

The encoded length of an operation is computed by the protobuf runtime and is a
parameter here. Counts are naturals; the source keeps part counts within `u32`
because every plan is checked against a `u32` limit.
-/

namespace Srui.Protocol.SnapshotFraming

open Basic.Machine Basic.Varints SemanticTree.Wire

/-- `effective_max_snapshot_parts`, and `effective_snapshot_parts`: none announced
means one. -/
def effectiveParts (count : Nat) : Nat := max count 1

inductive SnapshotFramingError where
  | operationExceedsFrame (operationIndex framedBytes maxFrameSize : Nat)
  | tooManyParts (requiredParts maxParts snapshotBytes maxFrameSize : Nat)
deriving DecidableEq, Repr

/-- Half-open ranges of operation indices, one for each envelope. -/
structure SnapshotFramePlan where
  parts : List (Nat × Nat)
deriving DecidableEq, Repr

/-- `SnapshotFramePlan::single`. -/
def SnapshotFramePlan.single (operationCount : Nat) : SnapshotFramePlan := ⟨[(0, operationCount)]⟩

/-- `SnapshotFramePlan::part_count`. -/
def partCount (plan : SnapshotFramePlan) : Nat := plan.parts.length

/-- `SnapshotFramePlan::announced_parts`. -/
def announcedParts (plan : SnapshotFramePlan) : Nat :=
  match partCount plan with
  | 1 => 0
  | n => n

def takeParts : List (Nat × Nat) → List WireOperation → List (List WireOperation)
  | [], _ => []
  | range :: rest, operations =>
    operations.take (range.2 - range.1) :: takeParts rest (operations.drop (range.2 - range.1))

/-- `SnapshotFramePlan::split`, with its assertion. -/
def split (plan : SnapshotFramePlan) (snapshot : WireTransaction) :
    Outcome Empty (List WireTransaction) :=
  let total := (plan.parts.getLast?.map Prod.snd).getD 0
  if snapshot.operations.length ≠ total then .error .panicked
  else if plan.parts.length = 1 then .ok [snapshot]
  else
    .ok ((takeParts plan.parts snapshot.operations).map fun operations =>
      { snapshot with operations := operations })

/-- `operation_field_len`. -/
def operationFieldLen (encodedLen : WireOperation → Nat) (op : WireOperation) : Nat :=
  1 + encodedLenVarint (encodedLen op) + encodedLen op

/-- `envelope_len`. -/
def envelopeLen (newRevision priority operationsLen : Nat) : Nat :=
  let transaction := operationsLen +
    (if newRevision ≠ 0 then 1 + encodedLenVarint newRevision else 0) +
    (if priority ≠ 0 then 1 + encodedLenVarint priority else 0)
  1 + encodedLenVarint transaction + transaction

/-- What the packing loop has so far: the finished parts, and where the open one
starts and how long it is. -/
structure Packing where
  parts : List (Nat × Nat)
  start : Nat
  current : Nat

/-- The packing loop over the field lengths from `index` on. -/
def pack (newRevision priority maxFrameSize : Nat) (packing : Packing) :
    Nat → List Nat → Except SnapshotFramingError Packing
  | _, [] => .ok packing
  | index, len :: rest =>
    let alone := envelopeLen newRevision priority len
    if alone > maxFrameSize then .error (.operationExceedsFrame index alone maxFrameSize)
    else
      let packing :=
        if index > packing.start ∧
            envelopeLen newRevision priority (packing.current + len) > maxFrameSize then
          ⟨packing.parts ++ [(packing.start, index)], index, 0⟩
        else packing
      pack newRevision priority maxFrameSize
        { packing with current := packing.current + len } (index + 1) rest

/-- `plan_snapshot_frames`, with its debug assertion. -/
def planSnapshotFrames (encodedLen : WireOperation → Nat) (snapshot : WireTransaction)
    (maxFrameSize maxParts : Nat) : Outcome SnapshotFramingError SnapshotFramePlan :=
  if snapshot.baseRevision ≠ 0 then .error .panicked
  else
    let maxParts := effectiveParts maxParts
    let fieldLens := snapshot.operations.map (operationFieldLen encodedLen)
    let snapshotBytes := envelopeLen snapshot.newRevision snapshot.priority fieldLens.sum
    if snapshotBytes ≤ maxFrameSize then .ok (.single fieldLens.length)
    else
      match pack snapshot.newRevision snapshot.priority maxFrameSize ⟨[], 0, 0⟩ 0 fieldLens with
      | .error e => err e
      | .ok packing =>
        let parts := packing.parts ++ [(packing.start, fieldLens.length)]
        if parts.length > maxParts then
          err (.tooManyParts parts.length maxParts snapshotBytes maxFrameSize)
        else .ok ⟨parts⟩

inductive SnapshotAssemblyError where
  | partsExceedLimit (announced maxParts : Nat)
  | notASnapshotPart (partIndex baseRevision newRevision snapshotRevision : Nat)
  | emptyPart (partIndex : Nat)
  | operationLimitExceeded (partIndex maxOperations staged : Nat)
  | alreadyComplete
deriving DecidableEq, Repr

structure SnapshotAssembler where
  snapshotRevision : Nat
  expectedParts : Nat
  receivedParts : Nat
  maxOperations : Nat
  priority : Nat
  operations : List WireOperation

/-- `SnapshotAssembler::new`. -/
def SnapshotAssembler.new (snapshotRevision announced maxParts maxOperations : Nat) :
    Except SnapshotAssemblyError SnapshotAssembler :=
  let expectedParts := effectiveParts announced
  let maxParts := effectiveParts maxParts
  if expectedParts > maxParts then .error (.partsExceedLimit expectedParts maxParts)
  else .ok ⟨snapshotRevision, expectedParts, 0, maxOperations, 0, []⟩

/-- `SnapshotAssembler::accept`. -/
def accept (assembler : SnapshotAssembler) (part : WireTransaction) :
    SnapshotAssembler × Except SnapshotAssemblyError (Option WireTransaction) :=
  let partIndex := assembler.receivedParts
  let staged := assembler.operations.length + part.operations.length
  if assembler.receivedParts ≥ assembler.expectedParts then (assembler, .error .alreadyComplete)
  else if part.baseRevision ≠ 0 ∨ part.newRevision ≠ assembler.snapshotRevision then
    (assembler, .error (.notASnapshotPart partIndex part.baseRevision part.newRevision
      assembler.snapshotRevision))
  else if assembler.expectedParts > 1 ∧ part.operations = [] then
    (assembler, .error (.emptyPart partIndex))
  else if staged > assembler.maxOperations then
    (assembler, .error (.operationLimitExceeded partIndex assembler.maxOperations staged))
  else
    let assembler :=
      { assembler with
        receivedParts := assembler.receivedParts + 1
        priority := if partIndex = 0 then part.priority else assembler.priority }
    if assembler.expectedParts = 1 then (assembler, .ok (some part))
    else
      let operations := assembler.operations ++ part.operations
      if assembler.receivedParts < assembler.expectedParts then
        ({ assembler with operations := operations }, .ok none)
      else
        ({ assembler with operations := [] },
          .ok (some ⟨0, assembler.snapshotRevision, operations, assembler.priority⟩))

def acceptAll (assembler : SnapshotAssembler) :
    List WireTransaction → List (Except SnapshotAssemblyError (Option WireTransaction))
  | [] => []
  | part :: rest => (accept assembler part).2 :: acceptAll (accept assembler part).1 rest

def acceptedParts (assembler : SnapshotAssembler) : List WireTransaction → List WireTransaction
  | [] => []
  | part :: rest =>
    match (accept assembler part).2 with
    | .ok _ => part :: acceptedParts (accept assembler part).1 rest
    | .error _ => acceptedParts (accept assembler part).1 rest

end Srui.Protocol.SnapshotFraming

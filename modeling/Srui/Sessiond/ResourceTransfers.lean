import Srui.Basic.Slices
import Srui.Resources.ResourceStores

/-!
The resources one connection has still to send, and the cursor of the transfer it is on.
-/

namespace Srui.Sessiond.ResourceTransfers

open Basic.Machine Basic.Slices SemanticTree.Values Resources.ResourceStores

/-- `CHUNK_PAYLOAD_SIZE`. -/
def chunkPayloadSize : Nat := 16384

inductive ResourcePriority where
  | unspecified
  | normal
  | low
deriving DecidableEq, Repr

structure ResourceMetadata where
  resourceHash : ResourceHash
  mediaType : String
  encodedLength : Nat
  decodedWidth : Nat
  decodedHeight : Nat
  priority : ResourcePriority
deriving DecidableEq

structure ResourceChunk where
  resourceHash : ResourceHash
  byteOffset : Nat
  data : Bytes
deriving DecidableEq

inductive ResourceOutboundFrame where
  | metadata (frame : ResourceMetadata)
  | chunk (frame : ResourceChunk)
deriving DecidableEq

structure ActiveTransfer where
  hash : ResourceHash
  mediaType : String
  bytes : Bytes
  metadataSent : Bool
  nextOffset : Nat
deriving DecidableEq

namespace ActiveTransfer

def fromEntry (entry : ResourceEntry) : ActiveTransfer where
  hash := entry.hash
  mediaType := entry.mediaType
  bytes := entry.bytes
  metadataSent := false
  nextOffset := 0

/-- `next_frame`, with its debug assertion; behind it the slice is within the bytes. -/
def nextFrame (transfer : ActiveTransfer) :
    Outcome Empty (ActiveTransfer × ResourceOutboundFrame) :=
  if transfer.metadataSent = false then
    .ok ({ transfer with metadataSent := true },
      .metadata ⟨transfer.hash, transfer.mediaType, transfer.bytes.length, 0, 0, .normal⟩)
  else if transfer.nextOffset < transfer.bytes.length then
    let stop := min (transfer.nextOffset + chunkPayloadSize) transfer.bytes.length
    .ok ({ transfer with nextOffset := stop },
      .chunk ⟨transfer.hash, transfer.nextOffset, slice transfer.bytes transfer.nextOffset stop⟩)
  else .error .panicked

def isComplete (transfer : ActiveTransfer) : Bool :=
  transfer.metadataSent && decide (transfer.bytes.length ≤ transfer.nextOffset)

end ActiveTransfer

/-- `ResourceTransferQueue`. -/
structure ResourceTransferQueue where
  pending : List ResourceEntry := []
  active : Option ActiveTransfer := none
deriving DecidableEq

namespace ResourceTransferQueue

def holds (queue : ResourceTransferQueue) (hash : ResourceHash) : Bool :=
  queue.active.any (·.hash = hash) || queue.pending.any (·.hash = hash)

def enqueue (queue : ResourceTransferQueue) (entry : ResourceEntry) : ResourceTransferQueue :=
  if queue.holds entry.hash then queue
  else { queue with pending := queue.pending ++ [entry] }

def hasWork (queue : ResourceTransferQueue) : Bool :=
  queue.active.isSome || !queue.pending.isEmpty

def start (queue : ResourceTransferQueue) : Option (ActiveTransfer × List ResourceEntry) :=
  match queue.active, queue.pending with
  | some transfer, pending => some (transfer, pending)
  | none, next :: rest => some (ActiveTransfer.fromEntry next, rest)
  | none, [] => none

/-- `pop_frame`. -/
def popFrame (queue : ResourceTransferQueue) :
    Outcome Empty (ResourceTransferQueue × Option ResourceOutboundFrame) :=
  match queue.start with
  | none => .ok (queue, none)
  | some (transfer, rest) => do
    let (transfer, frame) ← transfer.nextFrame
    .ok (⟨rest, if transfer.isComplete then none else some transfer⟩, some frame)

variable {queue : ResourceTransferQueue} {hash : ResourceHash}

theorem holds_iff : queue.holds hash = true ↔
    (∃ transfer, queue.active = some transfer ∧ transfer.hash = hash) ∨
      ∃ entry ∈ queue.pending, entry.hash = hash := by
  rcases hactive : queue.active with _ | transfer
  · simp [holds, hactive]
  · simp [holds, hactive]

theorem holds_enqueue (entry : ResourceEntry) :
    (queue.enqueue entry).holds hash = true ↔ queue.holds hash = true ∨ entry.hash = hash := by
  unfold enqueue
  split
  · rename_i hheld
    constructor
    · exact .inl
    · rintro (h | rfl)
      · exact h
      · exact hheld
  · simp [holds, or_assoc]

@[simp] theorem hash_nextFrame {transfer next : ActiveTransfer} {frame : ResourceOutboundFrame}
    (h : transfer.nextFrame = .ok (next, frame)) : next.hash = transfer.hash := by
  unfold ActiveTransfer.nextFrame at h
  dsimp only at h
  split at h
  · cases h
    rfl
  split at h
  · cases h
    rfl
  · cases h

theorem holds_of_popFrame {next : ResourceTransferQueue} {frame : Option ResourceOutboundFrame}
    (h : queue.popFrame = .ok (next, frame)) (hheld : next.holds hash = true) :
    queue.holds hash = true := by
  unfold popFrame at h
  rcases hstart : queue.start with _ | ⟨transfer, rest⟩
  · rw [hstart] at h
    cases h
    exact hheld
  rw [hstart] at h
  rcases hnext : transfer.nextFrame with fault | ⟨moved, taken⟩
  · simp [hnext, bind, Except.bind] at h
  simp only [hnext, bind, Except.bind, Except.ok.injEq, Prod.mk.injEq] at h
  obtain ⟨rfl, -⟩ := h
  -- What is left is the rest of the queue and, unless it is done, the transfer itself.
  have hfrom : hash = transfer.hash ∨ ∃ entry ∈ rest, entry.hash = hash := by
    rcases holds_iff.mp hheld with ⟨current, hcurrent, rfl⟩ | hrest
    · dsimp only at hcurrent
      split at hcurrent
      · cases hcurrent
      · cases hcurrent
        exact .inl (hash_nextFrame hnext)
    · exact .inr hrest
  rw [holds_iff]
  unfold start at hstart
  split at hstart
  · rename_i current pending hactive
    cases hstart
    rcases hfrom with rfl | hrest
    · exact .inl ⟨transfer, hactive, rfl⟩
    · exact .inr hrest
  · rename_i entry more hactive hpending
    cases hstart
    rcases hfrom with rfl | ⟨other, hmem, rfl⟩
    · exact .inr ⟨entry, by simp [hpending], rfl⟩
    · exact .inr ⟨other, by simp [hpending, hmem], rfl⟩
  · cases hstart

end ResourceTransferQueue

end Srui.Sessiond.ResourceTransfers

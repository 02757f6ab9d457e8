import Srui.Basic.Runs
import Srui.Sessiond.ResourceTransfers

/-!
The frames that a connection's resource queue hands out: complete transfers in the order in which
their resources were accepted, and at most one more that has begun.
-/

namespace Srui.Sessiond.ExactTransfers

open Basic.Runs Basic.Slices Basic.Spans Resources.ResourceStores Sessiond.ResourceTransfers

def metadataOf (entry : ResourceEntry) : ResourceOutboundFrame :=
  .metadata ⟨entry.hash, entry.mediaType, entry.bytes.length, 0, 0, .normal⟩

/-- The chunk is of this resource and is neither empty nor too large. -/
def ChunkOf (entry : ResourceEntry) (chunk : ResourceChunk) : Prop :=
  chunk.resourceHash = entry.hash ∧ 0 < chunk.data.length ∧ chunk.data.length ≤ chunkPayloadSize

/-- A metadata frame and chunks that lie end to end from offset 0 and hold the first bytes of the
resource. -/
structure Sends (entry : ResourceEntry) (sent : Nat) (frames : List ResourceOutboundFrame)
    (chunks : List ResourceChunk) : Prop where
  frames : frames = metadataOf entry :: chunks.map .chunk
  each : ∀ chunk ∈ chunks, ChunkOf entry chunk
  contiguous : Abutting ResourceChunk.byteOffset (fun chunk => chunk.byteOffset + chunk.data.length)
    0 chunks
  reaches : reach (fun chunk : ResourceChunk => chunk.byteOffset + chunk.data.length) 0 chunks = sent
  data : (chunks.map ResourceChunk.data).flatten = entry.bytes.take sent

def Complete (entry : ResourceEntry) (frames : List ResourceOutboundFrame) : Prop :=
  ∃ chunks, Sends entry entry.bytes.length frames chunks

def Incomplete (entry : ResourceEntry) (frames : List ResourceOutboundFrame) : Prop :=
  ∃ sent < entry.bytes.length, ∃ chunks, Sends entry sent frames chunks

theorem sends_metadata (entry : ResourceEntry) : Sends entry 0 [metadataOf entry] [] where
  frames := rfl
  each := nofun
  contiguous := trivial
  reaches := rfl
  data := by simp

variable {frames : List ResourceOutboundFrame} {entry : ResourceEntry}

theorem Sends.chunk {sent : Nat}
    {chunks : List ResourceChunk} (h : Sends entry sent frames chunks) (stop : Nat)
    (hmore : sent < stop)
    (hsize : stop ≤ sent + chunkPayloadSize) (hwithin : stop ≤ entry.bytes.length) :
    Sends entry stop
      (frames ++ [.chunk ⟨entry.hash, sent, slice entry.bytes sent stop⟩])
      (chunks ++ [⟨entry.hash, sent, slice entry.bytes sent stop⟩]) := by
  have hlength : (slice entry.bytes sent stop).length = stop - sent := length_slice hwithin
  constructor
  · rw [h.frames, List.map_append, List.map_singleton, List.cons_append]
  · intro chunk hchunk
    rcases List.mem_append.mp hchunk with hold | hnew
    · exact h.each chunk hold
    · rw [List.mem_singleton.mp hnew]
      refine ⟨rfl, ?_, ?_⟩
      · rw [hlength]
        omega
      · rw [hlength]
        omega
  · exact abutting_append.mpr ⟨h.contiguous, h.reaches.symm, trivial⟩
  · rw [reach_append, h.reaches]
    change sent + (slice entry.bytes sent stop).length = stop
    omega
  · rw [List.map_append, List.flatten_append, h.data, List.map_singleton, List.flatten_singleton]
    have hfirst : entry.bytes.take sent = slice entry.bytes 0 sent := by simp [slice]
    rw [hfirst, slice_append_slice entry.bytes (Nat.zero_le sent) (Nat.le_of_lt hmore)]
    simp [slice]

/-! ### One frame -/

structure Underway (entry : ResourceEntry) (transfer : ActiveTransfer)
    (frames : List ResourceOutboundFrame) : Prop where
  begun : transfer = { ActiveTransfer.fromEntry entry with
    metadataSent := true, nextOffset := transfer.nextOffset }
  more : transfer.nextOffset < entry.bytes.length
  sends : ∃ chunks, Sends entry transfer.nextOffset frames chunks

theorem nextFrame_spec {transfer : ActiveTransfer}
    (h : transfer = .fromEntry entry ∧ frames = [] ∨ Underway entry transfer frames) :
    ∃ next frame, transfer.nextFrame = .ok (next, frame) ∧
      (next.isComplete = true ∧ Complete entry (frames ++ [frame]) ∨
        next.isComplete = false ∧ Underway entry next (frames ++ [frame])) := by
  rcases h with ⟨rfl, rfl⟩ | ⟨hbegun, hmore, chunks, hsends⟩
  · refine ⟨{ ActiveTransfer.fromEntry entry with metadataSent := true }, metadataOf entry, rfl,
      ?_⟩
    have hmetadata := sends_metadata entry
    rcases Nat.eq_zero_or_pos entry.bytes.length with hzero | hpos
    · refine Or.inl ⟨?_, [], ?_⟩
      · simp [ActiveTransfer.isComplete, ActiveTransfer.fromEntry, hzero]
      · rw [hzero]
        exact hmetadata
    · refine Or.inr ⟨?_, rfl, hpos, [], hmetadata⟩
      simpa [ActiveTransfer.isComplete, ActiveTransfer.fromEntry] using
        List.ne_nil_of_length_pos hpos
  · have hbytes : transfer.bytes = entry.bytes := by
      rw [hbegun]
      rfl
    have hhash : transfer.hash = entry.hash := by
      rw [hbegun]
      rfl
    have hmetadata : transfer.metadataSent = true := by rw [hbegun]
    have hchunk : 0 < chunkPayloadSize := by decide
    have hchunked := hsends.chunk
      (min (transfer.nextOffset + chunkPayloadSize) entry.bytes.length) (by omega)
      (Nat.min_le_left _ _) (Nat.min_le_right _ _)
    refine ⟨{ transfer with
      nextOffset := min (transfer.nextOffset + chunkPayloadSize) entry.bytes.length },
      .chunk ⟨entry.hash, transfer.nextOffset, slice entry.bytes transfer.nextOffset
        (min (transfer.nextOffset + chunkPayloadSize) entry.bytes.length)⟩, ?_, ?_⟩
    · rw [ActiveTransfer.nextFrame, if_neg (by simp [hmetadata]), hbytes, hhash]
      exact if_pos hmore
    · rcases Nat.lt_or_ge (min (transfer.nextOffset + chunkPayloadSize) entry.bytes.length)
        entry.bytes.length with hless | hall
      · refine Or.inr ⟨?_, ?_, hless, _, hchunked⟩
        · simp only [ActiveTransfer.isComplete, hmetadata, hbytes, Bool.true_and,
            decide_eq_false_iff_not, Nat.not_le]
          exact hless
        · rw [hbegun]
      · have hlast : min (transfer.nextOffset + chunkPayloadSize) entry.bytes.length =
            entry.bytes.length := Nat.le_antisymm (Nat.min_le_right _ _) hall
        refine Or.inl ⟨?_, chunks ++ [⟨entry.hash, transfer.nextOffset,
          slice entry.bytes transfer.nextOffset
            (min (transfer.nextOffset + chunkPayloadSize) entry.bytes.length)⟩], ?_⟩
        · simp only [ActiveTransfer.isComplete, hmetadata, hbytes, Bool.true_and,
            decide_eq_true_eq]
          exact hall
        · rw [hlast] at hchunked ⊢
          exact hchunked

/-! ### Runs -/

inductive Input where
  | enqueue (entry : ResourceEntry)
  | popFrame

/-- A queue, with the entries it has accepted and the frames it has handed out. -/
structure System where
  queue : ResourceTransferQueue := {}
  accepted : List ResourceEntry := []
  popped : List ResourceOutboundFrame := []

def step (s : System) : Input → System
  | .enqueue entry =>
    let queue := s.queue.enqueue entry
    { s with queue := queue,
             accepted := if queue = s.queue then s.accepted else s.accepted ++ [entry] }
  | .popFrame =>
    match s.queue.popFrame with
    | .ok (queue, some frame) => { s with queue := queue, popped := s.popped ++ [frame] }
    | .ok (queue, none) => { s with queue := queue }
    | .error _ => s

/-- What the active transfer and the pending entries have to do with what was accepted after
`done`, when the last frames popped are `frames`. -/
def Continues (queue : ResourceTransferQueue) (left : List ResourceEntry)
    (frames : List ResourceOutboundFrame) : Prop :=
  match queue.active with
  | none => frames = [] ∧ left = queue.pending
  | some transfer => ∃ entry, Underway entry transfer frames ∧ left = entry :: queue.pending

structure Tracked (s : System) (done left : List ResourceEntry)
    (groups : List (List ResourceOutboundFrame)) (frames : List ResourceOutboundFrame) :
    Prop where
  accepted : s.accepted = done ++ left
  popped : s.popped = groups.flatten ++ frames
  complete : List.Forall₂ Complete done groups
  continues : Continues s.queue left frames

def Tracks (s : System) : Prop := ∃ done left groups frames, Tracked s done left groups frames

theorem popFrame_spec {queue : ResourceTransferQueue} {left : List ResourceEntry}
    (h : Continues queue left frames) :
    left = [] ∧ queue.hasWork = false ∧ queue.popFrame = .ok (queue, none) ∨
      ∃ entry rest queue' frame, left = entry :: rest ∧ queue.hasWork = true ∧
        queue.popFrame = .ok (queue', some frame) ∧
        (Complete entry (frames ++ [frame]) ∧ Continues queue' rest [] ∨
          Continues queue' left (frames ++ [frame])) := by
  obtain ⟨pending, active⟩ := queue
  have hready : ∀ transfer entry rest, left = entry :: rest →
      (transfer = .fromEntry entry ∧ frames = [] ∨ Underway entry transfer frames) →
      ResourceTransferQueue.start ⟨pending, active⟩ = some (transfer, rest) →
        ∃ queue' frame, ResourceTransferQueue.popFrame ⟨pending, active⟩ =
            .ok (queue', some frame) ∧
          (Complete entry (frames ++ [frame]) ∧ Continues queue' rest [] ∨
            Continues queue' left (frames ++ [frame])) := by
    intro transfer entry rest hleft hstate hstart
    obtain ⟨next, frame, hnext, hafter⟩ := nextFrame_spec hstate
    refine ⟨⟨rest, if next.isComplete then none else some next⟩, frame, ?_, ?_⟩
    · rw [ResourceTransferQueue.popFrame, hstart]
      simp only [hnext, bind, Except.bind]
    · rcases hafter with ⟨hdone, hcomplete⟩ | ⟨hgoes, hunderway⟩
      · refine Or.inl ⟨hcomplete, ?_⟩
        rw [hdone]
        exact ⟨rfl, rfl⟩
      · refine Or.inr ?_
        rw [hgoes]
        exact ⟨entry, hunderway, hleft⟩
  rcases active with - | transfer
  · obtain ⟨rfl, rfl⟩ := h
    rcases left with - | ⟨entry, rest⟩
    · exact Or.inl ⟨rfl, rfl, rfl⟩
    · obtain ⟨queue', frame, hpop, hafter⟩ :=
        hready (.fromEntry entry) entry rest rfl (Or.inl ⟨rfl, rfl⟩) rfl
      exact Or.inr ⟨entry, rest, queue', frame, rfl, rfl, hpop, hafter⟩
  · obtain ⟨entry, hunderway, hleft⟩ := h
    obtain ⟨queue', frame, hpop, hafter⟩ :=
      hready transfer entry pending hleft (Or.inr hunderway) rfl
    exact Or.inr ⟨entry, pending, queue', frame, hleft, rfl, hpop, hafter⟩

theorem enqueue_eq_iff {queue : ResourceTransferQueue} :
    queue.enqueue entry = queue ↔ queue.holds entry.hash = true := by
  rw [ResourceTransferQueue.enqueue]
  split
  · rename_i hheld
    exact ⟨fun _ => hheld, fun _ => rfl⟩
  · rename_i hfree
    refine ⟨fun hsame => ?_, fun hheld => absurd hheld hfree⟩
    have hlength := congrArg (fun queue => queue.pending.length) hsame
    simp at hlength

theorem tracks_step {s : System} (h : Tracks s) (input : Input) : Tracks (step s input) := by
  obtain ⟨done, left, groups, frames, haccepted, hpopped, hcomplete, hcontinues⟩ := h
  cases input with
  | enqueue entry =>
    rw [step]
    split
    · rename_i hsame
      rw [hsame]
      exact ⟨done, left, groups, frames, haccepted, hpopped, hcomplete, hcontinues⟩
    · rename_i hnew
      rw [enqueue_eq_iff] at hnew
      have hqueue : s.queue.enqueue entry =
          { s.queue with pending := s.queue.pending ++ [entry] } := by
        rw [ResourceTransferQueue.enqueue, if_neg hnew]
      refine ⟨done, left ++ [entry], groups, frames, ?_, hpopped, hcomplete, ?_⟩
      · rw [haccepted, List.append_assoc]
      · rw [hqueue]
        unfold Continues at hcontinues ⊢
        rcases hactive : s.queue.active with - | transfer <;> rw [hactive] at hcontinues
        · obtain ⟨hframes, hleft⟩ := hcontinues
          exact ⟨hframes, by rw [hleft]⟩
        · obtain ⟨current, hunderway, hleft⟩ := hcontinues
          exact ⟨current, hunderway, by rw [hleft, List.cons_append]⟩
  | popFrame =>
    rw [step]
    rcases popFrame_spec hcontinues with
      ⟨-, -, hnone⟩ | ⟨entry, rest, queue', frame, hleft, -, hpop, hafter⟩
    · rw [hnone]
      exact ⟨done, left, groups, frames, haccepted, hpopped, hcomplete, hcontinues⟩
    · rw [hpop]
      rcases hafter with ⟨hdone, hnext⟩ | hgoes
      · refine ⟨done ++ [entry], rest, groups ++ [frames ++ [frame]], [], ?_, ?_, ?_, hnext⟩
        · rw [haccepted, hleft, List.append_assoc, List.singleton_append]
        · dsimp only
          rw [hpopped, List.flatten_append, List.flatten_singleton, List.append_nil,
            List.append_assoc]
        · exact List.rel_append hcomplete (List.Forall₂.cons hdone List.Forall₂.nil)
      · refine ⟨done, left, groups, frames ++ [frame], haccepted, ?_, hcomplete, hgoes⟩
        dsimp only
        rw [hpopped, List.append_assoc]

/-- The frames popped are complete transfers of the first entries accepted and at most an
incomplete one of the next; entries are dropped only while their hash is in the queue; and the
queue hands out a frame exactly when it has work. -/
structure Exact (s : System) : Prop where
  popped : ∃ done left groups frames, s.accepted = done ++ left ∧
    s.popped = groups.flatten ++ frames ∧ List.Forall₂ Complete done groups ∧
    (frames = [] ∨ ∃ entry ∈ left.head?, Incomplete entry frames)
  dropped : ∀ entry, s.queue.enqueue entry = s.queue ↔
    (∃ transfer, s.queue.active = some transfer ∧ transfer.hash = entry.hash) ∨
      ∃ pending ∈ s.queue.pending, pending.hash = entry.hash
  hasWork : s.queue.hasWork = true ↔
    ∃ queue frame, s.queue.popFrame = .ok (queue, some frame)
  inBounds : ∃ result, s.queue.popFrame = .ok result

theorem transfers_exact (inputs : List Input) : EveryState step Exact {} inputs := by
  have hany : EveryStep step (fun _ _ => True) {} inputs :=
    everyStep_of_forall (fun _ _ => trivial) _ inputs
  have htracks : EveryState step Tracks {} inputs :=
    hany.everyState (fun s input h _ => tracks_step h input)
      ⟨[], [], [], [], rfl, rfl, List.Forall₂.nil, rfl, rfl⟩
  refine EveryState.mono ?_ htracks
  rintro s ⟨done, left, groups, frames, haccepted, hpopped, hcomplete, hcontinues⟩
  refine ⟨⟨done, left, groups, frames, haccepted, hpopped, hcomplete, ?_⟩, ?_, ?_, ?_⟩
  · unfold Continues at hcontinues
    split at hcontinues
    · exact Or.inl hcontinues.1
    · obtain ⟨entry, hunderway, hleft⟩ := hcontinues
      exact Or.inr ⟨entry, by rw [hleft]; rfl, _, hunderway.more, hunderway.sends⟩
  · exact fun entry => enqueue_eq_iff.trans ResourceTransferQueue.holds_iff
  · rcases popFrame_spec hcontinues with
      ⟨-, hidle, hnone⟩ | ⟨entry, rest, queue', frame, -, hwork, hpop, -⟩
    · rw [hidle, hnone]
      refine ⟨fun h => (Bool.false_ne_true h).elim, ?_⟩
      rintro ⟨queue, frame, hsome⟩
      cases hsome
    · exact ⟨fun _ => ⟨queue', frame, hpop⟩, fun _ => hwork⟩
  · rcases popFrame_spec hcontinues with ⟨-, -, hnone⟩ | ⟨-, -, queue', frame, -, -, hpop, -⟩
    · exact ⟨_, hnone⟩
    · exact ⟨_, hpop⟩

end Srui.Sessiond.ExactTransfers

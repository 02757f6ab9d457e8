import Srui.Pty.OutputRings
import Srui.SemanticTree.Values

/-!
One subscriber of a terminal: the replay it is given when it subscribes, the live
output it drains afterwards, and the bytes the terminal produces in between.
-/

namespace Srui.Pty.Subscriptions

open Basic.Machine Basic.Spans Basic.Slices Basic.Varints Pty.OutputRings SemanticTree.Values

structure TerminalData where
  streamId : NodeId
  byteOffset : Nat
  data : Bytes
deriving DecidableEq, Repr

inductive TerminalResyncReason where
  | retentionLoss
  | offsetAhead
  | subscriberFallbehind
deriving DecidableEq, Repr

structure TerminalResyncRequired where
  streamId : NodeId
  requestedOffset : Nat
  retainedFromOffset : Nat
  resumeAtOffset : Nat
  reason : TerminalResyncReason
deriving DecidableEq, Repr

inductive TerminalEvent where
  | data (frame : TerminalData)
  | resync (notice : TerminalResyncRequired)
deriving DecidableEq, Repr

inductive SubscribeSnapshot where
  | replay (frames : List TerminalData)
  | resync (requestedOffset retainedFromOffset resumeAtOffset : Nat) (reason : TerminalResyncReason)
deriving DecidableEq, Repr

/-- `Result::unwrap_or_default` on a list: an error is an empty list, a panic stays
one. -/
def unwrapOrDefault {ε α : Type} : Outcome ε (List α) → Outcome ε (List α)
  | .error (.error _) => .ok []
  | result => result

/-- `TerminalStream::subscribe`: the snapshot and the cursor of the subscription. -/
def subscribe (streamId : NodeId) (ring : OutputRing) (requestedOffset : Nat) :
    Outcome RingError (SubscribeSnapshot × Nat) :=
  let retainedStart := ring.retainedStart
  let cut := ring.nextOffset
  if cut < requestedOffset then
    .ok (.resync requestedOffset retainedStart cut .offsetAhead, cut)
  else if requestedOffset < retainedStart then
    .ok (.resync requestedOffset retainedStart cut .retentionLoss, cut)
  else do
    let frames ← unwrapOrDefault (frameRange ring requestedOffset cut)
    .ok (.replay (frames.map fun frame => ⟨streamId, frame.1, frame.2⟩), cut)

/-- `SubscribeOutcome::catch_up_events`. -/
def catchUpEvents (streamId : NodeId) : SubscribeSnapshot → List TerminalEvent
  | .replay frames => frames.map .data
  | .resync requestedOffset retainedFromOffset resumeAtOffset reason =>
    [.resync ⟨streamId, requestedOffset, retainedFromOffset, resumeAtOffset, reason⟩]

/-- The loop over the frames in `live_events_from_ring`: the events and the cursor. -/
def liveFrames (streamId : NodeId) : List (Nat × Bytes) → Nat → List TerminalEvent × Nat
  | [], cursor => ([], cursor)
  | (byteOffset, data) :: rest, cursor =>
    if data = [] then liveFrames streamId rest cursor
    else
      let (events, last) := liveFrames streamId rest (saturatingAdd byteOffset data.length)
      (.data ⟨streamId, byteOffset, data⟩ :: events, last)

/-- The resync that `live_events_from_ring` issues, and the cursor after it. -/
def fallBehind (streamId : NodeId) (ring : OutputRing) (cursor : Nat) :
    List TerminalEvent × Nat :=
  ([.resync ⟨streamId, cursor, ring.retainedStart, ring.nextOffset, .subscriberFallbehind⟩],
    ring.nextOffset)

/-- `live_events_from_ring`, which is all of `try_drain`: the events and the cursor. -/
def liveEventsFromRing (streamId : NodeId) (ring : OutputRing) (cursor : Nat) :
    Outcome RingError (List TerminalEvent × Nat) :=
  if cursor < ring.retainedStart then .ok (fallBehind streamId ring cursor)
  else if ring.nextOffset ≤ cursor then .ok ([], cursor)
  else
    match frameRange ring cursor ring.nextOffset with
    | .ok frames => .ok (liveFrames streamId frames cursor)
    | .error (.error _) => .ok (fallBehind streamId ring cursor)
    | .error fault => .error fault

/-- An event with the offsets the ring had when the event was handed over. -/
structure Delivery where
  event : TerminalEvent
  retainedStart : Nat
  nextOffset : Nat
deriving DecidableEq, Repr

structure State where
  ring : OutputRing
  stream : Bytes
  cursor : Nat
  delivered : List Delivery
deriving DecidableEq, Repr

inductive Input where
  | append (data : Bytes)
  | tryDrain
deriving DecidableEq, Repr

/-- One read of the terminal put into the ring. A refused append adds nothing. -/
def produce (source : OutputRing × Bytes) (data : Bytes) : Outcome RingError (OutputRing × Bytes) :=
  match append source.1 data with
  | .ok (ring, _) => .ok (ring, source.2 ++ data)
  | .error (.error _) => .ok source
  | .error fault => .error fault

def handedOver (ring : OutputRing) (events : List TerminalEvent) : List Delivery :=
  events.map fun event => ⟨event, ring.retainedStart, ring.nextOffset⟩

def step (streamId : NodeId) (state : State) : Input → Outcome RingError State
  | .append data => do
    let (ring, stream) ← produce (state.ring, state.stream) data
    .ok ⟨ring, stream, state.cursor, state.delivered⟩
  | .tryDrain => do
    let (events, cursor) ← liveEventsFromRing streamId state.ring state.cursor
    .ok ⟨state.ring, state.stream, cursor, state.delivered ++ handedOver state.ring events⟩

def deliver (streamId : NodeId) (ring : OutputRing) (before : List Bytes) (requestedOffset : Nat)
    (after : List Input) : Outcome RingError State := do
  let (ring, stream) ← before.foldlM produce (ring, [])
  let (snapshot, cursor) ← subscribe streamId ring requestedOffset
  let opened : State := ⟨ring, stream, cursor, handedOver ring (catchUpEvents streamId snapshot)⟩
  after.foldlM (step streamId) opened

def startsAt (entry : Delivery) : Nat :=
  match entry.event with
  | .data frame => frame.byteOffset
  | .resync notice => notice.requestedOffset

def endsAt (entry : Delivery) : Nat :=
  match entry.event with
  | .data frame => frame.byteOffset + frame.data.length
  | .resync notice => notice.resumeAtOffset

def dataFrame (entry : Delivery) : Option TerminalData :=
  match entry.event with
  | .data frame => some frame
  | .resync _ => none

/-- A data frame carries the stream's own bytes at its offsets; a resync is issued
only for an offset that is not retained any more or is ahead of the stream. -/
def Warranted (stream : Bytes) (entry : Delivery) : Prop :=
  match entry.event with
  | .data frame =>
    frame.data ≠ [] ∧ frame.data.length ≤ maxTerminalOutputFrameBytes ∧
      frame.data = slice stream frame.byteOffset (frame.byteOffset + frame.data.length)
  | .resync notice =>
    notice.requestedOffset < entry.retainedStart ∨ entry.nextOffset < notice.requestedOffset

/-- `a` is over before `b` begins. -/
def Before (a b : TerminalData) : Prop := a.byteOffset + a.data.length ≤ b.byteOffset

/-- What a subscriber that asked for `requestedOffset` was handed, over the stream it
follows. -/
structure Exact (stream : Bytes) (requestedOffset : Nat) (delivered : List Delivery) : Prop where
  contiguous : Abutting startsAt endsAt requestedOffset delivered
  warranted : ∀ entry ∈ delivered, Warranted stream entry
  unrepeated : (delivered.filterMap dataFrame).Pairwise Before

variable {stream : Bytes}

theorem Warranted.extend {entry : Delivery} (h : Warranted stream entry)
    (more : Bytes) : Warranted (stream ++ more) entry := by
  obtain ⟨event, retainedStart, nextOffset⟩ := entry
  cases event with
  | data frame =>
    obtain ⟨hne, hsize, hbytes⟩ := h
    refine ⟨hne, hsize, hbytes.trans (slice_append _ _ ?_).symm⟩
    have hlength := congrArg List.length hbytes
    have hpositive := List.length_pos_iff.mpr hne
    rw [slice, List.length_take, List.length_drop] at hlength
    omega
  | resync notice => exact h

variable {requestedOffset cursor : Nat}

theorem Exact.extend {delivered : List Delivery}
    (h : Exact stream requestedOffset delivered) (more : Bytes) :
    Exact (stream ++ more) requestedOffset delivered :=
  ⟨h.contiguous, fun entry hentry => (h.warranted entry hentry).extend more, h.unrepeated⟩

/-- Events handed over at once to a subscriber at `cursor`, which they take to `next`. -/
structure Batch (stream : Bytes) (cursor next : Nat) (batch : List Delivery) : Prop where
  exact : Exact stream cursor batch
  reaches : reach endsAt cursor batch = next
  placed : ∀ frame ∈ batch.filterMap dataFrame,
    cursor ≤ frame.byteOffset ∧ frame.byteOffset + frame.data.length ≤ next

/-- Everything known of a subscriber between two calls. -/
structure Following (requestedOffset : Nat) (state : State) : Prop where
  holds : Holds state.stream state.ring
  within : state.cursor ≤ state.stream.length
  exact : Exact state.stream requestedOffset state.delivered
  position : reach endsAt requestedOffset state.delivered = state.cursor
  behind : ∀ frame ∈ state.delivered.filterMap dataFrame,
    frame.byteOffset + frame.data.length ≤ state.cursor

variable {state : State}

theorem Following.handOver
    (h : Following requestedOffset state) {next : Nat} {batch : List Delivery}
    (hbatch : Batch state.stream state.cursor next batch) (hforward : state.cursor ≤ next)
    (hwithin : next ≤ state.stream.length) :
    Following requestedOffset { state with
      cursor := next, delivered := state.delivered ++ batch } := by
  refine ⟨h.holds, hwithin, ⟨?_, ?_, ?_⟩, ?_, ?_⟩
  · refine abutting_append.mpr ⟨h.exact.contiguous, ?_⟩
    rw [h.position]
    exact hbatch.exact.contiguous
  · intro entry hentry
    rcases List.mem_append.mp hentry with hentry | hentry
    · exact h.exact.warranted entry hentry
    · exact hbatch.exact.warranted entry hentry
  · rw [List.filterMap_append]
    refine List.pairwise_append.mpr ⟨h.exact.unrepeated, hbatch.exact.unrepeated, ?_⟩
    intro a ha b hb
    exact (h.behind a ha).trans (hbatch.placed b hb).1
  · rw [reach_append, h.position]
    exact hbatch.reaches
  · intro frame hframe
    rw [List.filterMap_append] at hframe
    rcases List.mem_append.mp hframe with hframe | hframe
    · exact (h.behind frame hframe).trans hforward
    · exact (hbatch.placed frame hframe).2

def framed (streamId : NodeId) (ring : OutputRing) (frame : Nat × Bytes) : Delivery :=
  ⟨.data ⟨streamId, frame.1, frame.2⟩, ring.retainedStart, ring.nextOffset⟩

theorem framed_batch (streamId : NodeId) (ring : OutputRing) {next : Nat}
    {frames : List (Nat × Bytes)} (h : Frames maxTerminalOutputFrameBytes cursor frames)
    (hreach : reach frameEnd cursor frames = next)
    (hbytes : ∀ frame ∈ frames, frame.2 = slice stream frame.1 (frameEnd frame)) :
    Batch stream cursor next (frames.map (framed streamId ring)) := by
  have hforward : ∀ frame ∈ frames, frame.1 ≤ frameEnd frame := fun frame _ => Nat.le_add_right _ _
  have hframes : (frames.map (framed streamId ring)).filterMap dataFrame =
      frames.map fun frame => ⟨streamId, frame.1, frame.2⟩ := by
    rw [List.filterMap_map]
    exact congrFun List.filterMap_eq_map frames
  refine ⟨⟨abutting_map.mpr h.abut, ?_, ?_⟩, ?_, ?_⟩
  · intro entry hentry
    obtain ⟨frame, hframe, rfl⟩ := List.mem_map.mp hentry
    exact ⟨(h.sized frame hframe).1, (h.sized frame hframe).2, hbytes frame hframe⟩
  · rw [hframes]
    exact List.pairwise_map.mpr (h.abut.pairwise hforward)
  · exact (reach_map _ _ _).trans hreach
  · rw [hframes]
    intro data hdata
    obtain ⟨frame, hframe, rfl⟩ := List.mem_map.mp hdata
    rw [← hreach]
    exact within_reach hforward h.abut frame hframe

variable {ring : OutputRing}

theorem resync_batch (streamId : NodeId)
    (hreason : cursor < ring.retainedStart ∨ ring.nextOffset < cursor)
    (reason : TerminalResyncReason) :
    Batch stream cursor ring.nextOffset (handedOver ring
      [.resync ⟨streamId, cursor, ring.retainedStart, ring.nextOffset, reason⟩]) := by
  refine ⟨⟨⟨rfl, trivial⟩, ?_, List.Pairwise.nil⟩, rfl, fun _ h => absurd h List.not_mem_nil⟩
  intro entry hentry
  rw [List.mem_singleton.mp hentry]
  exact hreason

theorem liveFrames_eq (streamId : NodeId) {frames : List (Nat × Bytes)} {limit : Nat}
    (h : Frames limit cursor frames) (hroom : reach frameEnd cursor frames ≤ u64Max) :
    liveFrames streamId frames cursor =
      (frames.map fun frame => .data ⟨streamId, frame.1, frame.2⟩,
        reach frameEnd cursor frames) := by
  induction frames generalizing cursor with
  | nil => rfl
  | cons frame rest ih =>
    obtain ⟨rfl, hrest⟩ := h.abut
    have hne : frame.2 ≠ [] := (h.sized frame List.mem_cons_self).1
    have hframes : Frames limit (frameEnd frame) rest :=
      ⟨hrest, fun other hother => h.sized other (List.mem_cons_of_mem frame hother)⟩
    have hend : frameEnd frame ≤ reach frameEnd (frameEnd frame) rest :=
      le_reach (fun _ _ => Nat.le_add_right _ _) hrest
    have hnext : saturatingAdd frame.1 frame.2.length = frameEnd frame :=
      Nat.min_eq_left (hend.trans hroom)
    rw [liveFrames, if_neg hne, hnext, ih hframes hroom]
    rfl

theorem liveEventsFromRing_batch (streamId : NodeId)
    (h : Holds stream ring) (hcursor : cursor ≤ stream.length) :
    ∃ events next, liveEventsFromRing streamId ring cursor = .ok (events, next) ∧
      cursor ≤ next ∧ next ≤ stream.length ∧
      Batch stream cursor next (handedOver ring events) := by
  have hproduced := h.produced
  have hretained := h.retained
  rw [liveEventsFromRing]
  split
  · rename_i hlost
    exact ⟨_, _, rfl, by omega, by omega, resync_batch streamId (.inl hlost) _⟩
  · rename_i hkept
    split
    · have hnone : Frames maxTerminalOutputFrameBytes cursor [] := ⟨trivial, by simp⟩
      exact ⟨[], cursor, rfl, Nat.le_refl _, hcursor,
        framed_batch streamId ring hnone rfl (fun _ hframe => absurd hframe List.not_mem_nil)⟩
    · rename_i hmore
      obtain ⟨frames, hrange, hframes, hreach, hbytes⟩ :=
        frameRange_frames h (Nat.le_of_not_lt hkept) (Nat.le_of_not_le hmore)
      have hroom : reach frameEnd cursor frames ≤ u64Max := by
        rw [hreach, hproduced]
        exact h.bounded
      rw [hrange]
      simp only [liveFrames_eq streamId hframes hroom, hreach]
      refine ⟨_, _, rfl, by omega, hproduced.le, ?_⟩
      rw [handedOver, List.map_map]
      exact framed_batch streamId ring hframes hreach hbytes

theorem subscribe_batch (streamId : NodeId)
    (h : Holds stream ring) (requestedOffset : Nat) :
    ∃ snapshot, subscribe streamId ring requestedOffset = .ok (snapshot, ring.nextOffset) ∧
      Batch stream requestedOffset ring.nextOffset
        (handedOver ring (catchUpEvents streamId snapshot)) := by
  rw [subscribe]
  split
  · rename_i hahead
    exact ⟨_, rfl, resync_batch streamId (.inr hahead) _⟩
  · rename_i hwithin
    split
    · rename_i hlost
      exact ⟨_, rfl, resync_batch streamId (.inl hlost) _⟩
    · rename_i hkept
      obtain ⟨frames, hrange, hframes, hreach, hbytes⟩ :=
        frameRange_frames h (Nat.le_of_not_lt hkept) (Nat.le_of_not_lt hwithin)
      rw [hrange]
      refine ⟨_, rfl, ?_⟩
      rw [catchUpEvents, handedOver, List.map_map, List.map_map]
      exact framed_batch streamId ring hframes hreach hbytes

theorem produce_holds (h : Holds stream ring) (data : Bytes) :
    ∃ next more, produce (ring, stream) data = .ok (next, stream ++ more) ∧
      Holds (stream ++ more) next := by
  rcases append_holds h data with ⟨next, hnext, hholds, -⟩ | ⟨hrefused, -⟩
  · exact ⟨next, data, by rw [produce, hnext], hholds⟩
  · refine ⟨ring, [], by rw [produce, hrefused, List.append_nil], ?_⟩
    rw [List.append_nil]
    exact h

theorem produceAll_holds (h : Holds stream ring)
    (reads : List Bytes) :
    ∃ last whole, reads.foldlM produce (ring, stream) = .ok (last, whole) ∧ Holds whole last := by
  induction reads generalizing ring stream with
  | nil => exact ⟨ring, stream, rfl, h⟩
  | cons data rest ih =>
    obtain ⟨next, more, hproduce, hholds⟩ := produce_holds h data
    obtain ⟨last, whole, hrest, hlast⟩ := ih hholds
    refine ⟨last, whole, ?_, hlast⟩
    rw [List.foldlM_cons, hproduce]
    exact hrest

theorem step_following (streamId : NodeId)
    (h : Following requestedOffset state) (input : Input) :
    ∃ next, step streamId state input = .ok next ∧ Following requestedOffset next := by
  cases input with
  | append data =>
    obtain ⟨ring, more, hproduce, hholds⟩ := produce_holds h.holds data
    refine ⟨⟨ring, state.stream ++ more, state.cursor, state.delivered⟩, ?_, hholds, ?_,
      h.exact.extend more, h.position, h.behind⟩
    · rw [step, hproduce]
      rfl
    · rw [List.length_append]
      exact Nat.le_add_right_of_le h.within
  | tryDrain =>
    obtain ⟨events, next, hlive, hforward, hwithin, hbatch⟩ :=
      liveEventsFromRing_batch streamId h.holds h.within
    refine ⟨_, ?_, h.handOver hbatch hforward hwithin⟩
    rw [step, hlive]
    rfl

theorem steps_following (streamId : NodeId)
    (h : Following requestedOffset state) (inputs : List Input) :
    ∃ last, inputs.foldlM (step streamId) state = .ok last ∧ Following requestedOffset last := by
  induction inputs generalizing state with
  | nil => exact ⟨state, rfl, h⟩
  | cons input rest ih =>
    obtain ⟨next, hstep, hnext⟩ := step_following streamId h input
    obtain ⟨last, hrest, hlast⟩ := ih hnext
    refine ⟨last, ?_, hlast⟩
    rw [List.foldlM_cons, hstep]
    exact hrest

/-- Whatever the terminal writes and whenever the subscriber drains, no call fails and
the subscriber is handed the stream itself, cut only by resyncs. -/
theorem terminal_output_exact (streamId : NodeId) {capacity : Nat} {ring : OutputRing}
    (hnew : OutputRing.new capacity = .ok ring) (before : List Bytes) (requestedOffset : Nat)
    (after : List Input) :
    ∃ state, deliver streamId ring before requestedOffset after = .ok state ∧
      Exact state.stream requestedOffset state.delivered := by
  obtain ⟨opened, stream, hbefore, hholds⟩ := produceAll_holds (new_holds hnew) before
  obtain ⟨snapshot, hsubscribe, hbatch⟩ := subscribe_batch streamId hholds requestedOffset
  have hfollowing : Following requestedOffset ⟨opened, stream, opened.nextOffset,
      handedOver opened (catchUpEvents streamId snapshot)⟩ :=
    ⟨hholds, hholds.produced.le, hbatch.exact, hbatch.reaches,
      fun frame hframe => (hbatch.placed frame hframe).2⟩
  obtain ⟨last, hafter, hlast⟩ := steps_following streamId hfollowing after
  refine ⟨last, ?_, hlast.exact⟩
  rw [deliver, hbefore]
  simp only [bind, Except.bind, hsubscribe]
  exact hafter

theorem smallRing_output_exact :
    OutputRing.new 4 = .ok ⟨[], 0, 0, 0, 4⟩ ∧
      ∃ state, deliver 7 ⟨[], 0, 0, 0, 4⟩ [[1, 2, 3], [4, 5]] 2
          [.append [6], .tryDrain, .append [7, 8, 9, 10, 11], .tryDrain] = .ok state ∧
        Exact state.stream 2 state.delivered :=
  ⟨by decide, terminal_output_exact 7 (show OutputRing.new 4 = _ by decide) _ _ _⟩

end Srui.Pty.Subscriptions

import Srui.Basic.Machine
import Srui.Basic.Slices
import Srui.Basic.Varints

/-!
The bounded output ring of a terminal: bytes at absolute offsets, kept in chunks
that are evicted from the front.
-/

namespace Srui.Pty.OutputRings

open Basic.Machine Basic.Spans Basic.Slices Basic.Varints

/-- `MAX_TERMINAL_OUTPUT_FRAME_BYTES`. -/
def maxTerminalOutputFrameBytes : Nat := 16384

theorem maxTerminalOutputFrameBytes_pos : 0 < maxTerminalOutputFrameBytes := by decide

inductive RingError where
  | offsetOverflow
  | rangeUnavailable (start stop retainedStart nextOffset : Nat)
deriving DecidableEq, Repr

structure OutputRing where
  chunks : List Bytes
  retainedStart : Nat
  nextOffset : Nat
  storedBytes : Nat
  capacity : Nat
deriving DecidableEq, Repr

/-- `OutputRing::new`, with its assertion. -/
def OutputRing.new (capacity : Nat) : Outcome RingError OutputRing :=
  if 0 < capacity then .ok ⟨[], 0, 0, 0, capacity⟩ else .error .panicked

/-- The loop of `evict_to_capacity`: the chunks, `retained_start` and `stored_bytes`
it leaves. -/
def evictToCapacity (capacity : Nat) :
    List Bytes → Nat → Nat → Outcome RingError (List Bytes × Nat × Nat)
  | [], retainedStart, storedBytes => .ok ([], retainedStart, storedBytes)
  | front :: rest, retainedStart, storedBytes =>
    if capacity < storedBytes then
      let overflow := storedBytes - capacity
      if front.length ≤ overflow then
        match checkedAdd retainedStart front.length with
        | none => .error .panicked
        | some next => evictToCapacity capacity rest next (storedBytes - front.length)
      else
        match checkedAdd retainedStart overflow with
        | none => .error .panicked
        -- `stored_bytes` is now the capacity, which ends the loop
        | some next => .ok (front.drop overflow :: rest, next, storedBytes - overflow)
    else .ok (front :: rest, retainedStart, storedBytes)

/-- `OutputRing::append`: the ring it leaves, and what it returns. -/
def appendTo (ring : OutputRing) (data : Bytes) : OutputRing × Outcome RingError Nat :=
  if data = [] then (ring, .ok ring.nextOffset)
  else
    match checkedAdd ring.nextOffset data.length with
    | none => (ring, err .offsetOverflow)
    | some nextOffset =>
      let grown : OutputRing :=
        { ring with
          nextOffset := nextOffset
          chunks := ring.chunks ++ [data]
          storedBytes := saturatingAdd ring.storedBytes data.length }
      match evictToCapacity ring.capacity grown.chunks grown.retainedStart grown.storedBytes with
      | .ok (chunks, retainedStart, storedBytes) =>
        ({ grown with
            chunks := chunks
            retainedStart := retainedStart
            storedBytes := storedBytes }, .ok nextOffset)
      | .error fault => (grown, .error fault)

/-- An append that ends: the ring afterwards and the offset it returns. -/
def append (ring : OutputRing) (data : Bytes) : Outcome RingError (OutputRing × Nat) :=
  match appendTo ring data with
  | (next, .ok offset) => .ok (next, offset)
  | (_, .error fault) => .error fault

/-- What `frame_range` has built so far: the finished frames with their offsets, and
the open frame with its own. -/
structure Framing where
  frames : List (Nat × Bytes)
  frame : Bytes
  frameOffset : Nat
deriving DecidableEq, Repr

/-- The inner loop of `frame_range` over the bytes of one chunk, with
`MAX_TERMINAL_OUTPUT_FRAME_BYTES` as `limit`. -/
def fillFrames (limit : Nat) (remaining : Bytes) (framing : Framing) : Outcome RingError Framing :=
  if remaining = [] then .ok framing
  else if limit < framing.frame.length then .error .panicked
  else
    let space := limit - framing.frame.length
    let take := min remaining.length space
    if take = 0 then .error .diverges
    else if framing.frame = [] ∧ take = limit then
      match checkedAdd framing.frameOffset take with
      | none => err .offsetOverflow
      | some frameOffset =>
        fillFrames limit (remaining.drop take)
          ⟨framing.frames ++ [(framing.frameOffset, remaining.take take)], framing.frame,
            frameOffset⟩
    else
      let frame := framing.frame ++ remaining.take take
      if frame.length = limit then
        match checkedAdd framing.frameOffset limit with
        | none => err .offsetOverflow
        | some frameOffset =>
          fillFrames limit (remaining.drop take)
            ⟨framing.frames ++ [(framing.frameOffset, frame)], [], frameOffset⟩
      else fillFrames limit (remaining.drop take) ⟨framing.frames, frame, framing.frameOffset⟩
termination_by remaining.length
decreasing_by all_goals (rw [List.length_drop]; omega)

/-- The outer loop of `frame_range` over the chunks from `cursor` on. -/
def frameChunks (start stop : Nat) :
    List Bytes → Nat → Framing → Outcome RingError Framing
  | [], _, framing => .ok framing
  | chunk :: rest, cursor, framing =>
    match checkedAdd cursor chunk.length with
    | none => .error .panicked
    | some chunkEnd =>
      if chunkEnd ≤ start then frameChunks start stop rest chunkEnd framing
      else if stop ≤ cursor then .ok framing
      else
        let lo := start - cursor
        let hi := min stop chunkEnd - cursor
        if hi < lo ∨ chunk.length < hi then .error .panicked
        else do
          let framing ← fillFrames maxTerminalOutputFrameBytes (slice chunk lo hi) framing
          if stop ≤ chunkEnd then .ok framing else frameChunks start stop rest chunkEnd framing

/-- `OutputRing::frame_range`. -/
def frameRange (ring : OutputRing) (start stop : Nat) : Outcome RingError (List (Nat × Bytes)) :=
  if stop < start ∨ start < ring.retainedStart ∨ ring.nextOffset < stop then
    err (.rangeUnavailable start stop ring.retainedStart ring.nextOffset)
  else if start = stop then .ok []
  else do
    let framing ← frameChunks start stop ring.chunks ring.retainedStart ⟨[], [], start⟩
    if framing.frame = [] then .ok framing.frames
    else .ok (framing.frames ++ [(framing.frameOffset, framing.frame)])

/-- The ring holds the end of a byte stream, from `retained_start` on. -/
structure Holds (stream : Bytes) (ring : OutputRing) : Prop where
  bytes : ring.chunks.flatten = stream.drop ring.retainedStart
  retained : ring.retainedStart ≤ stream.length
  produced : ring.nextOffset = stream.length
  stored : ring.storedBytes = stream.length - ring.retainedStart
  bounded : stream.length ≤ u64Max

variable {ring : OutputRing}

theorem new_holds {capacity : Nat} (h : OutputRing.new capacity = .ok ring) :
    Holds [] ring := by
  rw [OutputRing.new] at h
  split at h
  · cases h
    exact ⟨rfl, Nat.le_refl _, rfl, rfl, Nat.zero_le _⟩
  · cases h

theorem evictToCapacity_drop (capacity : Nat) {chunks : List Bytes}
    {retainedStart storedBytes : Nat}
    (hstored : storedBytes = chunks.flatten.length)
    (hroom : retainedStart + chunks.flatten.length ≤ u64Max) :
    ∃ left, evictToCapacity capacity chunks retainedStart storedBytes =
        .ok (left, retainedStart + (storedBytes - capacity), min capacity storedBytes) ∧
      left.flatten = chunks.flatten.drop (storedBytes - capacity) := by
  induction chunks generalizing retainedStart storedBytes with
  | nil =>
    rw [hstored]
    exact ⟨[], by simp [evictToCapacity], by simp⟩
  | cons front rest ih =>
    rw [List.flatten_cons, List.length_append] at hstored hroom
    rw [evictToCapacity]
    split
    · rename_i hover
      simp only
      split
      · rename_i hwhole
        have hadd : checkedAdd retainedStart front.length = some (retainedStart + front.length) :=
          checkedAdd_eq_some.mpr ⟨by omega, rfl⟩
        have hkept : storedBytes - front.length = rest.flatten.length := by omega
        have hbound : retainedStart + front.length + rest.flatten.length ≤ u64Max := by omega
        obtain ⟨left, hrest, hleft⟩ := ih hkept hbound
        have hdropped : storedBytes - capacity =
            front.length + (storedBytes - front.length - capacity) := by omega
        have hmin : min capacity (storedBytes - front.length) = min capacity storedBytes := by omega
        refine ⟨left, ?_, ?_⟩
        · simp only [hadd, hrest, hmin]
          rw [Nat.add_assoc, ← hdropped]
        · rw [hleft, hdropped, List.flatten_cons, List.drop_length_add_append]
      · rename_i hpart
        have hadd : checkedAdd retainedStart (storedBytes - capacity) =
            some (retainedStart + (storedBytes - capacity)) :=
          checkedAdd_eq_some.mpr ⟨by omega, rfl⟩
        have hmin : storedBytes - (storedBytes - capacity) = min capacity storedBytes := by omega
        refine ⟨front.drop (storedBytes - capacity) :: rest, by simp only [hadd, hmin], ?_⟩
        rw [List.flatten_cons, List.flatten_cons, List.drop_append_of_le_length (by omega)]
    · rename_i hfits
      rw [Nat.sub_eq_zero_of_le (by omega), Nat.min_eq_right (by omega)]
      exact ⟨front :: rest, rfl, rfl⟩

variable {stream : Bytes}

theorem append_holds (h : Holds stream ring) (data : Bytes) :
    (∃ next, append ring data = .ok (next, next.nextOffset) ∧ Holds (stream ++ data) next ∧
      next.capacity = ring.capacity ∧
      (data = [] ∧ next = ring ∨
        next.storedBytes = min ring.capacity (ring.storedBytes + data.length))) ∨
      append ring data = err .offsetOverflow ∧ u64Max < stream.length + data.length := by
  have hstored := h.stored
  have hproduced := h.produced
  have hretained := h.retained
  have hbounded := h.bounded
  rw [append, appendTo]
  rcases Classical.em (data = []) with hempty | hdata
  · rw [if_pos hempty]
    exact .inl ⟨ring, rfl, by rw [hempty, List.append_nil]; exact h, rfl, .inl ⟨hempty, rfl⟩⟩
  rw [if_neg hdata]
  cases hnext : checkedAdd ring.nextOffset data.length with
  | none => exact .inr ⟨rfl, hproduced ▸ checkedAdd_eq_none.mp hnext⟩
  | some next =>
    obtain ⟨hfits, rfl⟩ := checkedAdd_eq_some.mp hnext
    have hflat : (ring.chunks ++ [data]).flatten = (stream ++ data).drop ring.retainedStart := by
      rw [List.flatten_append, h.bytes, List.drop_append_of_le_length hretained]
      simp
    have hlength : ((ring.chunks ++ [data]).flatten).length =
        stream.length - ring.retainedStart + data.length := by
      rw [hflat, List.length_drop, List.length_append]
      omega
    have hsum : saturatingAdd ring.storedBytes data.length = ring.storedBytes + data.length := by
      rw [saturatingAdd]
      omega
    have hsize : ring.storedBytes + data.length =
        ((ring.chunks ++ [data]).flatten).length := by
      rw [hlength, hstored]
    have hbound : ring.retainedStart + ((ring.chunks ++ [data]).flatten).length ≤ u64Max := by
      omega
    obtain ⟨left, hevict, hleft⟩ := evictToCapacity_drop ring.capacity hsize hbound
    simp only [hsum, hevict]
    refine .inl ⟨⟨left, ring.retainedStart + (ring.storedBytes + data.length - ring.capacity),
      ring.nextOffset + data.length, _, ring.capacity⟩, rfl, ⟨?_, ?_, ?_, ?_, ?_⟩, rfl, .inr rfl⟩
    · rw [hleft, hflat, List.drop_drop]
    · change ring.retainedStart + _ ≤ (stream ++ data).length
      rw [List.length_append]
      omega
    · change ring.nextOffset + data.length = (stream ++ data).length
      rw [List.length_append, hproduced]
    · change min ring.capacity (ring.storedBytes + data.length) =
        (stream ++ data).length - (ring.retainedStart + _)
      rw [List.length_append]
      omega
    · rw [List.length_append]
      omega

def frameEnd (frame : Nat × Bytes) : Nat := frame.1 + frame.2.length

/-- Frames laid end to end from `start` on, none empty and none too long. -/
structure Frames (limit start : Nat) (frames : List (Nat × Bytes)) : Prop where
  abut : Abutting Prod.fst frameEnd start frames
  sized : ∀ frame ∈ frames, frame.2 ≠ [] ∧ frame.2.length ≤ limit

variable {limit start : Nat} {frames : List (Nat × Bytes)}

theorem Frames.snoc {frame : Nat × Bytes}
    (h : Frames limit start frames) (hstart : reach frameEnd start frames = frame.1)
    (hsized : frame.2 ≠ [] ∧ frame.2.length ≤ limit) : Frames limit start (frames ++ [frame]) := by
  refine ⟨abutting_append.mpr ⟨h.abut, hstart.symm, trivial⟩, ?_⟩
  intro other hmem
  rcases List.mem_append.mp hmem with hmem | hmem
  · exact h.sized other hmem
  · rw [List.mem_singleton.mp hmem]
    exact hsized

theorem Frames.reach_eq
    (h : Frames limit start frames) :
    reach frameEnd start frames = start + (frames.flatMap Prod.snd).length :=
  reach_eq_length (fun _ _ => rfl) h.abut

theorem Frames.cover {stop : Nat}
    (h : Frames limit start frames) (hle : start ≤ stop) (hstop : stop ≤ stream.length)
    (hbytes : frames.flatMap Prod.snd = slice stream start stop) :
    reach frameEnd start frames = stop ∧
      ∀ frame ∈ frames, frame.2 = slice stream frame.1 (frameEnd frame) := by
  have hreach : reach frameEnd start frames = stop := by
    rw [h.reach_eq, hbytes, length_slice hstop]
    omega
  refine ⟨hreach, pieces_of_abutting (fun _ _ => rfl) h.abut (hreach ▸ hstop) ?_⟩
  rw [hbytes, hreach]

def Framing.bytes (framing : Framing) : Bytes := framing.frames.flatMap Prod.snd ++ framing.frame

structure Packed (limit start : Nat) (framing : Framing) : Prop where
  frames : Frames limit start framing.frames
  offset : reach frameEnd start framing.frames = framing.frameOffset
  room : framing.frame.length < limit

variable {framing : Framing}

theorem Packed.offset_eq (h : Packed limit start framing) :
    framing.frameOffset = start + (framing.frames.flatMap Prod.snd).length := by
  rw [← h.offset, h.frames.reach_eq]

theorem Packed.close (h : Packed limit start framing)
    {frame : Bytes} (hlength : frame.length = limit) :
    Packed limit start
      ⟨framing.frames ++ [(framing.frameOffset, frame)], [], framing.frameOffset + limit⟩ := by
  have hpositive : 0 < limit := Nat.zero_lt_of_lt h.room
  have hframe : frame ≠ [] := by
    intro hempty
    rw [hempty, List.length_nil] at hlength
    omega
  refine ⟨h.frames.snoc h.offset ⟨hframe, hlength.le⟩, ?_, hpositive⟩
  rw [reach_append]
  change framing.frameOffset + frame.length = framing.frameOffset + limit
  rw [hlength]

theorem fillFrames_packed {remaining : Bytes}
    (h : Packed limit start framing)
    (hroom : start + framing.bytes.length + remaining.length ≤ u64Max) :
    ∃ next, fillFrames limit remaining framing = .ok next ∧ Packed limit start next ∧
      next.bytes = framing.bytes ++ remaining := by
  fun_induction fillFrames limit remaining framing with
  | case1 framing => exact ⟨framing, rfl, h, by simp⟩
  | case2 remaining framing hne hover => exact absurd h.room (by omega)
  | case3 remaining framing hne hover space take htake =>
    have hlength : 0 < remaining.length := List.length_pos_iff.mpr hne
    have hspace := h.room
    omega
  | case4 remaining framing hne hover space take htake hwhole hadd =>
    have hpast := checkedAdd_eq_none.mp hadd
    have hoffset := h.offset_eq
    rw [Framing.bytes, List.length_append] at hroom
    omega
  | case5 remaining framing hne hover space take htake hwhole offset hadd ih =>
    obtain ⟨hempty, hlimit⟩ := hwhole
    obtain ⟨-, rfl⟩ := checkedAdd_eq_some.mp hadd
    have htaken : (remaining.take take).length = limit := by
      rw [List.length_take]
      omega
    have hbytes : Framing.bytes ⟨framing.frames ++ [(framing.frameOffset, remaining.take take)],
        framing.frame, framing.frameOffset + take⟩ = framing.bytes ++ remaining.take take := by
      simp [Framing.bytes, hempty]
    rw [hbytes, List.length_append, htaken, List.length_drop] at ih
    have hpacked : Packed limit start ⟨framing.frames ++ [(framing.frameOffset,
        remaining.take take)], framing.frame, framing.frameOffset + take⟩ := by
      rw [hempty, hlimit]
      exact h.close (hlimit ▸ htaken)
    obtain ⟨next, hfill, hnext, htotal⟩ := ih hpacked (by omega)
    refine ⟨next, hfill, hnext, ?_⟩
    rw [htotal, List.append_assoc, List.take_append_drop]
  | case6 remaining framing hne hover space take htake hwhole frame hfull hadd =>
    have hpast := checkedAdd_eq_none.mp hadd
    have hoffset := h.offset_eq
    rw [Framing.bytes, List.length_append] at hroom
    rw [List.length_append, List.length_take] at hfull
    omega
  | case7 remaining framing hne hover space take htake hwhole frame hfull offset hadd ih =>
    obtain ⟨-, rfl⟩ := checkedAdd_eq_some.mp hadd
    have hbytes : Framing.bytes ⟨framing.frames ++ [(framing.frameOffset, frame)], [],
        framing.frameOffset + limit⟩ = framing.bytes ++ remaining.take take := by
      simp [Framing.bytes, frame]
    rw [hbytes, List.length_append, List.length_take, List.length_drop] at ih
    obtain ⟨next, hfill, hnext, htotal⟩ := ih (h.close hfull) (by omega)
    refine ⟨next, hfill, hnext, ?_⟩
    rw [htotal, List.append_assoc, List.take_append_drop]
  | case8 remaining framing hne hover space take htake hwhole frame hfull ih =>
    have hlength : frame.length = framing.frame.length + take := by
      rw [List.length_append, List.length_take]
      omega
    have hopen : Packed limit start ⟨framing.frames, frame, framing.frameOffset⟩ := by
      refine ⟨h.frames, h.offset, ?_⟩
      change frame.length < limit
      omega
    have hbytes : Framing.bytes ⟨framing.frames, frame, framing.frameOffset⟩ =
        framing.bytes ++ remaining.take take := by
      simp [Framing.bytes, frame]
    rw [hbytes, List.length_append, List.length_take, List.length_drop] at ih
    obtain ⟨next, hfill, hnext, htotal⟩ := ih hopen (by omega)
    refine ⟨next, hfill, hnext, ?_⟩
    rw [htotal, List.append_assoc, List.take_append_drop]

/-- The outer loop takes the bytes of the range from each chunk. The bytes taken
before `cursor` are those of the range that stand before it. -/
theorem frameChunks_packed {stop : Nat} (hle : start ≤ stop)
    (hstop : stop ≤ stream.length) (hbounded : stream.length ≤ u64Max) {chunks : List Bytes}
    {cursor : Nat} (hchunks : chunks.flatten = stream.drop cursor)
    (hcursor : cursor ≤ stream.length)
    (h : Packed maxTerminalOutputFrameBytes start framing)
    (hbytes : framing.bytes = slice stream start (min cursor stop)) :
    ∃ next, frameChunks start stop chunks cursor framing = .ok next ∧
      Packed maxTerminalOutputFrameBytes start next ∧ next.bytes = slice stream start stop := by
  induction chunks generalizing cursor framing with
  | nil =>
    have hend : stream.length ≤ cursor := List.drop_eq_nil_iff.mp hchunks.symm
    rw [Nat.min_eq_right (hstop.trans hend)] at hbytes
    exact ⟨framing, rfl, h, hbytes⟩
  | cons chunk rest ih =>
    rw [List.flatten_cons] at hchunks
    obtain ⟨hlength, hrest⟩ := chunk_ends hchunks hcursor
    have hadd : checkedAdd cursor chunk.length = some (cursor + chunk.length) :=
      checkedAdd_eq_some.mpr ⟨hlength.trans hbounded, rfl⟩
    rw [frameChunks]
    simp only [hadd]
    split
    · rename_i hskip
      refine ih hrest hlength h ?_
      rw [hbytes, slice_eq_nil (by omega), slice_eq_nil (by omega)]
    · rename_i hreach
      split
      · rename_i hdone
        rw [Nat.min_eq_right hdone] at hbytes
        exact ⟨framing, rfl, h, hbytes⟩
      · rename_i hdone
        rw [if_neg (by omega)]
        have hjoined : framing.bytes ++ slice chunk (start - cursor)
            (min stop (cursor + chunk.length) - cursor) =
              slice stream start (min (cursor + chunk.length) stop) := by
          rw [hbytes]
          exact slice_append_chunk hchunks (Nat.lt_of_not_le hdone)
        have hroom : start + framing.bytes.length + (slice chunk (start - cursor)
            (min stop (cursor + chunk.length) - cursor)).length ≤ u64Max := by
          rw [Nat.add_assoc, ← List.length_append, hjoined, length_slice (by omega)]
          omega
        obtain ⟨next, hfill, hpacked, htotal⟩ := fillFrames_packed h hroom
        rw [hjoined] at htotal
        simp only [hfill, bind, Except.bind]
        split
        · rename_i hlast
          rw [Nat.min_eq_right hlast] at htotal
          exact ⟨next, rfl, hpacked, htotal⟩
        · exact ih hrest hlength hpacked htotal

def Framing.closed (framing : Framing) : List (Nat × Bytes) :=
  if framing.frame = [] then framing.frames
  else framing.frames ++ [(framing.frameOffset, framing.frame)]

theorem Framing.closed_bytes (framing : Framing) :
    framing.closed.flatMap Prod.snd = framing.bytes := by
  rw [Framing.closed, Framing.bytes]
  split
  · rename_i hempty
    rw [hempty, List.append_nil]
  · simp

theorem Packed.closed (h : Packed limit start framing) : Frames limit start framing.closed := by
  rw [Framing.closed]
  split
  · exact h.frames
  · rename_i hlast
    exact h.frames.snoc h.offset ⟨hlast, h.room.le⟩

theorem frameRange_packed {stop : Nat} (h : Holds stream ring) (hstart : ring.retainedStart ≤ start)
    (hle : start ≤ stop) (hstop : stop ≤ ring.nextOffset) :
    ∃ framing, frameRange ring start stop = .ok framing.closed ∧
      Packed maxTerminalOutputFrameBytes start framing ∧
      framing.bytes = slice stream start stop ∧
      (framing = ⟨[], [], start⟩ ∨
        frameChunks start stop ring.chunks ring.retainedStart ⟨[], [], start⟩ = .ok framing) := by
  have hopen : Packed maxTerminalOutputFrameBytes start ⟨[], [], start⟩ :=
    ⟨⟨trivial, by simp⟩, rfl, maxTerminalOutputFrameBytes_pos⟩
  rw [frameRange, if_neg (by omega)]
  split
  · rename_i hnone
    exact ⟨⟨[], [], start⟩, rfl, hopen, (slice_eq_nil hnone.ge).symm, .inl rfl⟩
  · have hnothing : Framing.bytes ⟨[], [], start⟩ =
        slice stream start (min ring.retainedStart stop) :=
      (slice_eq_nil (by omega)).symm
    obtain ⟨framing, hframing, hpacked, hbytes⟩ := frameChunks_packed hle
      (hstop.trans h.produced.le) h.bounded h.bytes h.retained hopen hnothing
    refine ⟨framing, ?_, hpacked, hbytes, .inr hframing⟩
    simp only [hframing, bind, Except.bind, Framing.closed]
    split <;> rfl

theorem frameRange_frames (h : Holds stream ring) (hstart : ring.retainedStart ≤ start)
    (hle : start ≤ ring.nextOffset) :
    ∃ frames, frameRange ring start ring.nextOffset = .ok frames ∧
      Frames maxTerminalOutputFrameBytes start frames ∧
      reach frameEnd start frames = ring.nextOffset ∧
      ∀ frame ∈ frames, frame.2 = slice stream frame.1 (frameEnd frame) := by
  obtain ⟨framing, hframing, hpacked, hbytes, -⟩ := frameRange_packed h hstart hle (Nat.le_refl _)
  rw [← framing.closed_bytes] at hbytes
  exact ⟨framing.closed, hframing, hpacked.closed,
    hpacked.closed.cover hle h.produced.le hbytes⟩

end Srui.Pty.OutputRings

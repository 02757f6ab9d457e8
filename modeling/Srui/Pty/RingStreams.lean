import Srui.Pty.OutputRings

/-!
The output ring as the end of a byte stream: what is kept of it after any appends, and the two ways
of reading a range of it.
-/

namespace Srui.Pty.RingStreams

open Basic.Machine Basic.Spans Basic.Slices Basic.Varints Pty.OutputRings

/-- The loop of `copy_range` over the chunks from `cursor` on. -/
def copyChunks (start stop : Nat) : List Bytes → Nat → Bytes → Outcome RingError Bytes
  | [], _, out => .ok out
  | chunk :: rest, cursor, out =>
    match checkedAdd cursor chunk.length with
    | none => .error .panicked
    | some chunkEnd =>
      if chunkEnd ≤ start then copyChunks start stop rest chunkEnd out
      else if stop ≤ cursor then .ok out
      else
        let lo := start - cursor
        let hi := min stop chunkEnd - cursor
        if hi < lo ∨ chunk.length < hi then .error .panicked
        else
          let out := out ++ slice chunk lo hi
          if stop ≤ chunkEnd then .ok out else copyChunks start stop rest chunkEnd out

/-- `OutputRing::copy_range`. -/
def copyRange (ring : OutputRing) (start stop : Nat) : Outcome RingError Bytes :=
  if stop < start then
    err (.rangeUnavailable start stop ring.retainedStart ring.nextOffset)
  else if start < ring.retainedStart ∨ ring.nextOffset < stop then
    err (.rangeUnavailable start stop ring.retainedStart ring.nextOffset)
  else if start = stop then .ok []
  else copyChunks start stop ring.chunks ring.retainedStart []

variable {ring : OutputRing} {stream : Bytes} {start stop : Nat}

/-! ### Appends -/

theorem appendTo_of_ok {data : Bytes} {next : OutputRing} {offset : Nat}
    (h : append ring data = .ok (next, offset)) : appendTo ring data = (next, .ok offset) := by
  rw [append] at h
  split at h
  · rename_i hdone
    cases h
    exact hdone
  · cases h

theorem appendTo_of_overflow (h : Holds stream ring) {data : Bytes}
    (hover : u64Max < stream.length + data.length) :
    appendTo ring data = (ring, err .offsetOverflow) := by
  have hbounded := h.bounded
  have hdata : data ≠ [] := by
    rintro rfl
    rw [List.length_nil] at hover
    omega
  have hadd : checkedAdd ring.nextOffset data.length = none :=
    checkedAdd_eq_none.mpr (h.produced ▸ hover)
  rw [appendTo, if_neg hdata]
  simp only [hadd]

structure Suffix (capacity : Nat) (stream : Bytes) (ring : OutputRing) : Prop
    extends Holds stream ring where
  capacity_eq : ring.capacity = capacity
  kept : ring.storedBytes = min capacity stream.length

variable {capacity : Nat}

theorem new_suffix (h : OutputRing.new capacity = .ok ring) : Suffix capacity [] ring := by
  refine ⟨new_holds h, ?_, ?_⟩
  · rw [OutputRing.new] at h
    split at h
    · cases h
      rfl
    · cases h
  · rw [OutputRing.new] at h
    split at h
    · cases h
      exact (Nat.min_zero capacity).symm
    · cases h

theorem Suffix.append (h : Suffix capacity stream ring) {data : Bytes}
    (hfits : stream.length + data.length ≤ u64Max) :
    ∃ next, appendTo ring data = (next, .ok (stream.length + data.length)) ∧
      Suffix capacity (stream ++ data) next := by
  rcases append_holds h.toHolds data with ⟨next, hnext, hholds, hcapacity, hstored⟩ | ⟨-, hover⟩
  · have hoffset : next.nextOffset = stream.length + data.length := by
      rw [hholds.produced, List.length_append]
    refine ⟨next, hoffset ▸ appendTo_of_ok hnext, hholds, hcapacity.trans h.capacity_eq, ?_⟩
    have hkept := h.kept
    rw [List.length_append]
    rcases hstored with ⟨rfl, rfl⟩ | hstored
    · exact hkept
    · rw [hstored, hkept, h.capacity_eq]
      omega
  · exact absurd hfits (Nat.not_le.mpr hover)

theorem Suffix.chunks (h : Suffix capacity stream ring) :
    ring.chunks.flatten = stream.drop (stream.length - min capacity stream.length) := by
  have hstored := h.stored
  have hretained := h.retained
  rw [h.bytes, ← h.kept, hstored]
  congr 1
  omega

theorem Suffix.total (h : Suffix capacity stream ring) :
    ring.retainedStart + ring.storedBytes = ring.nextOffset := by
  have hstored := h.stored
  have hretained := h.retained
  have hproduced := h.produced
  omega

/-! ### Reading a range -/

/-- The loop of `copy_range` takes the bytes of the range from each chunk. -/
theorem copyChunks_slice (hstop : stop ≤ stream.length) (hbounded : stream.length ≤ u64Max)
    {chunks : List Bytes} {cursor : Nat} (hchunks : chunks.flatten = stream.drop cursor)
    (hcursor : cursor ≤ stream.length) {out : Bytes}
    (hout : out = slice stream start (min cursor stop)) (hle : start ≤ stop) :
    copyChunks start stop chunks cursor out = .ok (slice stream start stop) := by
  induction chunks generalizing cursor out with
  | nil =>
    have hend : stream.length ≤ cursor := List.drop_eq_nil_iff.mp hchunks.symm
    rw [copyChunks, hout, Nat.min_eq_right (hstop.trans hend)]
  | cons chunk rest ih =>
    rw [List.flatten_cons] at hchunks
    obtain ⟨hlength, hrest⟩ := chunk_ends hchunks hcursor
    have hadd : checkedAdd cursor chunk.length = some (cursor + chunk.length) :=
      checkedAdd_eq_some.mpr ⟨hlength.trans hbounded, rfl⟩
    rw [copyChunks]
    simp only [hadd]
    split
    · refine ih hrest hlength ?_
      rw [hout, slice_eq_nil (by omega), slice_eq_nil (by omega)]
    split
    · rename_i hdone
      rw [hout, Nat.min_eq_right hdone]
    rename_i hmore
    rw [if_neg (by omega), hout, slice_append_chunk hchunks (Nat.lt_of_not_le hmore)]
    split
    · rename_i hlast
      rw [Nat.min_eq_right hlast]
    · exact ih hrest hlength rfl

theorem copyRange_slice (h : Holds stream ring) (hstart : ring.retainedStart ≤ start)
    (hle : start ≤ stop) (hstop : stop ≤ ring.nextOffset) :
    copyRange ring start stop = .ok (slice stream start stop) := by
  rw [copyRange, if_neg (by omega), if_neg (by omega)]
  split
  · rename_i hnone
    rw [slice_eq_nil hnone.ge]
  · refine copyChunks_slice (hstop.trans h.produced.le) h.bounded h.bytes h.retained ?_ hle
    exact (slice_eq_nil (by omega)).symm

def Full (framing : Framing) : Prop :=
  ∀ frame ∈ framing.frames, frame.2.length = maxTerminalOutputFrameBytes

theorem fillFrames_full {remaining : Bytes} {framing next : Framing} (h : Full framing)
    (hfill : fillFrames maxTerminalOutputFrameBytes remaining framing = .ok next) : Full next := by
  fun_induction fillFrames maxTerminalOutputFrameBytes remaining framing with
  | case1 framing =>
    cases hfill
    exact h
  | case2 | case3 | case4 | case6 => cases hfill
  | case5 remaining framing hne hover space take htake hwhole offset hadd ih =>
    refine ih ?_ hfill
    intro frame hmem
    rcases List.mem_append.mp hmem with hold | hnew
    · exact h frame hold
    · rw [List.mem_singleton.mp hnew, List.length_take]
      have htaken := hwhole.2
      omega
  | case7 remaining framing hne hover space take htake hwhole frame hfull offset hadd ih =>
    refine ih ?_ hfill
    intro other hmem
    rcases List.mem_append.mp hmem with hold | hnew
    · exact h other hold
    · rw [List.mem_singleton.mp hnew]
      exact hfull
  | case8 remaining framing hne hover space take htake hwhole frame hfull ih => exact ih h hfill

theorem frameChunks_full {chunks : List Bytes} {cursor : Nat} {framing next : Framing}
    (h : Full framing) (hframes : frameChunks start stop chunks cursor framing = .ok next) :
    Full next := by
  induction chunks generalizing cursor framing with
  | nil =>
    cases hframes
    exact h
  | cons chunk rest ih =>
    rw [frameChunks] at hframes
    split at hframes
    · cases hframes
    rename_i chunkEnd hadd
    dsimp only at hframes
    split at hframes
    · exact ih h hframes
    split at hframes
    · cases hframes
      exact h
    split at hframes
    · cases hframes
    rcases hfill : fillFrames maxTerminalOutputFrameBytes
        (slice chunk (start - cursor) (min stop chunkEnd - cursor)) framing with fault | filled
    · rw [hfill] at hframes
      cases hframes
    rw [hfill] at hframes
    have hfilled := fillFrames_full h hfill
    dsimp only [bind, Except.bind] at hframes
    split at hframes
    · cases hframes
      exact hfilled
    · exact ih hfilled hframes

theorem Full.closed {framing : Framing} (h : Full framing) :
    ∀ frame ∈ framing.closed.dropLast, frame.2.length = maxTerminalOutputFrameBytes := by
  intro frame hmem
  rw [Framing.closed] at hmem
  split at hmem
  · exact h frame (List.mem_of_mem_dropLast hmem)
  · rw [List.dropLast_concat] at hmem
    exact h frame hmem

/-- The frames of a range: laid end to end from its start, all but the last of full length. -/
structure Framed (bytes : Bytes) (start : Nat) (frames : List (Nat × Bytes)) : Prop where
  bytes_eq : frames.flatMap Prod.snd = bytes
  contiguous : Abutting Prod.fst frameEnd start frames
  full : ∀ frame ∈ frames.dropLast, frame.2.length = maxTerminalOutputFrameBytes
  sized : ∀ frame ∈ frames, frame.2 ≠ [] ∧ frame.2.length ≤ maxTerminalOutputFrameBytes

theorem frameRange_framed (h : Holds stream ring) (hstart : ring.retainedStart ≤ start)
    (hle : start ≤ stop) (hstop : stop ≤ ring.nextOffset) :
    ∃ frames, frameRange ring start stop = .ok frames ∧
      Framed (slice stream start stop) start frames := by
  obtain ⟨framing, hframing, hpacked, hbytes, horigin⟩ := frameRange_packed h hstart hle hstop
  have hopen : Full ⟨[], [], start⟩ := fun _ hmem => absurd hmem List.not_mem_nil
  have hfull : Full framing := by
    rcases horigin with rfl | hchunks
    · exact hopen
    · exact frameChunks_full hopen hchunks
  exact ⟨framing.closed, hframing, framing.closed_bytes.trans hbytes, hpacked.closed.abut,
    hfull.closed, hpacked.closed.sized⟩

/-! ### The stream -/

/-- A stream after more bytes: those that would pass the largest offset are refused. -/
def fed (stream data : Bytes) : Bytes :=
  if stream.length + data.length ≤ u64Max then stream ++ data else stream

theorem Suffix.fed (h : Suffix capacity stream ring) (data : Bytes) :
    Suffix capacity (fed stream data) (appendTo ring data).1 := by
  rw [RingStreams.fed]
  split
  · rename_i hfits
    obtain ⟨next, hnext, hsuffix⟩ := h.append hfits
    rw [hnext]
    exact hsuffix
  · rename_i hover
    rw [appendTo_of_overflow h.toHolds (Nat.lt_of_not_le hover)]
    exact h

theorem Suffix.fedAll (h : Suffix capacity stream ring) (appends : List Bytes) :
    Suffix capacity (appends.foldl RingStreams.fed stream)
      (appends.foldl (fun ring data => (appendTo ring data).1) ring) := by
  induction appends generalizing ring stream with
  | nil => exact h
  | cons data rest ih => exact ih (h.fed data)

/-- The ring stands for a stream: it keeps the end of it, refuses what it must and nothing else,
and reads any range that it keeps. -/
structure Refines (capacity : Nat) (stream : Bytes) (ring : OutputRing) : Prop where
  chunks : ring.chunks.flatten = stream.drop (stream.length - min capacity stream.length)
  total : ring.retainedStart + ring.storedBytes = ring.nextOffset
  nextOffset : ring.nextOffset = stream.length
  refused : ∀ data : Bytes, u64Max < stream.length + data.length →
    appendTo ring data = (ring, err .offsetOverflow)
  taken : ∀ data : Bytes, stream.length + data.length ≤ u64Max →
    (appendTo ring data).2 = .ok (stream.length + data.length)
  copied : ∀ start stop,
    (∃ bytes, copyRange ring start stop = .ok bytes) ↔
      ring.retainedStart ≤ start ∧ start ≤ stop ∧ stop ≤ ring.nextOffset
  framed : ∀ start stop,
    (∃ frames, frameRange ring start stop = .ok frames) ↔
      ring.retainedStart ≤ start ∧ start ≤ stop ∧ stop ≤ ring.nextOffset
  copy : ∀ start stop bytes, copyRange ring start stop = .ok bytes →
    bytes = slice stream start stop
  frames : ∀ start stop frames, frameRange ring start stop = .ok frames →
    Framed (slice stream start stop) start frames

theorem copyRange_ok (ring : OutputRing) {bytes : Bytes}
    (h : copyRange ring start stop = .ok bytes) :
    ring.retainedStart ≤ start ∧ start ≤ stop ∧ stop ≤ ring.nextOffset := by
  rw [copyRange] at h
  split_ifs at h
  all_goals omega

theorem frameRange_ok (ring : OutputRing) {frames : List (Nat × Bytes)}
    (h : frameRange ring start stop = .ok frames) :
    ring.retainedStart ≤ start ∧ start ≤ stop ∧ stop ≤ ring.nextOffset := by
  rw [frameRange] at h
  split_ifs at h
  all_goals omega

theorem Suffix.refines (h : Suffix capacity stream ring) : Refines capacity stream ring where
  chunks := h.chunks
  total := h.total
  nextOffset := h.produced
  refused := fun _ hover => appendTo_of_overflow h.toHolds hover
  taken := by
    intro data hfits
    obtain ⟨next, hnext, -⟩ := h.append hfits
    rw [hnext]
  copied := by
    intro start stop
    constructor
    · rintro ⟨bytes, hcopy⟩
      exact copyRange_ok ring hcopy
    · rintro ⟨hstart, hle, hstop⟩
      exact ⟨_, copyRange_slice h.toHolds hstart hle hstop⟩
  framed := by
    intro start stop
    constructor
    · rintro ⟨frames, hframes⟩
      exact frameRange_ok ring hframes
    · rintro ⟨hstart, hle, hstop⟩
      obtain ⟨frames, hframes, -⟩ := frameRange_framed h.toHolds hstart hle hstop
      exact ⟨frames, hframes⟩
  copy := by
    intro start stop bytes hcopy
    obtain ⟨hstart, hle, hstop⟩ := copyRange_ok ring hcopy
    rw [copyRange_slice h.toHolds hstart hle hstop] at hcopy
    exact (Except.ok.inj hcopy).symm
  frames := by
    intro start stop frames hframes
    obtain ⟨hstart, hle, hstop⟩ := frameRange_ok ring hframes
    obtain ⟨frames', hframes', hframed⟩ := frameRange_framed h.toHolds hstart hle hstop
    rw [hframes', Except.ok.injEq] at hframes
    exact hframes ▸ hframed

/-- After any appends, a ring of positive capacity stands for the stream of the bytes that were
appended to it. -/
theorem ring_refines_stream (capacity : Nat) (hcapacity : 0 < capacity) (appends : List Bytes) :
    ∃ ring, OutputRing.new capacity = .ok ring ∧
      Refines capacity (appends.foldl fed [])
        (appends.foldl (fun ring data => (appendTo ring data).1) ring) := by
  have hnew : OutputRing.new capacity = .ok ⟨[], 0, 0, 0, capacity⟩ := if_pos hcapacity
  exact ⟨_, hnew, ((new_suffix hnew).fedAll appends).refines⟩

/-- Two appends, of which the second evicts half of the first. -/
theorem small_ring_refines : ∃ ring, OutputRing.new 3 = .ok ring ∧
    Refines 3 ([[1, 2], [3, 4]].foldl fed [])
      ([[1, 2], [3, 4]].foldl (fun ring data => (appendTo ring data).1) ring) :=
  ring_refines_stream 3 (by decide) [[1, 2], [3, 4]]

end Srui.Pty.RingStreams

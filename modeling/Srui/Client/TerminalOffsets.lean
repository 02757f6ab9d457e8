import Srui.Basic.Slices
import Srui.Client.TerminalSessions
import Srui.Client.VTParserSafety

/-!
A terminal shows what its stream says: the bytes from the last reset on, each fed once
and in order. A resync may take the stream back and have bytes fed again.

The frames of one stream are slices of what the remote end wrote; they may come twice,
overlap, come out of order and leave gaps. Calls on the other streams are arbitrary.
-/

namespace Srui.Client.TerminalSessions

open Std Basic.CheckedArrays Basic.FiniteMaps Basic.Machine Basic.Slices Basic.Spans
open SemanticTree.Values (NodeId)
open Client.TerminalGrids Client.VTParsers

/-! ### What has been fed -/

/-- Where the screen last started, the modes it kept then, and the ranges the parser has
been given since the last resync: before that start, and from it on. -/
structure Feeding where
  start : Nat := 0
  bracketedPaste : Bool := false
  applicationCursorKeys : Bool := false
  earlier : List (Nat × Nat) := []
  pieces : List (Nat × Nat) := []

def Feeding.note (feeding : Feeding) (state : StreamState) : SessionCall → Feeding
  | .data _ byteOffset bytes =>
    let stop := byteOffset + bytes.length
    if stop ≤ state.nextOffset then feeding
    else if byteOffset ≤ state.nextOffset then
      { feeding with pieces := feeding.pieces ++ [(state.nextOffset, stop)] }
    else {
      start := byteOffset
      bracketedPaste := state.grid.bracketedPaste
      applicationCursorKeys := state.grid.applicationCursorKeys
      earlier := feeding.earlier ++ feeding.pieces
      pieces := [(byteOffset, stop)] }
  | .resync _ resumeAtOffset => {
      start := resumeAtOffset
      bracketedPaste := state.grid.bracketedPaste
      applicationCursorKeys := state.grid.applicationCursorKeys }

def step (streamID : NodeId) (run : TerminalSession × Feeding) (c : SessionCall) :
    Option (TerminalSession × Feeding) := do
  let before ← streamState run.1 streamID
  let result ← perform run.1 c
  some (result.1,
    match result.2 with
    | .ok _ => if c.streamID = streamID then run.2.note before c else run.2
    | .error _ => run.2)

def runCalls (streamID : NodeId) (calls : List SessionCall) :
    Option (TerminalSession × Feeding) :=
  calls.foldlM (step streamID) ({}, {})

def freshTerminal (bracketedPaste applicationCursorKeys : Bool) : Option Terminal := do
  let grid ← TerminalGrid.init 80 24
  some ({}, { grid with
    bracketedPaste := bracketedPaste
    applicationCursorKeys := applicationCursorKeys })

/-- A frame of the stream is what the remote end wrote at its offset. -/
def Honest (S : Bytes) (streamID : NodeId) : SessionCall → Prop
  | .data id byteOffset bytes =>
    id = streamID → bytes = slice S byteOffset (byteOffset + bytes.length)
  | .resync _ _ => True

/-- The stream's terminal is a fresh one that was fed the bytes from the start on, up to
the next offset, piece by piece; and no byte has been in two of the ranges. -/
structure Exact (S : Bytes) (feeding : Feeding) (state : StreamState) : Prop where
  terminal : ∃ base,
    freshTerminal feeding.bracketedPaste feeding.applicationCursorKeys = some base ∧
      feed base (slice S feeding.start state.nextOffset) = some (state.parser, state.grid)
  start_le : feeding.start ≤ state.nextOffset
  abutting : Abutting Prod.fst Prod.snd feeding.start feeding.pieces
  reach : reach Prod.snd feeding.start feeding.pieces = state.nextOffset
  once : (feeding.earlier ++ feeding.pieces).Pairwise fun a b => a.2 ≤ b.1
  within : ∀ r ∈ feeding.earlier ++ feeding.pieces, r.2 ≤ state.nextOffset

/-! ### Feeding -/

theorem feed_append (terminal : Terminal) (a b : Bytes) :
    feed terminal (a ++ b) = (feed terminal a).bind fun terminal => feed terminal b :=
  List.foldlM_append

theorem drop_slice (S : Bytes) {lo mid hi : Nat} (hlo : lo ≤ mid) :
    (slice S lo hi).drop (mid - lo) = slice S mid hi := by
  have hstart : lo + (mid - lo) = mid := by omega
  have hcount : hi - lo - (mid - lo) = hi - mid := by omega
  rw [slice, List.drop_take, List.drop_drop, hstart, hcount, slice]

variable {state : StreamState}

theorem feedState_eq {data : Bytes} {stop : Nat} {terminal : Terminal}
    (h : feed (state.parser, state.grid) data = some terminal) :
    feedState state data stop =
      some { state with parser := terminal.1, grid := terminal.2, nextOffset := stop } := by
  rw [feedState, h]
  rfl

abbrev SoundStream (state : StreamState) : Prop :=
  Sound (initDimensions 80 24) (state.parser, state.grid)

theorem freshTerminal_yields (bracketedPaste applicationCursorKeys : Bool) :
    Yields (freshTerminal bracketedPaste applicationCursorKeys)
      (Sound (initDimensions 80 24)) := by
  refine (init_wellFormed 80 24).bind ?_
  intro grid hgrid
  exact .pure ⟨⟨Nat.zero_le _, Nat.zero_le _⟩, { hgrid with }⟩

theorem resetKeepingModes_eq (h : SoundStream state) :
    ∃ base, freshTerminal state.grid.bracketedPaste state.grid.applicationCursorKeys =
        some base ∧
      resetKeepingModes state =
        some { state with parser := base.1, grid := base.2, needsRedraw := true } := by
  obtain ⟨grid, hgrid, -⟩ := init_wellFormed 80 24
  have hreset : reset state.grid = some grid := (reset_eq_init h.grid).trans hgrid
  let kept := { grid with
    bracketedPaste := state.grid.bracketedPaste
    applicationCursorKeys := state.grid.applicationCursorKeys }
  refine ⟨({}, kept), ?_, ?_⟩
  · rw [freshTerminal, hgrid]
    rfl
  · rw [resetKeepingModes, hreset]
    rfl

theorem exact_fresh (S : Bytes) {grid : TerminalGrid} (h : TerminalGrid.init 80 24 = some grid) :
    Exact S {} ⟨grid, {}, 0, false⟩ := by
  refine ⟨⟨({}, grid), ?_, ?_⟩, Nat.le_refl 0, trivial, rfl, .nil, ?_⟩
  · rw [freshTerminal, h]
    rw [TerminalGrid.init, Option.bind_eq_bind] at h
    obtain ⟨primary, -, hgrid⟩ := Option.bind_eq_some_iff.mp h
    rw [← Option.some.inj hgrid]
    rfl
  · rw [slice_self]
    rfl
  · intro r hr
    cases hr

/-- What a frame that ends at `stop` does to the state of its stream: nothing, or the bytes
that are new are fed, after a gap to a fresh terminal. -/
def Fed (S : Bytes) (state : StreamState) (byteOffset stop : Nat) (state' : StreamState) : Prop :=
  if stop ≤ state.nextOffset then state' = state
  else
    ∃ base, feed base (slice S (max byteOffset state.nextOffset) stop) =
        some (state'.parser, state'.grid) ∧
      if byteOffset ≤ state.nextOffset then base = (state.parser, state.grid)
      else
        freshTerminal state.grid.bracketedPaste state.grid.applicationCursorKeys = some base

variable {feeding : Feeding}

theorem continue_exact {S : Bytes} {stop : Nat} (hsound : SoundStream state)
    (hexact : Exact S feeding state) (hnew : state.nextOffset < stop) :
    Yields (feedState state (slice S state.nextOffset stop) stop) fun state' =>
      SoundStream state' ∧ state'.nextOffset = stop ∧
        Exact S { feeding with pieces := feeding.pieces ++ [(state.nextOffset, stop)] } state' ∧
        feed (state.parser, state.grid) (slice S state.nextOffset stop) =
          some (state'.parser, state'.grid) := by
  obtain ⟨terminal, hfeed, hterminal⟩ := feed_yields hsound (slice S state.nextOffset stop)
  rw [feedState_eq hfeed]
  refine .pure ⟨hterminal, rfl, ?_, hfeed⟩
  obtain ⟨base, hbase, hfed⟩ := hexact.terminal
  refine ⟨⟨base, hbase, ?_⟩, ?_, ?_, ?_, ?_, ?_⟩
  · show feed base (slice S feeding.start stop) = some terminal
    rw [← slice_append_slice S hexact.start_le (Nat.le_of_lt hnew), feed_append, hfed]
    exact hfeed
  · exact hexact.start_le.trans (Nat.le_of_lt hnew)
  · refine abutting_append.mpr ⟨hexact.abutting, ?_, trivial⟩
    exact hexact.reach.symm
  · exact reach_append _ _ _
  · show (feeding.earlier ++ (feeding.pieces ++ [(state.nextOffset, stop)])).Pairwise _
    rw [← List.append_assoc]
    refine List.pairwise_append.mpr ⟨hexact.once, List.pairwise_singleton _ _, ?_⟩
    intro r hr last hlast
    rw [List.mem_singleton.mp hlast]
    exact hexact.within r hr
  · intro r hr
    have hr' : r ∈ (feeding.earlier ++ feeding.pieces) ++ [(state.nextOffset, stop)] := by
      rw [List.append_assoc]
      exact hr
    rcases List.mem_append.mp hr' with hold | hlast
    · exact (hexact.within r hold).trans (Nat.le_of_lt hnew)
    · rw [List.mem_singleton.mp hlast]

theorem restart_exact {S : Bytes} {byteOffset stop : Nat} (hsound : SoundStream state)
    (hexact : Exact S feeding state) (hgap : state.nextOffset < byteOffset)
    (hstop : byteOffset ≤ stop) :
    Yields (do
        let state ← resetKeepingModes state
        feedState state (slice S byteOffset stop) stop) fun state' =>
      SoundStream state' ∧ state'.nextOffset = stop ∧
        Exact S {
          start := byteOffset
          bracketedPaste := state.grid.bracketedPaste
          applicationCursorKeys := state.grid.applicationCursorKeys
          earlier := feeding.earlier ++ feeding.pieces
          pieces := [(byteOffset, stop)] } state' ∧
        ∃ base, feed base (slice S byteOffset stop) = some (state'.parser, state'.grid) ∧
          freshTerminal state.grid.bracketedPaste state.grid.applicationCursorKeys =
            some base := by
  obtain ⟨base, hbase, hreset⟩ := resetKeepingModes_eq hsound
  obtain ⟨base', hbase', hsoundBase⟩ :=
    freshTerminal_yields state.grid.bracketedPaste state.grid.applicationCursorKeys
  obtain rfl : base' = base := Option.some.inj (hbase'.symm.trans hbase)
  obtain ⟨terminal, hfeed, hterminal⟩ := feed_yields hsoundBase (slice S byteOffset stop)
  rw [hreset, Option.bind_eq_bind, Option.bind_some, feedState_eq hfeed]
  refine .pure ⟨hterminal, rfl, ?_, base', hfeed, hbase⟩
  refine ⟨⟨base', hbase, hfeed⟩, hstop, ⟨rfl, trivial⟩, rfl, ?_, ?_⟩
  · refine List.pairwise_append.mpr ⟨hexact.once, List.pairwise_singleton _ _, ?_⟩
    intro r hr last hlast
    rw [List.mem_singleton.mp hlast]
    exact (hexact.within r hr).trans (Nat.le_of_lt hgap)
  · intro r hr
    rcases List.mem_append.mp hr with hold | hlast
    · exact (hexact.within r hold).trans ((Nat.le_of_lt hgap).trans hstop)
    · rw [List.mem_singleton.mp hlast]

/-! The three cases of a frame: nothing new, new bytes at the next offset, a gap. -/

variable {S : Bytes} {state : StreamState} {byteOffset stop : Nat} {bytes : Bytes}

theorem advance_old (hstart : byteOffset < stop) (hold : stop ≤ state.nextOffset) :
    advance state byteOffset stop bytes = some state := by
  have hbefore : byteOffset ≠ state.nextOffset := by omega
  rw [advance, if_neg hbefore, if_pos hold]

theorem advance_new (hbytes : bytes = slice S byteOffset stop)
    (hlength : byteOffset + bytes.length = stop) (hnew : state.nextOffset < stop)
    (hreached : byteOffset ≤ state.nextOffset) :
    advance state byteOffset stop bytes =
      feedState state (slice S state.nextOffset stop) stop := by
  rw [advance]
  rcases Classical.em (byteOffset = state.nextOffset) with hexactly | hbefore
  · rw [if_pos hexactly, ← hexactly, ← hbytes]
  · have hoverlap : byteOffset < state.nextOffset := by omega
    have hskip : state.nextOffset - byteOffset < bytes.length := by omega
    rw [if_neg hbefore, if_neg (Nat.not_le.mpr hnew), if_pos hoverlap]
    simp only [if_pos hskip]
    rw [← drop_slice S hreached, ← hbytes]

theorem advance_gap (hbytes : bytes = slice S byteOffset stop)
    (hnew : state.nextOffset < stop) (hgap : state.nextOffset < byteOffset) :
    advance state byteOffset stop bytes = (do
      let state ← resetKeepingModes state
      feedState state (slice S byteOffset stop) stop) := by
  have hahead : byteOffset ≠ state.nextOffset := by omega
  rw [advance, if_neg hahead, if_neg (Nat.not_le.mpr hnew),
    if_neg (Nat.not_lt.mpr (Nat.le_of_lt hgap)), ← hbytes]

theorem advance_exact (streamID : NodeId) (hsound : SoundStream state)
    (hexact : Exact S feeding state) (hne : bytes ≠ [])
    (hbytes : bytes = slice S byteOffset (byteOffset + bytes.length)) :
    Yields (advance state byteOffset (byteOffset + bytes.length) bytes) fun state' =>
      SoundStream state' ∧ state.nextOffset ≤ state'.nextOffset ∧
        Exact S (feeding.note state (.data streamID byteOffset bytes)) state' ∧
        Fed S state byteOffset (byteOffset + bytes.length) state' := by
  have hlength : 0 < bytes.length := List.length_pos_iff.mpr hne
  unfold Feeding.note Fed
  simp only
  rcases Nat.lt_or_ge state.nextOffset (byteOffset + bytes.length) with hnew | hold
  swap
  · rw [advance_old (by omega) hold]
    simp only [if_pos hold]
    exact .pure ⟨hsound, Nat.le_refl _, hexact, rfl⟩
  simp only [if_neg (Nat.not_le.mpr hnew)]
  rcases Nat.lt_or_ge state.nextOffset byteOffset with hgap | hreached
  · rw [advance_gap hbytes hnew hgap, max_eq_left (Nat.le_of_lt hgap)]
    simp only [if_neg (Nat.not_le.mpr hgap)]
    refine (restart_exact hsound hexact hgap (Nat.le_add_right _ _)).mono ?_
    rintro state' ⟨hsound', hnext, hexact', hfed⟩
    exact ⟨hsound', hnext ▸ Nat.le_of_lt hnew, hexact', hfed⟩
  · rw [advance_new hbytes rfl hnew hreached, max_eq_right hreached]
    simp only [if_pos hreached]
    refine (continue_exact hsound hexact hnew).mono ?_
    rintro state' ⟨hsound', hnext, hexact', hfed⟩
    exact ⟨hsound', hnext ▸ Nat.le_of_lt hnew, hexact', _, hfed, rfl⟩

/-! ### Calls -/

def change (state : StreamState) : SessionCall → Option StreamState
  | .data _ byteOffset bytes => advance state byteOffset (byteOffset + bytes.length) bytes
  | .resync _ resumeAtOffset => do
    let state ← resetKeepingModes state
    some { state with nextOffset := resumeAtOffset, needsRedraw := true }

/-- A frame without a byte throws. -/
def Filled : SessionCall → Prop
  | .data _ _ bytes => bytes ≠ []
  | .resync _ _ => True

theorem perform_cases (session : TerminalSession) (c : SessionCall) :
    (∃ e, perform session c = some (session, .error e)) ∨
      Filled c ∧ perform session c = (do
        let state ← streamState session c.streamID
        let state ← change state c
        some ({ session with streams := session.streams.insert c.streamID state },
          .ok (snapshot c.streamID state))) := by
  rcases c with ⟨streamID, byteOffset, bytes⟩ | ⟨streamID, resumeAtOffset⟩
  · rw [perform, applyData]
    split
    · exact Or.inl ⟨_, rfl⟩
    rename_i hne
    split
    · exact Or.inl ⟨_, rfl⟩
    split
    · exact Or.inl ⟨_, rfl⟩
    split
    · exact Or.inl ⟨_, rfl⟩
    rename_i stop hstop
    rw [addOffsets] at hstop
    split at hstop
    · rename_i result hresult
      obtain ⟨-, rfl⟩ := checkedAdd_eq_some.mp hresult
      cases hstop
      exact Or.inr ⟨hne, rfl⟩
    · cases hstop
  · rw [perform, applyResync]
    split
    · exact Or.inl ⟨_, rfl⟩
    · refine Or.inr ⟨trivial, ?_⟩
      show Option.bind _ _ = Option.bind _ _
      congr 1
      funext state
      show Option.bind _ _ = Option.bind (Option.bind _ _) _
      rw [Option.bind_assoc]
      rfl

theorem feedState_yields (h : SoundStream state) (data : Bytes) (stop : Nat) :
    Yields (feedState state data stop) SoundStream := by
  refine (feed_yields h data).bind ?_
  intro fed hfed
  exact .pure hfed

theorem resetKeepingModes_yields (h : SoundStream state) :
    Yields (resetKeepingModes state) SoundStream := by
  refine h.grid.reset.bind ?_
  intro grid hgrid
  exact .pure ⟨⟨Nat.zero_le _, Nat.zero_le _⟩, { hgrid with }⟩

theorem change_yields (h : SoundStream state) (c : SessionCall) :
    Yields (change state c) SoundStream := by
  rcases c with ⟨_, byteOffset, bytes⟩ | ⟨_, resumeAtOffset⟩
  · refine .ite (fun _ => feedState_yields h _ _) fun _ => ?_
    refine .ite (fun _ => .pure h) fun _ => ?_
    refine .ite (fun _ => ?_) fun _ => ?_
    · exact .ite (fun _ => feedState_yields h _ _) fun _ => .pure h
    · refine (resetKeepingModes_yields h).bind ?_
      intro state' hsound
      exact feedState_yields hsound _ _
  · refine (resetKeepingModes_yields h).bind ?_
    intro state' hsound
    exact .pure hsound

theorem resync_exact (S : Bytes) (feeding : Feeding) (streamID : NodeId)
    (hsound : SoundStream state)
    (resumeAtOffset : Nat) :
    Yields (change state (.resync streamID resumeAtOffset)) fun state' =>
      Exact S (feeding.note state (.resync streamID resumeAtOffset)) state' := by
  obtain ⟨base, hbase, hreset⟩ := resetKeepingModes_eq hsound
  rw [change, hreset, Option.bind_eq_bind, Option.bind_some]
  refine .pure ⟨⟨base, hbase, ?_⟩, Nat.le_refl _, trivial, rfl, .nil, ?_⟩
  · show feed base (slice S resumeAtOffset resumeAtOffset) = some base
    rw [slice_self]
    rfl
  · intro r hr
    cases hr

variable {c : SessionCall}

theorem change_exact (hsound : SoundStream state)
    (hexact : Exact S feeding state) (hfilled : Filled c) (hhonest : Honest S c.streamID c) :
    Yields (change state c) fun state' =>
      Exact S (feeding.note state c) state' ∧
        ∀ streamID byteOffset bytes, c = .data streamID byteOffset bytes →
          state.nextOffset ≤ state'.nextOffset ∧
            Fed S state byteOffset (byteOffset + bytes.length) state' := by
  rcases c with ⟨streamID, byteOffset, bytes⟩ | ⟨streamID, resumeAtOffset⟩
  · refine (advance_exact streamID hsound hexact hfilled (hhonest rfl)).mono ?_
    rintro state' ⟨-, hnext, hexact', hfed⟩
    refine ⟨hexact', ?_⟩
    rintro _ _ _ ⟨⟩
    exact ⟨hnext, hfed⟩
  · refine (resync_exact S feeding streamID hsound resumeAtOffset).mono ?_
    intro state' hexact'
    refine ⟨hexact', ?_⟩
    rintro _ _ _ ⟨⟩

/-! ### Runs -/

structure Tracks (S : Bytes) (streamID : NodeId) (run : TerminalSession × Feeding) : Prop where
  sound : ∀ (id : NodeId) state, run.1.streams[id]? = some state → SoundStream state
  exact : ∃ state, streamState run.1 streamID = some state ∧ Exact S run.2 state

theorem streamState_yields {session : TerminalSession}
    (h : ∀ (id : NodeId) state, session.streams[id]? = some state → SoundStream state)
    (id : NodeId) :
    Yields (streamState session id) SoundStream := by
  rw [streamState]
  split
  · rename_i state hstate
    exact .pure (h id state hstate)
  · refine (init_wellFormed 80 24).bind ?_
    intro grid hgrid
    exact .pure ⟨⟨Nat.zero_le _, Nat.zero_le _⟩, hgrid⟩

theorem streamState_insert (session : TerminalSession) (id other : NodeId)
    (state : StreamState) :
    streamState { session with streams := session.streams.insert id state } other =
      if id = other then some state else streamState session other := by
  rw [streamState, getElem?_put]
  rcases Classical.em (id = other) with hsame | hother
  · rw [if_pos hsame, if_pos hsame]
  · rw [if_neg hother, if_neg hother, streamState]

structure Performed (S : Bytes) (streamID : NodeId) (run : TerminalSession × Feeding)
    (c : SessionCall)
    (result : TerminalSession × Except TerminalApplyError TerminalSnapshot) : Prop where
  throws : ∀ e, result.2 = .error e → result.1 = run.1
  tracks : ∀ before, streamState run.1 streamID = some before →
    Tracks S streamID (result.1,
      match result.2 with
      | .ok _ => if c.streamID = streamID then run.2.note before c else run.2
      | .error _ => run.2)
  frame : ∀ byteOffset bytes, c = .data streamID byteOffset bytes → ∀ taken,
    result.2 = .ok taken → ∀ before, streamState run.1 streamID = some before →
    ∃ after, streamState result.1 streamID = some after ∧
      before.nextOffset ≤ after.nextOffset ∧
      Fed S before byteOffset (byteOffset + bytes.length) after

theorem perform_exact {streamID : NodeId} {run : TerminalSession × Feeding}
    (h : Tracks S streamID run) (hhonest : Honest S streamID c) :
    Yields (perform run.1 c) (Performed S streamID run c) := by
  obtain ⟨state, hstate, hexact⟩ := h.exact
  rcases perform_cases run.1 c with ⟨e, hthrows⟩ | ⟨hfilled, hperforms⟩
  · rw [hthrows]
    refine .pure ⟨fun _ _ => rfl, fun _ _ => h, ?_⟩
    rintro _ _ - _ ⟨⟩
  rw [hperforms]
  obtain ⟨before, hbefore, hsound⟩ := streamState_yields h.sound c.streamID
  obtain ⟨after, hafter, hsoundAfter⟩ := change_yields hsound c
  rw [hbefore, Option.bind_eq_bind, Option.bind_some, hafter, Option.bind_some]
  have hsounds : ∀ (id : NodeId) state,
      (run.1.streams.insert c.streamID after)[id]? = some state → SoundStream state := by
    intro id state hid
    rw [getElem?_put] at hid
    split at hid
    · cases hid
      exact hsoundAfter
    · exact h.sound id state hid
  rcases Classical.em (c.streamID = streamID) with rfl | hother
  · -- The call is on the stream itself.
    obtain rfl : before = state := Option.some.inj (hbefore.symm.trans hstate)
    obtain ⟨after', hafter', hexact', hframe⟩ := change_exact hsound hexact hfilled hhonest
    obtain rfl : after' = after := Option.some.inj (hafter'.symm.trans hafter)
    have hpresent := streamState_insert run.1 c.streamID c.streamID after'
    rw [if_pos rfl] at hpresent
    refine .pure ⟨?_, ?_, ?_⟩
    · rintro _ ⟨⟩
    · intro before' hbefore'
      obtain rfl : before' = before := Option.some.inj (hbefore'.symm.trans hbefore)
      refine ⟨hsounds, after', hpresent, ?_⟩
      simp only [if_true]
      exact hexact'
    · intro byteOffset bytes hc _ _ before' hbefore'
      obtain rfl : before' = before := Option.some.inj (hbefore'.symm.trans hbefore)
      exact ⟨after', hpresent, hframe _ byteOffset bytes hc⟩
  · have hkept := streamState_insert run.1 c.streamID streamID after
    rw [if_neg hother] at hkept
    refine .pure ⟨?_, ?_, ?_⟩
    · rintro _ ⟨⟩
    · intro _ _
      refine ⟨hsounds, state, hkept.trans hstate, ?_⟩
      simp only [if_neg hother]
      exact hexact
    · intro byteOffset bytes hc
      exact absurd (congrArg SessionCall.streamID hc) hother

theorem step_tracks {streamID : NodeId} {run : TerminalSession × Feeding}
    (h : Tracks S streamID run) (hhonest : Honest S streamID c) :
    Yields (step streamID run c) (Tracks S streamID) := by
  obtain ⟨before, hbefore, -⟩ := streamState_yields h.sound streamID
  rw [step, hbefore, Option.bind_eq_bind, Option.bind_some]
  refine (perform_exact h hhonest).bind ?_
  intro result hresult
  exact .pure (hresult.tracks before hbefore)

theorem runCalls_tracks (S : Bytes) (streamID : NodeId) {calls : List SessionCall}
    (hcalls : ∀ c ∈ calls, Honest S streamID c) :
    Yields (runCalls streamID calls) (Tracks S streamID) := by
  refine Yields.foldlM (fun _ c hc htracks => step_tracks htracks (hcalls c hc)) ⟨?_, ?_⟩
  · intro id state h
    rw [ExtTreeMap.getElem?_empty] at h
    cases h
  · obtain ⟨grid, hgrid, -⟩ := init_wellFormed 80 24
    refine ⟨⟨grid, {}, 0, false⟩, ?_, exact_fresh S hgrid⟩
    rw [streamState, ExtTreeMap.getElem?_empty]
    simp only
    rw [hgrid]
    rfl

/-- The run ends in an account that is exact; from there a call that throws changes
nothing, and a frame that does not throw feeds the bytes that are new and never moves the
next offset back. -/
def AppliedOnce (S : Bytes) (streamID : NodeId) (calls : List SessionCall) : Prop :=
  ∃ session feeding state, runCalls streamID calls = some (session, feeding) ∧
    streamState session streamID = some state ∧ Exact S feeding state ∧
    ∀ c, Honest S streamID c → ∃ session' result,
      perform session c = some (session', result) ∧
      (∀ e, result = .error e → session' = session) ∧
      ∀ byteOffset bytes, c = .data streamID byteOffset bytes →
        ∀ taken, result = .ok taken → ∃ state', streamState session' streamID = some state' ∧
          state.nextOffset ≤ state'.nextOffset ∧
          Fed S state byteOffset (byteOffset + bytes.length) state'

/-- After every run the terminal shows the bytes from the last reset up to the next offset,
fed once and in order. -/
theorem frames_applied_once (S : Bytes) (streamID : NodeId) {calls : List SessionCall}
    (hcalls : ∀ c ∈ calls, Honest S streamID c) : AppliedOnce S streamID calls := by
  obtain ⟨⟨session, feeding⟩, hrun, htracks⟩ := runCalls_tracks S streamID hcalls
  obtain ⟨state, hstate, hexact⟩ := htracks.exact
  refine ⟨session, feeding, state, hrun, hstate, hexact, ?_⟩
  intro c hhonest
  obtain ⟨⟨session', result⟩, hperform, hperformed⟩ := perform_exact htracks hhonest
  refine ⟨session', result, hperform, hperformed.throws, ?_⟩
  intro byteOffset bytes hc taken htaken
  exact hperformed.frame byteOffset bytes hc taken htaken state hstate

def overlappingCalls : List SessionCall :=
  [.data 1 0 [0x61, 0x62], .data 1 1 [0x62, 0x63], .data 2 7 [0x21], .resync 1 3,
    .data 1 3 [0x64]]

theorem overlappingCalls_applied_once :
    (∀ c ∈ overlappingCalls, Honest [0x61, 0x62, 0x63, 0x64] 1 c) ∧
      AppliedOnce [0x61, 0x62, 0x63, 0x64] 1 overlappingCalls := by
  have hcalls : ∀ c ∈ overlappingCalls, Honest [0x61, 0x62, 0x63, 0x64] 1 c := by
    simp [overlappingCalls, Honest, slice]
  exact ⟨hcalls, frames_applied_once [0x61, 0x62, 0x63, 0x64] 1 hcalls⟩

/-! ### Across resyncs -/

/-- The range of the stream that a call feeds. -/
def fedBy (state : StreamState) : SessionCall → List (Nat × Nat)
  | .data _ byteOffset bytes =>
    let stop := byteOffset + bytes.length
    if stop ≤ state.nextOffset then [] else [(max byteOffset state.nextOffset, stop)]
  | .resync _ _ => []

def stepEver (streamID : NodeId) (run : TerminalSession × List (Nat × Nat)) (c : SessionCall) :
    Option (TerminalSession × List (Nat × Nat)) := do
  let before ← streamState run.1 streamID
  let result ← perform run.1 c
  some (result.1,
    match result.2 with
    | .ok _ => if c.streamID = streamID then run.2 ++ fedBy before c else run.2
    | .error _ => run.2)

/-- All ranges of the stream that the calls feed, whatever resyncs come between. -/
def everFed (streamID : NodeId) (calls : List SessionCall) : Option (List (Nat × Nat)) :=
  (calls.foldlM (stepEver streamID) ({}, [])).map Prod.snd

/-- After a resync to the start of the stream its first byte is fed again. -/
theorem resumed_fedAgain : ¬ ∀ (S : Bytes) (streamID : NodeId) (calls : List SessionCall),
    (∀ c ∈ calls, Honest S streamID c) → ∀ ranges, everFed streamID calls = some ranges →
      ranges.Pairwise fun a b => a.2 ≤ b.1 ∨ b.2 ≤ a.1 := by
  intro hall
  have hcalls : ∀ c ∈ [SessionCall.data 1 0 [0x61], .resync 1 0, .data 1 0 [0x61]],
      Honest [0x61] 1 c := by
    simp [Honest, slice]
  have hfed : everFed 1 [.data 1 0 [0x61], .resync 1 0, .data 1 0 [0x61]] =
      some [(0, 1), (0, 1)] := by
    decide +kernel
  exact absurd (hall [0x61] 1 _ hcalls _ hfed) (by decide)

end Srui.Client.TerminalSessions
